import LocaleKeys.Text.Point

/-!
Looking for a text inside another one.
-/

namespace LocaleKeys.Text

def contains (needle : List Point) : List Point → Bool
  | [] => needle.isEmpty
  | c :: rest => needle.isPrefixOf (c :: rest) || contains needle rest

def isSmallLetter (c : Point) : Bool :=
  'a' ≤ c && c ≤ 'z'

def startsSmall : List Point → Bool
  | [] => false
  | c :: _ => isSmallLetter c

/-- Whether `needle` stands at the start of a text and no small letter follows it. -/
def standsAt (needle s : List Point) : Bool :=
  needle.isPrefixOf s && !startsSmall (s.drop needle.length)

/-- Whether a needle that is not empty stands somewhere in a text with no small letter on either
side; `joined` says whether a small letter stands before the text. -/
def containsAlone (needle : List Point) (joined : Bool) : List Point → Bool
  | [] => false
  | c :: rest =>
    (!joined && standsAt needle (c :: rest)) || containsAlone needle (isSmallLetter c) rest

end LocaleKeys.Text
