import LocaleKeys.Json.Value
import LocaleKeys.Number.Reading
import LocaleKeys.Text.Quoted

/-!
Writing JSON text. Characters stand for themselves except quotes, backslashes and controls. Each
writer puts its text before the text that follows.
-/

namespace LocaleKeys.Json

/-- How containers are laid out: on one line, or each element on a line of its own, indented by
`step` blanks a level. -/
inductive Layout
  | inline
  | lines (step : Nat)
  deriving DecidableEq, Repr

def Layout.lineStart (layout : Layout) (level : Nat) (rest : List Point) : List Point :=
  match layout with
  | .inline => rest
  | .lines step => '\n' :: (List.replicate (step * level) (.char ' ') ++ rest)

def Layout.separator (layout : Layout) (level : Nat) (rest : List Point) : List Point :=
  match layout with
  | .inline => ',' :: ' ' :: rest
  | .lines _ => ',' :: layout.lineStart level rest

def writeChar (c : Point) : List Point :=
  if c = '"' ∨ c = '\\' then ['\\', c]
  else if c = '\n' then ['\\', 'n']
  else if c = '\r' then ['\\', 'r']
  else if c = '\t' then ['\\', 't']
  else if c = '\x0c' then ['\\', 'f']
  else if c = '\x08' then ['\\', 'b']
  else if c.toNat < 0x20 then '\\' :: 'u' :: Text.hexDigits 4 c.toNat
  else [c]

/-- The characters of a string up to and with its closing quote. -/
def writeBody : List Point → List Point → List Point
  | [], rest => '"' :: rest
  | c :: cs, rest => writeChar c ++ writeBody cs rest

def writeString (s : Text) (rest : List Point) : List Point :=
  '"' :: writeBody s.toList rest

def floatText (x : Double) : List Point :=
  x.textWith (Text.ofString "NaN").toList (Text.ofString "Infinity").toList

def writeScalar : Scalar → List Point → List Point
  | .null, rest => 'n' :: 'u' :: 'l' :: 'l' :: rest
  | .bool true, rest => 't' :: 'r' :: 'u' :: 'e' :: rest
  | .bool false, rest => 'f' :: 'a' :: 'l' :: 's' :: 'e' :: rest
  | .int n, rest => Number.intText n ++ rest
  | .float x, rest => floatText x ++ rest
  | .str s, rest => writeString s rest

mutual

def write (layout : Layout) (level : Nat) : Json → List Point → List Point
  | .scalar s, rest => writeScalar s rest
  | .arr [], rest => '[' :: ']' :: rest
  | .arr (v :: vs), rest =>
    '[' :: layout.lineStart (level + 1) (write layout (level + 1) v
      (writeElements layout level vs rest))
  | .obj [], rest => '{' :: '}' :: rest
  | .obj ((name, v) :: ms), rest =>
    '{' :: layout.lineStart (level + 1) (writeString name (':' :: ' ' ::
      write layout (level + 1) v (writeMembers layout level ms rest)))

/-- The further elements of an array at a level, and its end. -/
def writeElements (layout : Layout) (level : Nat) : List Json → List Point → List Point
  | [], rest => layout.lineStart level (']' :: rest)
  | v :: vs, rest =>
    layout.separator (level + 1) (write layout (level + 1) v (writeElements layout level vs rest))

/-- The further members of an object at a level, and its end. -/
def writeMembers (layout : Layout) (level : Nat) :
    List (Text × Json) → List Point → List Point
  | [], rest => layout.lineStart level ('}' :: rest)
  | (name, v) :: ms, rest =>
    layout.separator (level + 1) (writeString name (':' :: ' ' ::
      write layout (level + 1) v (writeMembers layout level ms rest)))

end

def render (layout : Layout) (value : Json) : List Point :=
  write layout 0 value []

end LocaleKeys.Json
