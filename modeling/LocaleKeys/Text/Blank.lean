import LocaleKeys.Text.CharClass

/-!
Blank characters, and the trimming of texts at either end. The set is the Unicode one: spaces of all
kinds, line and paragraph ends, and the four separators that precede the space.
-/

namespace LocaleKeys.Text

def blank : CharClass where
  flips := [
    0x9, 0xe, 0x1c, 0x21, 0x85, 0x86, 0xa0, 0xa1, 0x1680, 0x1681, 0x2000, 0x200b, 0x2028, 0x202a,
    0x202f, 0x2030, 0x205f, 0x2060, 0x3000, 0x3001]

def isBlank (c : Point) : Bool :=
  blank.holds c

def trimLeft (s : List Point) : List Point :=
  s.dropWhile isBlank

def trimRight (s : List Point) : List Point :=
  (s.reverse.dropWhile isBlank).reverse

def trim (s : List Point) : List Point :=
  trimRight (trimLeft s)

def trimmed (s : Text) : Text :=
  Text.ofList (trim s.toList)

end LocaleKeys.Text
