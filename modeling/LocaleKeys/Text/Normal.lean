import LocaleKeys.Text.Combining
import LocaleKeys.Text.Composite
import LocaleKeys.Text.Variant

/-!
Normal forms of names. Names are compared in the form in which variants of characters are replaced,
marks stand in one order, and characters that can be put together are one.
-/

namespace LocaleKeys.Text

namespace Hangul

/-- The first syllable. Syllables stand in the order of their first, middle and last letters. -/
def firstSyllable : Nat := 0xac00

def syllableCount : Nat := 11172

/-- The first of the nineteen letters that start a syllable. -/
def firstLead : Nat := 0x1100

/-- The first of the twenty-one letters in the middle of a syllable. -/
def firstVowel : Nat := 0x1161

/-- What stands before the first of the twenty-seven letters that end a syllable. -/
def beforeTails : Nat := 0x11a7

def letters? (c : Char) : Option (List Char) :=
  let n := c.toNat - firstSyllable
  if c.toNat < firstSyllable || syllableCount ≤ n then none
  else
    let tail := if n % 28 = 0 then [] else [Char.ofNat (beforeTails + n % 28)]
    some (Char.ofNat (firstLead + n / 588) :: Char.ofNat (firstVowel + n % 588 / 28) :: tail)

/-- The syllable that a letter or a syllable makes with the letter behind it. -/
def join? (a b : Char) : Option Char :=
  let lead := a.toNat - firstLead
  let vowel := b.toNat - firstVowel
  let syllable := a.toNat - firstSyllable
  let tail := b.toNat - beforeTails
  if firstLead ≤ a.toNat && lead < 19 && firstVowel ≤ b.toNat && vowel < 21 then
    some (Char.ofNat (firstSyllable + (lead * 21 + vowel) * 28))
  else if firstSyllable ≤ a.toNat && syllable < syllableCount && syllable % 28 = 0 &&
      beforeTails < b.toNat && tail < 28 then
    some (Char.ofNat (a.toNat + tail))
  else none

end Hangul

/-- What a character is made of, down to its last parts. -/
def parts (c : Char) : List Char :=
  if c.toNat < 0x80 then [c]
  else
    ((Hangul.letters? c).or ((formIn? compositeRuns c).or (formIn? variantRuns c))).getD [c]

/-- Puts a character before marks that are in order: a mark goes behind those of lower classes. -/
def placeMark (c : Char) : List Char → List Char
  | [] => [c]
  | d :: rest =>
    if 0 < markClass d && markClass d < markClass c then d :: placeMark c rest else c :: d :: rest

def orderMarks : List Char → List Char
  | [] => []
  | c :: rest => placeMark c (orderMarks rest)

def composites : List (Char × List Char) :=
  compositeRuns.flatMap FormRun.forms

/-- The character that a character makes with a mark or a letter behind it. -/
def join? (a b : Char) : Option Char :=
  let both := parts a ++ [b]
  (Hangul.join? a b).or ((composites.find? fun entry => entry.2 = both).map (·.1))

/-- Puts together what can be. `base` is the character that the next ones may join, `kept` are the
marks behind it that have not joined it, last first, and `last` is the class of the last of them. -/
def joinFrom (base : Char) (kept : List Char) (last : Nat) : List Char → List Char
  | [] => base :: kept.reverse
  | c :: rest =>
    let joined := if kept.isEmpty || last < markClass c then join? base c else none
    match joined with
    | some both => joinFrom both kept last rest
    | none =>
      if markClass c = 0 then base :: kept.reverse ++ joinFrom c [] 0 rest
      else joinFrom base (c :: kept) (markClass c) rest

/-- Puts together what can be, from the first character on that is no mark. -/
def joinParts : List Char → List Char
  | [] => []
  | c :: rest => if markClass c = 0 then joinFrom c [] 0 rest else c :: joinParts rest

def normal (s : List Char) : List Char :=
  if s.all fun c => c.toNat < 0x80 then s
  else joinParts (orderMarks (s.flatMap parts))

end LocaleKeys.Text
