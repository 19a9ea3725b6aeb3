import LocaleKeys.Text.Lines

/-!
The types of scalars. A plain scalar is of the first type that its text is a form of: truth values,
numbers in several bases, dates, nothing; all other texts are texts.
-/

namespace LocaleKeys.Yaml

/-- The type of a node. -/
inductive Tag
  | text
  | null
  | bool
  | int
  | float
  | timestamp
  | binary
  | merge
  | value
  | list
  | map
  | set
  | orderedMap
  | pairs
  | other (name : Text)
  deriving DecidableEq, Repr

namespace Tag

def knownStart : Text := "tag:yaml.org,2002:"

def known : List (Text × Tag) := [
  ("str", .text), ("null", .null), ("bool", .bool), ("int", .int), ("float", .float),
  ("timestamp", .timestamp), ("binary", .binary), ("merge", .merge), ("value", .value),
  ("seq", .list), ("map", .map), ("set", .set), ("omap", .orderedMap), ("pairs", .pairs)]

def ofName (name : Text) : Tag :=
  ((known.find? fun entry => knownStart ++ entry.1 = name).map (·.2)).getD (.other name)

def isCollection : Tag → Bool
  | .list | .map | .set | .orderedMap | .pairs => true
  | _ => false

def isScalar : Tag → Bool
  | .text | .null | .bool | .int | .float | .timestamp | .binary => true
  | _ => false

/-- The words for truth values in small letters, with what they stand for. -/
def boolWords : List (String × Bool) := [
  ("yes", true), ("no", false), ("true", true), ("false", false), ("on", true), ("off", false)]

/-- The spellings of a word that count: in small letters, with a capital, in capitals. -/
def spellings (word : String) : List Text :=
  [word, word.capitalize, word.toUpper]

def isBool (s : Text) : Bool :=
  boolWords.any fun w => (spellings w.1).contains s

def isNull (s : Text) : Bool :=
  s = "" || s = "~" || (spellings "null").contains s

def isDigitOrBar (c : Point) : Bool :=
  c.isDigit || c = '_'

def unsigned : List Point → List Point
  | .char '-' :: rest => rest
  | .char '+' :: rest => rest
  | s => s

/-- Whether a text is one or two digits that make less than sixty. -/
def isSixtieth (s : List Point) : Bool :=
  match s with
  | [a] => a.isDigit
  | [a, b] => '0' ≤ a && a ≤ '5' && b.isDigit
  | _ => false

/-- Whether a text starts with a digit and goes on with digits and underscores. -/
def isDigits (first : Point → Bool) : List Point → Bool
  | [] => false
  | c :: rest => first c && rest.all isDigitOrBar

/-- Whether a text is digits with further groups, each counting sixtieths of the one before. -/
def isGrouped (first : Point → Bool) (s : List Point) : Bool :=
  match s.splitOn (.char ':') with
  | head :: part :: parts => isDigits first head && (part :: parts).all isSixtieth
  | _ => false

/-- Whether a text that is not empty has only characters that pass a test. -/
def isRun (test : Point → Bool) (s : List Point) : Bool :=
  !s.isEmpty && s.all test

def isHexDigit (c : Point) : Bool :=
  c.isDigit || ('a' ≤ c && c ≤ 'f') || ('A' ≤ c && c ≤ 'F')

/-- Whether a text is an integer: in base two, eight, ten or sixteen, or in groups. -/
def isInt (s : List Point) : Bool :=
  let isNonZero (c : Point) : Bool := c.isDigit && c ≠ '0'
  match unsigned s with
  | [.char '0'] => true
  | .char '0' :: .char 'b' :: rest => isRun (fun c => c = '0' || c = '1' || c = '_') rest
  | .char '0' :: .char 'x' :: rest => isRun (fun c => isHexDigit c || c = '_') rest
  | .char '0' :: rest => isRun (fun c => ('0' ≤ c && c ≤ '7') || c = '_') rest
  | s => isDigits isNonZero s || isGrouped isNonZero s

/-- Whether a text is nothing or an exponent with its sign. -/
def isExponentEnd : List Point → Bool
  | [] => true
  | e :: sign :: digits =>
    (e = 'e' || e = 'E') && (sign = '-' || sign = '+') && isRun Point.isDigit digits
  | _ => false

/-- Whether a text is a number with a point: with digits before it or only behind it, in groups, or
one of those that are not finite. -/
def isFloat (s : List Point) : Bool :=
  let body := unsigned s
  let whole := body.takeWhile (· ≠ Point.char '.')
  match body.dropWhile (· ≠ Point.char '.') with
  | .char '.' :: rest =>
    let fraction := rest.takeWhile isDigitOrBar
    let behind := rest.dropWhile isDigitOrBar
    (isDigits Point.isDigit whole && isExponentEnd behind) ||
    (whole.isEmpty && body = s && isDigits Point.isDigit fraction && isExponentEnd behind) ||
    (isGrouped Point.isDigit whole && behind.isEmpty) ||
    (whole.isEmpty && [Text.ofString "inf", "Inf", "INF"].contains (Text.ofList rest)) ||
    (whole.isEmpty && body = s && [Text.ofString "nan", "NaN", "NAN"].contains (Text.ofList rest))
  | _ => false

end Tag

/-- The figures of a date, with a time of day and an offset if they are given. The offset is in
minutes; a mark for universal time counts as no minutes. -/
structure Stamp where
  year : Nat
  month : Nat
  day : Nat
  hasTime : Bool := false
  hour : Nat := 0
  minute : Nat := 0
  second : Nat := 0
  fraction : List Point := []
  offset : Option Int := none
  deriving DecidableEq, Repr

namespace Stamp

def number? (least most : Nat) (s : List Point) : Option (Nat × List Point) :=
  let digits := (s.take most).takeWhile Point.isDigit
  if digits.length < least then none
  else some (digits.foldl (fun n c => 10 * n + (c.toNat - 0x30)) 0, s.drop digits.length)

def numberAfter? (c : Point) (least most : Nat) : List Point → Option (Nat × List Point)
  | [] => none
  | d :: rest => if d = c then number? least most rest else none

def isBlank (c : Point) : Bool :=
  c = ' ' || c = '\t'

/-- Reads an offset up to the end; nothing at all is no offset. -/
def offset? (s : List Point) : Option (Option Int) :=
  let hours (sign : Int) (rest : List Point) : Option (Option Int) :=
    match number? 1 2 rest with
    | none => none
    | some (hours, []) => some (some (sign * (hours * 60 : Nat)))
    | some (hours, rest) =>
      match numberAfter? ':' 2 2 rest with
      | some (minutes, []) => some (some (sign * (hours * 60 + minutes : Nat)))
      | _ => none
  match s, s.dropWhile isBlank with
  | [], _ => some none
  | _, [.char 'Z'] => some (some 0)
  | _, .char '+' :: rest => hours 1 rest
  | _, .char '-' :: rest => hours (-1) rest
  | _, _ => none

/-- Reads what separates a date from a time: a letter, or blanks. -/
def separator? : List Point → Option (List Point)
  | [] => none
  | c :: rest =>
    if c = 'T' || c = 't' then some rest
    else if isBlank c then some (rest.dropWhile isBlank)
    else none

/-- Reads the time of day and the offset behind a date. -/
def withTime? (date : Stamp) (s : List Point) : Option Stamp := do
  let s ← separator? s
  let (hour, s) ← number? 1 2 s
  let (minute, s) ← numberAfter? ':' 2 2 s
  let (second, s) ← numberAfter? ':' 2 2 s
  let (fraction, s) := match s with
    | .char '.' :: rest => (rest.takeWhile Point.isDigit, rest.dropWhile Point.isDigit)
    | s => ([], s)
  let offset ← offset? s
  pure { date with hasTime := true, hour, minute, second, fraction, offset }

/-- Reads a date with or without a time; without one, the month and the day take two digits if
`strict`. -/
def read? (strict : Bool) (s : List Point) : Option Stamp := do
  let (year, rest) ← number? 4 4 s
  let (month, rest) ← numberAfter? '-' 1 2 rest
  let (day, rest) ← numberAfter? '-' 1 2 rest
  let date : Stamp := { year, month, day }
  if rest.isEmpty then
    if strict && s.length ≠ 10 then none else some date
  else withTime? date rest

end Stamp

/-- The signs that start properties and aliases. On their own they are of a type without values. -/
def Tag.propertySigns : List Text :=
  ["!", "&", "*"]

def Tag.ofLine (s : Text) : Tag :=
  if isBool s then .bool
  else if isFloat s.toList then .float
  else if isInt s.toList then .int
  else if s = "<<" then .merge
  else if isNull s then .null
  else if (Stamp.read? true s.toList).isSome then .timestamp
  else if s = "=" then .value
  else if propertySigns.contains s then .other (knownStart ++ "yaml")
  else .text

/-- The type of a plain scalar. A line end behind the text does not count, unless it is all of it. -/
def Tag.ofPlain (s : Text) : Tag :=
  if s = "\n" then .text else Tag.ofLine (Text.ofList (Text.dropFinalBreak s.toList))

end LocaleKeys.Yaml
