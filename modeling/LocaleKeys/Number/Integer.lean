import LocaleKeys.Number.Reading
import LocaleKeys.Text.Blank
import LocaleKeys.Text.Digit
import LocaleKeys.Text.Quoted

/-!
Numbers as they are typed: digits of any script with single underscores between them, a sign in
front, and blanks around. The number of decimal digits of an integer is bounded.
-/

namespace LocaleKeys.Number

/-- The greatest number of decimal digits of an integer. -/
def maxDigits : Nat := 4300

def tooLongMessage (digits : Nat) : Text :=
  "Exceeds the limit (" ++ Text.ofNat maxDigits ++ " digits) for integer string conversion: value has " ++
    Text.ofNat digits ++ " digits; " ++ "use sys.set_int_max_str_digits() to increase the limit"

def shownLength : Nat := 200

/-- The message for a text that is no integer in a base. -/
def malformedMessage (base : Nat) (s : List Point) : Text :=
  "invalid literal for int() with base " ++ Text.ofNat base ++ ": " ++
    Text.ofList ((Text.quote (Text.ofList s)).toList.take shownLength)

/-- The message for an integer that would take too many digits to write. -/
def unwritableMessage : Text :=
  "Exceeds the limit (" ++ Text.ofNat maxDigits ++ " digits) for integer string conversion; " ++
    "use sys.set_int_max_str_digits() to increase the limit"

/-- Whether an integer takes too many digits to write. -/
def isUnwritable (n : Int) : Bool :=
  Double.tenTo maxDigits ≤ n.natAbs

/-- Why a text is no integer. -/
inductive IntegerFault
  | malformed
  | tooLong (digits : Nat)
  deriving DecidableEq, Repr

/-- Whether a character may stand around a number: the blanks, without the separators of records. -/
def isMargin (c : Point) : Bool :=
  c = ' ' || ('\t' ≤ c && c ≤ '\r') || (0x80 ≤ c.toNat && Text.isBlank c)

def dropMargins (s : List Point) : List Point :=
  ((s.dropWhile isMargin).reverse.dropWhile isMargin).reverse

def splitSign : List Point → Bool × List Point
  | .char '-' :: rest => (true, rest)
  | .char '+' :: rest => (false, rest)
  | s => (false, s)

/-- The value of a small or capital letter as a digit. -/
def letterValue? (c : Point) : Option Nat :=
  if 'a' ≤ c && c ≤ 'f' then some (c.toNat - 0x57)
  else if 'A' ≤ c && c ≤ 'F' then some (c.toNat - 0x37)
  else none

/-- The value of a digit in a base: a decimal digit of any script, or a letter. -/
def digitIn? (base : Nat) (c : Point) : Option Nat :=
  ((Text.digitValue? c).or (letterValue? c)).filter (· < base)

/-- Whether underscores stand on their own between digits; `before` says whether a digit stands
before the text. -/
def barsApart (before : Bool) : List Point → Bool
  | [] => before
  | c :: rest => if c = '_' then before && barsApart false rest else barsApart true rest

def valueIn (base : Nat) (digits : List Point) : Nat :=
  digits.foldl (fun n c => base * n + (digitIn? base c).getD 0) 0

/-- The natural number that digits in a base make. Too many decimal digits are a fault even where
more than digits follows. -/
def natural (base : Nat) (s : List Point) : Except IntegerFault Nat :=
  let run := s.takeWhile fun c : Point => c = '_' || (digitIn? base c).isSome
  let digits := run.filter (· ≠ Point.char '_')
  if !barsApart false run then .error .malformed
  else if base = 10 && maxDigits < digits.length then .error (.tooLong digits.length)
  else if run.length < s.length then .error .malformed
  else .ok (valueIn base digits)

def baseLetter? : Nat → Option Point
  | 2 => some 'b'
  | 8 => some 'o'
  | 16 => some 'x'
  | _ => none

/-- A text without a zero and a letter that announce its base; an underscore may follow them. -/
def dropBase (base : Nat) (s : List Point) : List Point :=
  match s with
  | .char '0' :: letter :: rest =>
    if baseLetter? base = some letter.toLower then
      if rest.head? == some (Point.char '_') then rest.drop 1 else rest
    else s
  | s => s

def integerIn (base : Nat) (s : List Point) : Except IntegerFault Int :=
  let (negative, body) := splitSign (dropMargins s)
  (natural base (dropBase base body)).map (signed negative)

def integer (s : List Point) : Except IntegerFault Int :=
  integerIn 10 s

/-- A character, a decimal digit of any script standing for the one of its value. -/
def plainDigit (c : Point) : Point :=
  match Text.digitValue? c with
  | some d => Point.ofNat (0x30 + d)
  | none => c

def real? (s : List Point) : Option Double :=
  double? ((dropMargins s).map plainDigit)

end LocaleKeys.Number
