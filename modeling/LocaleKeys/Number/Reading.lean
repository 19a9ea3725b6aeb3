import LocaleKeys.Number.Shortest

/-!
Numbers written in decimal: digit runs, and literals with a fraction and an exponent.
-/

namespace LocaleKeys.Number

def digitOf (c : Point) : Nat :=
  c.toNat - 0x30

def ofDigits (digits : List Point) : Nat :=
  digits.foldl (fun n c => 10 * n + digitOf c) 0

def spanDigits (s : List Point) : List Point × List Point :=
  (s.takeWhile Point.isDigit, s.dropWhile Point.isDigit)

def intText (n : Int) : List Point :=
  match n with
  | .ofNat k => Text.digits k
  | .negSucc k => '-' :: Text.digits (k + 1)

def signed (negative : Bool) (n : Nat) : Int :=
  if negative then -(n : Int) else n

/-- The exponent behind an `e`, with an optional sign; nothing else may follow. -/
def exponent? : List Point → Option Int
  | .char 'e' :: rest | .char 'E' :: rest =>
    let (negative, digits) := match rest with
      | .char '-' :: r => (true, r)
      | .char '+' :: r => (false, r)
      | r => (false, r)
    if digits.isEmpty || !digits.all Point.isDigit then none
    else some (signed negative (ofDigits digits))
  | _ => none

/-- The double nearest to digits, fraction digits and an exponent. -/
def toDouble (negative : Bool) (whole fraction : List Point) (exponent : Int) : Double :=
  Double.ofDecimal negative (ofDigits (whole ++ fraction)) (exponent - fraction.length)

/-- Reads a decimal literal: a sign, digits with or without a point, an exponent; also the names of
the numbers that are not finite. -/
def double? (s : List Point) : Option Double :=
  let (negative, body) := match s with
    | .char '-' :: r => (true, r)
    | .char '+' :: r => (false, r)
    | r => (false, r)
  let word := Text.ofList (body.map Point.toLower)
  if word = "nan" then some .nan
  else if word = "inf" ∨ word = "infinity" then some (.infinite negative)
  else
    let (whole, rest) := spanDigits body
    let (fraction, rest) := match rest with
      | .char '.' :: r => spanDigits r
      | r => ([], r)
    if whole.isEmpty && fraction.isEmpty then none
    else if rest.isEmpty then some (toDouble negative whole fraction 0)
    else (exponent? rest).map (toDouble negative whole fraction)

end LocaleKeys.Number
