import LocaleKeys.Number.Double
import LocaleKeys.Text.Point

/-!
Decimal forms of doubles: the fewest digits that read back as the same number, and rounding to a
fixed count of places.
-/

namespace LocaleKeys.Double

/-- A positive decimal number `digits * 10 ^ scale`. -/
structure Decimal where
  digits : Nat
  scale : Int
  deriving DecidableEq, Repr

/-- The power of ten of the leading digit of a positive quotient. -/
def leadingPower (num den : Nat) : Int :=
  let guess : Int := ((Nat.toDigits 10 num).length : Int) - (Nat.toDigits 10 den).length
  let atLeast (power : Int) : Bool :=
    if power < 0 then den ≤ num * tenTo (-power).toNat else den * tenTo power.toNat ≤ num
  if atLeast guess then guess else guess - 1

/-- The quotient in units of `10 ^ scale`, as a quotient of naturals. -/
def inDecimalUnits (num den : Nat) (scale : Int) : Nat × Nat :=
  if scale < 0 then (num * tenTo (-scale).toNat, den) else (num, den * tenTo scale.toNat)

/-- Of the two neighbours of a positive quotient on the grid of `10 ^ scale`, the one that reads
back as `x`; of two such the nearer, and of two equally near the even one. -/
def neighbour? (x : Double) (num den : Nat) (scale : Int) : Option Decimal :=
  let (n, d) := inDecimalUnits num den scale
  let low := n / d
  let reads (digits : Nat) : Bool := ofDecimal false digits scale = x
  let nearest := roundDiv n d
  let other := if nearest = low then low + 1 else low
  if reads nearest then some ⟨nearest, scale⟩
  else if reads other then some ⟨other, scale⟩
  else none

/-- The first grid, from `count` digits on, that has a point which reads back. -/
def shortestFrom (x : Double) (num den : Nat) (leading : Int) : (more count : Nat) → Decimal
  | 0, count => ⟨roundDiv num den, count⟩
  | more + 1, count =>
    match neighbour? x num den (leading + 1 - count) with
    | some decimal => decimal
    | none => shortestFrom x num den leading more (count + 1)

/-- The decimal number of fewest digits that reads back as a positive double. Seventeen digits are
always enough. -/
def shortest (mantissa : Nat) (exponent : Int) : Decimal :=
  let (num, den) := ratio mantissa exponent
  shortestFrom (.finite false mantissa exponent) num den (leadingPower num den) 17 1

def dropZeros (reversed : List Point) : List Point :=
  reversed.dropWhile (· = Point.char '0')

/-- The significant digits, and the number of them that stand before the point. -/
def Decimal.significant (decimal : Decimal) : List Point × Int :=
  let all := Text.digits decimal.digits
  ((dropZeros all.reverse).reverse, all.length + decimal.scale)

/-- An exponent with its sign and at least two digits. -/
def exponentText (exponent : Int) : List Point :=
  let digits := Text.digits exponent.natAbs
  let digits := if digits.length < 2 then .char '0' :: digits else digits
  (if exponent < 0 then Point.char '-' else Point.char '+') :: digits

/-- Writes digits of which `point` stand before the point. From 10⁻⁴ up to below 10¹⁶ the number is
written out, with at least one digit behind the point; otherwise with an exponent. -/
def layout (digits : List Point) (point : Int) : List Point :=
  if -4 < point ∧ point ≤ 16 then
    if point ≤ 0 then .char '0' :: .char '.' :: (List.replicate (-point).toNat (.char '0') ++ digits)
    else
      let whole := point.toNat
      if digits.length ≤ whole then
        digits ++ List.replicate (whole - digits.length) (.char '0') ++ [.char '.', .char '0']
      else digits.take whole ++ .char '.' :: digits.drop whole
  else
    match digits with
    | [] => []
    | first :: others =>
      (if others = [] then [first] else first :: .char '.' :: others) ++ .char 'e' :: exponentText (point - 1)

/-- The text of a number; `nan` and the infinities are spelt as given. -/
def textWith (nanText infinityText : List Point) : Double → List Point
  | .nan => nanText
  | .infinite negative => if negative then .char '-' :: infinityText else infinityText
  | .finite negative mantissa exponent =>
    let body :=
      if mantissa = 0 then [.char '0', .char '.', .char '0']
      else
        let (digits, point) := (shortest mantissa exponent).significant
        layout digits point
    if negative then .char '-' :: body else body

def text (x : Double) : List Point :=
  textWith ['n', 'a', 'n'] ['i', 'n', 'f'] x

/-- The nearest double to the number rounded to `places` decimal places, a tie going to the even
last digit. -/
def roundTo (places : Nat) : Double → Double
  | .finite negative mantissa exponent =>
    let (num, den) := ratio mantissa exponent
    ofDecimal negative (roundDiv (num * tenTo places) den) (-(places : Int))
  | x => x

end LocaleKeys.Double
