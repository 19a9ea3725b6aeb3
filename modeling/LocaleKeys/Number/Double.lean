/-!
Double-precision numbers as exact values: a sign, a mantissa and a power of two. A quotient of
integers is rounded to the nearest of them, ties going to the even mantissa.
-/

namespace LocaleKeys

/-- A double-precision number. A finite one is `mantissa * 2 ^ exponent` with its sign, where the
mantissa has 53 bits, or fewer at the least exponent, which zero has too. -/
inductive Double
  | nan
  | infinite (negative : Bool)
  | finite (negative : Bool) (mantissa : Nat) (exponent : Int)
  deriving DecidableEq, Repr, Inhabited

namespace Double

def minExponent : Int := -1074

def maxExponent : Int := 971

def twoTo (k : Nat) : Nat := Nat.pow 2 k

def tenTo (k : Nat) : Nat := Nat.pow 10 k

def zero (negative : Bool) : Double :=
  .finite negative 0 minExponent

/-- The quotient of two naturals rounded to the nearest integer, a tie to the even one. -/
def roundDiv (num den : Nat) : Nat :=
  let q := num / den
  let twice := 2 * (num % den)
  if twice < den then q
  else if den < twice then q + 1
  else if q % 2 = 0 then q else q + 1

/-- `num / den` in units of `2 ^ exponent`, as a quotient of naturals. -/
def inUnits (num den : Nat) (exponent : Int) : Nat × Nat :=
  if exponent < 0 then (num * twoTo (-exponent).toNat, den) else (num, den * twoTo exponent.toNat)

/-- The exponent whose unit gives the quotient 53 bits, or the least exponent. -/
def exponentFor (num den : Nat) : Int :=
  let guess : Int := (Nat.log2 num : Int) - (Nat.log2 den : Int) - 52
  let (n, d) := inUnits num den guess
  let fitted := if n / d < twoTo 52 then guess - 1 else guess
  max fitted minExponent

/-- The double nearest to a quotient of naturals with a sign. -/
def ofRatio (negative : Bool) (num den : Nat) : Double :=
  if num = 0 then zero negative
  else
    let exponent := exponentFor num den
    let (n, d) := inUnits num den exponent
    let mantissa := roundDiv n d
    let (mantissa, exponent) :=
      if mantissa = twoTo 53 then (twoTo 52, exponent + 1) else (mantissa, exponent)
    if maxExponent < exponent then .infinite negative else .finite negative mantissa exponent

/-- The double nearest to `digits * 10 ^ scale`. Numbers whose size settles the answer are not
expanded. -/
def ofDecimal (negative : Bool) (digits : Nat) (scale : Int) : Double :=
  if digits = 0 then zero negative
  else
    let magnitude : Int := (Nat.toDigits 10 digits).length + scale
    if 400 < magnitude then .infinite negative
    else if magnitude < -400 then zero negative
    else if scale < 0 then ofRatio negative digits (tenTo (-scale).toNat)
    else ofRatio negative (digits * tenTo scale.toNat) 1

/-- The exact value of a finite double without its sign, as a quotient of naturals. -/
def ratio (mantissa : Nat) (exponent : Int) : Nat × Nat :=
  if exponent < 0 then (mantissa, twoTo (-exponent).toNat) else (mantissa * twoTo exponent.toNat, 1)

/-- The double nearest to `num * 2 ^ exponent` with a sign. -/
def ofScaled (negative : Bool) (num : Nat) (exponent : Int) : Double :=
  let (n, d) := ratio num exponent
  ofRatio negative n d

def ofNat (n : Nat) : Double :=
  ofRatio false n 1

/-- The rounded sum of two numbers. Zeros keep a sign that both of them have. -/
def add : Double → Double → Double
  | .nan, _ => .nan
  | _, .nan => .nan
  | .infinite s, .infinite t => if s = t then .infinite s else .nan
  | .infinite s, .finite .. => .infinite s
  | .finite .., .infinite t => .infinite t
  | .finite s m e, .finite t n f =>
    let least := min e f
    let scaled (negative : Bool) (m : Nat) (e : Int) : Int :=
      let units := m * twoTo (e - least).toNat
      if negative then -(units : Int) else units
    let sum := scaled s m e + scaled t n f
    if m = 0 && n = 0 then zero (s && t) else ofScaled (sum < 0) sum.natAbs least

def mul : Double → Double → Double
  | .nan, _ => .nan
  | _, .nan => .nan
  | .infinite s, .infinite t => .infinite (s != t)
  | .infinite s, .finite t n _ => if n = 0 then .nan else .infinite (s != t)
  | .finite s m _, .infinite t => if m = 0 then .nan else .infinite (s != t)
  | .finite s m e, .finite t n f => ofScaled (s != t) (m * n) (e + f)

def negated : Double → Double
  | .nan => .nan
  | .infinite negative => .infinite !negative
  | .finite negative m e => .finite (!negative) m e

def isWhole : Double → Bool
  | .finite _ mantissa exponent =>
    let (n, d) := ratio mantissa exponent
    n % d == 0
  | _ => false

def ltNat : Double → Nat → Bool
  | .nan, _ => false
  | .infinite negative, _ => negative
  | .finite negative mantissa exponent, bound =>
    let (n, d) := ratio mantissa exponent
    if negative then n != 0 || 0 < bound else n < bound * d

end Double
end LocaleKeys
