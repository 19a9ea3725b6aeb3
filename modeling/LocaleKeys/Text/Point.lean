/-!
Texts. They are lists of code points, and a code point need not be a character: half of a surrogate
pair may stand on its own, where an escape or a file name has brought it in. Such a text has no bytes.
-/

namespace LocaleKeys

/-- A code point: a character, or half of a surrogate pair that stands alone. -/
inductive Point
  | char (c : Char)
  | half (n : Fin 0x800)
  deriving DecidableEq, Repr, Inhabited

namespace Point

instance : Coe Char Point := ⟨char⟩

def toNat : Point → Nat
  | char c => c.toNat
  | half n => 0xd800 + n

/-- The code point of a number. -/
def ofNat (n : Nat) : Point :=
  if h : 0xd800 ≤ n ∧ n < 0xe000 then half ⟨n - 0xd800, by omega⟩ else char (Char.ofNat n)

instance : LT Point := ⟨fun a b => a.toNat < b.toNat⟩

instance : LE Point := ⟨fun a b => a.toNat ≤ b.toNat⟩

instance (a b : Point) : Decidable (a < b) :=
  inferInstanceAs (Decidable (a.toNat < b.toNat))

instance (a b : Point) : Decidable (a ≤ b) :=
  inferInstanceAs (Decidable (a.toNat ≤ b.toNat))

instance : Ord Point := ⟨compareOn toNat⟩

/-- Whether a code point is a character of a kind. -/
def isOf (kind : Char → Bool) : Point → Bool
  | char c => kind c
  | half _ => false

def isDigit : Point → Bool := isOf Char.isDigit

def isUpper : Point → Bool := isOf Char.isUpper

def isLower : Point → Bool := isOf Char.isLower

def isAlpha : Point → Bool := isOf Char.isAlpha

def isAlphanum : Point → Bool := isOf Char.isAlphanum

def toLower : Point → Point
  | char c => c.toLower
  | half n => half n

def toUpper : Point → Point
  | char c => c.toUpper
  | half n => half n

/-- The character that a code point is, if it is one. -/
def char? : Point → Option Char
  | char c => some c
  | half _ => none

def isHalf (p : Point) : Bool :=
  p.char?.isNone

/-- Whether a code point stands for a byte of a file name that is not UTF-8. -/
def isByte : Point → Bool
  | char _ => false
  | half n => 0x480 ≤ n.val && n.val < 0x500

end Point

/-- A text: its code points in order. -/
structure Text where
  ofList ::
  toList : List Point
  deriving DecidableEq, Repr, Inhabited

namespace Text

/-- The text of characters. -/
def ofString (s : String) : Text :=
  ofList (s.toList.map .char)

instance : Coe String Text := ⟨ofString⟩

instance : Append Text := ⟨fun a b => ofList (a.toList ++ b.toList)⟩

/-- Texts are ordered by their first different code points. -/
instance : LT Text := ⟨fun a b => a.toList < b.toList⟩

instance : LE Text := ⟨fun a b => ¬ b < a⟩

instance (a b : Text) : Decidable (a < b) :=
  inferInstanceAs (Decidable (a.toList < b.toList))

instance (a b : Text) : Decidable (a ≤ b) :=
  inferInstanceAs (Decidable (¬ b < a))

instance : Ord Text := ⟨compareOn toList⟩

def length (s : Text) : Nat :=
  s.toList.length

def isEmpty (s : Text) : Bool :=
  s.toList.isEmpty

def map (f : Point → Point) (s : Text) : Text :=
  ofList (s.toList.map f)

def join (texts : List Text) : Text :=
  ofList (texts.flatMap toList)

/-- Texts with a separator between each two of them. -/
def intercalate (separator : Text) (texts : List Text) : Text :=
  ofList (separator.toList.intercalate (texts.map toList))

/-- The decimal digits of a number. -/
def digits (n : Nat) : List Point :=
  (Nat.toDigits 10 n).map .char

def ofNat (n : Nat) : Text :=
  ofList (digits n)

def ofInt : Int → Text
  | .ofNat n => ofNat n
  | .negSucc n => "-" ++ ofNat (n + 1)

end Text
end LocaleKeys
