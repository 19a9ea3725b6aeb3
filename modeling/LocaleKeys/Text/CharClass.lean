import LocaleKeys.Text.Point

/-!
Sets of characters given by the code points at which membership changes. Tables of the character
properties that the other modules need are written in this form.
-/

namespace LocaleKeys.Text

/-- A set of characters: the ascending code points at which membership changes, none being in
the set before the first of them. -/
structure CharClass where
  flips : List Nat

namespace CharClass

/-- Membership at `code`, when it was `inside` before the first of the remaining changes. -/
def insideAfter (code : Nat) : List Nat → Bool → Bool
  | [], inside => inside
  | flip :: rest, inside => if code < flip then inside else insideAfter code rest (!inside)

def holdsAt (cls : CharClass) (code : Nat) : Bool :=
  insideAfter code cls.flips false

def holds (cls : CharClass) (c : Point) : Bool :=
  cls.holdsAt c.toNat

end CharClass
end LocaleKeys.Text
