import LocaleKeys.Number.Reading
import Mathlib.Algebra.Group.Nat.Defs
import Mathlib.Data.List.Basic
import Mathlib.Data.List.TakeWhile
import Mathlib.Tactic.Ring
import LocaleKeys.Proofs.Text.Point

/-!
Runs of decimal digits: their values, the runs that a number is written with, and how a run is
split off a text.
-/

namespace LocaleKeys.Number

theorem ofDigits_eq (digits : List Char) :
    ofDigits (digits.map .char) = Nat.ofDigitChars 10 digits 0 :=
  List.foldl_map

/-- Digits that follow a number shift it to the left. -/
theorem foldl_digits (n : Nat) (digits : List Point) :
    digits.foldl (fun n c => 10 * n + digitOf c) n = 10 ^ digits.length * n + ofDigits digits := by
  induction digits generalizing n with
  | nil => simp [ofDigits]
  | cons c digits ih =>
      simp only [ofDigits, List.foldl_cons, List.length_cons]
      rw [ih, ih]
      ring

theorem ofDigits_append (front back : List Point) :
    ofDigits (front ++ back) = 10 ^ back.length * ofDigits front + ofDigits back := by
  rw [ofDigits, List.foldl_append, foldl_digits]
  rfl

@[simp]
theorem ofDigits_replicate_zero (k : Nat) : ofDigits (List.replicate k (.char '0')) = 0 := by
  rw [← List.map_replicate, ofDigits_eq, Nat.ofDigitChars_replicate_zero, Nat.mul_zero]

theorem ofDigits_zeros_append (k : Nat) (digits : List Point) :
    ofDigits (List.replicate k (.char '0') ++ digits) = ofDigits digits := by
  rw [ofDigits_append, ofDigits_replicate_zero, Nat.mul_zero, Nat.zero_add]

theorem ofDigits_append_zeros (digits : List Point) (k : Nat) :
    ofDigits (digits ++ List.replicate k (.char '0')) = 10 ^ k * ofDigits digits := by
  rw [ofDigits_append, ofDigits_replicate_zero, List.length_replicate, Nat.add_zero]

@[simp]
theorem ofDigits_toDigits (n : Nat) : ofDigits (Text.digits n) = n :=
  (ofDigits_eq _).trans Nat.ofDigitChars_ten_toDigits

theorem toDigits_injective : Function.Injective (Text.digits) :=
  Function.LeftInverse.injective ofDigits_toDigits

theorem digitOf_lt {c : Point} (h : c.isDigit = true) : digitOf c < 10 := by
  cases c with
  | half n => exact absurd h Bool.false_ne_true
  | char c =>
      simp only [Point.isDigit, Point.isOf, Char.isDigit, ge_iff_le, Bool.and_eq_true,
        decide_eq_true_eq, UInt32.le_iff_toNat_le] at h
      have high := h.2
      change c.toNat ≤ 57 at high
      rw [digitOf, Point.toNat]
      omega

theorem ofDigits_lt {digits : List Point} (h : ∀ c ∈ digits, c.isDigit = true) :
    ofDigits digits < 10 ^ digits.length := by
  induction digits with
  | nil => decide
  | cons c digits ih =>
      have hc := digitOf_lt (h c List.mem_cons_self)
      have hrest := ih fun d hd => h d (List.mem_cons_of_mem _ hd)
      rw [show c :: digits = [c] ++ digits from rfl, ofDigits_append]
      have hone : ofDigits [c] = digitOf c := by simp [ofDigits]
      have hle : 10 ^ digits.length * digitOf c ≤ 10 ^ digits.length * 9 :=
        Nat.mul_le_mul_left _ (by omega)
      rw [hone, List.length_append, List.length_singleton, Nat.pow_add]
      omega

theorem isDigit_of_mem_toDigits {n : Nat} {c : Point} (h : c ∈ Text.digits n) :
    c.isDigit = true := by
  obtain ⟨d, hd, rfl⟩ := List.mem_map.mp h
  exact Nat.isDigit_of_mem_toDigits (by decide) (by decide) hd

theorem digits_ne_nil {n : Nat} : Text.digits n ≠ [] :=
  fun h => Nat.toDigits_ne_nil (List.map_eq_nil_iff.mp h)

theorem length_digits_le {n k : Nat} (hk : 0 < k) : (Text.digits n).length ≤ k ↔ n < 10 ^ k := by
  rw [Text.digits, List.length_map, Nat.length_toDigits_le_iff (by decide) hk]

/-- The digits of a number start with a zero only if it is zero. -/
theorem head?_toDigits {n : Nat} (hn : n ≠ 0) : (Text.digits n).head? ≠ some (Point.char '0') := by
  induction n using Nat.strongRecOn with
  | ind n ih =>
      rw [Text.digits, Nat.toDigits_eq_if (by decide)]
      split
      · next small =>
          have : ∀ d < 10, d ≠ 0 → [Point.char d.digitChar].head? ≠ some (Point.char '0') := by
            decide
          exact this n small hn
      · next large =>
          have hne : (Nat.toDigits 10 (n / 10)).map Point.char ≠ [] := digits_ne_nil
          rw [List.map_append, List.head?_append_of_ne_nil _ hne]
          exact ih (n / 10) (by omega) (by omega)

/-! Integers -/

theorem toList_ofInt (n : Int) : (Text.ofInt n).toList = intText n := by
  cases n <;> rfl

theorem mem_intText {n : Int} {c : Point} (h : c ∈ intText n) : c.isDigit = true ∨ c = Point.char '-' := by
  cases n with
  | ofNat k => exact Or.inl (isDigit_of_mem_toDigits h)
  | negSucc k =>
      cases List.mem_cons.mp h with
      | inl sign => exact Or.inr sign
      | inr digit => exact Or.inl (isDigit_of_mem_toDigits digit)

/-- A sign is no digit, so an integer is known by its text. -/
theorem intText_injective : Function.Injective intText := by
  have hsign : ∀ k l : Nat, Text.digits k ≠ Point.char '-' :: Text.digits l := by
    intro k l heq
    have hdigit : (Point.char '-').isDigit = true :=
      isDigit_of_mem_toDigits (n := k) (heq ▸ List.mem_cons_self)
    exact absurd hdigit (by decide)
  intro m n h
  cases m with
  | ofNat k =>
      cases n with
      | ofNat l => exact congrArg Int.ofNat (toDigits_injective h)
      | negSucc l => exact absurd h (hsign k (l + 1))
  | negSucc k =>
      cases n with
      | ofNat l => exact absurd h.symm (hsign l (k + 1))
      | negSucc l =>
          have hdigits := toDigits_injective (List.cons.inj h).2
          rw [Nat.succ.inj hdigits]

/-! Splitting off -/

theorem spanDigits_append {digits rest : List Point} (h : ∀ c ∈ digits, c.isDigit = true)
    (stop : ∀ c ∈ rest.head?, c.isDigit = false) :
    spanDigits (digits ++ rest) = (digits, rest) := by
  rw [spanDigits]
  rw [List.takeWhile_append_of_pos h, List.dropWhile_append_of_pos h]
  cases rest with
  | nil => simp
  | cons c rest =>
      have hc := stop c rfl
      simp [hc]

theorem spanDigits_spec (s : List Point) :
    s = (spanDigits s).1 ++ (spanDigits s).2 ∧ ∀ c ∈ (spanDigits s).1, c.isDigit = true :=
  ⟨List.takeWhile_append_dropWhile.symm, fun _ h => List.mem_takeWhile_imp h⟩

end LocaleKeys.Number

namespace LocaleKeys.Double

open Number

/-- The significant digits of a decimal number are those of its digits without the zeros at the
end; they start and end with a digit that is not zero. -/
theorem significant_spec (decimal : Decimal) (h : decimal.digits ≠ 0) :
    ∃ (digits : List Point) (zeros : Nat),
      decimal.significant = (digits, (digits.length + zeros : Nat) + decimal.scale) ∧
      decimal.digits = 10 ^ zeros * ofDigits digits ∧
      (∀ c ∈ digits, c.isDigit = true) ∧ digits ≠ [] ∧ digits.head? ≠ some (Point.char '0') := by
  let all := Text.digits decimal.digits
  let digits := (dropZeros all.reverse).reverse
  let zeros := (all.reverse.takeWhile (· = Point.char '0')).length
  have hzeros : all.reverse.takeWhile (· = Point.char '0') = List.replicate zeros (.char '0') := by
    refine List.eq_replicate_iff.mpr ⟨rfl, fun c hc => ?_⟩
    simpa using List.mem_takeWhile_imp hc
  have hall : all = digits ++ List.replicate zeros (.char '0') := by
    have split := List.takeWhile_append_dropWhile (p := (· = Point.char '0')) (l := all.reverse)
    rw [hzeros] at split
    have := congrArg List.reverse split
    rw [List.reverse_append, List.reverse_replicate, List.reverse_reverse] at this
    exact this.symm
  have hhead : all.head? ≠ some (Point.char '0') := head?_toDigits h
  have hne : digits ≠ [] := by
    intro hnil
    rw [hall, hnil] at hhead
    cases hz : zeros with
    | zero =>
        rw [hnil, hz] at hall
        exact digits_ne_nil hall
    | succ k =>
        rw [hz] at hhead
        exact hhead rfl
  refine ⟨digits, zeros, ?_, ?_, ?_, hne, ?_⟩
  · have hlen : all.length = digits.length + zeros := by
      rw [hall, List.length_append, List.length_replicate]
    rw [← hlen]
    rfl
  · rw [← ofDigits_append_zeros, ← hall]
    exact (ofDigits_toDigits decimal.digits).symm
  · intro c hc
    apply isDigit_of_mem_toDigits (n := decimal.digits)
    change c ∈ all
    rw [hall]
    exact List.mem_append_left _ hc
  · rwa [hall, List.head?_append_of_ne_nil _ hne] at hhead

end LocaleKeys.Double
