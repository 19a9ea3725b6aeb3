import LocaleKeys.Number.Double
import Mathlib.Algebra.Order.Field.Power
import Mathlib.Algebra.Order.Field.Rat
import Mathlib.Tactic.FieldSimp
import Mathlib.Tactic.Linarith
import Mathlib.Tactic.NormNum
import Mathlib.Tactic.Positivity
import Mathlib.Tactic.Ring

/-!
Rounding a quotient of naturals to a double. The result depends on the quotient alone, it is one of
the doubles that exist, and a quotient near enough to a double is rounded to it.
-/

namespace LocaleKeys.Double

/-- A double as rounding makes it: the mantissa has 53 bits, or fewer at the least exponent. -/
def Canonical : Double → Prop
  | .finite _ m e =>
    minExponent ≤ e ∧ e ≤ maxExponent ∧ m < 2 ^ 53 ∧ (e = minExponent ∨ 2 ^ 52 ≤ m)
  | _ => True

theorem twoTo_eq (k : Nat) : twoTo k = 2 ^ k := rfl

theorem tenTo_eq (k : Nat) : tenTo k = 10 ^ k := rfl

theorem zpow_of_neg (base : ℚ) {e : Int} (h : e < 0) : base ^ e = (base ^ (-e).toNat)⁻¹ := by
  rw [← zpow_natCast, ← zpow_neg]
  congr 1
  omega

theorem zpow_of_not_neg (base : ℚ) {e : Int} (h : ¬ e < 0) : base ^ e = base ^ e.toNat := by
  rw [← zpow_natCast]
  congr 1
  omega

/-- Scaling by a power shifts it from the numerator to the denominator, whichever sign it has. -/
theorem scaled_quotient (base num den : Nat) (e : Int) :
    let p : Nat × Nat :=
      if e < 0 then (num * base ^ (-e).toNat, den) else (num, den * base ^ e.toNat)
    (p.1 : ℚ) / p.2 = (num : ℚ) / den / (base : ℚ) ^ e := by
  intro p
  by_cases h : e < 0
  · simp only [p, h, if_true, zpow_of_neg _ h]
    push_cast
    rw [div_inv_eq_mul, div_mul_eq_mul_div]
  · simp only [p, h, if_false, zpow_of_not_neg _ h]
    push_cast
    rw [div_div]

theorem inUnits_quotient (num den : Nat) (e : Int) :
    ((inUnits num den e).1 : ℚ) / (inUnits num den e).2 = (num : ℚ) / den / 2 ^ e :=
  scaled_quotient 2 num den e

theorem inUnits_den_pos (num : Nat) {den : Nat} (hd : 0 < den) (e : Int) :
    0 < (inUnits num den e).2 := by
  rw [inUnits]
  split
  · exact hd
  · exact Nat.mul_pos hd (Nat.pow_pos (by decide))

/-! Rounding to an integer -/

/-- A rounded quotient is at most half a unit away. -/
theorem roundDiv_half (n : Nat) {d : Nat} (hd : 0 < d) :
    2 * n ≤ 2 * (d * roundDiv n d) + d ∧ 2 * (d * roundDiv n d) ≤ 2 * n + d := by
  have hn := Nat.div_add_mod n d
  have hr := Nat.mod_lt n hd
  unfold roundDiv
  dsimp only
  split
  · omega
  · split
    · rw [Nat.mul_add, Nat.mul_one]
      omega
    · split
      · omega
      · rw [Nat.mul_add, Nat.mul_one]
        omega

theorem roundDiv_near (n : Nat) {d : Nat} (hd : 0 < d) :
    |(roundDiv n d : ℚ) - (n : ℚ) / d| ≤ 1 / 2 := by
  obtain ⟨low, high⟩ := roundDiv_half n hd
  have hd' : (0 : ℚ) < d := by exact_mod_cast hd
  have low' : (2 : ℚ) * n ≤ 2 * (d * roundDiv n d) + d := by exact_mod_cast low
  have high' : (2 : ℚ) * (d * roundDiv n d) ≤ 2 * n + d := by exact_mod_cast high
  have hq : (n : ℚ) = d * (n / d) := by field_simp
  rw [abs_le]
  generalize (n : ℚ) / d = q at *
  rw [hq] at low' high'
  constructor <;> nlinarith

/-- The integer nearest to a quotient, where it is nearer than half a unit. -/
theorem roundDiv_eq_of_near (n k : Nat) {d : Nat} (hd : 0 < d)
    (h : |(n : ℚ) / d - k| < 1 / 2) : roundDiv n d = k := by
  have near := roundDiv_near n hd
  rw [abs_le] at near
  rw [abs_lt] at h
  have above : (roundDiv n d : ℚ) < k + 1 := by linarith [near.2, h.2]
  have below : (k : ℚ) < roundDiv n d + 1 := by linarith [near.1, h.1]
  have above' : roundDiv n d < k + 1 := by exact_mod_cast above
  have below' : k < roundDiv n d + 1 := by exact_mod_cast below
  omega

theorem roundDiv_le (n k : Nat) {d : Nat} (hd : 0 < d) (h : (n : ℚ) / d ≤ k) :
    roundDiv n d ≤ k := by
  have near := roundDiv_near n hd
  rw [abs_le] at near
  have : (roundDiv n d : ℚ) < k + 1 := by linarith [near.2]
  have : roundDiv n d < k + 1 := by exact_mod_cast this
  omega

theorem le_roundDiv (n k : Nat) {d : Nat} (hd : 0 < d) (h : (k : ℚ) ≤ (n : ℚ) / d) :
    k ≤ roundDiv n d := by
  have near := roundDiv_near n hd
  rw [abs_le] at near
  have : (k : ℚ) < roundDiv n d + 1 := by linarith [near.1]
  have : k < roundDiv n d + 1 := by exact_mod_cast this
  omega

theorem roundDiv_mul_left (k n d : Nat) (hk : 0 < k) :
    roundDiv (k * n) (k * d) = roundDiv n d := by
  have less : ∀ a b : Nat, k * a < k * b ↔ a < b := fun a b => Nat.mul_lt_mul_left hk
  simp only [roundDiv]
  simp only [Nat.mul_div_mul_left n d hk, Nat.mul_mod_mul_left, Nat.mul_left_comm 2 k, less]

/-! The exponent -/

/-- An exponent fits a positive quotient if its units give 53 bits, or if it is the least one and
they give no more. -/
structure Fits (v : ℚ) (e : Int) : Prop where
  least : minExponent ≤ e
  below : v < 2 ^ 53 * 2 ^ e
  above : e = minExponent ∨ 2 ^ 52 * 2 ^ e ≤ v

theorem two_zpow_pos (e : Int) : (0 : ℚ) < 2 ^ e := by positivity

theorem two_zpow_succ (e : Int) : (2 : ℚ) ^ (e + 1) = 2 * 2 ^ e := by
  rw [zpow_add₀ (by norm_num)]
  ring

theorem two_zpow_mono {e f : Int} (h : e ≤ f) : (2 : ℚ) ^ e ≤ 2 ^ f :=
  zpow_le_zpow_right₀ (by norm_num) h

theorem Fits.le {v : ℚ} {e f : Int} (he : Fits v e) (hf : Fits v f) : e ≤ f := by
  by_contra h
  have hlt : f + 1 ≤ e := by omega
  cases he.above with
  | inl least =>
      have := hf.least
      omega
  | inr above =>
      have step := two_zpow_mono hlt
      rw [two_zpow_succ] at step
      have below := hf.below
      linarith

theorem Fits.unique {v : ℚ} {e f : Int} (he : Fits v e) (hf : Fits v f) : e = f :=
  le_antisymm (he.le hf) (hf.le he)

/-- The guess from the lengths of both numbers is right or one too large. -/
theorem log_guess {num den : Nat} (hn : num ≠ 0) (hd : den ≠ 0) :
    let guess : Int := (Nat.log2 num : Int) - (Nat.log2 den : Int) - 52
    2 ^ 51 * 2 ^ guess < (num : ℚ) / den ∧ (num : ℚ) / den < 2 ^ 53 * 2 ^ guess := by
  intro guess
  have n₁ : (2 : ℚ) ^ Nat.log2 num ≤ num := by exact_mod_cast Nat.log2_self_le hn
  have n₂ : (num : ℚ) < 2 ^ (Nat.log2 num + 1) := by exact_mod_cast Nat.lt_log2_self
  have d₁ : (2 : ℚ) ^ Nat.log2 den ≤ den := by exact_mod_cast Nat.log2_self_le hd
  have d₂ : (den : ℚ) < 2 ^ (Nat.log2 den + 1) := by exact_mod_cast Nat.lt_log2_self
  have hden : (0 : ℚ) < den := by exact_mod_cast Nat.pos_of_ne_zero hd
  have hguess : (2 : ℚ) ^ guess = 2 ^ Nat.log2 num / 2 ^ Nat.log2 den / 2 ^ 52 := by
    simp only [guess]
    rw [zpow_sub₀ (by norm_num), zpow_sub₀ (by norm_num)]
    simp only [zpow_natCast]
    norm_num
  rw [hguess]
  rw [pow_succ] at n₂ d₂
  have a : (0 : ℚ) < 2 ^ Nat.log2 num := by positivity
  have b : (0 : ℚ) < 2 ^ Nat.log2 den := by positivity
  generalize (2 : ℚ) ^ Nat.log2 num = A at *
  generalize (2 : ℚ) ^ Nat.log2 den = B at *
  constructor
  · rw [lt_div_iff₀ hden]
    have : (2 : ℚ) ^ 51 * (A / B / 2 ^ 52) = A / (2 * B) := by field_simp
    rw [this, div_mul_eq_mul_div, div_lt_iff₀ (by positivity)]
    nlinarith
  · rw [div_lt_iff₀ hden]
    have : (2 : ℚ) ^ 53 * (A / B / 2 ^ 52) = 2 * A / B := by field_simp
    rw [this, div_mul_eq_mul_div, lt_div_iff₀ b]
    nlinarith

theorem exponentFor_fits {num den : Nat} (hn : num ≠ 0) (hd : den ≠ 0) :
    Fits ((num : ℚ) / den) (exponentFor num den) := by
  obtain ⟨low, high⟩ := log_guess hn hd
  rw [exponentFor]
  dsimp only
  generalize (Nat.log2 num : Int) - (Nat.log2 den : Int) - 52 = guess at *
  have hpos := inUnits_den_pos num (Nat.pos_of_ne_zero hd) guess
  have hq := inUnits_quotient num den guess
  generalize inUnits num den guess = p at *
  have h2 := two_zpow_pos guess
  -- The floor is below `2 ^ 52` exactly if the quotient is.
  have hfloor : p.1 / p.2 < 2 ^ 52 ↔ (num : ℚ) / den < 2 ^ 52 * 2 ^ guess := by
    have hp : (0 : ℚ) < p.2 := by exact_mod_cast hpos
    rw [Nat.div_lt_iff_lt_mul hpos, ← div_lt_iff₀ h2, ← hq, div_lt_iff₀ hp]
    exact_mod_cast Iff.rfl
  simp only [twoTo_eq, hfloor]
  generalize (num : ℚ) / den = v at *
  have fitted : ∃ e, v < 2 ^ 53 * 2 ^ e ∧ 2 ^ 52 * 2 ^ e ≤ v ∧
      (if v < 2 ^ 52 * 2 ^ guess then guess - 1 else guess) = e := by
    split
    · next below =>
        have step := two_zpow_succ (guess - 1)
        rw [sub_add_cancel] at step
        refine ⟨guess - 1, ?_, ?_, rfl⟩ <;> linarith
    · next above => exact ⟨guess, high, not_lt.mp above, rfl⟩
  obtain ⟨e, below, above, he⟩ := fitted
  rw [he]
  by_cases h : minExponent ≤ e
  · rw [max_eq_left h]
    exact ⟨h, below, Or.inr above⟩
  · have hle : e ≤ minExponent := by omega
    rw [max_eq_right hle]
    have := two_zpow_mono hle
    exact ⟨le_refl _, by linarith, Or.inl rfl⟩

/-! Rounding to a double -/

/-- The mantissa and the exponent of a rounded quotient, before the greatest exponent is checked. -/
theorem ofRatio_eq (negative : Bool) {num den : Nat} (hn : num ≠ 0) :
    ofRatio negative num den =
      let p := inUnits num den (exponentFor num den)
      let r : Nat × Int :=
        if roundDiv p.1 p.2 = 2 ^ 53 then (2 ^ 52, exponentFor num den + 1)
        else (roundDiv p.1 p.2, exponentFor num den)
      if maxExponent < r.2 then .infinite negative else .finite negative r.1 r.2 := by
  rw [ofRatio]
  rw [if_neg hn]
  rfl

theorem canonical_zero (negative : Bool) : (zero negative).Canonical :=
  ⟨le_refl _, by decide, by decide, Or.inl rfl⟩

theorem canonical_ofRatio (negative : Bool) (num : Nat) {den : Nat} (hd : den ≠ 0) :
    (ofRatio negative num den).Canonical := by
  by_cases hn : num = 0
  · rw [ofRatio, if_pos hn]
    exact canonical_zero negative
  · rw [ofRatio_eq negative hn]
    have fits := exponentFor_fits hn hd
    have hpos := inUnits_den_pos num (Nat.pos_of_ne_zero hd) (exponentFor num den)
    have hq := inUnits_quotient num den (exponentFor num den)
    generalize inUnits num den (exponentFor num den) = p at *
    generalize exponentFor num den = e at *
    have h2 := two_zpow_pos e
    have upper : roundDiv p.1 p.2 ≤ 2 ^ 53 := by
      apply roundDiv_le _ _ hpos
      rw [hq, div_le_iff₀ h2]
      exact_mod_cast fits.below.le
    have lower : e = minExponent ∨ 2 ^ 52 ≤ roundDiv p.1 p.2 := by
      cases fits.above with
      | inl least => exact Or.inl least
      | inr above =>
          refine Or.inr (le_roundDiv _ _ hpos ?_)
          rw [hq, le_div_iff₀ h2]
          exact_mod_cast above
    have least := fits.least
    dsimp only
    split
    · split
      · trivial
      · next small =>
          have half : (2 : Nat) ^ 52 < 2 ^ 53 := by decide
          exact ⟨by omega, not_lt.mp small, half, Or.inr (le_refl _)⟩
    · next full =>
        split
        · trivial
        · next small => exact ⟨least, not_lt.mp small, by omega, lower⟩

theorem ofRatio_mul_left (negative : Bool) {k num den : Nat} (hk : 0 < k) (hd : den ≠ 0) :
    ofRatio negative (k * num) (k * den) = ofRatio negative num den := by
  by_cases hn : num = 0
  · simp [ofRatio, hn]
  · have hkn : k * num ≠ 0 := Nat.mul_ne_zero hk.ne' hn
    have hkd : k * den ≠ 0 := Nat.mul_ne_zero hk.ne' hd
    have same : ((k * num : Nat) : ℚ) / (k * den : Nat) = (num : ℚ) / den := by
      have : (k : ℚ) ≠ 0 := by exact_mod_cast hk.ne'
      push_cast
      rw [mul_div_mul_left _ _ this]
    have he : exponentFor (k * num) (k * den) = exponentFor num den :=
      Fits.unique (same ▸ exponentFor_fits hkn hkd) (exponentFor_fits hn hd)
    have hu : inUnits (k * num) (k * den) (exponentFor num den) =
        (k * (inUnits num den (exponentFor num den)).1,
          k * (inUnits num den (exponentFor num den)).2) := by
      simp only [inUnits]
      split <;> simp only [Nat.mul_assoc]
    rw [ofRatio_eq negative hkn, ofRatio_eq negative hn, he, hu]
    simp only [roundDiv_mul_left _ _ _ hk]

/-- The result depends on the quotient alone. -/
theorem ofRatio_congr (negative : Bool) {num den num' den' : Nat} (hd : den ≠ 0) (hd' : den' ≠ 0)
    (h : (num : ℚ) / den = (num' : ℚ) / den') :
    ofRatio negative num den = ofRatio negative num' den' := by
  have q : (den : ℚ) ≠ 0 := by exact_mod_cast hd
  have q' : (den' : ℚ) ≠ 0 := by exact_mod_cast hd'
  rw [div_eq_div_iff q q'] at h
  have cross : num * den' = num' * den := by exact_mod_cast h
  calc ofRatio negative num den
      = ofRatio negative (den' * num) (den' * den) :=
        (ofRatio_mul_left negative (Nat.pos_of_ne_zero hd') hd).symm
    _ = ofRatio negative (den * num') (den * den') := by
        rw [Nat.mul_comm den' num, cross, Nat.mul_comm num' den, Nat.mul_comm den' den]
    _ = ofRatio negative num' den' := ofRatio_mul_left negative (Nat.pos_of_ne_zero hd) hd'

/-- What lies nearer to a double than half its unit is rounded to it. Below a power of two the units
are half as wide, so there only a quarter is allowed. -/
structure Near (v : ℚ) (m : Nat) (e : Int) : Prop where
  above : v - m * 2 ^ e < 2 ^ e / 2
  below : m * 2 ^ e - v < 2 ^ e / 2
  edge : m = 2 ^ 52 → m * 2 ^ e - v < 2 ^ e / 4

theorem exponentFor_of_near {v : ℚ} {m : Nat} {e e' : Int} (near : Near v m e)
    (hm : m < 2 ^ 53) (hmin : minExponent ≤ e) (full : e = minExponent ∨ 2 ^ 52 ≤ m)
    (fits : Fits v e') : e' = e ∨ (e' = e - 1 ∧ m = 2 ^ 52 ∧ v < 2 ^ 53 * 2 ^ e') := by
  have hm' : (m : ℚ) + 1 ≤ 2 ^ 53 := by exact_mod_cast hm
  have he := two_zpow_pos e
  have upper : e' ≤ e := by
    by_contra h
    have hlt : e + 1 ≤ e' := by omega
    have step := two_zpow_mono hlt
    rw [two_zpow_succ] at step
    cases fits.above with
    | inl least =>
        have := fits.least
        omega
    | inr high =>
        have := near.above
        nlinarith
  by_cases heq : e' = e
  · exact Or.inl heq
  · right
    have hlt : e' + 1 ≤ e := by omega
    have hleast := fits.least
    have hfull : 2 ^ 52 ≤ m := by
      cases full with
      | inl least => omega
      | inr h => exact h
    have hfull' : (2 : ℚ) ^ 52 ≤ m := by exact_mod_cast hfull
    have step := two_zpow_mono hlt
    rw [two_zpow_succ] at step
    have below := fits.below
    -- A larger mantissa would keep the quotient above the power of two.
    have hedge : m = 2 ^ 52 := by
      by_contra h
      have hmore : (2 : ℚ) ^ 52 + 1 ≤ m := by
        have : 2 ^ 52 + 1 ≤ m := by omega
        exact_mod_cast this
      have := near.below
      nlinarith
    have hquarter := near.edge hedge
    refine ⟨?_, hedge, below⟩
    by_contra h
    have hlt' : e' + 1 + 1 ≤ e := by omega
    have step' := two_zpow_mono hlt'
    rw [two_zpow_succ, two_zpow_succ] at step'
    nlinarith

/-- A quotient near a double that exists is rounded to it. -/
theorem ofRatio_of_near (negative : Bool) {num den m : Nat} {e : Int} (hn : num ≠ 0) (hd : den ≠ 0)
    (canonical : Canonical (.finite negative m e)) (near : Near ((num : ℚ) / den) m e) :
    ofRatio negative num den = .finite negative m e := by
  obtain ⟨hmin, hmax, hm, full⟩ := canonical
  have fits := exponentFor_fits hn hd
  have hpos := inUnits_den_pos num (Nat.pos_of_ne_zero hd) (exponentFor num den)
  have hq := inUnits_quotient num den (exponentFor num den)
  have cases' := exponentFor_of_near near hm hmin full fits
  rw [ofRatio_eq negative hn]
  generalize inUnits num den (exponentFor num den) = p at *
  generalize exponentFor num den = e' at *
  have h2 := two_zpow_pos e
  cases cases' with
  | inl same =>
      subst same
      have rounded : roundDiv p.1 p.2 = m := by
        apply roundDiv_eq_of_near _ _ hpos
        have above := near.above
        have below := near.below
        rw [hq, abs_lt]
        constructor
        · rw [lt_sub_iff_add_lt, lt_div_iff₀ h2]
          linarith
        · rw [sub_lt_iff_lt_add, div_lt_iff₀ h2]
          linarith
      have hne : ¬ m = 2 ^ 53 := hm.ne
      simp only [rounded, hne, if_false, not_lt.mpr hmax]
  | inr lower =>
      obtain ⟨he, hedge, below⟩ := lower
      have h2' := two_zpow_pos e'
      have hstep : (2 : ℚ) ^ e = 2 * 2 ^ e' := by
        rw [← two_zpow_succ, he, sub_add_cancel]
      have rounded : roundDiv p.1 p.2 = 2 ^ 53 := by
        apply roundDiv_eq_of_near _ _ hpos
        have quarter := near.edge hedge
        rw [hedge, hstep] at quarter
        push_cast at quarter ⊢
        rw [hq, abs_lt]
        constructor
        · rw [lt_sub_iff_add_lt, lt_div_iff₀ h2']
          linarith
        · rw [sub_lt_iff_lt_add, div_lt_iff₀ h2']
          linarith
      have he' : e' + 1 = e := by omega
      simp only [rounded, if_true, he', not_lt.mpr hmax, if_false, hedge]

end LocaleKeys.Double
