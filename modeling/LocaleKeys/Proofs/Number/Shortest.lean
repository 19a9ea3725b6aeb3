import LocaleKeys.Number.Shortest
import LocaleKeys.Proofs.Number.Rounding

/-!
The shortest decimal form of a double. Reading a decimal number depends on its value alone, and the
form that the search finds reads back as the double: at the latest the seventeenth digit brings it
near enough.
-/

namespace LocaleKeys.Double

/-! Reading decimal numbers -/

theorem ten_zpow_pos (s : Int) : (0 : ℚ) < 10 ^ s := by positivity

theorem ten_zpow_lt {s t : Int} (h : (10 : ℚ) ^ s < 10 ^ t) : s < t :=
  (zpow_lt_zpow_iff_right₀ (by norm_num)).mp h

/-- The number of digits bounds a number from both sides. -/
theorem toDigits_bounds {d : Nat} (hd : d ≠ 0) :
    10 ^ ((Nat.toDigits 10 d).length - 1) ≤ d ∧ d < 10 ^ (Nat.toDigits 10 d).length := by
  have hpos := Nat.length_toDigits_pos (b := 10) (n := d)
  refine ⟨?_, (Nat.length_toDigits_le_iff (by decide) hpos).mp (le_refl _)⟩
  by_contra h
  rw [not_le] at h
  cases hl : (Nat.toDigits 10 d).length - 1 with
  | zero =>
      rw [hl] at h
      omega
  | succ k =>
      rw [hl] at h
      have := (Nat.length_toDigits_le_iff (by decide) (Nat.succ_pos k)).mpr h
      omega

/-- The power of ten above the leading digit of a decimal number. -/
def magnitude (digits : Nat) (scale : Int) : Int :=
  (Nat.toDigits 10 digits).length + scale

theorem magnitude_bounds {d : Nat} (hd : d ≠ 0) (s : Int) :
    (10 : ℚ) ^ (magnitude d s - 1) ≤ d * 10 ^ s ∧ (d : ℚ) * 10 ^ s < 10 ^ magnitude d s := by
  obtain ⟨low, high⟩ := toDigits_bounds hd
  have hpos := Nat.length_toDigits_pos (b := 10) (n := d)
  have hs := ten_zpow_pos s
  rw [magnitude]
  generalize (Nat.toDigits 10 d).length = n at *
  have low' : (10 : ℚ) ^ (n - 1) ≤ d := by exact_mod_cast low
  have high' : (d : ℚ) < 10 ^ n := by exact_mod_cast high
  have e₁ : ((n : Int) + s - 1) = ((n - 1 : Nat) : Int) + s := by omega
  rw [e₁, zpow_add₀ (by norm_num), zpow_add₀ (by norm_num)]
  simp only [zpow_natCast]
  exact ⟨mul_le_mul_of_nonneg_right low' hs.le, mul_lt_mul_of_pos_right high' hs⟩

theorem magnitude_congr {d d' : Nat} {s s' : Int} (hd : d ≠ 0) (hd' : d' ≠ 0)
    (h : (d : ℚ) * 10 ^ s = d' * 10 ^ s') : magnitude d s = magnitude d' s' := by
  obtain ⟨low, high⟩ := magnitude_bounds hd s
  obtain ⟨low', high'⟩ := magnitude_bounds hd' s'
  have a := ten_zpow_lt (lt_of_le_of_lt low (h ▸ high'))
  have b := ten_zpow_lt (lt_of_le_of_lt low' (h ▸ high))
  omega

/-- A decimal number as a quotient of naturals. -/
def decimalRatio (digits : Nat) (scale : Int) : Nat × Nat :=
  if scale < 0 then (digits, 10 ^ (-scale).toNat) else (digits * 10 ^ scale.toNat, 1)

theorem decimalRatio_quotient (d : Nat) (s : Int) :
    ((decimalRatio d s).1 : ℚ) / (decimalRatio d s).2 = d * 10 ^ s := by
  rw [decimalRatio]
  split
  · next h =>
      rw [zpow_of_neg _ h]
      push_cast
      rw [div_eq_mul_inv]
  · next h =>
      rw [zpow_of_not_neg _ h]
      push_cast
      rw [div_one]

theorem decimalRatio_den_ne_zero (d : Nat) (s : Int) : (decimalRatio d s).2 ≠ 0 := by
  rw [decimalRatio]
  split <;> simp

theorem decimalRatio_num_ne_zero {d : Nat} (hd : d ≠ 0) (s : Int) : (decimalRatio d s).1 ≠ 0 := by
  rw [decimalRatio]
  split <;> simp [hd]

theorem ofDecimal_eq (negative : Bool) {d : Nat} (hd : d ≠ 0) (s : Int) :
    ofDecimal negative d s =
      if 400 < magnitude d s then .infinite negative
      else if magnitude d s < -400 then zero negative
      else ofRatio negative (decimalRatio d s).1 (decimalRatio d s).2 := by
  unfold ofDecimal decimalRatio
  rw [if_neg hd]
  by_cases h : s < 0
  · simp only [h, if_true]
    rfl
  · simp only [h, if_false]
    rfl

theorem canonical_ofDecimal (negative : Bool) (d : Nat) (s : Int) :
    (ofDecimal negative d s).Canonical := by
  by_cases hd : d = 0
  · rw [ofDecimal, if_pos hd]
    exact canonical_zero negative
  · rw [ofDecimal_eq negative hd]
    split
    · trivial
    · split
      · exact canonical_zero negative
      · exact canonical_ofRatio negative _ (decimalRatio_den_ne_zero d s)

/-- Reading a decimal number depends on its value alone. -/
theorem ofDecimal_congr (negative : Bool) {d d' : Nat} {s s' : Int}
    (h : (d : ℚ) * 10 ^ s = d' * 10 ^ s') : ofDecimal negative d s = ofDecimal negative d' s' := by
  have hs := ten_zpow_pos s
  have hs' := ten_zpow_pos s'
  by_cases hd : d = 0
  · have hd' : d' = 0 := by
      rw [hd, Nat.cast_zero, zero_mul, eq_comm, mul_eq_zero] at h
      cases h with
      | inl h => exact_mod_cast h
      | inr h => exact absurd h hs'.ne'
    simp [ofDecimal, hd, hd']
  · have hd' : d' ≠ 0 := by
      rintro rfl
      rw [Nat.cast_zero, zero_mul, mul_eq_zero] at h
      cases h with
      | inl h => exact hd (by exact_mod_cast h)
      | inr h => exact hs.ne' h
    rw [ofDecimal_eq negative hd, ofDecimal_eq negative hd', magnitude_congr hd hd' h,
      ofRatio_congr negative (decimalRatio_den_ne_zero d s) (decimalRatio_den_ne_zero d' s')]
    rw [decimalRatio_quotient, decimalRatio_quotient, h]

/-- A decimal number near a double that exists is read as it. -/
theorem ofDecimal_of_near (negative : Bool) {d m : Nat} {s e : Int} (hd : d ≠ 0)
    (small : magnitude d s ≤ 400) (large : -400 ≤ magnitude d s)
    (canonical : Canonical (.finite negative m e)) (near : Near ((d : ℚ) * 10 ^ s) m e) :
    ofDecimal negative d s = .finite negative m e := by
  rw [ofDecimal_eq negative hd, if_neg (not_lt.mpr small), if_neg (not_lt.mpr large)]
  apply ofRatio_of_near negative (decimalRatio_num_ne_zero hd s) (decimalRatio_den_ne_zero d s)
    canonical
  rwa [decimalRatio_quotient]

/-- The sign of a number that is read is the given one. -/
theorem ofRatio_sign {num den m : Nat} {e : Int} (negative : Bool)
    (h : ofRatio false num den = .finite false m e) :
    ofRatio negative num den = .finite negative m e := by
  by_cases hn : num = 0
  · rw [ofRatio, if_pos hn] at h ⊢
    cases h
    rfl
  · rw [ofRatio_eq _ hn] at h ⊢
    dsimp only at h ⊢
    generalize (if roundDiv _ _ = _ then _ else _ : Nat × Int) = r at h ⊢
    split at h
    · cases h
    · next hmax =>
        cases h
        rw [if_neg hmax]

theorem ofDecimal_sign {d m : Nat} {s e : Int} (negative : Bool)
    (h : ofDecimal false d s = .finite false m e) :
    ofDecimal negative d s = .finite negative m e := by
  by_cases hd : d = 0
  · rw [ofDecimal, if_pos hd] at h ⊢
    cases h
    rfl
  · rw [ofDecimal_eq _ hd] at h ⊢
    split at h
    · cases h
    · next hlarge =>
        rw [if_neg hlarge]
        split at h
        · next hsmall =>
            cases h
            rw [if_pos hsmall]
            rfl
        · next hsmall =>
            rw [if_neg hsmall]
            exact ofRatio_sign negative h

/-! Finding digits -/

theorem ratio_quotient (m : Nat) (e : Int) :
    ((ratio m e).1 : ℚ) / (ratio m e).2 = m * 2 ^ e := by
  rw [ratio]
  split
  · next h =>
      rw [zpow_of_neg _ h, twoTo_eq]
      push_cast
      rw [div_eq_mul_inv]
  · next h =>
      rw [zpow_of_not_neg _ h, twoTo_eq]
      push_cast
      rw [div_one]

theorem ratio_den_ne_zero (m : Nat) (e : Int) : (ratio m e).2 ≠ 0 := by
  rw [ratio]
  split <;> simp [twoTo_eq]

theorem ratio_num_ne_zero {m : Nat} (hm : m ≠ 0) (e : Int) : (ratio m e).1 ≠ 0 := by
  rw [ratio]
  split <;> simp [twoTo_eq, hm]

theorem inDecimalUnits_quotient (num den : Nat) (s : Int) :
    ((inDecimalUnits num den s).1 : ℚ) / (inDecimalUnits num den s).2 =
      (num : ℚ) / den / 10 ^ s :=
  scaled_quotient 10 num den s

theorem inDecimalUnits_den_pos (num : Nat) {den : Nat} (hd : 0 < den) (s : Int) :
    0 < (inDecimalUnits num den s).2 := by
  rw [inDecimalUnits]
  split
  · exact hd
  · exact Nat.mul_pos hd (Nat.pow_pos (by decide))

/-- The leading power of a positive quotient. -/
theorem leadingPower_bounds {num den : Nat} (hn : num ≠ 0) (hd : den ≠ 0) :
    (10 : ℚ) ^ leadingPower num den ≤ (num : ℚ) / den ∧
      (num : ℚ) / den < 10 ^ (leadingPower num den + 1) := by
  obtain ⟨n₁, n₂⟩ := magnitude_bounds hn 0
  obtain ⟨d₁, d₂⟩ := magnitude_bounds hd 0
  simp only [magnitude, add_zero, zpow_zero, mul_one] at n₁ n₂ d₁ d₂
  have hden : (0 : ℚ) < den := by exact_mod_cast Nat.pos_of_ne_zero hd
  rw [leadingPower]
  dsimp only
  generalize ((Nat.toDigits 10 num).length : Int) = a at *
  generalize ((Nat.toDigits 10 den).length : Int) = b at *
  have low : (10 : ℚ) ^ (a - b - 1) ≤ (num : ℚ) / den := by
    rw [le_div_iff₀ hden]
    calc (10 : ℚ) ^ (a - b - 1) * den
        ≤ 10 ^ (a - b - 1) * 10 ^ b := by
          exact mul_le_mul_of_nonneg_left d₂.le (ten_zpow_pos _).le
      _ = 10 ^ (a - 1) := by
          rw [← zpow_add₀ (by norm_num)]
          congr 1
          omega
      _ ≤ num := n₁
  have high : (num : ℚ) / den < 10 ^ (a - b + 1) := by
    rw [div_lt_iff₀ hden]
    calc (num : ℚ) < 10 ^ a := n₂
      _ = 10 ^ (a - b + 1) * 10 ^ (b - 1) := by
          rw [← zpow_add₀ (by norm_num)]
          congr 1
          omega
      _ ≤ 10 ^ (a - b + 1) * den := mul_le_mul_of_nonneg_left d₁ (ten_zpow_pos _).le
  -- The comparison in naturals is the comparison of the quotient with the power.
  have compare : (if a - b < 0 then decide (den ≤ num * tenTo (-(a - b)).toNat)
      else decide (den * tenTo (a - b).toNat ≤ num)) = true ↔
      (10 : ℚ) ^ (a - b) ≤ (num : ℚ) / den := by
    rw [le_div_iff₀ hden]
    by_cases h : a - b < 0
    · rw [if_pos h, decide_eq_true_eq, tenTo_eq, zpow_of_neg _ h, inv_mul_le_iff₀ (by positivity),
        mul_comm]
      exact_mod_cast Iff.rfl
    · rw [if_neg h, decide_eq_true_eq, tenTo_eq, zpow_of_not_neg _ h, mul_comm]
      exact_mod_cast Iff.rfl
  by_cases h : (10 : ℚ) ^ (a - b) ≤ (num : ℚ) / den
  · rw [if_pos (compare.mpr h)]
    exact ⟨h, high⟩
  · rw [if_neg (mt compare.mp h), sub_add_cancel]
    exact ⟨low, not_le.mp h⟩

/-- A point that is found on a grid reads back. -/
theorem reads_of_neighbour? {x : Double} {num den : Nat} {scale : Int} {decimal : Decimal}
    (h : neighbour? x num den scale = some decimal) :
    ofDecimal false decimal.digits decimal.scale = x := by
  rw [neighbour?] at h
  dsimp only at h
  generalize (if roundDiv _ _ = _ then _ else _ : Nat) = other at h
  split at h
  · next hreads =>
      cases h
      exact of_decide_eq_true hreads
  · split at h
    · next hreads =>
        cases h
        exact of_decide_eq_true hreads
    · cases h

theorem neighbour?_ne_none {x : Double} {num den : Nat} {scale : Int}
    (h : ofDecimal false
      (roundDiv (inDecimalUnits num den scale).1 (inDecimalUnits num den scale).2) scale = x) :
    neighbour? x num den scale ≠ none := by
  rw [neighbour?]
  simp [h]

/-- The search ends with a point that reads back if the last grid has one. -/
theorem reads_of_shortestFrom {x : Double} {num den : Nat} {leading : Int} (more count : Nat)
    (last : neighbour? x num den (leading + 1 - ((count + more : Nat) : Int)) ≠ none) :
    ofDecimal false (shortestFrom x num den leading (more + 1) count).digits
      (shortestFrom x num den leading (more + 1) count).scale = x := by
  induction more generalizing count with
  | zero =>
      rw [shortestFrom]
      split
      · next found => exact reads_of_neighbour? found
      · next missing => exact absurd missing last
  | succ more ih =>
      rw [shortestFrom]
      split
      · next found => exact reads_of_neighbour? found
      · apply ih
        rwa [Nat.add_assoc, Nat.add_comm 1]

/-- Seventeen digits bring a decimal number near enough to a double. -/
theorem near_of_seventeen {m R : Nat} {e leading : Int} (hm : m < 2 ^ 53)
    (low : (10 : ℚ) ^ leading ≤ m * 2 ^ e)
    (hR : |(R : ℚ) - m * 2 ^ e / 10 ^ (leading + 1 - 17)| ≤ 1 / 2) :
    Near ((R : ℚ) * 10 ^ (leading + 1 - 17)) m e := by
  have hs := ten_zpow_pos (leading + 1 - 17)
  have he := two_zpow_pos e
  have hunit : (10 : ℚ) ^ leading = 10 ^ 16 * 10 ^ (leading + 1 - 17) := by
    have : leading = ((16 : Nat) : Int) + (leading + 1 - 17) := by omega
    conv_lhs => rw [this]
    rw [zpow_add₀ (by norm_num), zpow_natCast]
  rw [hunit] at low
  generalize (10 : ℚ) ^ (leading + 1 - 17) = s at *
  have hm' : (m : ℚ) < 2 ^ 53 := by exact_mod_cast hm
  have hmu := mul_lt_mul_of_pos_right hm' he
  have hsu : s < 2 ^ e := by linarith
  have hv : (m : ℚ) * 2 ^ e = m * 2 ^ e / s * s := by field_simp
  rw [abs_le] at hR
  have above : (R : ℚ) * s - m * 2 ^ e ≤ s / 2 := by
    rw [hv]
    nlinarith [hR.2]
  have below : (m : ℚ) * 2 ^ e - R * s ≤ s / 2 := by
    rw [hv]
    nlinarith [hR.1]
  refine ⟨by linarith, by linarith, fun hedge => ?_⟩
  have hm52 : (m : ℚ) = 2 ^ 52 := by exact_mod_cast hedge
  rw [hm52] at low
  linarith

theorem ten_pow_above_least : 2 ^ 1074 ≤ 10 ^ 324 := by
  decide +kernel

theorem ten_pow_above_greatest : 2 ^ 53 * 2 ^ 971 ≤ 10 ^ 309 := by
  decide +kernel

theorem leadingPower_range {m : Nat} {e leading : Int} (hm : m ≠ 0)
    (canonical : Canonical (.finite false m e)) (low : (10 : ℚ) ^ leading ≤ m * 2 ^ e)
    (high : (m : ℚ) * 2 ^ e < 10 ^ (leading + 1)) : -324 ≤ leading ∧ leading < 309 := by
  obtain ⟨hmin, hmax, hm53, -⟩ := canonical
  have hm₁ : (1 : ℚ) ≤ m := by exact_mod_cast Nat.pos_of_ne_zero hm
  have hm₂ : (m : ℚ) < 2 ^ 53 := by exact_mod_cast hm53
  have he := two_zpow_pos e
  have least : ((10 : ℚ) ^ (324 : Nat))⁻¹ ≤ 2 ^ minExponent := by
    rw [zpow_of_neg _ (by decide), show (-minExponent).toNat = 1074 from rfl]
    refine inv_anti₀ (by positivity) ?_
    simpa only [Nat.cast_pow, Nat.cast_ofNat] using (Nat.cast_le (α := ℚ)).mpr ten_pow_above_least
  have greatest : (2 : ℚ) ^ 53 * 2 ^ maxExponent ≤ 10 ^ (309 : Nat) := by
    rw [zpow_of_not_neg _ (by decide), show maxExponent.toNat = 971 from rfl]
    simpa only [Nat.cast_mul, Nat.cast_pow, Nat.cast_ofNat] using
      (Nat.cast_le (α := ℚ)).mpr ten_pow_above_greatest
  have h₁ := two_zpow_mono hmin
  have h₂ := two_zpow_mono hmax
  constructor
  · have : (10 : ℚ) ^ (-324 : Int) < 10 ^ (leading + 1) := by
      rw [zpow_of_neg _ (by decide)]
      calc ((10 : ℚ) ^ (324 : Nat))⁻¹ ≤ 2 ^ e := le_trans least h₁
        _ ≤ m * 2 ^ e := le_mul_of_one_le_left he.le hm₁
        _ < _ := high
    have := ten_zpow_lt this
    omega
  · apply ten_zpow_lt
    rw [zpow_of_not_neg _ (by decide : ¬ (309 : Int) < 0)]
    calc (10 : ℚ) ^ leading ≤ m * 2 ^ e := low
      _ < 2 ^ 53 * 2 ^ e := mul_lt_mul_of_pos_right hm₂ he
      _ ≤ 2 ^ 53 * 2 ^ maxExponent := mul_le_mul_of_nonneg_left h₂ (by positivity)
      _ ≤ _ := greatest

/-- The form that the search finds reads back as the double. -/
theorem reads_shortest {m : Nat} {e : Int} (hm : m ≠ 0)
    (canonical : Canonical (.finite false m e)) :
    ofDecimal false (shortest m e).digits (shortest m e).scale = .finite false m e := by
  have hn := ratio_num_ne_zero hm e
  have hd := ratio_den_ne_zero m e
  have hv := ratio_quotient m e
  rw [shortest]
  dsimp only
  generalize (ratio m e).1 = num at *
  generalize (ratio m e).2 = den at *
  obtain ⟨low, high⟩ := leadingPower_bounds hn hd
  generalize leadingPower num den = leading at *
  rw [hv] at low high
  obtain ⟨hleast, hgreatest⟩ := leadingPower_range hm canonical low high
  apply reads_of_shortestFrom 16 1
  apply neighbour?_ne_none
  have hpos := inDecimalUnits_den_pos num (Nat.pos_of_ne_zero hd) (leading + 1 - 17)
  have hq := inDecimalUnits_quotient num den (leading + 1 - 17)
  simp only [Nat.reduceAdd, Nat.cast_ofNat]
  generalize inDecimalUnits num den (leading + 1 - 17) = p at *
  rw [hv] at hq
  have hs := ten_zpow_pos (leading + 1 - 17)
  have hsum : ∀ k : Nat, (10 : ℚ) ^ (leading + 1 - 17 + k) = 10 ^ (leading + 1 - 17) * 10 ^ k := by
    intro k
    rw [zpow_add₀ (by norm_num), zpow_natCast]
  have lower : 10 ^ 16 ≤ roundDiv p.1 p.2 := by
    apply le_roundDiv _ _ hpos
    rw [hq, le_div_iff₀ hs]
    have := hsum 16
    rw [show leading + 1 - 17 + ((16 : Nat) : Int) = leading by omega] at this
    push_cast
    linarith
  have upper : roundDiv p.1 p.2 ≤ 10 ^ 17 := by
    apply roundDiv_le _ _ hpos
    rw [hq, div_le_iff₀ hs]
    have := hsum 17
    rw [show leading + 1 - 17 + ((17 : Nat) : Int) = leading + 1 by omega] at this
    push_cast
    linarith
  have near := roundDiv_near p.1 hpos
  rw [hq] at near
  have hne : roundDiv p.1 p.2 ≠ 0 := by omega
  obtain ⟨bound₁, bound₂⟩ := toDigits_bounds hne
  have len₁ : (Nat.toDigits 10 (roundDiv p.1 p.2)).length ≤ 18 :=
    (Nat.length_toDigits_le_iff (by decide) (by decide)).mpr (by omega)
  apply ofDecimal_of_near false hne _ _ canonical (near_of_seventeen canonical.2.2.1 low near)
  · rw [magnitude]
    omega
  · rw [magnitude]
    omega

end LocaleKeys.Double
