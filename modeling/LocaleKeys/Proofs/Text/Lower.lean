import LocaleKeys.Text.Lower
import Mathlib.Data.List.Infix
import LocaleKeys.Proofs.Text.Point

/-!
Lower-casing of ASCII text. Such a text is lower-cased character by character, whatever stands around
it, so it keeps its small form at the end of another text and does not change a second time.
-/

namespace LocaleKeys.Text

def IsAscii (s : List Point) : Prop :=
  ∀ c ∈ s, c.toNat < 0x80

instance (s : List Point) : Decidable (IsAscii s) :=
  List.decidableBAll (fun c : Point => c.toNat < 0x80) s

theorem isAscii_append {s t : List Point} (hs : IsAscii s) (ht : IsAscii t) : IsAscii (s ++ t) :=
  fun c hc => (List.mem_append.mp hc).elim (hs c) (ht c)

theorem toNat_lt_of_isAlpha {c : Char} (h : c.isAlpha = true) : c.toNat < 0x80 := by
  have hbound : c.val.toNat ≤ 'z'.val.toNat := by
    cases Bool.or_eq_true_iff.mp h with
    | inl upper =>
        have hrange : c.val ≥ 'A'.val ∧ c.val ≤ 'Z'.val := of_decide_eq_true upper
        exact (UInt32.le_iff_toNat_le.mp hrange.2).trans (by decide)
    | inr lower =>
        have hrange : (decide (c.val ≥ 'a'.val) && decide (c.val ≤ 'z'.val)) = true := lower
        rw [Bool.and_eq_true] at hrange
        exact UInt32.le_iff_toNat_le.mp (of_decide_eq_true hrange.2)
  exact hbound.trans_lt (by decide)

theorem isAscii_of_isAlpha {s : List Point} (h : s.all Point.isAlpha = true) : IsAscii s := by
  intro p hp
  have hkind : p.isAlpha = true := List.all_eq_true.mp h p hp
  cases p with
  | half n => exact absurd hkind Bool.false_ne_true
  | char c => exact toNat_lt_of_isAlpha hkind

theorem toLower_ascii {c : Point} (h : c.toNat < 0x80) :
    c.toLower.toNat < 0x80 ∧ c.toLower.toLower = c.toLower := by
  have hall : ∀ n < 0x80, (Point.ofNat n).toLower.toNat < 0x80 ∧
      (Point.ofNat n).toLower.toLower = (Point.ofNat n).toLower := by decide
  have hc := hall c.toNat h
  rwa [Point.ofNat_toNat] at hc

/-- Making letters small keeps apart letters and other characters, which stay as they are. -/
theorem toLower_spec (c : Point) :
    c.toLower.isAlpha = c.isAlpha ∧ (c.isAlpha = false → c.toLower = c) := by
  by_cases hc : c.toNat < 0x80
  · have hall : ∀ n < 0x80, (Point.ofNat n).toLower.isAlpha = (Point.ofNat n).isAlpha ∧
        ((Point.ofNat n).isAlpha = false → (Point.ofNat n).toLower = Point.ofNat n) := by decide
    have hn := hall c.toNat hc
    rwa [Point.ofNat_toNat] at hn
  · have hself : c.toLower = c := by
      cases c with
      | half n => rfl
      | char c =>
          have hcapital : ¬ (c.val ≥ 'A'.val ∧ c.val ≤ 'Z'.val) := by
            rintro ⟨-, hle⟩
            have hlow : c.toNat ≤ 'Z'.val.toNat := UInt32.le_iff_toNat_le.mp hle
            exact hc (hlow.trans_lt (by decide))
          exact congrArg Point.char (dif_neg hcapital)
    exact ⟨by rw [hself], fun _ => hself⟩

/-- What is no letter is the small form of itself alone. -/
theorem toLower_eq_iff {c d : Point} (hd : d.isAlpha = false) : c.toLower = d ↔ c = d := by
  obtain ⟨halpha, hself⟩ := toLower_spec c
  constructor
  · rintro rfl
    exact (hself (halpha.symm.trans hd)).symm
  · rintro rfl
    exact hself hd

/-- Digits are ASCII and have one case. -/
theorem ascii_of_isDigit {c : Point} (h : c.isDigit = true) : c.toNat < 0x80 ∧ c.toLower = c := by
  cases c with
  | half n => exact absurd h Bool.false_ne_true
  | char c =>
      simp only [Point.isDigit, Point.isOf, Char.isDigit, ge_iff_le, Bool.and_eq_true,
        decide_eq_true_eq, UInt32.le_iff_toNat_le] at h
      have hhigh : c.val.toNat ≤ 57 := h.2
      have hsmall : ¬ (65 ≤ c.val ∧ c.val ≤ 90) := by
        intro hcapital
        have hlow : 65 ≤ c.val.toNat := UInt32.le_iff_toNat_le.mp hcapital.1
        omega
      exact ⟨hhigh.trans_lt (by decide), congrArg Point.char (dif_neg hsmall)⟩

theorem lowerAfter_ascii {s : List Point} (h : IsAscii s) (before : List Point) :
    lowerAfter before s = s.map Point.toLower := by
  induction s generalizing before with
  | nil => rfl
  | cons c rest ih =>
      obtain ⟨hc, hrest⟩ := List.forall_mem_cons.mp h
      have hsigma : c.toNat ≠ 0x3a3 := by omega
      rw [lowerAfter, if_neg hsigma, lowerChar, if_pos hc, ih hrest]
      rfl

theorem lower_ascii {s : List Point} (h : IsAscii s) : lower s = s.map Point.toLower :=
  lowerAfter_ascii h []

theorem isAscii_map_toLower {s : List Point} (h : IsAscii s) : IsAscii (s.map Point.toLower) := by
  intro c hc
  obtain ⟨d, hd, rfl⟩ := List.mem_map.mp hc
  exact (toLower_ascii (h d hd)).1

theorem lower_lower_ascii {s : List Point} (h : IsAscii s) : lower (lower s) = lower s := by
  rw [lower_ascii h, lower_ascii (isAscii_map_toLower h), List.map_map]
  exact List.map_congr_left fun c hc => (toLower_ascii (h c hc)).2

theorem suffix_lowerAfter (before front s : List Point) :
    lowerAfter (front.reverse ++ before) s <:+ lowerAfter before (front ++ s) := by
  induction front generalizing before with
  | nil => exact List.suffix_rfl
  | cons c front ih =>
      simp only [List.reverse_cons, List.append_assoc, List.cons_append, lowerAfter]
      exact (ih (c :: before)).trans (List.suffix_append _ _)

/-- The small form of an ASCII text ends that of every text which the text ends. -/
theorem lower_suffix {s text : List Point} (h : IsAscii s) (hsuffix : s <:+ text) :
    lower s <:+ lower text := by
  obtain ⟨front, rfl⟩ := hsuffix
  have hend := suffix_lowerAfter [] front s
  rwa [lowerAfter_ascii h, ← lower_ascii h] at hend

/-- How long the small form of a text is does not depend on what follows it. -/
theorem length_lowerAfter_append (before front : List Point) :
    ∃ n, ∀ s, (lowerAfter before (front ++ s)).length =
      n + (lowerAfter (front.reverse ++ before) s).length := by
  induction front generalizing before with
  | nil => exact ⟨0, fun s => (Nat.zero_add _).symm⟩
  | cons c front ih =>
      obtain ⟨n, hn⟩ := ih (c :: before)
      by_cases hsigma : c.toNat = 0x3a3
      · refine ⟨n + 1, fun s => ?_⟩
        simp only [List.cons_append, lowerAfter, hsigma, if_true, List.length_cons, hn s,
          List.nil_append, List.reverse_cons, List.append_assoc, Nat.add_right_comm]
      · refine ⟨(lowerChar c).length + n, fun s => ?_⟩
        simp only [List.cons_append, lowerAfter, hsigma, if_false, List.length_append, hn s,
          List.nil_append, List.reverse_cons, List.append_assoc, Nat.add_assoc]

/-- ASCII texts behind one text have the same small form if the whole texts have. -/
theorem map_toLower_of_lower_append {front s t : List Point} (hs : IsAscii s) (ht : IsAscii t)
    (h : lower (front ++ s) = lower (front ++ t)) : s.map Point.toLower = t.map Point.toLower := by
  obtain ⟨n, hn⟩ := length_lowerAfter_append [] front
  have hlengths : s.length = t.length := by
    have hwhole := congrArg List.length h
    rw [lower, lower, hn, hn, lowerAfter_ascii hs, lowerAfter_ascii ht, List.length_map,
      List.length_map] at hwhole
    exact Nat.add_left_cancel hwhole
  have hfirst : s.map Point.toLower <:+ lower (front ++ s) :=
    lower_ascii hs ▸ lower_suffix hs (List.suffix_append front s)
  have hsecond : t.map Point.toLower <:+ lower (front ++ s) :=
    h ▸ lower_ascii ht ▸ lower_suffix ht (List.suffix_append front t)
  have hle : (s.map Point.toLower).length ≤ (t.map Point.toLower).length := by simp [hlengths]
  exact (List.suffix_of_suffix_length_le hfirst hsecond hle).eq_of_length (by simp [hlengths])

end LocaleKeys.Text
