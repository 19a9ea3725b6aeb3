import LocaleKeys.Text.Lines
import Mathlib.Data.List.Basic

/-!
Places against offsets. Every character moves the place on, so no two offsets of a text share one; and
the line tells how many line feeds stand before.
-/

namespace LocaleKeys.Text.Position

/-- An earlier line, or an earlier column of the same line. -/
def Before (p q : Position) : Prop :=
  p.line < q.line ∨ p.line = q.line ∧ p.column < q.column

theorem Before.trans {p q r : Position} (first : p.Before q) (second : q.Before r) : p.Before r := by
  unfold Before at *
  omega

theorem Before.ne {p q : Position} (h : p.Before q) : p ≠ q := by
  rintro rfl
  unfold Before at h
  omega

theorem before_after (p : Position) (c : Point) : p.Before (p.after c) := by
  unfold Before after
  split
  · exact Or.inl (Nat.lt_succ_self _)
  · exact Or.inr ⟨rfl, Nat.lt_succ_self _⟩

theorem afterAll_append (p : Position) (s t : List Point) :
    p.afterAll (s ++ t) = (p.afterAll s).afterAll t :=
  List.foldl_append

theorem before_afterAll (p : Position) {s : List Point} (hs : s ≠ []) : p.Before (p.afterAll s) := by
  induction s generalizing p with
  | nil => exact absurd rfl hs
  | cons c s ih =>
      cases s with
      | nil => exact before_after p c
      | cons d s => exact (before_after p c).trans (ih (p.after c) (List.cons_ne_nil d s))

theorem ofOffset_before {s : List Point} {i j : Nat} (hij : i < j) (hj : j ≤ s.length) :
    (ofOffset s i).Before (ofOffset s j) := by
  obtain ⟨k, rfl⟩ := Nat.exists_eq_add_of_lt hij
  have hbetween : (s.drop i).take (k + 1) ≠ [] := by
    rw [Ne, List.take_eq_nil_iff, List.drop_eq_nil_iff]
    omega
  rw [ofOffset, ofOffset, Nat.add_assoc, List.take_add, afterAll_append]
  exact before_afterAll _ hbetween

/-- Two offsets of a text have two places. -/
theorem ofOffset_inj {s : List Point} {i j : Nat} (hi : i ≤ s.length) (hj : j ≤ s.length)
    (h : ofOffset s i = ofOffset s j) : i = j := by
  obtain hlt | heq | hgt := Nat.lt_trichotomy i j
  · exact absurd h (ofOffset_before hlt hj).ne
  · exact heq
  · exact absurd h.symm (ofOffset_before hgt hi).ne

theorem line_afterAll (p : Position) (s : List Point) :
    (p.afterAll s).line = p.line + s.count (.char '\n') := by
  induction s generalizing p with
  | nil => rfl
  | cons c s ih =>
      have hnext : (p.afterAll (c :: s)).line = ((p.after c).afterAll s).line := rfl
      rw [hnext, ih, after, List.count_cons]
      by_cases hc : c = '\n'
      · simp [hc, Nat.add_assoc, Nat.add_comm 1]
      · simp [hc]

end LocaleKeys.Text.Position
