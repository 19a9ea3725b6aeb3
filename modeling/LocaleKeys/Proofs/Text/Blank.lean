import LocaleKeys.Text.Blank
import Mathlib.Data.List.DropRight
import Mathlib.Data.List.TakeWhile

/-!
Trimming. What stands before a character that is not blank stays, and trimming a second time changes
nothing.
-/

namespace LocaleKeys.Text

theorem trimRight_append {c : Point} (hc : isBlank c = false) (before after : List Point) :
    trimRight (before ++ c :: after) = before ++ c :: trimRight after := by
  have hsplit : (before ++ c :: after).reverse = after.reverse ++ (c :: before.reverse) := by simp
  rw [trimRight, hsplit, List.dropWhile_append]
  split
  · next hempty =>
      have hnil : trimRight after = [] := by
        rw [trimRight, List.isEmpty_iff.mp hempty, List.reverse_nil]
      rw [hnil, List.dropWhile_cons_of_neg (by simp [hc])]
      simp
  · simp [trimRight]

theorem trim_ne_nil {s : List Point} {c : Point} (hmem : c ∈ s) (hc : isBlank c = false) :
    trim s ≠ [] := by
  intro hnil
  rw [trim, trimRight, List.reverse_eq_nil_iff, List.dropWhile_eq_nil_iff] at hnil
  have hleft : trimLeft s ≠ [] := by
    rw [trimLeft, Ne, List.dropWhile_eq_nil_iff]
    intro h
    exact absurd (h c hmem) (by simp [hc])
  have hhead := List.head_dropWhile_not isBlank hleft
  have hblank := hnil _ (List.mem_reverse.mpr (List.head_mem hleft))
  exact absurd hblank (by simpa [trimLeft] using hhead)

theorem mem_of_mem_trim {s : List Point} {c : Point} (h : c ∈ trim s) : c ∈ s := by
  rw [trim, trimRight, List.mem_reverse] at h
  have hleft : c ∈ trimLeft s := List.mem_reverse.mp ((List.dropWhile_sublist _).mem h)
  exact (List.dropWhile_sublist _).mem hleft

theorem trimRight_trimRight (s : List Point) : trimRight (trimRight s) = trimRight s :=
  List.rdropWhile_idempotent isBlank s

/-- What trimming leaves is empty, or it starts with a character that is not blank. -/
theorem trim_cases (s : List Point) :
    trim s = [] ∨ ∃ c rest, isBlank c = false ∧ trim s = c :: trimRight rest := by
  cases hleft : trimLeft s with
  | nil =>
      left
      rw [trim, hleft]
      rfl
  | cons c rest =>
      right
      have hne : s.dropWhile isBlank ≠ [] := by
        intro hnil
        rw [trimLeft, hnil] at hleft
        cases hleft
      have hc : isBlank c = false := by
        have hhead := List.head_dropWhile_not isBlank hne
        simp only [trimLeft] at hleft
        simpa [hleft] using hhead
      refine ⟨c, rest, hc, ?_⟩
      rw [trim, hleft]
      exact trimRight_append hc [] rest

theorem trim_trim (s : List Point) : trim (trim s) = trim s := by
  obtain hnil | ⟨c, rest, hc, hcons⟩ := trim_cases s
  · rw [hnil]
    rfl
  · rw [hcons, trim, trimLeft, List.dropWhile_cons_of_neg (by simp [hc])]
    have hkept := trimRight_append hc [] (trimRight rest)
    rwa [trimRight_trimRight] at hkept

/-- Text between a character that is not blank and one that is trimmed is trimmed. -/
theorem trim_append {c : Point} {s : List Point} (hc : isBlank c = false) (front : List Point)
    (hs : trim s = s) (hne : s ≠ []) : trim (c :: front ++ s) = c :: front ++ s := by
  obtain hnil | ⟨d, rest, hd, hcons⟩ := trim_cases s
  · exact absurd (hs.symm.trans hnil) hne
  · rw [hs] at hcons
    rw [trim, trimLeft, List.cons_append, List.dropWhile_cons_of_neg (by simp [hc]), hcons,
      ← List.cons_append, trimRight_append hd, trimRight_trimRight]

end LocaleKeys.Text
