import LocaleKeys.Text.Point
import Mathlib.Data.List.Infix

/-!
Texts that are taken apart at a separator, or put together with one.
-/

namespace LocaleKeys.Text

/-- No part between separators has a separator. -/
theorem not_mem_of_mem_splitOn {separator : Point} {s part : List Point}
    (h : part ∈ s.splitOn separator) : separator ∉ part := by
  induction s generalizing part with
  | nil =>
      rw [List.splitOn_nil, List.mem_singleton] at h
      simp [h]
  | cons c s ih =>
      rw [List.splitOn_cons_eq_if_modifyHead] at h
      split at h
      · cases h with
        | head => exact List.not_mem_nil
        | tail _ hmem => exact ih hmem
      · next hc =>
          have hne : c ≠ separator := by simpa using hc
          obtain ⟨first, rest, hparts⟩ := List.exists_cons_of_ne_nil (List.splitOn_ne_nil separator s)
          rw [hparts] at h ih
          cases h with
          | head => exact List.not_mem_cons_of_ne_of_not_mem hne.symm (ih List.mem_cons_self)
          | tail _ hmem => exact ih (List.mem_cons_of_mem _ hmem)

theorem subset_of_mem_splitOn {separator : Point} {s part : List Point}
    (h : part ∈ s.splitOn separator) : part ⊆ s := by
  induction s generalizing part with
  | nil =>
      rw [List.splitOn_nil, List.mem_singleton] at h
      simp [h]
  | cons c s ih =>
      rw [List.splitOn_cons_eq_if_modifyHead] at h
      split at h
      · cases h with
        | head => exact List.nil_subset _
        | tail _ hmem => exact List.subset_cons_of_subset c (ih hmem)
      · obtain ⟨first, rest, hparts⟩ := List.exists_cons_of_ne_nil (List.splitOn_ne_nil separator s)
        rw [hparts] at h ih
        cases h with
        | head => exact List.cons_subset_cons c (ih List.mem_cons_self)
        | tail _ hmem => exact List.subset_cons_of_subset c (ih (List.mem_cons_of_mem _ hmem))

section Map

variable {f : Point → Point} {separator : Point} (hf : ∀ c, f c = separator ↔ c = separator)

include hf

/-- Where separators stay what they are and nothing else becomes one, a text is split at the same places. -/
theorem splitOn_map (s : List Point) :
    (s.map f).splitOn separator = (s.splitOn separator).map (List.map f) := by
  induction s with
  | nil => rfl
  | cons c rest ih =>
      have hc : (f c == separator) = (c == separator) := by
        rw [Bool.eq_iff_iff, beq_iff_eq, beq_iff_eq, hf]
      rw [List.map_cons, List.splitOn_cons_eq_if_modifyHead, List.splitOn_cons_eq_if_modifyHead, ih, hc]
      split
      · rfl
      · obtain ⟨first, parts, hparts⟩ := List.exists_cons_of_ne_nil (List.splitOn_ne_nil separator rest)
        rw [hparts]
        rfl

theorem map_intercalate (parts : List (List Point)) :
    ([separator].intercalate parts).map f = [separator].intercalate (parts.map (List.map f)) := by
  induction parts with
  | nil => simp
  | cons part parts ih =>
      cases parts with
      | nil => simp
      | cons next parts =>
          rw [List.intercalate_cons_cons, List.map_append, List.map_append, ih]
          simp only [List.map_cons, List.map_nil, List.intercalate_cons_cons, (hf separator).mpr rfl]

end Map

/-- A text is split in one way at the first separator. -/
theorem append_separator_inj {separator : Point} {s t back back' : List Point} (hs : separator ∉ s)
    (ht : separator ∉ t) (h : s ++ separator :: back = t ++ separator :: back') :
    s = t ∧ back = back' := by
  induction s generalizing t with
  | nil =>
      cases t with
      | nil => exact ⟨rfl, (List.cons.inj h).2⟩
      | cons d t => exact absurd ((List.cons.inj h).1 ▸ List.mem_cons_self) ht
  | cons c s ih =>
      cases t with
      | nil => exact absurd ((List.cons.inj h).1 ▸ List.mem_cons_self) hs
      | cons d t =>
          obtain ⟨rfl, hrest⟩ := List.cons.inj h
          obtain ⟨rfl, hback⟩ :=
            ih (List.not_mem_of_not_mem_cons hs) (List.not_mem_of_not_mem_cons ht) hrest
          exact ⟨rfl, hback⟩

/-- What holds of a separator and of all parts holds of the text that they make. -/
theorem forall_mem_intercalate {P : Point → Prop} {separator : List Point}
    (hseparator : ∀ c ∈ separator, P c) {parts : List (List Point)} :
    (∀ c ∈ separator.intercalate parts, P c) ↔ ∀ part ∈ parts, ∀ c ∈ part, P c := by
  induction parts with
  | nil => simp
  | cons part parts ih =>
      cases parts with
      | nil => simp
      | cons next parts =>
          rw [List.intercalate_cons_cons, List.forall_mem_append, List.forall_mem_append, ih,
            List.forall_mem_cons (l := next :: parts)]
          exact and_congr_left fun _ => and_iff_left hseparator

theorem intercalate_prefix (separator : List Point) (front back : List (List Point)) :
    separator.intercalate front <+: separator.intercalate (front ++ back) := by
  induction front with
  | nil => simp
  | cons part front ih =>
      cases front with
      | nil =>
          cases back with
          | nil => simp
          | cons next back => simp [List.intercalate_cons_cons, List.append_assoc]
      | cons next front =>
          rw [List.cons_append, List.cons_append, List.intercalate_cons_cons,
            List.intercalate_cons_cons]
          exact (List.prefix_append_right_inj _).mpr ih

theorem suffix_intercalate (separator : List Point) (front : List (List Point)) (last : List Point) :
    last <:+ separator.intercalate (front ++ [last]) := by
  induction front with
  | nil => simp
  | cons part front ih =>
      obtain ⟨next, rest, hrest⟩ := List.exists_cons_of_ne_nil
        (List.append_ne_nil_of_right_ne_nil front (List.cons_ne_nil last []))
      rw [List.cons_append, hrest, List.intercalate_cons_cons, ← hrest]
      exact ih.trans (List.suffix_append _ _)

end LocaleKeys.Text
