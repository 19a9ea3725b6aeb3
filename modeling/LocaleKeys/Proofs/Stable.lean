import Mathlib.Data.List.Nodup

/-!
Stable sorting. Elements that are tied keep their order, so a sorted list is determined by its classes
of ties, and tied elements of it are related as they were before.
-/

namespace LocaleKeys.Stable

variable {α : Type} {le : α → α → Bool}

def tied (le : α → α → Bool) (a b : α) : Bool :=
  le a b && le b a

variable (trans : ∀ a b c, le a b = true → le b c = true → le a c = true)
variable (total : ∀ a b, (le a b || le b a) = true)

include total in
theorem tied_self (a : α) : tied le a a = true := by
  have h := total a a
  rw [Bool.or_self] at h
  rw [tied, h, Bool.and_self]

include trans in
theorem pairwise_filter_tied (a : α) (l : List α) :
    (l.filter (tied le a)).Pairwise fun x y => le x y = true := by
  apply List.pairwise_of_forall_mem_list
  intro x hx y hy
  have hxa := (Bool.and_eq_true_iff.mp (List.mem_filter.mp hx).2).2
  have hay := (Bool.and_eq_true_iff.mp (List.mem_filter.mp hy).2).1
  exact trans x a y hxa hay

include trans total

/-- Sorting keeps the order of the elements that are tied with one. -/
theorem filter_tied_mergeSort (a : α) (l : List α) :
    (l.mergeSort le).filter (tied le a) = l.filter (tied le a) := by
  have hsorted := List.sublist_mergeSort trans total (pairwise_filter_tied trans a l)
    List.filter_sublist
  have hties := hsorted.filter (tied le a)
  simp only [List.filter_filter, Bool.and_self] at hties
  have hlength := ((List.mergeSort_perm l le).filter (tied le a)).length_eq
  exact (hties.eq_of_length hlength.symm).symm

/-- In a sorted list no element comes before a smaller one, and tied ones are related as the list
relates them. -/
theorem pairwise_mergeSort_ties {R : α → α → Prop} {l : List α} (hl : l.Pairwise R) :
    (l.mergeSort le).Pairwise fun x y => le x y = true ∧ (le y x = true → R x y) := by
  rw [List.pairwise_iff_forall_sublist]
  intro x y hxy
  have hle : le x y = true :=
    List.pairwise_iff_forall_sublist.mp (List.pairwise_mergeSort trans total l) hxy
  refine ⟨hle, fun hge => ?_⟩
  have hx : tied le x x = true := tied_self total x
  have hy : tied le x y = true := by rw [tied, hle, hge, Bool.and_self]
  have hclass := hxy.filter (tied le x)
  rw [List.filter_cons_of_pos hx, List.filter_cons_of_pos hy, List.filter_nil,
    filter_tied_mergeSort trans total] at hclass
  exact List.pairwise_iff_forall_sublist.mp hl (hclass.trans List.filter_sublist)

omit trans in
theorem mem_of_filter_tied {l l' : List α} {a : α}
    (h : l.filter (tied le a) = l'.filter (tied le a)) (hmem : a ∈ l) : a ∈ l' := by
  have hclass := List.mem_filter.mpr ⟨hmem, tied_self total a⟩
  rw [h] at hclass
  exact (List.mem_filter.mp hclass).1

omit trans in
/-- A sorted list is put together from its classes of ties in one way. -/
theorem eq_of_filter_tied {l l' : List α} (hl : l.Pairwise fun x y => le x y = true)
    (hl' : l'.Pairwise fun x y => le x y = true)
    (h : ∀ a, l.filter (tied le a) = l'.filter (tied le a)) : l = l' := by
  induction l generalizing l' with
  | nil =>
      cases l' with
      | nil => rfl
      | cons y ys => cases mem_of_filter_tied total (h y).symm List.mem_cons_self
  | cons x xs ih =>
      cases l' with
      | nil => cases mem_of_filter_tied total (h x) List.mem_cons_self
      | cons y ys =>
          -- Each head stands before the other one, so both open the same class of ties.
          have hself : ∀ a, le a a = true := fun a =>
            (Bool.and_eq_true_iff.mp (tied_self total a)).1
          have hxy : le x y = true := by
            cases mem_of_filter_tied total (h y).symm List.mem_cons_self with
            | head _ => exact hself x
            | tail _ hy => exact (List.pairwise_cons.mp hl).1 y hy
          have hyx : le y x = true := by
            cases mem_of_filter_tied total (h x) List.mem_cons_self with
            | head _ => exact hself x
            | tail _ hx => exact (List.pairwise_cons.mp hl').1 x hx
          have hties : tied le x y = true := by rw [tied, hxy, hyx, Bool.and_self]
          have hclass := h x
          rw [List.filter_cons_of_pos (tied_self total x), List.filter_cons_of_pos hties] at hclass
          obtain ⟨rfl, -⟩ := List.cons.inj hclass
          have hrest : ∀ a, xs.filter (tied le a) = ys.filter (tied le a) := by
            intro a
            have ha := h a
            simp only [List.filter_cons] at ha
            split at ha
            · exact (List.cons.inj ha).2
            · exact ha
          rw [ih hl.of_cons hl'.of_cons hrest]

/-- Elements in front may change places before sorting, if those that are tied are equal. -/
theorem mergeSort_append_congr {s s' : List α} (hperm : s.Perm s')
    (hties : ∀ a ∈ s, ∀ b ∈ s, tied le a b = true → a = b) (rest : List α) :
    (s ++ rest).mergeSort le = (s' ++ rest).mergeSort le := by
  apply eq_of_filter_tied total (List.pairwise_mergeSort trans total _)
    (List.pairwise_mergeSort trans total _)
  intro a
  have hclass : s.filter (tied le a) = s'.filter (tied le a) := by
    refine List.Perm.eq_of_pairwise ?_ (pairwise_filter_tied trans a s)
      (pairwise_filter_tied trans a s') (hperm.filter _)
    intro x y hx hy hxy hyx
    refine hties x (List.mem_filter.mp hx).1 y (hperm.mem_iff.mpr (List.mem_filter.mp hy).1) ?_
    rw [tied, hxy, hyx, Bool.and_self]
  rw [filter_tied_mergeSort trans total, filter_tied_mergeSort trans total, List.filter_append,
    List.filter_append, hclass]

/-- What is sorted does not depend on the order that it had before, if tied elements are equal. -/
theorem mergeSort_congr {s s' : List α} (hperm : s.Perm s')
    (hties : ∀ a ∈ s, ∀ b ∈ s, tied le a b = true → a = b) : s.mergeSort le = s'.mergeSort le := by
  have happend := mergeSort_append_congr trans total hperm hties []
  rwa [List.append_nil, List.append_nil] at happend

/-- Values that are told apart by what they are sorted by may come in any order. -/
theorem mergeSort_eq_of_perm {β : Type} (key : β → α) {values others : List β}
    (antisymm : ∀ a b, le a b = true → le b a = true → a = b) (hperm : values.Perm others)
    (hnodup : (values.map key).Nodup) :
    (values.mergeSort fun x y => le (key x) (key y)) =
      others.mergeSort fun x y => le (key x) (key y) := by
  refine mergeSort_congr (fun x y z => trans (key x) (key y) (key z))
    (fun x y => total (key x) (key y)) hperm ?_
  intro x hx y hy htied
  obtain ⟨hxy, hyx⟩ := Bool.and_eq_true_iff.mp htied
  exact List.inj_on_of_nodup_map hnodup hx hy (antisymm _ _ hxy hyx)

end LocaleKeys.Stable
