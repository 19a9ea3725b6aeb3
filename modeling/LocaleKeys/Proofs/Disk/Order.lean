import LocaleKeys.Disk.Basic
import LocaleKeys.Proofs.Stable
import LocaleKeys.Proofs.Text.Point

/-!
Places in order, and places below others. The order is that of lists, a linear one, so a sorted list of
places is known by what is in it.
-/

namespace LocaleKeys.Place

theorem le_iff {a b : Place} : Place.le a b = true ↔ List.le a b := by
  induction a generalizing b with
  | nil => exact iff_of_true rfl (List.nil_le b)
  | cons x a ih =>
      cases b with
      | nil => exact iff_of_false Bool.false_ne_true fun h => h (List.nil_lt_cons x a)
      | cons y b =>
          have hcons : List.le (x :: a) (y :: b) ↔ x < y ∨ x = y ∧ List.le a b :=
            List.cons_le_cons_iff
          rw [Place.le, hcons]
          by_cases hxy : x = y
          · subst hxy
            rw [if_pos rfl, ih, or_iff_right (Text.lt_irrefl x), and_iff_right rfl]
          · rw [if_neg hxy, decide_eq_true_iff, or_iff_left fun h => hxy h.1]

theorem nodup_eraseDups (places : List Place) : places.eraseDups.Nodup := by
  cases places with
  | nil => exact List.nodup_nil
  | cons place rest =>
      rw [List.eraseDups_cons, List.nodup_cons, List.mem_eraseDups]
      exact ⟨by simp, nodup_eraseDups _⟩
termination_by places.length
decreasing_by exact Nat.lt_succ_of_le (List.length_filter_le _ _)

theorem le_of_le_of_le (a b c : Place) (hab : Place.le a b = true) (hbc : Place.le b c = true) :
    Place.le a c = true := by
  rw [le_iff] at *
  exact List.le_trans hab hbc

theorem le_or_le (a b : Place) : (Place.le a b || Place.le b a) = true := by
  rw [Bool.or_eq_true, le_iff, le_iff]
  exact List.le_total a b

theorem eq_of_le_of_le {a b : Place} (hab : Place.le a b = true) (hba : Place.le b a = true) :
    a = b := by
  rw [le_iff] at hab hba
  exact List.le_antisymm hab hba

/-- Places below one folder are in the order of the names that lead to them from there. -/
theorem le_append (folder a b : Place) : Place.le (folder ++ a) (folder ++ b) = Place.le a b := by
  induction folder with
  | nil => rfl
  | cons name folder ih => rw [List.cons_append, List.cons_append, Place.le, if_pos rfl, ih]

/-- Values in the order of their places are known by what is in it, if no two have the same place. -/
theorem mergeSort_eq_of_perm {α : Type} (place : α → Place) {values others : List α}
    (hperm : values.Perm others) (hnodup : (values.map place).Nodup) :
    (values.mergeSort fun a b => Place.le (place a) (place b)) =
      others.mergeSort fun a b => Place.le (place a) (place b) :=
  Stable.mergeSort_eq_of_perm le_of_le_of_le le_or_le place (fun _ _ => eq_of_le_of_le) hperm hnodup

theorem pairwise_sorted (places : List Place) : (Place.sorted places).Pairwise List.le := by
  have hordered := List.pairwise_mergeSort le_of_le_of_le le_or_le places.eraseDups
  exact hordered.imp le_iff.mp

/-- A sorted list of places goes up at each step, so none is in it twice. -/
theorem pairwise_lt_sorted (places : List Place) : (Place.sorted places).Pairwise (· < ·) := by
  have hnodup : (Place.sorted places).Nodup :=
    (List.mergeSort_perm _ _).nodup_iff.mpr (nodup_eraseDups places)
  have hordered := (pairwise_sorted places).and hnodup
  refine hordered.imp fun {a b} ⟨hle, hne⟩ => ?_
  by_contra hlt
  exact hne (List.le_antisymm hle hlt)

theorem sorted_congr {places others : List Place} (h : ∀ place, place ∈ places ↔ place ∈ others) :
    Place.sorted places = Place.sorted others := by
  have hperm : places.eraseDups.Perm others.eraseDups := by
    rw [List.perm_ext_iff_of_nodup (nodup_eraseDups _) (nodup_eraseDups _)]
    intro place
    rw [List.mem_eraseDups, List.mem_eraseDups]
    exact h place
  have hsorted : (Place.sorted places).Perm (Place.sorted others) :=
    (List.mergeSort_perm _ _).trans (hperm.trans (List.mergeSort_perm _ _).symm)
  exact hsorted.eq_of_pairwise (fun _ _ _ _ => List.le_antisymm) (pairwise_sorted _) (pairwise_sorted _)

end LocaleKeys.Place
