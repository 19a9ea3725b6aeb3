import LocaleKeys.Text.Order
import LocaleKeys.Proofs.Stable
import LocaleKeys.Proofs.Text.Point

/-!
Values in the order of their texts. If no two values have the same text, the order in which they come
does not matter.
-/

namespace LocaleKeys.Text

theorem le_of_le_of_le (a b c : Text) (hab : decide (a ≤ b) = true)
    (hbc : decide (b ≤ c) = true) : decide (a ≤ c) = true :=
  decide_eq_true (Text.le_trans (of_decide_eq_true hab) (of_decide_eq_true hbc))

theorem le_or_le (a b : Text) : (decide (a ≤ b) || decide (b ≤ a)) = true := by
  simpa using Text.le_total a b

variable {α : Type} (text : α → Text)

theorem pairwise_sortedBy (values : List α) :
    (sortedBy text values).Pairwise fun a b => text a ≤ text b := by
  have hordered := List.pairwise_mergeSort
    (fun a b c => le_of_le_of_le (text a) (text b) (text c))
    (fun a b => le_or_le (text a) (text b)) values
  exact hordered.imp of_decide_eq_true

theorem sortedBy_perm {values others : List α} (hperm : values.Perm others)
    (hnodup : (values.map text).Nodup) : sortedBy text values = sortedBy text others :=
  Stable.mergeSort_eq_of_perm le_of_le_of_le le_or_le text
    (fun _ _ hab hba => Text.le_antisymm (of_decide_eq_true hab) (of_decide_eq_true hba)) hperm hnodup

end LocaleKeys.Text
