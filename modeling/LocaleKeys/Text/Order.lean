import LocaleKeys.Text.Point

/-!
Lists of texts in ascending order, by code points.
-/

namespace LocaleKeys.Text

def sorted (texts : List Text) : List Text :=
  texts.mergeSort fun a b => decide (a ≤ b)

/-- Values in ascending order of their texts, equal ones in the order given. -/
def sortedBy {α : Type} (text : α → Text) (values : List α) : List α :=
  values.mergeSort fun a b => decide (text a ≤ text b)

def distinct (texts : List Text) : List Text :=
  texts.foldl (fun seen s => if seen.contains s then seen else seen ++ [s]) []

end LocaleKeys.Text
