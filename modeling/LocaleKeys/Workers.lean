import LocaleKeys.Number.Integer

/-!
How many workers a check uses: as many as are asked for, else one for each processor, up to eight.
-/

namespace LocaleKeys.Workers

/-- The number of workers for what is asked and the number of processors, if it is known. -/
def count (asked : Text) (processors : Option Int) : Int :=
  match Number.integer asked.toList with
  | .ok n => max 1 n
  | .error _ =>
    match processors with
    | none | some 0 => 1
    | some n => min 8 n

end LocaleKeys.Workers
