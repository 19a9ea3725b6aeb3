import LocaleKeys.Datum

/-!
Values that cannot be written. It is always a part that is in the way: an integer with too many digits,
or a collection that too many others are around.
-/

namespace LocaleKeys.Datum

variable {d : Datum} {room : Nat}

/-- The values that a collection is written with. -/
def elements? : Datum → Option (List Datum)
  | .list items | .tuple items | .set items => some items
  | .map entries => some (entries.flatMap fun entry => [entry.1, entry.2])
  | _ => none

/-- A value has a part that so many of its collections are around. -/
inductive HasPart : Datum → Nat → Datum → Prop
  | self (d : Datum) : HasPart d 0 d
  | element {d element part : Datum} {elements : List Datum} {depth : Nat}
      (helements : d.elements? = some elements) (hmem : element ∈ elements)
      (h : HasPart element depth part) : HasPart d (depth + 1) part
  | knot {number : Nat} {value part : Datum} {depth : Nat} (h : HasPart value depth part) :
      HasPart (.knot number value) depth part

/-- A part is in the way of writing where there is room for so many levels. -/
inductive IsObstacle (room : Nat) : Nat → Datum → Prop
  | integer {depth : Nat} {n : Int} (h : Number.isUnwritable n = true) : IsObstacle room depth (.int n)
  | level {depth : Nat} {part : Datum} (hpart : part.elements? ≠ none) (h : room ≤ depth) :
      IsObstacle room depth part

/-- A value has a part that is in the way of writing it. -/
def IsUnwritableIn (room : Nat) (d : Datum) : Prop :=
  ∃ depth part, HasPart d depth part ∧ IsObstacle room depth part

/-- A value cannot be written: an integer inside takes too many digits, or it is nested too deep. -/
def IsUnwritable (d : Datum) : Prop :=
  d.IsUnwritableIn maxDepth

/-! One level -/

theorem isUnwritableIn_int {n : Int} :
    (Datum.int n).IsUnwritableIn room ↔ Number.isUnwritable n = true := by
  constructor
  · rintro ⟨depth, part, ⟨⟩ | ⟨helements, -, -⟩ | _, hobstacle⟩
    · cases hobstacle with
      | integer h => exact h
      | level hpart h => exact absurd rfl hpart
    · cases helements
  · intro h
    exact ⟨0, _, .self _, .integer h⟩

theorem isUnwritableIn_knot {number : Nat} {value : Datum} :
    (Datum.knot number value).IsUnwritableIn room ↔ value.IsUnwritableIn room := by
  constructor
  · rintro ⟨depth, part, ⟨⟩ | ⟨helements, -, -⟩ | hpart, hobstacle⟩
    · cases hobstacle with
      | level hpart h => exact absurd rfl hpart
    · cases helements
    · exact ⟨depth, part, hpart, hobstacle⟩
  · rintro ⟨depth, part, hpart, hobstacle⟩
    exact ⟨depth, part, .knot hpart, hobstacle⟩

theorem isUnwritableIn_collection {elements : List Datum} (h : d.elements? = some elements) :
    d.IsUnwritableIn room ↔
      room = 0 ∨ ∃ element ∈ elements, element.IsUnwritableIn (room - 1) := by
  constructor
  · rintro ⟨depth, part, hpart, hobstacle⟩
    cases hpart with
    | self =>
        cases hobstacle with
        | integer => cases h
        | level _ hroom => exact Or.inl (Nat.le_zero.mp hroom)
    | knot => cases h
    | element helements hmem hinner =>
        cases h.symm.trans helements
        refine Or.inr ⟨_, hmem, _, part, hinner, ?_⟩
        cases hobstacle with
        | integer hn => exact .integer hn
        | level hpart hroom => exact .level hpart (by omega)
  · rintro (rfl | ⟨element, hmem, depth, part, hpart, hobstacle⟩)
    · exact ⟨0, d, .self d, .level (by simp [h]) (Nat.le_refl 0)⟩
    · refine ⟨depth + 1, part, .element h hmem hpart, ?_⟩
      cases hobstacle with
      | integer hn => exact .integer hn
      | level hinner hroom => exact .level hinner (by omega)

/-- A value that has nothing inside and is no integer can be written. -/
theorem not_isUnwritableIn_atom (hint : ∀ n, d ≠ .int n) (hknot : ∀ n v, d ≠ .knot n v)
    (helements : d.elements? = none) : ¬ d.IsUnwritableIn room := by
  rintro ⟨depth, part, hpart, hobstacle⟩
  cases hpart with
  | self =>
      cases hobstacle with
      | integer => exact hint _ rfl
      | level hpart => exact hpart helements
  | knot => exact hknot _ _ rfl
  | element h => simp [helements] at h

/-! All levels -/

mutual

theorem faultIn_iff (room : Nat) (d : Datum) : faultIn room d ≠ none ↔ d.IsUnwritableIn room := by
  cases d with
  | int n => rw [faultIn, isUnwritableIn_int]; simp
  | knot number value => rw [faultIn, isUnwritableIn_knot, faultIn_iff]
  | list items | tuple items | set items =>
      rw [faultIn, isUnwritableIn_collection rfl, ← faultInAll_iff]
      by_cases h : room = 0 <;> simp [h]
  | map entries =>
      rw [faultIn, isUnwritableIn_collection rfl, ← faultInEntries_iff]
      by_cases h : room = 0 <;> simp [h]
  | _ => exact iff_of_false (· rfl) (not_isUnwritableIn_atom nofun nofun rfl)

theorem faultInAll_iff (room : Nat) (items : List Datum) :
    faultInAll room items ≠ none ↔ ∃ item ∈ items, item.IsUnwritableIn room := by
  cases items with
  | nil => simp [faultInAll]
  | cons item rest =>
      simp only [List.mem_cons, exists_eq_or_imp]
      rw [faultInAll, ← faultIn_iff room item, ← faultInAll_iff room rest]
      cases faultIn room item <;> simp

theorem faultInEntries_iff (room : Nat) (entries : List (Datum × Datum)) :
    faultInEntries room entries ≠ none ↔
      ∃ element ∈ entries.flatMap fun entry => [entry.1, entry.2], element.IsUnwritableIn room := by
  cases entries with
  | nil => simp [faultInEntries]
  | cons entry rest =>
      obtain ⟨key, value⟩ := entry
      simp only [List.flatMap_cons, List.cons_append, List.nil_append, List.mem_cons,
        exists_eq_or_imp]
      rw [faultInEntries, ← faultIn_iff room key, ← faultIn_iff room value,
        ← faultInEntries_iff room rest]
      cases faultIn room key <;> cases faultIn room value <;> simp

end

/-- What cannot be written is found before it is written, and nothing else is. -/
theorem writeFault?_ne_none_iff : d.writeFault? ≠ none ↔ d.IsUnwritable :=
  faultIn_iff maxDepth d

theorem not_isUnwritable_text (s : Text) : ¬ (Datum.text s).IsUnwritable :=
  not_isUnwritableIn_atom nofun nofun rfl

theorem not_isUnwritable_bool (b : Bool) : ¬ (Datum.bool b).IsUnwritable :=
  not_isUnwritableIn_atom nofun nofun rfl

end LocaleKeys.Datum
