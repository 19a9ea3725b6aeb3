import LocaleKeys.Key.Insert
import LocaleKeys.Proofs.Json.Readable

/-!
Setting a value along a path of names. A second time changes nothing, the result can be written as
deep as the path is long, and a path that is already set fits into the tree.
-/

namespace LocaleKeys.Key

open Json (Readable readable_update)

variable {value : Json}

theorem insertAt_single (name : Text) (ms : List (Text × Json)) :
    insertAt value [name] ms = Assoc.update name (fun _ => value) ms :=
  Assoc.put_eq_update name value ms

/-- What the path below a name makes of the child under it. -/
def insertBelow (value : Json) (names : List Text) (child : Option Json) : Json :=
  .obj (insertAt value names (membersOf child))

theorem insertAt_cons (name next : Text) (names : List Text) (ms : List (Text × Json)) :
    insertAt value (name :: next :: names) ms =
      Assoc.update name (insertBelow value (next :: names)) ms := rfl

theorem insertAt_of_ne_nil {names : List Text} (h : names ≠ []) (name : Text)
    (ms : List (Text × Json)) :
    insertAt value (name :: names) ms = Assoc.update name (insertBelow value names) ms := by
  obtain ⟨next, names, rfl⟩ := List.exists_cons_of_ne_nil h
  exact insertAt_cons name next names ms

/-- Setting a value along names is an update of the first name. -/
theorem insertAt_eq_update (value : Json) (name : Text) (names : List Text) :
    ∃ change, ∀ ms, insertAt value (name :: names) ms = Assoc.update name change ms := by
  cases names with
  | nil => exact ⟨_, insertAt_single name⟩
  | cons next names => exact ⟨_, insertAt_cons name next names⟩

theorem insertAt_insertAt (names : List Text) (ms : List (Text × Json)) :
    insertAt value names (insertAt value names ms) = insertAt value names ms := by
  induction names generalizing ms with
  | nil => rfl
  | cons name names ih =>
      cases names with
      | nil => rw [insertAt_single, insertAt_single, Assoc.update_update]
      | cons next names =>
          have hbelow : ∀ child, insertBelow value (next :: names)
              (some (insertBelow value (next :: names) child)) =
                insertBelow value (next :: names) child := by
            intro child
            exact congrArg Json.obj (ih (membersOf child))
          rw [insertAt_cons, insertAt_cons, Assoc.update_update]
          simp only [hbelow]

theorem insert_insert (key : Text) (ms : List (Text × Json)) :
    insert key value (insert key value ms) = insert key value ms :=
  insertAt_insertAt (segments key) ms

/-- What holds of a child, and of the object that is made where there is none, holds of the object of
the members. -/
theorem of_membersOf {P : Json → Prop} {child : Option Json} (hempty : P (.obj []))
    (h : ∀ v, child = some v → P v) : P (.obj (membersOf child)) := by
  cases child with
  | none => exact hempty
  | some v =>
      cases v with
      | scalar _ | arr _ => exact hempty
      | obj ms => exact h _ rfl

/-- A path that is no longer than the depth leads to a readable object. -/
theorem readable_insertAt (hvalue : ∀ depth, Readable depth value) {names : List Text}
    {depth : Nat} (hlength : names.length ≤ depth + 1) {ms : List (Text × Json)}
    (hms : Readable (depth + 1) (.obj ms)) :
    Readable (depth + 1) (.obj (insertAt value names ms)) := by
  induction names generalizing depth ms with
  | nil => exact hms
  | cons name names ih =>
      cases names with
      | nil =>
          rw [insertAt_single]
          exact readable_update hms fun _ _ => hvalue depth
      | cons next names =>
          rw [insertAt_cons]
          refine readable_update hms fun old hold => ?_
          cases depth with
          | zero => simp at hlength
          | succ depth =>
              have hempty : Readable (depth + 1) (.obj []) := .obj List.nodup_nil (by simp)
              exact ih (Nat.le_of_succ_le_succ hlength) (of_membersOf hempty hold)

/-- Where setting a value changes nothing, the path is no longer than the tree is deep. -/
theorem length_le_of_insertAt_eq {names : List Text} {depth : Nat} {ms : List (Text × Json)}
    (hms : Readable depth (.obj ms)) (h : insertAt value names ms = ms) :
    names.length ≤ depth := by
  induction names generalizing depth ms with
  | nil => exact Nat.zero_le _
  | cons name names ih =>
      cases hms with
      | @obj depth _ distinct hvalues =>
          cases names with
          | nil => exact Nat.succ_le_succ (Nat.zero_le _)
          | cons next names =>
              rw [insertAt_cons] at h
              have hget := Assoc.get?_of_update_eq h
              have hchild : Readable depth (insertBelow value (next :: names) _) :=
                hvalues _ (Assoc.mem_of_get? hget)
              exact Nat.succ_le_succ (ih hchild (insertAt_insertAt _ _))

end LocaleKeys.Key
