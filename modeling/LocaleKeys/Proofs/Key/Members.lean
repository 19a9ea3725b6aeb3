import LocaleKeys.Proofs.Key.Insert

/-!
What stands at a path of member names, before a value is set under a key and afterwards. The paths are
those that objects give; elements of arrays have none.
-/

namespace LocaleKeys

namespace Json

/-- What stands at a path of member names. -/
def member? : List Text → Json → Option Json
  | [], v => some v
  | name :: path, .obj ms => (Assoc.get? name ms).bind (member? path)
  | _ :: _, _ => none

/-- A value in which no object has a name twice. -/
inductive Distinct : Json → Prop
  | scalar {s : Scalar} : Distinct (.scalar s)
  | arr {vs : List Json} (h : ∀ v ∈ vs, Distinct v) : Distinct (.arr vs)
  | obj {ms : List (Text × Json)} (distinct : (Assoc.keys ms).Nodup)
      (h : ∀ m ∈ ms, Distinct m.2) : Distinct (.obj ms)

end Json

namespace Key

open Json (member? Distinct)

variable {value : Json} {name : Text} {names path : List Text}

/-! Names stay distinct -/

theorem distinct_update {change : Option Json → Json} {ms : List (Text × Json)}
    (hms : Distinct (.obj ms))
    (hchange : ∀ old, (∀ v, old = some v → Distinct v) → Distinct (change old)) :
    Distinct (.obj (Assoc.update name change ms)) := by
  cases hms with
  | obj distinct hvalues =>
      exact .obj (Assoc.nodup_keys_update name change distinct)
        (Assoc.forall_update hvalues hchange)

theorem distinct_insertAt (hvalue : Distinct value) {ms : List (Text × Json)}
    (hms : Distinct (.obj ms)) : Distinct (.obj (insertAt value names ms)) := by
  induction names generalizing ms with
  | nil => exact hms
  | cons name names ih =>
      cases names with
      | nil =>
          rw [insertAt_single]
          exact distinct_update hms fun _ _ => hvalue
      | cons next names =>
          have hempty : Distinct (.obj []) := .obj List.nodup_nil (by simp)
          rw [insertAt_cons]
          exact distinct_update hms fun old hold => ih (of_membersOf hempty hold)

/-! Paths through an update -/

theorem member?_update (name : Text) (change : Option Json → Json) (path : List Text)
    (ms : List (Text × Json)) :
    member? (name :: path) (.obj (Assoc.update name change ms)) =
      member? path (change (Assoc.get? name ms)) := by
  rw [member?, Assoc.get?_update, beq_self_eq_true, if_pos rfl, Option.bind_some]

theorem member?_update_of_ne {other : Text} (h : name ≠ other) (change : Option Json → Json)
    (path : List Text) (ms : List (Text × Json)) :
    member? (other :: path) (.obj (Assoc.update name change ms)) =
      member? (other :: path) (.obj ms) := by
  rw [member?, Assoc.get?_update, if_neg (by simpa using h), member?]

theorem member?_membersOf (h : path ≠ []) (child : Option Json) :
    member? path (.obj (membersOf child)) = child.bind (member? path) := by
  obtain ⟨name, path, rfl⟩ := List.exists_cons_of_ne_nil h
  cases child with
  | none => rfl
  | some v => cases v <;> rfl

theorem membersOf_member? (path : List Text) (child : Option Json) :
    membersOf (member? path (.obj (membersOf child))) = membersOf (child.bind (member? path)) := by
  cases path with
  | nil => cases child <;> rfl
  | cons name path => rw [member?_membersOf (List.cons_ne_nil name path)]

/-! Paths after a value is set -/

theorem member?_insertAt_self (h : names ≠ []) (ms : List (Text × Json)) :
    member? names (.obj (insertAt value names ms)) = some value := by
  induction names generalizing ms with
  | nil => exact absurd rfl h
  | cons name names ih =>
      cases names with
      | nil => rw [insertAt_single, member?_update, member?]
      | cons next names =>
          rw [insertAt_cons, member?_update, insertBelow]
          exact ih (List.cons_ne_nil next names) _

theorem ne_nil_of_not_isPrefix (h : ¬ names <+: path) : names ≠ [] := by
  rintro rfl
  exact h List.nil_prefix

/-- A path that neither leads to the value nor goes on behind it leads where it led before. -/
theorem member?_insertAt_of_apart (hbefore : ¬ path <+: names) (hbehind : ¬ names <+: path)
    (ms : List (Text × Json)) :
    member? path (.obj (insertAt value names ms)) = member? path (.obj ms) := by
  induction names generalizing path ms with
  | nil => exact absurd List.nil_prefix hbehind
  | cons name names ih =>
      cases path with
      | nil => exact absurd List.nil_prefix hbefore
      | cons other path =>
          by_cases hname : name = other
          · subst hname
            rw [List.prefix_cons_inj] at hbefore hbehind
            rw [insertAt_of_ne_nil (ne_nil_of_not_isPrefix hbehind), member?_update, insertBelow,
              ih hbefore hbehind, member?_membersOf (ne_nil_of_not_isPrefix hbefore), member?]
          · obtain ⟨change, hchange⟩ := insertAt_eq_update value name names
            rw [hchange, member?_update_of_ne hname]

/-- On the way to the value there are objects. Each has what the rest of the names makes of the object
that stood there, or of an empty one. -/
theorem member?_insertAt_append (path : List Text) (next : Text) (rest : List Text)
    (ms : List (Text × Json)) :
    member? path (.obj (insertAt value (path ++ next :: rest) ms)) =
      some (.obj (insertAt value (next :: rest) (membersOf (member? path (.obj ms))))) := by
  induction path generalizing ms with
  | nil => rfl
  | cons name path ih =>
      rw [List.cons_append, insertAt_of_ne_nil (by simp), member?_update, insertBelow, ih,
        membersOf_member?, member?]

theorem membersOf_eq_nil {child : Option Json} (h : ∀ ms, child ≠ some (.obj ms)) :
    membersOf child = [] := by
  cases child with
  | none => rfl
  | some v =>
      cases v with
      | scalar _ | arr _ => rfl
      | obj ms => exact absurd rfl (h ms)

theorem segments_ne_nil (key : Text) : segments key ≠ [] := by
  simp [segments]

/-- Setting a value under a key gives an object with the value at the path of the key. Paths apart from
it lead where they led before. An object on the way to it keeps its members in their order, but for the
value under the next name, or one new member at the end; where there is no object on the way, there is
then one with the next name only. -/
theorem insert_sets_path (key : Text) (value : Json) (ms : List (Text × Json)) :
    let before := Json.obj ms
    let after := Json.obj (insert key value ms)
    (Distinct before → Distinct value → Distinct after) ∧
      member? (segments key) after = some value ∧
      (∀ path, ¬ path <+: segments key → ¬ segments key <+: path →
        member? path after = member? path before) ∧
      ∀ path next rest, segments key = path ++ next :: rest →
        (∀ old, member? path before = some (.obj old) →
          ∃ child new, member? path after = some (.obj new) ∧ Assoc.Puts next child old new) ∧
        ((∀ old, member? path before ≠ some (.obj old)) →
          ∃ child, member? path after = some (.obj [(next, child)])) := by
  refine ⟨fun hbefore hvalue => distinct_insertAt hvalue hbefore,
    member?_insertAt_self (segments_ne_nil key) ms,
    fun path hbefore hbehind => member?_insertAt_of_apart hbefore hbehind ms,
    fun path next rest hkey => ?_⟩
  obtain ⟨change, hchange⟩ := insertAt_eq_update value next rest
  have hafter : member? path (.obj (insert key value ms)) =
      some (.obj (Assoc.update next change (membersOf (member? path (.obj ms))))) := by
    rw [insert, hkey, member?_insertAt_append, hchange]
  refine ⟨fun old hold => ?_, fun hnone => ?_⟩
  · rw [hold] at hafter
    obtain ⟨child, hputs⟩ := Assoc.puts_update next change old
    exact ⟨child, _, hafter, hputs⟩
  · rw [membersOf_eq_nil hnone] at hafter
    exact ⟨change none, hafter⟩

end Key
end LocaleKeys
