import LocaleKeys.Proofs.Assoc
import LocaleKeys.Proofs.Json.Grammar

/-!
The values that reading gives: no object has a name twice, scalars are such as literals denote, and
the nesting is bounded. What a policy keeps of a member with a known name is one update of the
members before it.
-/

namespace LocaleKeys.Json

/-- A value that a reader with `depth` levels left can give. -/
inductive Readable : (depth : Nat) → Json → Prop
  | scalar {depth : Nat} {s : Scalar} (h : s.Readable) : Readable depth (.scalar s)
  | arr {depth : Nat} {vs : List Json} (h : ∀ v ∈ vs, Readable depth v) :
      Readable (depth + 1) (.arr vs)
  | obj {depth : Nat} {ms : List (Text × Json)} (distinct : (Assoc.keys ms).Nodup)
      (h : ∀ m ∈ ms, Readable depth m.2) : Readable (depth + 1) (.obj ms)

/-- The value that a name keeps when it comes again with another. -/
def Repeats.keep (policy : Repeats) (value : Json) : Option Json → Json :=
  match policy with
  | .keepFirst => fun old => old.getD value
  | .keepLast => fun _ => value

theorem Repeats.add_eq_update (policy : Repeats) (members : List (Text × Json)) (name : Text)
    (value : Json) :
    policy.add members name value = Assoc.update name (policy.keep value) members := by
  cases policy with
  | keepFirst => exact Assoc.offer_eq_update name value members
  | keepLast => exact Assoc.put_eq_update name value members

theorem Repeats.add_of_not_mem (policy : Repeats) {members : List (Text × Json)} {name : Text}
    (h : name ∉ Assoc.keys members) (value : Json) :
    policy.add members name value = members ++ [(name, value)] := by
  rw [add_eq_update, Assoc.update_of_not_mem _ h]
  cases policy <;> rfl

theorem toJsonList_eq_map (policy : Repeats) (trees : List Tree) :
    Tree.toJsonList policy trees = trees.map (Tree.toJson policy) := by
  induction trees with
  | nil => rfl
  | cons tree trees ih => rw [Tree.toJsonList, ih, List.map_cons]

/-- An object stays readable when a member changes to a readable value. -/
theorem readable_update {depth : Nat} {name : Text} {change : Option Json → Json}
    {ms : List (Text × Json)} (hms : Readable (depth + 1) (.obj ms))
    (hchange : ∀ old, (∀ v, old = some v → Readable depth v) → Readable depth (change old)) :
    Readable (depth + 1) (.obj (Assoc.update name change ms)) := by
  cases hms with
  | obj distinct hvalues =>
      exact .obj (Assoc.nodup_keys_update name change distinct)
        (Assoc.forall_update hvalues hchange)

/-- Members of readable values make a readable object, whatever was there before. -/
theorem readable_toJsonMembers (policy : Repeats) {depth : Nat} {members : List (Name × Tree)}
    (h : ∀ m ∈ members, Readable depth (m.2.toJson policy)) {done : List (Text × Json)}
    (hdone : Readable (depth + 1) (.obj done)) :
    Readable (depth + 1) (.obj (Tree.toJsonMembers policy done members)) := by
  induction members generalizing done with
  | nil => exact hdone
  | cons member members ih =>
      obtain ⟨name, tree⟩ := member
      have hvalue : Readable depth (tree.toJson policy) := h _ List.mem_cons_self
      refine ih (fun m hm => h m (List.mem_cons_of_mem _ hm)) ?_
      rw [Repeats.add_eq_update]
      refine readable_update hdone fun old hold => ?_
      cases policy with
      | keepLast => exact hvalue
      | keepFirst =>
          cases old with
          | none => exact hvalue
          | some v => exact hold v rfl

/-! What the grammar derives is readable -/

theorem Listed.forall {close : Point} {α : Type} {item : Cursor → α → Cursor → Prop} {P : α → Prop}
    {start stop : Cursor} {as : List α} (h : Listed close item start as stop)
    (hitem : ∀ start a stop, item start a stop → P a) : ∀ a ∈ as, P a := by
  induction h with
  | last ha _ => simpa using hitem _ _ _ ha
  | more ha _ _ ih => simpa using ⟨hitem _ _ _ ha, ih⟩

theorem readable_of_leaf {start stop : Cursor} {tree : Tree} (h : Leaf start tree stop)
    (policy : Repeats) (depth : Nat) : Readable depth (tree.toJson policy) := by
  cases h with
  | string _ => exact .scalar trivial
  | literal h => exact .scalar (literal_ok h).2

theorem readable_of_reads {depth : Nat} {start stop : Cursor} {tree : Tree}
    (h : Reads depth start tree stop) (policy : Repeats) :
    Readable depth (tree.toJson policy) := by
  induction depth generalizing start tree stop with
  | zero => exact readable_of_leaf h policy 0
  | succ depth ih =>
      have hempty : Readable (depth + 1) (.obj []) := .obj List.nodup_nil (by simp)
      have hmember : ∀ start m stop, Member (Reads depth) start m stop →
          Readable depth (m.2.toJson policy) := by
        intro start m stop hm
        cases hm with
        | mk _ _ hvalue => exact ih hvalue
      cases h with
      | inl leaf => exact readable_of_leaf leaf policy _
      | inr container =>
          cases container with
          | emptyArray _ => exact .arr (by simp [toJsonList_eq_map])
          | emptyObject _ => exact hempty
          | array hitems =>
              refine .arr ?_
              rw [toJsonList_eq_map, List.forall_mem_map]
              exact hitems.forall fun _ _ _ => ih
          | object hitems => exact readable_toJsonMembers policy (hitems.forall hmember) hempty

theorem read_of_readTree {text : List Point} {tree : Tree} (h : readTree text = .ok tree)
    (policy : Repeats) : read policy text = .ok (tree.toJson policy) := by
  simp only [read, h]

theorem readable_of_read {policy : Repeats} {text : List Point} {v : Json}
    (h : read policy text = .ok v) : Readable maxDepth v := by
  rw [read] at h
  split at h
  · next tree htree =>
      cases h
      obtain ⟨stop, hreads, -⟩ := readsText_of_readTree htree
      exact readable_of_reads hreads policy
  · cases h

end LocaleKeys.Json
