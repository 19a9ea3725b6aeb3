import LocaleKeys.Proofs.Key.Members
import LocaleKeys.Proofs.Key.Plain
import Mathlib.Data.List.Nodup

/-!
The leaves of a value at their places. A place is given by the numbers of the children that lead to
it, so document order is the lexicographic order of places. Flattening lists each leaf once, in this
order, under the key that the steps to the leaf make; where no name has a separator in it, no two
leaves have one key.
-/

namespace LocaleKeys

namespace Json

/-- A step from a value to one of its children. -/
inductive Step
  | name (s : Text)
  | index (i : Nat)
  deriving DecidableEq, Repr

def children : Json → List (Step × Json)
  | .scalar _ => []
  | .arr elements => elements.zipIdx.map fun (v, i) => (.index i, v)
  | .obj members => members.map fun (name, v) => (.name name, v)

/-- What stands at a place, behind the steps that lead to it. -/
def at? : List Nat → Json → Option (List Step × Json)
  | [], v => some ([], v)
  | i :: place, v =>
    v.children[i]?.bind fun (step, child) => (at? place child).map (Prod.map (step :: ·) id)

/-- A leaf of a value. -/
structure LeafAt where
  place : List Nat
  steps : List Step
  value : Scalar
  deriving DecidableEq, Repr

/-- A leaf of the `i`-th child, as a leaf of the value around it. -/
def LeafAt.under (i : Nat) (step : Step) (leaf : LeafAt) : LeafAt :=
  ⟨i :: leaf.place, step :: leaf.steps, leaf.value⟩

mutual

def leaves : Json → List LeafAt
  | .scalar s => [⟨[], [], s⟩]
  | .arr elements => elementLeaves 0 elements
  | .obj members => memberLeaves 0 members

/-- The leaves of the elements from the `i`-th on. -/
def elementLeaves (i : Nat) : List Json → List LeafAt
  | [] => []
  | v :: rest => v.leaves.map (.under i (.index i)) ++ elementLeaves (i + 1) rest

/-- The leaves of the members from the `i`-th on. -/
def memberLeaves (i : Nat) : List (Text × Json) → List LeafAt
  | [] => []
  | (name, v) :: rest => v.leaves.map (.under i (.name name)) ++ memberLeaves (i + 1) rest

end

/-- A value in which all member names have a property. -/
inductive Named (p : Text → Prop) : Json → Prop
  | scalar {s : Scalar} : Named p (.scalar s)
  | arr {vs : List Json} (h : ∀ v ∈ vs, Named p v) : Named p (.arr vs)
  | obj {ms : List (Text × Json)} (names : ∀ m ∈ ms, p m.1) (h : ∀ m ∈ ms, Named p m.2) :
      Named p (.obj ms)

/-! Children -/

theorem mem_children_arr {vs : List Json} {c : Step × Json} (h : c ∈ (Json.arr vs).children) :
    ∃ i, c.1 = .index i ∧ vs[i]? = some c.2 := by
  obtain ⟨⟨v, i⟩, hv, rfl⟩ := List.mem_map.mp h
  exact ⟨i, rfl, List.mem_zipIdx_iff_getElem?.mp hv⟩

theorem sizeOf_lt_of_mem_children {v : Json} {c : Step × Json} (h : c ∈ v.children) :
    sizeOf c.2 < sizeOf v := by
  cases v with
  | scalar s => cases h
  | arr vs =>
      obtain ⟨i, -, hi⟩ := mem_children_arr h
      have := List.sizeOf_lt_of_mem (List.mem_of_getElem? hi)
      simp only [Json.arr.sizeOf_spec]
      omega
  | obj ms =>
      obtain ⟨⟨name, v⟩, hm, rfl⟩ := List.mem_map.mp h
      have := List.sizeOf_lt_of_mem hm
      simp only [Json.obj.sizeOf_spec, Prod.mk.sizeOf_spec] at *
      omega

/-- What holds of a value as soon as it holds of its children holds of all values. -/
theorem children_induction {P : Json → Prop} (step : ∀ v, (∀ c ∈ v.children, P c.2) → P v)
    (v : Json) : P v :=
  step v fun c _ => children_induction step c.2
termination_by sizeOf v
decreasing_by exact sizeOf_lt_of_mem_children ‹_›

/-- The leaf that a value is itself. -/
def ownLeaf : Json → List LeafAt
  | .scalar s => [⟨[], [], s⟩]
  | _ => []

theorem elementLeaves_eq (i : Nat) (vs : List Json) :
    elementLeaves i vs = (((vs.zipIdx i).map fun p => (Step.index p.2, p.1)).zipIdx i).flatMap
      fun c => c.1.2.leaves.map (.under c.2 c.1.1) := by
  induction vs generalizing i with
  | nil => rfl
  | cons v vs ih => simp [elementLeaves, ih]

theorem memberLeaves_eq (i : Nat) (ms : List (Text × Json)) :
    memberLeaves i ms = ((ms.map fun m => (Step.name m.1, m.2)).zipIdx i).flatMap
      fun c => c.1.2.leaves.map (.under c.2 c.1.1) := by
  induction ms generalizing i with
  | nil => rfl
  | cons m ms ih => simp [memberLeaves, ih]

/-- The leaves below a value. -/
def innerLeaves (v : Json) : List LeafAt :=
  v.children.zipIdx.flatMap fun c => c.1.2.leaves.map (.under c.2 c.1.1)

theorem leaves_eq (v : Json) : v.leaves = v.ownLeaf ++ v.innerLeaves := by
  cases v with
  | scalar s => rfl
  | arr vs => exact elementLeaves_eq 0 vs
  | obj ms => exact memberLeaves_eq 0 ms

theorem mem_innerLeaves {v : Json} {leaf : LeafAt} :
    leaf ∈ v.innerLeaves ↔ ∃ i step child, v.children[i]? = some (step, child) ∧
      ∃ inner ∈ leaves child, leaf = LeafAt.under i step inner := by
  rw [innerLeaves, List.mem_flatMap]
  constructor
  · intro h
    obtain ⟨⟨⟨step, child⟩, i⟩, hchild, hmem⟩ := h
    obtain ⟨inner, hinner, rfl⟩ := List.mem_map.mp hmem
    exact ⟨i, step, child, List.mem_zipIdx_iff_getElem?.mp hchild, inner, hinner, rfl⟩
  · intro h
    obtain ⟨i, step, child, hget, inner, hinner, rfl⟩ := h
    exact ⟨((step, child), i), List.mem_zipIdx_iff_getElem?.mpr hget, List.mem_map_of_mem hinner⟩

theorem filter_leaves (v : Json) : v.leaves.filter (·.place ≠ []) = v.innerLeaves := by
  have hinner : ∀ leaf ∈ v.innerLeaves, decide (leaf.place ≠ []) = true := by
    intro leaf hleaf
    obtain ⟨i, step, child, -, inner, -, rfl⟩ := mem_innerLeaves.mp hleaf
    rfl
  rw [leaves_eq, List.filter_append, List.filter_eq_self.mpr hinner]
  cases v <;> rfl

/-- The leaves are the scalars that stand at places. -/
theorem mem_leaves_iff (v : Json) (leaf : LeafAt) :
    leaf ∈ v.leaves ↔ v.at? leaf.place = some (leaf.steps, .scalar leaf.value) := by
  induction v using children_induction generalizing leaf with
  | step v ih =>
      obtain ⟨place, steps, s⟩ := leaf
      rw [leaves_eq, List.mem_append, mem_innerLeaves]
      cases place with
      | nil =>
          cases v with
          | scalar t => simp [ownLeaf, children, at?, eq_comm]
          | arr vs => simp [ownLeaf, at?, LeafAt.under]
          | obj ms => simp [ownLeaf, at?, LeafAt.under]
      | cons i place =>
          have hown : (⟨i :: place, steps, s⟩ : LeafAt) ∉ v.ownLeaf := by
            cases v <;> simp [ownLeaf]
          rw [or_iff_right hown, at?]
          constructor
          · intro h
            obtain ⟨j, step, child, hget, inner, hinner, hleaf⟩ := h
            rw [LeafAt.under, LeafAt.mk.injEq, List.cons.injEq] at hleaf
            obtain ⟨⟨rfl, rfl⟩, rfl, rfl⟩ := hleaf
            have hat := (ih (step, child) (List.mem_of_getElem? hget) inner).mp hinner
            simp [hget, hat]
          · intro h
            obtain ⟨⟨step, child⟩, hget, hat⟩ := Option.bind_eq_some_iff.mp h
            obtain ⟨⟨behind, found⟩, hfound, hpair⟩ := Option.map_eq_some_iff.mp hat
            obtain ⟨rfl, rfl⟩ := Prod.mk.inj hpair
            have hinner := (ih _ (List.mem_of_getElem? hget) ⟨place, behind, s⟩).mpr hfound
            exact ⟨i, step, child, hget, _, hinner, rfl⟩

theorem pairwise_snd_zipIdx {α : Type} (l : List α) (i : Nat) :
    (l.zipIdx i).Pairwise fun a b => a.2 < b.2 := by
  induction l generalizing i with
  | nil => exact List.Pairwise.nil
  | cons a l ih =>
      refine List.pairwise_cons.mpr ⟨fun b hb => ?_, ih (i + 1)⟩
      exact List.le_snd_of_mem_zipIdx hb

/-- The leaves are listed in document order. -/
theorem pairwise_place_leaves (v : Json) :
    v.leaves.Pairwise fun a b => a.place < b.place := by
  induction v using children_induction with
  | step v ih =>
      have hinner : v.innerLeaves.Pairwise fun a b => a.place < b.place := by
        rw [innerLeaves, List.pairwise_flatMap]
        constructor
        · intro c hc
          have hget := List.mem_zipIdx_iff_getElem?.mp hc
          rw [List.pairwise_map]
          refine (ih c.1 (List.mem_of_getElem? hget)).imp fun hlt => ?_
          exact List.cons_lt_cons_iff.mpr (Or.inr ⟨rfl, hlt⟩)
        · refine (pairwise_snd_zipIdx v.children 0).imp fun hlt a ha b hb => ?_
          obtain ⟨a, -, rfl⟩ := List.mem_map.mp ha
          obtain ⟨b, -, rfl⟩ := List.mem_map.mp hb
          exact List.cons_lt_cons_iff.mpr (Or.inl hlt)
      cases v with
      | scalar s => exact List.pairwise_singleton _ _
      | arr vs | obj ms =>
          rw [leaves_eq]
          exact hinner

/-! Names of children -/

theorem Distinct.child {v : Json} (h : Distinct v) {c : Step × Json} (hc : c ∈ v.children) :
    Distinct c.2 := by
  cases h with
  | scalar => cases hc
  | arr h =>
      obtain ⟨i, -, hi⟩ := mem_children_arr hc
      exact h _ (List.mem_of_getElem? hi)
  | obj distinct h =>
      obtain ⟨m, hm, rfl⟩ := List.mem_map.mp hc
      exact h m hm

theorem Named.child {p : Text → Prop} {v : Json} (h : Named p v) {c : Step × Json}
    (hc : c ∈ v.children) : Named p c.2 := by
  cases h with
  | scalar => cases hc
  | arr h =>
      obtain ⟨i, -, hi⟩ := mem_children_arr hc
      exact h _ (List.mem_of_getElem? hi)
  | obj names h =>
      obtain ⟨m, hm, rfl⟩ := List.mem_map.mp hc
      exact h m hm

/-- The steps to the children of a value differ. -/
theorem Distinct.pairwise_step {v : Json} (h : Distinct v) :
    v.children.Pairwise fun c d => c.1 ≠ d.1 := by
  cases h with
  | scalar => exact List.Pairwise.nil
  | @arr vs h =>
      rw [children, List.pairwise_map]
      refine (pairwise_snd_zipIdx vs 0).imp fun hlt hsame => ?_
      exact Nat.ne_of_lt hlt (Step.index.inj hsame)
  | obj distinct h =>
      rw [children, List.pairwise_map]
      exact (List.pairwise_map.mp distinct).imp fun hne hsame => hne (Step.name.inj hsame)

end Json

namespace Key

open Json (Step LeafAt Named Distinct children_induction)

/-! Keys of leaves -/

/-- The path behind a step. -/
def extend (base : Text) : Step → Text
  | .name s => join base s
  | .index i => index base i

/-- The key of what some steps lead to. -/
def keyOf (base : Text) (steps : List Step) : Text :=
  steps.foldl extend base

def leafPair (base : Text) (leaf : LeafAt) : Text × Scalar :=
  (keyOf base leaf.steps, leaf.value)

theorem extend_ne_empty {v : Json} (h : Named IsStepName v) (base : Text) {c : Step × Json}
    (hc : c ∈ v.children) : extend base c.1 ≠ "" := by
  cases h with
  | scalar => cases hc
  | arr _ =>
      obtain ⟨i, hi, -⟩ := Json.mem_children_arr hc
      rw [hi]
      exact index_ne_empty base i
  | obj names _ =>
      obtain ⟨m, hm, rfl⟩ := List.mem_map.mp hc
      exact join_ne_empty (Or.inr (names m hm).ne_empty)

theorem flattenElements_eq (base : Text) (i : Nat) (vs : List Json) :
    flattenElements base i vs = ((vs.zipIdx i).map fun p => (Step.index p.2, p.1)).flatMap
      fun c => flatten (extend base c.1) c.2 := by
  induction vs generalizing i with
  | nil => rfl
  | cons v vs ih => simp [flattenElements, extend, ih]

theorem flattenMembers_eq (base : Text) (ms : List (Text × Json)) :
    flattenMembers base ms = (ms.map fun m => (Step.name m.1, m.2)).flatMap
      fun c => flatten (extend base c.1) c.2 := by
  induction ms with
  | nil => rfl
  | cons m ms ih => simp [flattenMembers, extend, ih]

/-- A value gives the leaves of its children, or itself where it has a key. -/
theorem flatten_eq (base : Text) (v : Json) :
    flatten base v = (if base = "" then [] else v.ownLeaf.map (leafPair base)) ++
      v.children.flatMap fun c => flatten (extend base c.1) c.2 := by
  cases v with
  | scalar s => simp [flatten, Json.ownLeaf, Json.children, leafPair, keyOf]
  | arr vs => simpa [flatten, Json.ownLeaf, Json.children] using flattenElements_eq base 0 vs
  | obj ms => simpa [flatten, Json.ownLeaf, Json.children] using flattenMembers_eq base ms

theorem flatMap_zipIdx {α β : Type} (f : α → List β) (l : List α) (i : Nat) :
    (l.zipIdx i).flatMap (fun c => f c.1) = l.flatMap f := by
  rw [← List.flatMap_map Prod.fst f, List.zipIdx_map_fst]

/-- Below a value with proper names, flattening gives each leaf under its key. -/
theorem flatMap_children {v : Json} (h : Named IsStepName v) (base : Text)
    (ih : ∀ c ∈ v.children, ∀ {base : Text}, base ≠ "" →
      flatten base c.2 = c.2.leaves.map (leafPair base)) :
    (v.children.flatMap fun c => flatten (extend base c.1) c.2) =
      v.innerLeaves.map (leafPair base) := by
  rw [Json.innerLeaves, List.map_flatMap]
  simp only [List.map_map]
  rw [← flatMap_zipIdx _ v.children 0]
  refine List.flatMap_congr fun c hc => ?_
  have hchild := List.mem_of_getElem? (List.mem_zipIdx_iff_getElem?.mp hc)
  rw [ih c.1 hchild (extend_ne_empty h base hchild)]
  rfl

theorem flatten_eq_map {v : Json} (h : Named IsStepName v) {base : Text} (hbase : base ≠ "") :
    flatten base v = v.leaves.map (leafPair base) := by
  induction v using children_induction generalizing base with
  | step v ih =>
      rw [flatten_eq, if_neg hbase, Json.leaves_eq, List.map_append,
        flatMap_children h base fun c hc _ => ih c hc (h.child hc)]

theorem flatten_empty {v : Json} (h : Named IsStepName v) :
    flatten "" v = v.innerLeaves.map (leafPair "") := by
  rw [flatten_eq, if_pos rfl, List.nil_append,
    flatMap_children h "" fun c hc _ => flatten_eq_map (h.child hc)]

/-! Keys of different leaves -/

theorem below_of_mem_flatten_child {v : Json} (h : Named IsStepName v) {base : Text}
    {c : Step × Json} (hc : c ∈ v.children) {leaf : Text × Scalar}
    (hleaf : leaf ∈ flatten (extend base c.1) c.2) : Below (extend base c.1) leaf.1 :=
  below_of_mem_flatten (extend_ne_empty h base hc) c.2 leaf hleaf

theorem step_eq_of_below {v : Json} (h : Named IsStepName v) {base q : Text} {c d : Step × Json}
    (hc : c ∈ v.children) (hd : d ∈ v.children) (hcq : Below (extend base c.1) q)
    (hdq : Below (extend base d.1) q) : c.1 = d.1 := by
  cases h with
  | scalar => cases hc
  | arr _ =>
      obtain ⟨i, hi, -⟩ := Json.mem_children_arr hc
      obtain ⟨j, hj, -⟩ := Json.mem_children_arr hd
      rw [hi] at hcq ⊢
      rw [hj] at hdq ⊢
      rw [eq_of_below_index hcq hdq]
  | obj names _ =>
      obtain ⟨m, hm, rfl⟩ := List.mem_map.mp hc
      obtain ⟨n, hn, rfl⟩ := List.mem_map.mp hd
      exact congrArg Step.name (eq_of_below_join (names m hm) (names n hn) hcq hdq)

/-- Where names have no separators, different leaves have different keys. -/
theorem pairwise_key_flatten {v : Json} (h : Named IsStepName v) (hdistinct : Distinct v)
    (base : Text) : (flatten base v).Pairwise fun a b => a.1 ≠ b.1 := by
  induction v using children_induction generalizing base with
  | step v ih =>
      have hinner : (v.children.flatMap fun c => flatten (extend base c.1) c.2).Pairwise
          fun a b => a.1 ≠ b.1 := by
        rw [List.pairwise_flatMap]
        refine ⟨fun c hc => ih c hc (h.child hc) (hdistinct.child hc) _, ?_⟩
        refine hdistinct.pairwise_step.imp_of_mem fun hc hd hstep a ha b hb hkey => hstep ?_
        have hbelow := below_of_mem_flatten_child h hc ha
        rw [hkey] at hbelow
        exact step_eq_of_below h hc hd hbelow (below_of_mem_flatten_child h hd hb)
      rw [flatten_eq]
      cases v with
      | scalar s =>
          rw [Json.children, List.flatMap_nil, List.append_nil]
          split
          · exact List.Pairwise.nil
          · exact List.pairwise_singleton _ _
      | arr vs | obj ms =>
          simpa [Json.ownLeaf] using hinner

end Key
end LocaleKeys
