import LocaleKeys.Proofs.Key.Frame

/-!
Flattening and setting values are inverse: the leaves of a tree, set in their order under their keys,
build the tree again. The keys are taken apart into the names that lead to the leaves, and the tree is
built member by member behind those that are complete.
-/

namespace LocaleKeys.Key

/-- A name that can be one part of a key. -/
structure IsPart (name : Text) : Prop where
  ne_empty : name ≠ ""
  no_point : Point.char '.' ∉ name.toList

instance (name : Text) : Decidable (IsPart name) :=
  decidable_of_iff (name ≠ "" ∧ Point.char '.' ∉ name.toList)
    ⟨fun h => ⟨h.1, h.2⟩, fun h => ⟨h.ne_empty, h.no_point⟩⟩

/-- Members that keys can build: each name is a part of a key and comes once, and each value is a scalar
or an object with such members, at least one. -/
inductive Buildable : List (Text × Json) → Prop
  | nil : Buildable []
  | scalar {name : Text} {s : Scalar} {ms : List (Text × Json)} (part : IsPart name)
      (fresh : name ∉ Assoc.keys ms) (others : Buildable ms) : Buildable ((name, .scalar s) :: ms)
  | obj {name : Text} {inner ms : List (Text × Json)} (part : IsPart name)
      (fresh : name ∉ Assoc.keys ms) (nonempty : inner ≠ []) (below : Buildable inner)
      (others : Buildable ms) : Buildable ((name, .obj inner) :: ms)

variable {ms : List (Text × Json)}

theorem Buildable.nodup (h : Buildable ms) : (Assoc.keys ms).Nodup := by
  induction h with
  | nil => exact List.nodup_nil
  | scalar _ fresh _ ih | obj _ fresh _ _ _ _ ih => exact List.nodup_cons.mpr ⟨fresh, ih⟩

/-! Leaves with the names that lead to them -/

mutual

/-- The leaves of a value without arrays, each with the names that lead to it. -/
def leafPaths : Json → List (List Text × Scalar)
  | .scalar s => [([], s)]
  | .arr _ => []
  | .obj ms => memberPaths ms

def memberPaths : List (Text × Json) → List (List Text × Scalar)
  | [] => []
  | (name, v) :: ms => (leafPaths v).map (Prod.map (List.cons name) id) ++ memberPaths ms

end

theorem flattenMembers_eq_map (h : Buildable ms) (base : Text) :
    flattenMembers base ms = (memberPaths ms).map (Prod.map (walk base) id) := by
  induction h generalizing base with
  | nil => rfl
  | @scalar name s ms part _ _ ih =>
      have hjoin : join base name ≠ "" := join_ne_empty (Or.inr part.ne_empty)
      simp [flattenMembers, memberPaths, leafPaths, flatten, hjoin, ih, walk]
  | obj _ _ _ _ _ ihbelow ih =>
      simp [flattenMembers, memberPaths, leafPaths, flatten, ihbelow, ih, walk]

theorem path_of_mem_memberPaths (h : Buildable ms) :
    ∀ leaf ∈ memberPaths ms, leaf.1 ≠ [] ∧ ∀ name ∈ leaf.1, IsPart name := by
  induction h with
  | nil => simp [memberPaths]
  | scalar part _ _ ih =>
      simp only [memberPaths, leafPaths, List.map_cons, List.map_nil, List.forall_mem_append]
      refine ⟨?_, ih⟩
      simpa using part
  | obj part _ _ _ _ ihbelow ih =>
      simp only [memberPaths, leafPaths, List.forall_mem_append, List.forall_mem_map]
      refine ⟨fun leaf hleaf => ⟨List.cons_ne_nil _ _, ?_⟩, ih⟩
      exact List.forall_mem_cons.mpr ⟨part, (ihbelow leaf hleaf).2⟩

theorem memberPaths_ne_nil (h : Buildable ms) (hne : ms ≠ []) : memberPaths ms ≠ [] := by
  induction h with
  | nil => exact absurd rfl hne
  | scalar _ _ _ _ => simp [memberPaths, leafPaths]
  | obj _ _ nonempty _ _ ih _ => simp [memberPaths, leafPaths, ih nonempty]

/-- Parts that are joined to a key are found again. -/
theorem segments_walk {names : List Text} (hne : names ≠ [])
    (hparts : ∀ name ∈ names, IsPart name) : segments (walk "" names) = names := by
  obtain ⟨name, names, rfl⟩ := List.exists_cons_of_ne_nil hne
  have hname : name ≠ "" := (hparts name List.mem_cons_self).ne_empty
  have hlist : (walk "" (name :: names)).toList =
      [Point.char '.'].intercalate ((name :: names).map Text.toList) := by
    rw [walk, join, if_pos rfl, toList_walk hname, List.map_cons, intercalate_eq_flatMap,
      List.flatMap_map]
  have hpoints : ∀ chars ∈ (name :: names).map Text.toList, Point.char '.' ∉ chars := by
    rw [List.forall_mem_map]
    exact fun part hpart => (hparts part hpart).no_point
  rw [segments, hlist, List.splitOn_intercalate (Point.char '.') hpoints (by simp), List.map_map]
  simp [Function.comp_def]

/-! Setting leaves -/

def setLeaf (tree : List (Text × Json)) (leaf : List Text × Scalar) : List (Text × Json) :=
  insertAt (.scalar leaf.2) leaf.1 tree

/-- Setting leaves behind one name, one after the other, is one update of the name. -/
theorem foldl_setLeaf_map_cons (name : Text) {leaves : List (List Text × Scalar)}
    (hne : leaves ≠ []) (hpaths : ∀ leaf ∈ leaves, leaf.1 ≠ []) (tree : List (Text × Json)) :
    (leaves.map (Prod.map (List.cons name) id)).foldl setLeaf tree =
      Assoc.update name (fun child => .obj (leaves.foldl setLeaf (membersOf child))) tree := by
  induction leaves generalizing tree with
  | nil => exact absurd rfl hne
  | cons leaf leaves ih =>
      obtain ⟨hleaf, hrest⟩ := List.forall_mem_cons.mp hpaths
      have hfirst : setLeaf tree (Prod.map (List.cons name) id leaf) =
          Assoc.update name (insertBelow (.scalar leaf.2) leaf.1) tree :=
        insertAt_of_ne_nil hleaf name tree
      rw [List.map_cons, List.foldl_cons, hfirst]
      cases leaves with
      | nil => rfl
      | cons second leaves =>
          rw [ih (List.cons_ne_nil second leaves) hrest, Assoc.update_update]
          rfl

/-- Setting the leaves of members adds the members to those that are complete. -/
theorem foldl_setLeaf_memberPaths (h : Buildable ms) {done : List (Text × Json)}
    (hnodup : (Assoc.keys (done ++ ms)).Nodup) :
    (memberPaths ms).foldl setLeaf done = done ++ ms := by
  induction h generalizing done with
  | nil => rw [memberPaths, List.foldl_nil, List.append_nil]
  | @scalar name s ms _ _ _ ih =>
      have hnew : name ∉ Assoc.keys done := Assoc.not_mem_keys_of_nodup hnodup
      have hmember : setLeaf done ([name], s) = done ++ [(name, .scalar s)] := by
        rw [setLeaf, insertAt_single, Assoc.update_of_not_mem _ hnew]
      rw [List.append_cons] at hnodup ⊢
      rw [← ih hnodup, ← hmember]
      rfl
  | @obj name inner ms _ _ nonempty below _ ihbelow ih =>
      have hnew : name ∉ Assoc.keys done := Assoc.not_mem_keys_of_nodup hnodup
      have hpaths : ∀ leaf ∈ memberPaths inner, leaf.1 ≠ [] := fun leaf hleaf =>
        (path_of_mem_memberPaths below leaf hleaf).1
      have hinner : (memberPaths inner).foldl setLeaf (membersOf none) = inner :=
        ihbelow below.nodup
      have hmember : ((memberPaths inner).map (Prod.map (List.cons name) id)).foldl setLeaf done =
          done ++ [(name, .obj inner)] := by
        rw [foldl_setLeaf_map_cons name (memberPaths_ne_nil below nonempty) hpaths,
          Assoc.update_of_not_mem _ hnew, hinner]
      rw [List.append_cons] at hnodup ⊢
      rw [← ih hnodup, ← hmember, memberPaths, leafPaths, List.foldl_append]

/-- The leaves of a tree, set one after the other under their keys, build the tree from nothing, its
members in order at every level. -/
theorem foldl_insert_flatten (h : Buildable ms) :
    (flatten "" (.obj ms)).foldl (fun tree leaf => insert leaf.1 (.scalar leaf.2) tree) [] = ms := by
  have hset : ∀ tree, ∀ leaf ∈ memberPaths ms,
      insert (walk "" leaf.1) (.scalar leaf.2) tree = setLeaf tree leaf := by
    intro tree leaf hleaf
    obtain ⟨hne, hparts⟩ := path_of_mem_memberPaths h leaf hleaf
    rw [insert, segments_walk hne hparts, setLeaf]
  rw [flatten, flattenMembers_eq_map h, List.foldl_map]
  calc
    _ = (memberPaths ms).foldl setLeaf [] := List.foldl_ext _ _ _ hset
    _ = ms := foldl_setLeaf_memberPaths h h.nodup

/-- Members out of the order of their names, with an object in an object and a bracket in a name. -/
theorem foldl_insert_flatten_nested :
    let ms : List (Text × Json) :=
      [("b", .obj [("y", .int 1), ("x[0]", .obj [("b", .str "v")])]), ("a", .scalar .null)]
    Buildable ms ∧ (flatten "" (.obj ms)).foldl
      (fun tree leaf => insert leaf.1 (.scalar leaf.2) tree) [] = ms := by
  intro ms
  have hinner : Buildable [("y", .int 1), ("x[0]", .obj [("b", .str "v")])] := by
    refine .scalar (by decide) (by decide) (.obj (by decide) (by decide) (by decide) ?_ .nil)
    exact .scalar (by decide) (by decide) .nil
  have hms : Buildable ms := by
    refine .obj (by decide) (by decide) (by decide) hinner ?_
    exact .scalar (by decide) (by decide) .nil
  exact ⟨hms, foldl_insert_flatten hms⟩

end LocaleKeys.Key
