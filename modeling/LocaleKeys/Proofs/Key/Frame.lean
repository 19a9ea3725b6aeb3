import LocaleKeys.Key.Flatten
import LocaleKeys.Proofs.Key.Insert

/-!
What setting a value leaves alone, and where the value stands. All leaves of a value stand at its
path or go on behind it with a point or a bracket, so a value that changes on the way along a key
cannot touch a path that keeps apart from the key and from the paths that lead to it.
-/

namespace LocaleKeys.Key

/-! Where leaves stand -/

/-- A path at or behind another. -/
def Below (p q : Text) : Prop :=
  q = p ∨ (∃ r, q = p ++ "." ++ r) ∨ ∃ r, q = p ++ "[" ++ r

theorem Below.extends {p q : Text} (h : Below p q) : ∃ r, q = p ++ r := by
  obtain rfl | ⟨r, rfl⟩ | ⟨r, rfl⟩ := h
  · exact ⟨"", Text.append_empty.symm⟩
  · exact ⟨"." ++ r, Text.append_assoc⟩
  · exact ⟨"[" ++ r, Text.append_assoc⟩

theorem join_of_ne {p : Text} (hp : p ≠ "") (name : Text) : join p name = p ++ "." ++ name :=
  if_neg hp

theorem append_ne_empty {p : Text} (hp : p ≠ "") (s : Text) : p ++ s ≠ "" := by
  simp [Text.append_eq_empty_iff, hp]

theorem join_ne_empty {p name : Text} (h : p ≠ "" ∨ name ≠ "") : join p name ≠ "" := by
  by_cases hp : p = ""
  · rw [join, if_pos hp]
    exact h.resolve_left (not_not_intro hp)
  · rw [join_of_ne hp, Text.append_assoc]
    exact append_ne_empty hp _

theorem index_eq (p : Text) (i : Nat) : index p i = p ++ "[" ++ (Text.ofNat i ++ "]") := by
  simp [index, Text.append_assoc]

theorem index_ne_empty (p : Text) (i : Nat) : index p i ≠ "" := by
  simp [index, Text.append_eq_empty_iff]

mutual

theorem below_of_mem_flatten {p : Text} (hp : p ≠ "") :
    (v : Json) → ∀ leaf ∈ flatten p v, Below p leaf.1
  | .scalar s, leaf, h => by
      simp only [flatten, hp, if_false, List.mem_singleton] at h
      exact Or.inl (congrArg Prod.fst h)
  | .arr vs, leaf, h => Or.inr (Or.inr (bracket_of_mem_flattenElements p 0 vs leaf h))
  | .obj ms, leaf, h => Or.inr (Or.inl (point_of_mem_flattenMembers hp ms leaf h))

theorem bracket_of_mem_flattenElements (p : Text) (i : Nat) :
    (vs : List Json) → ∀ leaf ∈ flattenElements p i vs, ∃ r, leaf.1 = p ++ "[" ++ r
  | [], leaf, h => by cases h
  | v :: vs, leaf, h => by
      cases List.mem_append.mp h with
      | inl here =>
          obtain ⟨r, hr⟩ := (below_of_mem_flatten (index_ne_empty p i) v leaf here).extends
          exact ⟨Text.ofNat i ++ "]" ++ r, by rw [hr, index_eq, Text.append_assoc]⟩
      | inr later => exact bracket_of_mem_flattenElements p (i + 1) vs leaf later

theorem point_of_mem_flattenMembers {p : Text} (hp : p ≠ "") :
    (ms : List (Text × Json)) → ∀ leaf ∈ flattenMembers p ms, ∃ r, leaf.1 = p ++ "." ++ r
  | [], leaf, h => by cases h
  | (name, v) :: ms, leaf, h => by
      cases List.mem_append.mp h with
      | inl here =>
          have hjoin : join p name ≠ "" := join_ne_empty (Or.inl hp)
          obtain ⟨r, hr⟩ := (below_of_mem_flatten hjoin v leaf here).extends
          exact ⟨name ++ r, by rw [hr, join_of_ne hp, Text.append_assoc]⟩
      | inr later => exact point_of_mem_flattenMembers hp ms leaf later

end

/-! Leaves at one path -/

/-- The leaves at a path. -/
def leavesAt (q : Text) (leaves : List (Text × Scalar)) : List (Text × Scalar) :=
  leaves.filter (·.1 == q)

theorem get?_leavesAt (q : Text) (leaves : List (Text × Scalar)) :
    Assoc.get? q (leavesAt q leaves) = Assoc.get? q leaves := by
  induction leaves with
  | nil => rfl
  | cons leaf leaves ih =>
      by_cases h : leaf.1 = q
      · simp [leavesAt, Assoc.get?, h]
      · simpa [leavesAt, Assoc.get?, h] using ih

theorem leavesAt_eq_nil {q : Text} {leaves : List (Text × Scalar)}
    (h : ∀ leaf ∈ leaves, leaf.1 ≠ q) : leavesAt q leaves = [] := by
  rw [leavesAt, List.filter_eq_nil_iff]
  intro leaf hleaf
  simpa using h leaf hleaf

/-- The leaves of a value that may be missing. -/
def flattenChild (p : Text) (child : Option Json) : List (Text × Scalar) :=
  (child.map (flatten p)).getD []

/-- An update that keeps the leaves at a path for the changed child keeps them for the object. -/
theorem leavesAt_flattenMembers_update {q base name : Text} {change : Option Json → Json}
    (h : ∀ old, leavesAt q (flatten (join base name) (change old)) =
      leavesAt q (flattenChild (join base name) old)) (ms : List (Text × Json)) :
    leavesAt q (flattenMembers base (Assoc.update name change ms)) =
      leavesAt q (flattenMembers base ms) := by
  induction ms with
  | nil =>
      have hnone := h none
      simpa [Assoc.update, flattenMembers, flattenChild] using hnone
  | cons m ms ih =>
      obtain ⟨other, v⟩ := m
      by_cases hname : other = name
      · subst hname
        have hsome := h (some v)
        simp only [leavesAt, flattenChild, Option.map_some, Option.getD_some] at hsome
        simp [Assoc.update, flattenMembers, leavesAt, hsome]
      · simp only [leavesAt] at ih
        simp [Assoc.update, flattenMembers, leavesAt, hname, ih]

/-! Paths apart from a key -/

/-- A path that setting a value under `key` leaves alone: it is not the key and does not go on
behind it, and it is none of the paths that lead to the key, nor goes on behind one with a bracket.
-/
structure Apart (key q : Text) : Prop where
  notBelow : ¬ Below key q
  notBefore : ∀ p r, key = p ++ "." ++ r → q ≠ p
  notIndexed : ∀ p r, key = p ++ "." ++ r → ∀ s, q ≠ p ++ "[" ++ s

/-- The path that names lead to. -/
def walk : Text → List Text → Text
  | base, [] => base
  | base, name :: names => walk (join base name) names

theorem walk_eq {base : Text} (hbase : base ≠ "") (name : Text) (names : List Text) :
    ∃ r, walk base (name :: names) = base ++ "." ++ r := by
  induction names generalizing base name with
  | nil => exact ⟨name, join_of_ne hbase name⟩
  | cons next names ih =>
      have hjoin : join base name ≠ "" := join_ne_empty (Or.inl hbase)
      obtain ⟨r, hr⟩ := ih hjoin next
      refine ⟨name ++ "." ++ r, ?_⟩
      rw [walk, hr, join_of_ne hbase]
      simp only [Text.append_assoc]

/-- Setting a value along names leaves the leaves at a path apart from the path of the names. -/
theorem leavesAt_insertAt (value : Scalar) {q base name : Text} {names : List Text}
    (hname : base ≠ "" ∨ name ≠ "") (hq : Apart (walk base (name :: names)) q)
    (ms : List (Text × Json)) :
    leavesAt q (flattenMembers base (insertAt (.scalar value) (name :: names) ms)) =
      leavesAt q (flattenMembers base ms) := by
  have hjoin : join base name ≠ "" := join_ne_empty hname
  induction names generalizing base name ms with
  | nil =>
      have hnot : ¬ Below (join base name) q := hq.notBelow
      have hgone : ∀ v, leavesAt q (flatten (join base name) v) = [] := by
        intro v
        refine leavesAt_eq_nil fun leaf hleaf heq => hnot ?_
        exact heq ▸ below_of_mem_flatten hjoin v leaf hleaf
      rw [insertAt_single]
      refine leavesAt_flattenMembers_update (fun old => ?_) ms
      cases old with
      | none => exact hgone _
      | some v => rw [hgone, flattenChild, Option.map_some, Option.getD_some, hgone]
  | cons next names ih =>
      obtain ⟨r, hr⟩ := walk_eq hjoin next names
      have hbefore : q ≠ join base name := hq.notBefore _ r hr
      have hindexed : ∀ s, q ≠ join base name ++ "[" ++ s := hq.notIndexed _ r hr
      have hnext : join (join base name) next ≠ "" := join_ne_empty (Or.inl hjoin)
      rw [insertAt_cons]
      refine leavesAt_flattenMembers_update (fun old => ?_) ms
      -- A child that is an object keeps its members; any other goes with all its leaves.
      have hbelow := ih (Or.inl hjoin) hq (membersOf old) hnext
      rw [insertBelow, flatten, hbelow]
      cases old with
      | none => rfl
      | some v =>
          cases v with
          | obj inner => rfl
          | scalar s =>
              refine (leavesAt_eq_nil fun leaf hleaf heq => hbefore ?_).symm
              have hflat : flattenChild (join base name) (some (.scalar s)) =
                  [(join base name, s)] := by
                simp [flattenChild, flatten, hjoin]
              rw [hflat, List.mem_singleton] at hleaf
              rw [← heq, hleaf]
          | arr vs =>
              refine (leavesAt_eq_nil fun leaf hleaf heq => ?_).symm
              obtain ⟨s, hs⟩ := bracket_of_mem_flattenElements (join base name) 0 vs leaf hleaf
              exact hindexed s (heq ▸ hs)

/-! Keys as paths -/

theorem toList_walk {base : Text} (hbase : base ≠ "") (names : List Text) :
    (walk base names).toList =
      base.toList ++ names.flatMap fun name => Point.char '.' :: name.toList := by
  induction names generalizing base with
  | nil => simp [walk]
  | cons name names ih =>
      rw [walk, ih (join_ne_empty (Or.inl hbase)), join_of_ne hbase]
      simp [Text.toList_append]

theorem intercalate_eq_flatMap (part : List Point) (parts : List (List Point)) :
    [Point.char '.'].intercalate (part :: parts) = part ++ parts.flatMap fun p => Point.char '.' :: p := by
  induction parts generalizing part with
  | nil => simp
  | cons next parts ih => rw [List.intercalate_cons_cons, ih]; simp

/-- The parts of a key lead to the key, unless the first of them is empty. -/
theorem walk_segments {key : Text} (hkey : key ≠ "") (hpoint : ∀ r, key ≠ "." ++ r) :
    ∃ name names, segments key = name :: names ∧ name ≠ "" ∧ walk "" (name :: names) = key := by
  obtain ⟨part, parts, hsplit⟩ := List.exists_cons_of_ne_nil (List.splitOn_ne_nil (Point.char '.') key.toList)
  have hjoined : part ++ parts.flatMap (fun p => Point.char '.' :: p) = key.toList := by
    rw [← intercalate_eq_flatMap, ← hsplit, List.intercalate_splitOn]
  have hpart : Text.ofList part ≠ "" := by
    intro hempty
    have hnil : part = [] := by simpa using congrArg Text.toList hempty
    rw [hnil, List.nil_append] at hjoined
    cases parts with
    | nil => exact hkey (Text.toList_injective hjoined.symm)
    | cons next parts =>
        refine hpoint (Text.ofList (next ++ parts.flatMap fun p => Point.char '.' :: p)) ?_
        apply Text.toList_injective
        rw [← hjoined]
        simp
  refine ⟨Text.ofList part, parts.map Text.ofList, ?_, hpart, ?_⟩
  · simp [segments, hsplit]
  · rw [walk, join, if_pos rfl]
    apply Text.toList_injective
    rw [toList_walk hpart, ← hjoined]
    simp [List.flatMap_map]

/-- Setting a value under a key leaves the first value at each path apart from the key. -/
theorem get?_flatten_insert {key q : Text} (hkey : key ≠ "") (hpoint : ∀ r, key ≠ "." ++ r)
    (hq : Apart key q) (value : Scalar) (ms : List (Text × Json)) :
    Assoc.get? q (flatten "" (.obj (insert key (.scalar value) ms))) =
      Assoc.get? q (flatten "" (.obj ms)) := by
  obtain ⟨name, names, hsegments, hname, hwalk⟩ := walk_segments hkey hpoint
  have hframe := leavesAt_insertAt value (Or.inr hname) (hwalk.symm ▸ hq) ms
  rw [insert, hsegments, flatten, flatten, ← get?_leavesAt, hframe, get?_leavesAt]

/-! The value that is set -/

theorem mem_flattenMembers {base : Text} {m : Text × Json} {ms : List (Text × Json)}
    {leaf : Text × Scalar} (hm : m ∈ ms) (hleaf : leaf ∈ flatten (join base m.1) m.2) :
    leaf ∈ flattenMembers base ms := by
  induction ms with
  | nil => cases hm
  | cons first ms ih =>
      obtain ⟨name, v⟩ := first
      rw [flattenMembers, List.mem_append]
      cases hm with
      | head _ => exact Or.inl hleaf
      | tail _ later => exact Or.inr (ih later)

/-- Setting a value along names puts a leaf at the path of the names. -/
theorem mem_flattenMembers_insertAt (value : Scalar) {base name : Text} {names : List Text}
    (hname : base ≠ "" ∨ name ≠ "") (ms : List (Text × Json)) :
    (walk base (name :: names), value) ∈
      flattenMembers base (insertAt (.scalar value) (name :: names) ms) := by
  have hjoin : join base name ≠ "" := join_ne_empty hname
  induction names generalizing base name ms with
  | nil =>
      rw [insertAt_single]
      refine mem_flattenMembers (Assoc.mem_update_self name _ ms) ?_
      simp [flatten, hjoin, walk]
  | cons next names ih =>
      rw [insertAt_cons]
      refine mem_flattenMembers (Assoc.mem_update_self name _ ms) ?_
      exact ih (Or.inl hjoin) _ (join_ne_empty (Or.inl hjoin))

/-- Setting a value under a key puts a leaf at the key. -/
theorem mem_flatten_insert {key : Text} (hkey : key ≠ "") (hpoint : ∀ r, key ≠ "." ++ r)
    (value : Scalar) (ms : List (Text × Json)) :
    (key, value) ∈ flatten "" (.obj (insert key (.scalar value) ms)) := by
  obtain ⟨name, names, hsegments, hname, hwalk⟩ := walk_segments hkey hpoint
  have hleaf : (walk "" (name :: names), value) ∈
      flattenMembers "" (insertAt (.scalar value) (name :: names) ms) :=
    mem_flattenMembers_insertAt value (Or.inr hname) ms
  rwa [hwalk, ← hsegments] at hleaf

end LocaleKeys.Key
