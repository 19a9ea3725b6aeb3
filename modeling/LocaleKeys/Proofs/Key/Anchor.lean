import LocaleKeys.Proofs.Key.Locate
import LocaleKeys.Proofs.Key.ScanText
import LocaleKeys.Proofs.Text.Position

/-!
Leaves of a text with the members around them. The key of a leaf is the path of the innermost member
around it, followed by the indices of arrays inside that member. So a scan locates the key at the
member, as long as no other member has the same path or looks like an element of an array.
-/

namespace LocaleKeys.Key

open Text (Position)

/-- A leaf under its key, with the innermost member around it if there is one. -/
structure Anchored where
  key : Text
  value : Scalar
  anchor : Option Occurrence

def Anchored.leaf (a : Anchored) : Text × Scalar :=
  (a.key, a.value)

mutual

/-- The leaves of a value that stands at `base`, where `anchor` is the innermost member around it.
-/
def anchored (base : Text) (anchor : Option Occurrence) : Json.Tree → List Anchored
  | .scalar s => if base = "" then [] else [⟨base, s, anchor⟩]
  | .arr elements => anchoredElements base anchor 0 elements
  | .obj members => anchoredMembers base [] members

def anchoredElements (base : Text) (anchor : Option Occurrence) (i : Nat) :
    List Json.Tree → List Anchored
  | [] => []
  | tree :: rest =>
    anchored (index base i) anchor tree ++ anchoredElements base anchor (i + 1) rest

/-- The leaves of members that follow those named in `before`. A name that comes again has none. -/
def anchoredMembers (base : Text) (before : List Text) :
    List (Json.Name × Json.Tree) → List Anchored
  | [] => []
  | (name, tree) :: rest =>
    (if before.contains name.text then []
      else anchored (join base name.text)
        (some ⟨name.text, join base name.text, name.offset, false⟩) tree) ++
      anchoredMembers base (before ++ [name.text]) rest

end

theorem flattenMembers_append (base : Text) (front back : List (Text × Json)) :
    flattenMembers base (front ++ back) = flattenMembers base front ++ flattenMembers base back := by
  induction front with
  | nil => rfl
  | cons m front ih =>
      obtain ⟨name, v⟩ := m
      rw [List.cons_append, flattenMembers, flattenMembers, ih, List.append_assoc]

/-! The leaves are those of the value that keeps the first member of each name -/

mutual

theorem map_leaf_anchored (base : Text) (anchor : Option Occurrence) :
    (tree : Json.Tree) →
      (anchored base anchor tree).map Anchored.leaf = flatten base (tree.toJson .keepFirst)
  | .scalar s => by
      rw [anchored, Json.Tree.toJson, flatten]
      split <;> rfl
  | .arr elements => by
      rw [anchored, Json.Tree.toJson, flatten, map_leaf_anchoredElements]
  | .obj members => by
      rw [anchored, Json.Tree.toJson, flatten, flattenMembers_toJsonMembers base [] [] (by simp),
        flattenMembers, List.nil_append]

theorem map_leaf_anchoredElements (base : Text) (anchor : Option Occurrence) (i : Nat) :
    (trees : List Json.Tree) →
      (anchoredElements base anchor i trees).map Anchored.leaf =
        flattenElements base i (Json.Tree.toJsonList .keepFirst trees)
  | [] => rfl
  | tree :: trees => by
      rw [anchoredElements, Json.Tree.toJsonList, flattenElements, List.map_append,
        map_leaf_anchored, map_leaf_anchoredElements]

theorem flattenMembers_toJsonMembers (base : Text) (done : List (Text × Json))
    (before : List Text) (hbefore : ∀ name, name ∈ before ↔ name ∈ Assoc.keys done) :
    (members : List (Json.Name × Json.Tree)) →
      flattenMembers base (Json.Tree.toJsonMembers .keepFirst done members) =
        flattenMembers base done ++ (anchoredMembers base before members).map Anchored.leaf
  | [] => by rw [Json.Tree.toJsonMembers, anchoredMembers, List.map_nil, List.append_nil]
  | (name, tree) :: members => by
      have hadd : Json.Repeats.keepFirst.add done name.text (tree.toJson .keepFirst) =
          Assoc.offer name.text (tree.toJson .keepFirst) done := rfl
      rw [Json.Tree.toJsonMembers, anchoredMembers, hadd]
      by_cases hname : name.text ∈ before
      · have hkeys : ∀ other, other ∈ before ++ [name.text] ↔ other ∈ Assoc.keys done := by
          intro other
          rw [← hbefore, List.mem_append, List.mem_singleton]
          exact ⟨fun h => h.elim id fun e => e ▸ hname, Or.inl⟩
        rw [Assoc.offer_of_mem _ ((hbefore _).mp hname), if_pos (by simpa using hname),
          List.nil_append, flattenMembers_toJsonMembers base done _ hkeys members]
      · have hkeys : ∀ other, other ∈ before ++ [name.text] ↔
            other ∈ Assoc.keys (done ++ [(name.text, tree.toJson .keepFirst)]) := by
          intro other
          simp [Assoc.keys, hbefore]
        rw [Assoc.offer_of_not_mem _ (mt (hbefore _).mpr hname), if_neg (by simpa using hname),
          flattenMembers_toJsonMembers base _ _ hkeys members, flattenMembers_append,
          flattenMembers, flattenMembers, List.append_nil, List.map_append, map_leaf_anchored,
          List.append_assoc]

end

/-! A key goes on from its member with indices -/

/-- A leaf inside `base` that has no member of its own, or one of the names `os`. -/
def Anchored.Under (base : Text) (anchor : Option Occurrence) (os : List Occurrence)
    (a : Anchored) : Prop :=
  (a.anchor = anchor ∧ ∃ is, a.key = element base is) ∨
    ∃ o ∈ os, o.repeated = false ∧ a.anchor = some o ∧ ∃ is, a.key = element o.path is

variable {base : Text} {anchor : Option Occurrence} {a : Anchored}

theorem Anchored.Under.mono {os more : List Occurrence} (h : a.Under base anchor os)
    (hsub : os ⊆ more) : a.Under base anchor more :=
  h.imp_right fun ⟨o, ho, hanchor⟩ => ⟨o, hsub ho, hanchor⟩

mutual

theorem under_of_mem_anchored (base : Text) (anchor : Option Occurrence) :
    (tree : Json.Tree) → ∀ a ∈ anchored base anchor tree, a.Under base anchor (occurrences base tree)
  | .scalar s, a, ha => by
      rw [anchored] at ha
      split at ha
      · cases ha
      · obtain rfl := List.mem_singleton.mp ha
        exact Or.inl ⟨rfl, [], rfl⟩
  | .arr elements, a, ha => by
      rw [anchored] at ha
      exact under_of_mem_anchoredElements base anchor 0 elements a ha
  | .obj members, a, ha => by
      rw [anchored] at ha
      exact Or.inr (member_of_mem_anchoredMembers base [] members a ha)

theorem under_of_mem_anchoredElements (base : Text) (anchor : Option Occurrence) (i : Nat) :
    (trees : List Json.Tree) → ∀ a ∈ anchoredElements base anchor i trees,
      a.Under base anchor (elementOccurrences base i trees)
  | [], a, ha => by cases ha
  | tree :: trees, a, ha => by
      rw [anchoredElements] at ha
      rw [elementOccurrences]
      cases List.mem_append.mp ha with
      | inl here =>
          have hunder := under_of_mem_anchored (index base i) anchor tree a here
          obtain ⟨hanchor, is, hkey⟩ | hmember := hunder.mono (List.subset_append_left _ _)
          · exact Or.inl ⟨hanchor, i :: is, hkey⟩
          · exact Or.inr hmember
      | inr later =>
          exact (under_of_mem_anchoredElements base anchor (i + 1) trees a later).mono
            (List.subset_append_right _ _)

theorem member_of_mem_anchoredMembers (base : Text) (before : List Text) :
    (members : List (Json.Name × Json.Tree)) → ∀ a ∈ anchoredMembers base before members,
      ∃ o ∈ memberOccurrences base before members, o.repeated = false ∧ a.anchor = some o ∧
        ∃ is, a.key = element o.path is
  | [], a, ha => by cases ha
  | (name, tree) :: members, a, ha => by
      rw [anchoredMembers] at ha
      rw [memberOccurrences]
      cases List.mem_append.mp ha with
      | inl here =>
          split at here
          · cases here
          · next hnew =>
              rw [Bool.not_eq_true] at hnew
              rw [hnew]
              obtain ⟨hanchor, hkey⟩ | ⟨o, ho, hmember⟩ := under_of_mem_anchored _ _ tree a here
              · exact ⟨_, List.mem_cons_self, rfl, hanchor, hkey⟩
              · exact ⟨o, List.mem_cons_of_mem _ (List.mem_append_left _ ho), hmember⟩
      | inr later =>
          obtain ⟨o, ho, hmember⟩ := member_of_mem_anchoredMembers base _ members a later
          exact ⟨o, List.mem_cons_of_mem _ (List.mem_append_right _ ho), hmember⟩

end

/-! Places of members -/

variable {text : List Point} {tree : Json.Tree} {path : Text} {place : Position}

/-- Two member names never stand at one place. -/
theorem InOrder.place_inj {low high : Nat} {os : List Occurrence} (h : InOrder text low high os)
    (hhigh : high ≤ text.length) {o other : Occurrence} (ho : o ∈ os) (hother : other ∈ os)
    (hplace : o.place text = other.place text) : o = other := by
  have hnodup : (os.map (·.offset)).Nodup :=
    List.pairwise_map.mpr (h.sorted.imp fun hlt => Nat.ne_of_lt hlt)
  refine List.inj_on_of_nodup_map hnodup ho hother ?_
  have hend := (h.between o ho).2
  have hend' := (h.between other hother).2
  exact Position.ofOffset_inj (by omega) (by omega) hplace

/-- A text that starts with a quote is a single string, so no member name stands at the start. -/
theorem place_ne_start (h : Json.readTree text = .ok tree) {o : Occurrence}
    (ho : o ∈ occurrences "" tree) : o.place text ≠ Position.start := by
  have hreads := Json.readsText_of_readTree h
  have horder := inOrder_of_readsText hreads
  intro hplace
  have hoffset : o.offset = 0 :=
    Position.ofOffset_inj (horder.between o ho).2.le (Nat.zero_le _) hplace
  obtain ⟨raw, rest, hdrop, -⟩ := horder.stands o ho
  rw [hoffset, List.drop_zero] at hdrop
  obtain ⟨stop, hvalue, -⟩ := hreads
  rw [hdrop] at hvalue
  have hleaf : ∀ {depth start}, Json.Reads depth start tree stop → start.rest.head? = some (Point.char '"') →
      occurrences "" tree = [] := by
    intro depth start hvalue hquote
    cases depth with
    | zero => cases hvalue <;> rfl
    | succ depth =>
        cases hvalue with
        | inl leaf => cases leaf <;> rfl
        | inr container => cases container <;> cases hquote
  rw [hleaf hvalue rfl] at ho
  cases ho

/-- A path with a place is that of a member, which is not a repeat and stands there. -/
theorem mem_occurrences_of_get? (h : Json.readTree text = .ok tree)
    (hget : Assoc.get? path (scan text).positions = some place) :
    ∃ o ∈ occurrences "" tree, o.repeated = false ∧ o.path = path ∧ o.place text = place := by
  rw [positions_of_readsText (Json.readsText_of_readTree h), Option.map_eq_some_iff] at hget
  obtain ⟨o, hfind, hplace⟩ := hget
  obtain ⟨hmem, hnew⟩ := List.mem_filter.mp (List.mem_of_find?_eq_some hfind)
  exact ⟨o, hmem, by simpa using hnew, by simpa using List.find?_some hfind, hplace⟩

theorem has_positions (h : Json.readTree text = .ok tree) {o : Occurrence}
    (ho : o ∈ occurrences "" tree) (hnew : o.repeated = false) :
    Assoc.has o.path (scan text).positions = true := by
  rw [Assoc.has, positions_of_readsText (Json.readsText_of_readTree h), Option.isSome_map,
    List.find?_isSome]
  exact ⟨o, List.mem_filter.mpr ⟨ho, by simp [hnew]⟩, by simp⟩

/-- A leaf is located at a path from which indices lead to it, or it is in arrays that no member
holds. -/
theorem locate_leaf (h : Json.readTree text = .ok tree) {leaf : Text × Scalar}
    (hleaf : leaf ∈ flatten "" (tree.toJson .keepFirst)) :
    ∃ path js, leaf.1 = element path js ∧
      (path = "" ∧ (scan text).locate leaf.1 = none ∨
        ∃ place, Assoc.get? path (scan text).positions = some place ∧
          (scan text).locate leaf.1 = some place) := by
  rw [← map_leaf_anchored "" none, List.mem_map] at hleaf
  obtain ⟨a, ha, rfl⟩ := hleaf
  obtain ⟨-, is, hkey⟩ | ⟨o, ho, hnew, -, is, hkey⟩ := under_of_mem_anchored "" none tree a ha
  · have hroot : Text.ofString "" = "" ∨ Assoc.has (Text.ofString "") (scan text).positions = true :=
      Or.inl rfl
    have hlocated := (scan text).locate_element hroot is
    rwa [← hkey] at hlocated
  · have hlocated := (scan text).locate_element (Or.inr (has_positions h ho hnew)) is
    rwa [← hkey] at hlocated

/-- Leaves that are reported at one place have keys that go on with indices from one path. -/
theorem common_path_of_place_eq (h : Json.readTree text = .ok tree) {leaf other : Text × Scalar}
    (hleaf : leaf ∈ flatten "" (tree.toJson .keepFirst))
    (hother : other ∈ flatten "" (tree.toJson .keepFirst))
    (hplace : ((scan text).locate leaf.1).getD Position.start =
      ((scan text).locate other.1).getD Position.start) :
    ∃ path is js, leaf.1 = element path is ∧ other.1 = element path js := by
  have hnotStart : ∀ {path place}, Assoc.get? path (scan text).positions = some place →
      place ≠ Position.start := by
    intro path place hget
    obtain ⟨o, ho, -, -, rfl⟩ := mem_occurrences_of_get? h hget
    exact place_ne_start h ho
  obtain ⟨path, is, hkey, hlocated⟩ := locate_leaf h hleaf
  obtain ⟨path', js, hkey', hlocated'⟩ := locate_leaf h hother
  obtain ⟨rfl, hnone⟩ | ⟨place, hget, hsome⟩ := hlocated <;>
    obtain ⟨rfl, hnone'⟩ | ⟨place', hget', hsome'⟩ := hlocated'
  · exact ⟨"", is, js, hkey, hkey'⟩
  · rw [hnone, hsome', Option.getD_none, Option.getD_some] at hplace
    exact absurd hplace.symm (hnotStart hget')
  · rw [hsome, hnone', Option.getD_none, Option.getD_some] at hplace
    exact absurd hplace (hnotStart hget)
  · rw [hsome, hsome', Option.getD_some, Option.getD_some] at hplace
    obtain ⟨o, ho, -, rfl, rfl⟩ := mem_occurrences_of_get? h hget
    obtain ⟨o', ho', -, rfl, rfl⟩ := mem_occurrences_of_get? h hget'
    have horder := inOrder_of_readsText (Json.readsText_of_readTree h)
    obtain rfl := horder.place_inj le_rfl ho ho' hplace
    exact ⟨o.path, is, js, hkey, hkey'⟩

end LocaleKeys.Key
