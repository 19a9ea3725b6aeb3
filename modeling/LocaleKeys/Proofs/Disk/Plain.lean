import LocaleKeys.Disk.Files
import LocaleKeys.Proofs.Disk.Resolve

/-!
Disks without links. There a path without steps up leads to its own names and nowhere else, and what
is above it are folders.
-/

namespace LocaleKeys.Disk

variable {disk after : Disk} {place folder : Place} {path : Path} {node : Node} {name : Text}

/-- A tree without links whose working folder is there. -/
structure IsPlain (disk : Disk) : Prop extends IsTree disk where
  here : disk.get? disk.here = some .folder
  noLink : ∀ entry ∈ disk.nodes, isFileNode entry.2 = true ∨ isFolderNode entry.2 = true

theorem isPlain_iff :
    disk.IsPlain ↔ disk.IsTree ∧ disk.get? disk.here = some .folder ∧
      ∀ entry ∈ disk.nodes, isFileNode entry.2 = true ∨ isFolderNode entry.2 = true :=
  ⟨fun h => ⟨h.toIsTree, h.here, h.noLink⟩, fun ⟨tree, hhere, hlinks⟩ => ⟨tree, hhere, hlinks⟩⟩

instance (disk : Disk) : Decidable disk.IsPlain :=
  decidable_of_iff _ isPlain_iff.symm

/-! Entries -/

theorem get?_put (node : Node) (hplace : place ≠ []) (other : Place) :
    (disk.put place node).get? other = if other = place then some node else disk.get? other := by
  rw [get?, get?, put]
  by_cases hroot : other = []
  · subst hroot
    rw [if_pos rfl, if_pos rfl, if_neg (Ne.symm hplace)]
  · rw [if_neg hroot, if_neg hroot, Assoc.put_eq_update, Assoc.get?_update]
    by_cases hsame : other = place
    · rw [if_pos hsame, hsame, if_pos (beq_self_eq_true place)]
    · have hother : (place == other) = false := by simpa using Ne.symm hsame
      rw [if_neg hsame, hother, if_neg Bool.false_ne_true]

/-- Putting what is there already changes nothing. -/
theorem put_of_get? (hplace : place ≠ []) (h : disk.get? place = some node) :
    disk.put place node = disk := by
  rw [get?, if_neg hplace] at h
  have hnodes : Assoc.put place node disk.nodes = disk.nodes := by
    generalize disk.nodes = nodes at h
    induction nodes with
    | nil => cases h
    | cons entry rest ih =>
        obtain ⟨other, held⟩ := entry
        rw [Assoc.get?] at h
        rw [Assoc.put]
        split at h
        · next hsame =>
            cases h
            rw [if_pos hsame]
        · next hother => rw [if_neg hother, ih h]
  rw [put, hnodes]

namespace IsTree

theorem not_up (tree : disk.IsTree) (h : disk.get? place = some node) : Text.ofString ".." ∉ place := by
  intro hup
  obtain ⟨front, back, rfl⟩ := List.append_of_mem hup
  exact (tree.proper_of_append h).1 rfl

end IsTree

namespace IsPlain

variable (plain : disk.IsPlain)

include plain

theorem ne_link (h : disk.get? place = some node) (target : Path) : node ≠ .link target := by
  rintro rfl
  by_cases hplace : place = []
  · rw [get?, if_pos hplace] at h
    cases h
  · cases plain.noLink _ (IsTree.mem_of_get? hplace h) with
    | inl hfile => cases hfile
    | inr hfolder => cases hfolder

theorem startOf (path : Path) : disk.get? (disk.startOf path) = some .folder := by
  rw [Disk.startOf]
  split
  · rfl
  · exact plain.here

theorem look_place (h : disk.get? place = some node) :
    disk.look place.path = if IsTooLong place then .error .nameTooLong else .ok (place, node) :=
  plain.toIsTree.look_place h (plain.ne_link h)

theorem resolve_place (h : disk.get? place = some node) : disk.resolve place.path = .ok place :=
  plain.toIsTree.resolve_place h (plain.ne_link h)

theorem get?_dropLast (h : disk.get? place = some .folder) :
    disk.get? place.dropLast = some .folder := by
  cases List.eq_nil_or_concat place with
  | inl hroot =>
      rw [hroot]
      rfl
  | inr hbelow =>
      obtain ⟨above, last, rfl⟩ := hbelow
      rw [List.concat_eq_append] at h ⊢
      rw [List.dropLast_concat]
      exact (plain.get?_concat h).1

/-! Walks -/

/-- One name of a walk that leads somewhere: a step up, a folder to go on from, or the last name. -/
theorem walkFrom_cons_iff {follow : Place → List Text → Except Fault Place} {names : List Text} :
    walkFrom disk follow folder (name :: names) = .ok place ↔
      name = ".." ∧ walkFrom disk follow folder.dropLast names = .ok place ∨
      name ≠ ".." ∧ ¬ maxNameBytes < byteSize name ∧
        (disk.get? (folder ++ [name]) = some .folder ∧
            walkFrom disk follow (folder ++ [name]) names = .ok place ∨
          disk.get? (folder ++ [name]) ≠ some .folder ∧ names = [] ∧ place = folder ++ [name]) := by
  rw [walkFrom]
  by_cases hup : name = ".."
  · simp [hup]
  · rw [if_neg hup]
    by_cases hlong : maxNameBytes < byteSize name
    · simp [hup, hlong]
    · rw [if_neg hlong]
      dsimp only
      cases hget : disk.get? (folder ++ [name]) with
      | none => cases names <;> simp [hup, hlong, eq_comm]
      | some held =>
          cases held with
          | file data => cases names <;> simp [hup, hlong, eq_comm]
          | folder => simp [hup, hlong]
          | link target => exact absurd rfl (plain.ne_link hget target)

/-- Without steps up a walk goes along its names. -/
theorem eq_of_walkFrom {follow : Place → List Text → Except Fault Place} {names : List Text}
    (h : walkFrom disk follow folder names = .ok place) (hup : Text.ofString ".." ∉ names) :
    place = folder ++ names := by
  induction names generalizing folder with
  | nil =>
      cases h
      rw [List.append_nil]
  | cons name rest ih =>
      rw [List.mem_cons, not_or] at hup
      obtain ⟨rfl, -⟩ | ⟨-, -, ⟨-, hrest⟩ | ⟨-, rfl, rfl⟩⟩ := plain.walkFrom_cons_iff.mp h
      · exact absurd rfl hup.1
      · rw [List.append_cons]
        exact ih hrest hup.2
      · rfl

/-- What a path without steps up leads to is at the place of its names. -/
theorem eq_of_look {names : List Text} (h : disk.look (Place.path names) = .ok (place, node))
    (hup : Text.ofString ".." ∉ names) : place = names := by
  rw [look] at h
  split at h
  · cases h
  · next found hlocate =>
      rw [locate] at hlocate
      split at hlocate
      · cases hlocate
      · have hplace : found = [] ++ names := plain.eq_of_walkFrom hlocate hup
        split at h
        · cases h
          exact hplace
        · cases h

/-- A path of a place leads there if that is there, and not too long. -/
theorem look_path_iff {other : Place} (hup : Text.ofString ".." ∉ place) :
    disk.look place.path = .ok (other, node) ↔
      other = place ∧ disk.get? place = some node ∧ ¬ IsTooLong place := by
  constructor
  · intro h
    obtain rfl := plain.eq_of_look h hup
    obtain ⟨-, hget⟩ := look_eq_ok h
    refine ⟨rfl, hget, fun hlong => ?_⟩
    rw [plain.look_place hget, if_pos hlong] at h
    cases h
  · rintro ⟨rfl, hget, hshort⟩
    rw [plain.look_place hget, if_neg hshort]

theorem settle_eq (depth : Nat) (front : Place) (names : List Text) :
    disk.settle depth [] front names = ⟨withoutSteps front names, true⟩ := by
  induction names generalizing front with
  | nil => exact settle_nil
  | cons name rest ih =>
      rw [withoutSteps]
      split
      · next hup => rw [hup, settle_up, ih]
      · next hname =>
          have hnode : ∀ target, disk.get? (front ++ [name]) ≠ some (.link target) :=
            fun target hlink => plain.ne_link hlink target rfl
          rw [settle_name hname hnode, ih]

/-- Resolving goes by the names alone. -/
theorem resolve_eq_ok_iff :
    disk.resolve path = .ok place ↔ Text.Utf8.IsNameable path.text.toList ∧ path.hasNull = false ∧
      place = withoutSteps (disk.startOf path) path.names := by
  rw [← Text.Utf8.unnameable?_eq_none_iff, resolve, plain.settle_eq]
  cases Text.Utf8.unnameable? path.text.toList with
  | some f => simp
  | none => cases path.hasNull <;> simp [eq_comm]

/-- A walk along two lists of names goes on behind the first one if that leads to a folder. -/
theorem walkFrom_append {follow : Place → List Text → Except Fault Place} {front back : List Text}
    (hback : back ≠ []) (hfolder : disk.get? folder = some .folder) (hplace :
      walkFrom disk follow folder (front ++ back) = .ok place) :
    ∃ middle, walkFrom disk follow folder front = .ok middle ∧
      disk.get? middle = some .folder ∧ walkFrom disk follow middle back = .ok place := by
  induction front generalizing folder with
  | nil => exact ⟨folder, rfl, hfolder, hplace⟩
  | cons name rest ih =>
      obtain ⟨hup, hrest⟩ | ⟨hname, hshort, ⟨hnext, hrest⟩ | ⟨-, hnil, -⟩⟩ :=
        plain.walkFrom_cons_iff.mp hplace
      · obtain ⟨middle, hfront, hmiddle⟩ := ih (plain.get?_dropLast hfolder) hrest
        exact ⟨middle, plain.walkFrom_cons_iff.mpr (Or.inl ⟨hup, hfront⟩), hmiddle⟩
      · obtain ⟨middle, hfront, hmiddle⟩ := ih hnext hrest
        exact ⟨middle, plain.walkFrom_cons_iff.mpr
          (Or.inr ⟨hname, hshort, Or.inl ⟨hnext, hfront⟩⟩), hmiddle⟩
      · exact absurd hnil (List.append_ne_nil_of_right_ne_nil _ hback)

omit plain in
theorem not_up_withoutSteps {front : Place} {names : List Text} (h : Text.ofString ".." ∉ front) :
    Text.ofString ".." ∉ withoutSteps front names := by
  induction names generalizing front with
  | nil => exact h
  | cons name rest ih =>
      rw [withoutSteps]
      split
      · exact ih fun hup => h (List.dropLast_subset _ hup)
      · next hname =>
          refine ih fun hup => ?_
          rw [List.mem_append, List.mem_singleton] at hup
          exact hup.elim h (Ne.symm hname)

/-- What is resolved has no steps up. -/
theorem not_up_of_resolve (h : disk.resolve path = .ok place) : Text.ofString ".." ∉ place := by
  obtain ⟨-, -, rfl⟩ := plain.resolve_eq_ok_iff.mp h
  exact not_up_withoutSteps (plain.not_up (plain.startOf path))

end IsPlain

/-! Paths and the folders above them -/

theorem text_prefix (root : Text) (front back : List Text) :
    Path.text ⟨root, front⟩ = "." ∨
      (Path.text ⟨root, front⟩).toList <+: (Path.text ⟨root, front ++ back⟩).toList := by
  rw [Path.text, Path.text]
  dsimp only
  by_cases hdot : root = "" ∧ front = []
  · obtain ⟨rfl, rfl⟩ := hdot
    exact Or.inl rfl
  · have hfront : (root = "" && front.isEmpty) = false := by
      simpa [List.isEmpty_iff] using hdot
    have hall : (root = "" && (front ++ back).isEmpty) = false := by
      have hleft : root = "" → ¬ (front = [] ∧ back = []) := fun hroot hnil => hdot ⟨hroot, hnil.1⟩
      simpa [List.isEmpty_iff] using hleft
    rw [hfront, hall, if_neg Bool.false_ne_true, if_neg Bool.false_ne_true, Text.toList_append,
      Text.toList_append, Text.toList_intercalate, Text.toList_intercalate, List.map_append]
    exact Or.inr ((List.prefix_append_right_inj _).mpr (Text.intercalate_prefix _ _ _))

/-- The path of a folder takes no more bytes than the paths below, but for the dot it may be. -/
theorem byteSize_text_le (root : Text) (front back : List Text) :
    byteSize (Path.text ⟨root, front⟩) ≤ max 1 (byteSize (Path.text ⟨root, front ++ back⟩)) := by
  obtain hdot | ⟨rest, hrest⟩ := text_prefix root front back
  · rw [hdot]
    exact Nat.le_max_left _ _
  · rw [byteSize, byteSize, ← hrest, Text.Utf8.bytesInName_append]
    omega

theorem isNameable_text_of_append {root : Text} {front back : List Text}
    (h : Text.Utf8.IsNameable (Path.text ⟨root, front ++ back⟩).toList) :
    Text.Utf8.IsNameable (Path.text ⟨root, front⟩).toList := by
  obtain hdot | hstart := text_prefix root front back
  · rw [hdot]
    decide
  · exact fun c hc => h c (hstart.subset hc)

/-- What is wrong with the path of a folder is wrong with all paths below. -/
theorem pathFault?_of_append {root : Text} {front back : List Text}
    (h : pathFault? ⟨root, front ++ back⟩ = none) : pathFault? ⟨root, front⟩ = none := by
  obtain ⟨hbytes, hnull, hsize⟩ := pathFault?_eq_none_iff.mp h
  rw [Path.hasNull, List.any_append, Bool.or_eq_false_iff] at hnull
  refine pathFault?_eq_none_iff.mpr ⟨isNameable_text_of_append hbytes, hnull.1, ?_⟩
  have hle := byteSize_text_le root front back
  rw [maxPathBytes] at hsize ⊢
  omega

/-- The names of a path that can be asked for may be those of places, but for steps up. -/
theorem isName_of_pathFault? {root : Text} {names : List Text}
    (h : pathFault? ⟨root, names⟩ = none) (hname : name ∈ names) (hup : name ≠ "..") :
    IsName name := by
  obtain ⟨hbytes, hnull, -⟩ := pathFault?_eq_none_iff.mp h
  refine ⟨hup, ?_, ?_⟩
  · rw [Path.hasNull, List.any_eq_false] at hnull
    simpa using hnull name hname
  · have hnames : names ≠ [] := List.ne_nil_of_mem hname
    rw [Path.text, if_neg (by simp [hnames]), Text.toList_append, Text.toList_intercalate] at hbytes
    have hslash : Text.Utf8.IsNameable (Text.ofString "/").toList := by decide
    exact (Text.forall_mem_intercalate hslash).mp (List.forall_mem_append.mp hbytes).2 _
      (List.mem_map_of_mem hname)

theorem IsTooLong.append {front : Place} (h : IsTooLong front) (back : Place) :
    IsTooLong (front ++ back) := by
  obtain hpath | ⟨last, hlast, hname⟩ := h
  · left
    have hsize := byteSize_text_le "/" front back
    rw [Place.path] at hpath ⊢
    rw [maxPathBytes] at *
    omega
  · exact Or.inr ⟨last, List.mem_append_left _ hlast, hname⟩

/-- Above whatever a path leads to there is a folder, to which the path of the folder leads. -/
theorem IsPlain.locate_concat (plain : disk.IsPlain) {root : Text} {names : List Text}
    (h : disk.locate ⟨root, names ++ [name]⟩ = .ok place) :
    ∃ front, disk.look ⟨root, names⟩ = .ok (front, .folder) ∧
      (name = ".." ∨
        byteSize name ≤ maxNameBytes ∧ IsName name ∧ place = front ++ [name]) := by
  rw [locate] at h
  split at h
  · cases h
  · next hfault =>
      have hback : [name] ≠ [] := List.cons_ne_nil _ _
      obtain ⟨front, hfront, hfolder, hlast⟩ :=
        plain.walkFrom_append hback (plain.startOf _) h
      have hlook : disk.look ⟨root, names⟩ = .ok (front, .folder) := by
        have hlocate : disk.locate ⟨root, names⟩ = .ok front := by
          rw [locate, pathFault?_of_append hfault]
          exact hfront
        rw [look, hlocate]
        dsimp only
        rw [hfolder]
      refine ⟨front, hlook, ?_⟩
      obtain ⟨hup, -⟩ | ⟨hname, hshort, -⟩ := plain.walkFrom_cons_iff.mp hlast
      · exact Or.inl hup
      · exact Or.inr ⟨Nat.le_of_not_lt hshort, isName_of_pathFault? hfault (by simp) hname,
          plain.eq_of_walkFrom hlast (by simpa using Ne.symm hname)⟩

end LocaleKeys.Disk
