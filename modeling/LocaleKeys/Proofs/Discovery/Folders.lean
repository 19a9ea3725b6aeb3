import LocaleKeys.Proofs.Disk.Order
import LocaleKeys.Proofs.Disk.Plain
import LocaleKeys.Proofs.Discovery

/-!
Walks through all folders. On a plain disk a walk from a folder reaches every folder below it, and fails
exactly if one of them has a path that is too long or lies too deep. A search for names in all folders
fails for nothing else.
-/

namespace LocaleKeys

/-! Probing places -/

namespace Disk.IsPlain

variable {disk : Disk} {place : Place} {passes : Node → Bool}

theorem test_path_iff (plain : disk.IsPlain) (hup : Text.ofString ".." ∉ place) :
    disk.test passes place.path = .ok true ↔
      ∃ node, disk.get? place = some node ∧ passes node = true ∧ ¬ IsTooLong place := by
  constructor
  · intro h
    obtain ⟨other, node, hlook, hpasses⟩ := look_of_test h
    obtain ⟨-, hget, hshort⟩ := (plain.look_path_iff hup).mp hlook
    exact ⟨node, hget, hpasses, hshort⟩
  · rintro ⟨node, hget, hpasses, hshort⟩
    rw [test, (plain.look_path_iff hup).mpr ⟨rfl, hget, hshort⟩]
    dsimp only
    rw [hpasses]

theorem isFolder_path_iff (plain : disk.IsPlain) (hup : Text.ofString ".." ∉ place) :
    disk.isFolder place.path = .ok true ↔ disk.get? place = some .folder ∧ ¬ IsTooLong place := by
  rw [isFolder, plain.test_path_iff hup]
  constructor
  · rintro ⟨node, hget, hnode, hshort⟩
    cases node with
    | folder => exact ⟨hget, hshort⟩
    | file _ | link _ => cases hnode
  · rintro ⟨hget, hshort⟩
    exact ⟨.folder, hget, rfl, hshort⟩

theorem isFile_path_iff (plain : disk.IsPlain) (hup : Text.ofString ".." ∉ place) :
    disk.isFile place.path = .ok true ↔
      (∃ data, disk.get? place = some (.file data)) ∧ ¬ IsTooLong place := by
  rw [isFile, plain.test_path_iff hup]
  constructor
  · rintro ⟨node, hget, hnode, hshort⟩
    cases node with
    | file data => exact ⟨⟨data, hget⟩, hshort⟩
    | folder | link _ => cases hnode
  · rintro ⟨⟨data, hget⟩, hshort⟩
    exact ⟨.file data, hget, rfl, hshort⟩

/-- What is there can be probed unless its path is too long. -/
theorem test_place {node : Node} (plain : disk.IsPlain) (h : disk.get? place = some node)
    (passes : Node → Bool) :
    disk.test passes place.path =
      if IsTooLong place then .error ⟨.nameTooLong, place.path⟩ else .ok (passes node) := by
  rw [test, plain.look_place h]
  split_ifs <;> rfl

theorem mem_children (plain : disk.IsPlain) {name : Text} {node : Node} :
    (name, node) ∈ disk.children place ↔ disk.get? (place ++ [name]) = some node := by
  rw [children, List.mem_filterMap]
  constructor
  · rintro ⟨⟨other, held⟩, hentry, hname⟩
    dsimp only at hname
    split at hname
    · next hfront =>
        obtain ⟨last, hlast, hpair⟩ := Option.map_eq_some_iff.mp hname
        cases hpair
        have hplace : other = place ++ [name] := by
          rw [← hfront, List.dropLast_append_getLast? name hlast]
        exact plain.get?_of_mem (hplace ▸ hentry)
    · cases hname
  · intro hget
    have hne : place ++ [name] ≠ [] := List.append_ne_nil_of_right_ne_nil _ (List.cons_ne_nil _ _)
    exact ⟨_, IsTree.mem_of_get? hne hget, by simp⟩

end Disk.IsPlain

namespace Glob

variable {disk : Disk} {start : Place} {path : Path} {found : List Path}

/-! Gathering -/

section Gather

variable {search : Path → Except Disk.Obstacle (List Path)} {paths : List Path}

theorem gather_fails_iff : Fails (gather search paths) ↔ ∃ path ∈ paths, Fails (search path) := by
  induction paths with
  | nil => simp [gather]
  | cons path rest ih =>
      rw [List.exists_mem_cons_iff, ← ih, gather]
      cases search path with
      | error o => simp
      | ok found => cases gather search rest <;> simp

theorem mem_gather (h : gather search paths = .ok found) :
    path ∈ found ↔ ∃ first ∈ paths, ∃ more, search first = .ok more ∧ path ∈ more := by
  induction paths generalizing found with
  | nil =>
      cases h
      simp
  | cons first rest ih =>
      rw [gather] at h
      split at h
      · cases h
      · next more hmore =>
          split at h
          · cases h
          · next others hothers =>
              cases h
              simp [ih hothers, hmore]

theorem gather_singleton : gather (fun path => .ok [path]) paths = .ok paths := by
  induction paths with
  | nil => rfl
  | cons path rest ih =>
      rw [gather, ih]
      rfl

theorem exists_of_gather (h : gather search paths = .ok found) {first : Path} (hfirst : first ∈ paths) :
    ∃ more, search first = .ok more := by
  rw [← not_fails_iff]
  intro hfails
  have hall := gather_fails_iff.mpr ⟨first, hfirst, hfails⟩
  rw [h] at hall
  exact not_fails_ok found hall

end Gather

/-! Folders below a folder -/

section Folders

variable (plain : disk.IsPlain)

include plain

theorem entries_eq (hfolder : disk.get? start = some .folder) :
    entries disk start.path =
      if Disk.IsTooLong start then .error (.access ⟨.nameTooLong, start.path⟩)
      else .ok (disk.children start) := by
  rw [entries, plain.look_place hfolder]
  split_ifs <;> rfl

theorem mem_childFolders :
    path ∈ ((disk.children start).filter fun entry => Disk.isFolderNode entry.2).map
        (child start.path ·.1) ↔
      ∃ name, path = Place.path (start ++ [name]) ∧ disk.get? (start ++ [name]) = some .folder := by
  rw [List.mem_map]
  constructor
  · rintro ⟨⟨name, node⟩, hentry, rfl⟩
    obtain ⟨hentry, hnode⟩ := List.mem_filter.mp hentry
    cases node with
    | folder => exact ⟨name, rfl, plain.mem_children.mp hentry⟩
    | file _ | link _ => cases hnode
  · rintro ⟨name, rfl, hget⟩
    exact ⟨(name, .folder), List.mem_filter.mpr ⟨plain.mem_children.mpr hget, rfl⟩, rfl⟩

/-- A folder below the start is the start itself, or below one of the folders in it. -/
theorem exists_folder_iff {p : List Text → Prop} (hfolder : disk.get? start = some .folder) :
    (∃ passed, disk.get? (start ++ passed) = some .folder ∧ p passed) ↔
      p [] ∨ ∃ name, disk.get? (start ++ [name]) = some .folder ∧
        ∃ passed, disk.get? (start ++ [name] ++ passed) = some .folder ∧ p (name :: passed) := by
  constructor
  · rintro ⟨passed, hget, hp⟩
    cases passed with
    | nil => exact Or.inl hp
    | cons name passed =>
        rw [List.append_cons] at hget
        exact Or.inr ⟨name, plain.folder_of_folder hget, passed, hget, hp⟩
  · rintro (hp | ⟨name, -, passed, hget, hp⟩)
    · exact ⟨[], by rwa [List.append_nil], hp⟩
    · exact ⟨name :: passed, by rwa [List.append_cons], hp⟩

/-- A walk through all folders fails exactly if one of them is too long, or too deep for its room. -/
theorem foldersFrom_fails_iff {room : Nat} (hfolder : disk.get? start = some .folder) :
    Fails (foldersFrom disk room start.path) ↔ ∃ passed,
      disk.get? (start ++ passed) = some .folder ∧
        (Disk.IsTooLong (start ++ passed) ∨ room ≤ passed.length) := by
  induction room generalizing start with
  | zero =>
      refine iff_of_true (fails_error _) ⟨[], ?_, Or.inr (Nat.zero_le _)⟩
      rwa [List.append_nil]
  | succ room ih =>
      rw [exists_folder_iff plain hfolder, List.append_nil, foldersFrom, entries_eq plain hfolder]
      by_cases hlong : Disk.IsTooLong start
      · rw [if_pos hlong]
        exact iff_of_true (fails_error _) (Or.inl (Or.inl hlong))
      · have hroom : ¬ (Disk.IsTooLong start ∨ room + 1 ≤ ([] : List Text).length) :=
          not_or.mpr ⟨hlong, Nat.not_succ_le_zero room⟩
        rw [if_neg hlong, or_iff_right hroom]
        dsimp only
        rw [fails_map, gather_fails_iff]
        simp only [mem_childFolders plain]
        constructor
        · rintro ⟨_, ⟨name, rfl, hname⟩, hfails⟩
          obtain ⟨passed, hget, hstops⟩ := (ih hname).mp hfails
          refine ⟨name, hname, passed, hget, ?_⟩
          rw [List.append_cons]
          exact hstops.imp_right Nat.succ_le_succ
        · rintro ⟨name, hname, passed, hget, hstops⟩
          rw [List.append_cons] at hstops
          exact ⟨_, ⟨name, rfl, hname⟩,
            (ih hname).mpr ⟨passed, hget, hstops.imp_right Nat.le_of_succ_le_succ⟩⟩

theorem mem_foldersFrom {room : Nat} (hfolder : disk.get? start = some .folder)
    (h : foldersFrom disk room start.path = .ok found) :
    path ∈ found ↔ ∃ passed, disk.get? (start ++ passed) = some .folder ∧
      path = Place.path (start ++ passed) := by
  induction room generalizing start found with
  | zero => cases h
  | succ room ih =>
      rw [foldersFrom, entries_eq plain hfolder] at h
      split at h
      · cases h
      · next hentries =>
          split at hentries
          · cases hentries
          · cases hentries
            obtain ⟨below, hbelow, rfl⟩ := map_eq_ok_iff.mp h
            rw [exists_folder_iff plain hfolder, List.append_nil, List.mem_cons, mem_gather hbelow]
            refine or_congr_right ?_
            simp only [mem_childFolders plain]
            constructor
            · rintro ⟨_, ⟨name, rfl, hname⟩, more, hmore, hpath⟩
              obtain ⟨passed, hget, rfl⟩ := (ih hname hmore).mp hpath
              exact ⟨name, hname, passed, hget, by simp⟩
            · rintro ⟨name, hname, passed, hget, rfl⟩
              obtain ⟨more, hmore⟩ := exists_of_gather hbelow
                ((mem_childFolders plain).mpr ⟨name, rfl, hname⟩)
              refine ⟨_, ⟨name, rfl, hname⟩, more, hmore, (ih hname hmore).mpr ⟨passed, hget, ?_⟩⟩
              rw [List.append_cons start]

/-! Names in a folder -/

/-- Without links nothing has to be probed to tell which names lead to folders. -/
theorem folderNames_eq (entries : List (Text × Node))
    (hentries : ∀ entry ∈ entries, ∃ place, disk.get? place = some entry.2) :
    folderNames disk path entries =
      .ok ((entries.filter fun entry => Disk.isFolderNode entry.2).map (·.1)) := by
  induction entries with
  | nil => rfl
  | cons entry rest ih =>
      obtain ⟨⟨place, hplace⟩, hrest⟩ := List.forall_mem_cons.mp hentries
      obtain ⟨name, node⟩ := entry
      have hpasses : leadsToFolder disk (child path name) node = .ok (Disk.isFolderNode node) := by
        cases node with
        | folder | file _ => rfl
        | link target => exact absurd rfl (plain.ne_link hplace target)
      rw [folderNames, hpasses]
      dsimp only
      rw [ih hrest, List.filter_cons]
      cases Disk.isFolderNode node <;> rfl

/-- The names that a wildcard chooses from: all in the folder, or those of folders. -/
theorem follow_wildcard_cases {room : Nat} {last : Bool} {s : Text}
    (hfolder : disk.get? start = some .folder) :
    Disk.IsTooLong start ∧ Fails (follow disk room last start.path (.wildcard s)) ∨
      ¬ Disk.IsTooLong start ∧ ∃ names : List Text,
        follow disk room last start.path (.wildcard s) =
          .ok ((names.filter (Wildcard.fits s)).map (child start.path)) ∧
        ∀ name, name ∈ names ↔
          ∃ node, disk.get? (start ++ [name]) = some node ∧ (last = false → node = .folder) := by
  rw [follow, entries_eq plain hfolder]
  by_cases hlong : Disk.IsTooLong start
  · rw [if_pos hlong]
    exact Or.inl ⟨hlong, fails_error _⟩
  · rw [if_neg hlong]
    refine Or.inr ⟨hlong, ?_⟩
    dsimp only
    cases last with
    | true =>
        rw [if_pos rfl]
        refine ⟨_, rfl, fun name => ?_⟩
        simp [plain.mem_children]
    | false =>
        have hthere : ∀ entry ∈ disk.children start, ∃ place, disk.get? place = some entry.2 :=
          fun entry hentry => ⟨_, plain.mem_children.mp hentry⟩
        rw [if_neg Bool.false_ne_true, folderNames_eq plain _ hthere]
        refine ⟨_, rfl, fun name => ?_⟩
        rw [List.mem_map]
        constructor
        · rintro ⟨⟨name, node⟩, hentry, rfl⟩
          obtain ⟨hentry, hnode⟩ := List.mem_filter.mp hentry
          refine ⟨node, plain.mem_children.mp hentry, fun _ => ?_⟩
          cases node with
          | folder => rfl
          | file _ | link _ => cases hnode
        · rintro ⟨node, hget, hnode⟩
          obtain rfl := hnode rfl
          exact ⟨_, List.mem_filter.mpr ⟨plain.mem_children.mpr hget, rfl⟩, rfl⟩

theorem follow_wildcard_fails_iff {room : Nat} {last : Bool} {s : Text}
    (hfolder : disk.get? start = some .folder) :
    Fails (follow disk room last start.path (.wildcard s)) ↔ Disk.IsTooLong start := by
  obtain ⟨hlong, hfails⟩ | ⟨hshort, names, hfollow, -⟩ :=
    @follow_wildcard_cases disk start plain room last s hfolder
  · exact iff_of_true hfails hlong
  · rw [hfollow]
    exact iff_of_false (not_fails_ok _) hshort

theorem mem_follow_wildcard {room : Nat} {last : Bool} {s : Text}
    (hfolder : disk.get? start = some .folder)
    (h : follow disk room last start.path (.wildcard s) = .ok found) :
    path ∈ found ↔ ∃ name node, path = Place.path (start ++ [name]) ∧ Wildcard.fits s name = true ∧
      disk.get? (start ++ [name]) = some node ∧ (last = false → node = .folder) := by
  obtain ⟨-, hfails⟩ | ⟨-, names, hfollow, hnames⟩ :=
    @follow_wildcard_cases disk start plain room last s hfolder
  · rw [h] at hfails
    exact absurd hfails (not_fails_ok found)
  · rw [hfollow] at h
    cases h
    rw [List.mem_map]
    constructor
    · rintro ⟨name, hname, rfl⟩
      obtain ⟨hname, hfits⟩ := List.mem_filter.mp hname
      obtain ⟨node, hget, hnode⟩ := (hnames name).mp hname
      exact ⟨name, node, rfl, hfits, hget, hnode⟩
    · rintro ⟨name, node, rfl, hfits, hget, hnode⟩
      exact ⟨name, List.mem_filter.mpr ⟨(hnames name).mpr ⟨node, hget, hnode⟩, hfits⟩, rfl⟩

end Folders

/-! Searches in all folders -/

/-- The steps of a search for names in a folder and in all folders below it. -/
def everywhere (s : Text) : Pattern where
  steps := [.anyFolders, .wildcard s]

/-- A folder from which every folder below can be reached: none of them has a path that is too long, or
lies deeper than there is room for. -/
def IsOpen [Platform] (disk : Disk) (start : Place) : Prop :=
  ∀ passed, disk.get? (start ++ passed) = some .folder →
    ¬ Disk.IsTooLong (start ++ passed) ∧ passed.length + 1 < Platform.folderRoom

/-- The last step of a walk gives what is found. -/
theorem walk_last {room : Nat} {step : Step} :
    walk disk false (room + 1) [step] path = follow disk room true path step := by
  have hrest : walk disk false room [] = fun path => .ok [path] := by
    funext path
    cases room <;> rfl
  rw [walk, hrest, List.isEmpty_nil, Bool.not_false, Bool.and_true]
  cases follow disk room true path step with
  | error o => rfl
  | ok found => exact gather_singleton

section Everywhere

variable (plain : disk.IsPlain) (hfolder : disk.get? start = some .folder) {s : Text}

include plain hfolder

/-- Once all folders have been reached, the names in them are found. -/
theorem walk_everywhere_fails_iff {room : Nat} :
    Fails (walk disk false (room + 1) (everywhere s).steps start.path) ↔
      Fails (foldersFrom disk room start.path) := by
  rw [everywhere, walk, follow]
  cases hfolders : foldersFrom disk room start.path with
  | error o => simp
  | ok folders =>
      refine iff_of_false ?_ (not_fails_ok folders)
      dsimp only
      rw [gather_fails_iff]
      rintro ⟨path, hpath, hfails⟩
      obtain ⟨passed, hpassed, rfl⟩ := (mem_foldersFrom plain hfolder hfolders).mp hpath
      have hreached : ¬ (Disk.IsTooLong (start ++ passed) ∨ room ≤ passed.length) := by
        intro hstops
        have hfailed := (foldersFrom_fails_iff plain hfolder).mpr ⟨passed, hpassed, hstops⟩
        rw [hfolders] at hfailed
        exact not_fails_ok folders hfailed
      rw [not_or] at hreached
      cases room with
      | zero => exact hreached.2 (Nat.zero_le _)
      | succ room =>
          rw [walk_last, follow_wildcard_fails_iff plain hpassed] at hfails
          exact hreached.1 hfails

variable [Platform]

/-- A search in all folders fails exactly if not all of them can be reached. -/
theorem find_everywhere_fails_iff :
    Fails (find disk (everywhere s) start.path) ↔ ¬ IsOpen disk start := by
  have hopen : ¬ IsOpen disk start ↔ ∃ passed, disk.get? (start ++ passed) = some .folder ∧
      (Disk.IsTooLong (start ++ passed) ∨ Platform.folderRoom ≤ passed.length + 1) := by
    simp only [IsOpen, not_forall, exists_prop, not_and_or, not_not, Nat.not_lt]
  rw [hopen, find, Disk.isFolder, plain.test_place hfolder]
  by_cases hlong : Disk.IsTooLong start
  · rw [if_pos hlong]
    exact iff_of_true (fails_error _) ⟨[], by rwa [List.append_nil], Or.inl (by rwa [List.append_nil])⟩
  · rw [if_neg hlong]
    change Fails (walk disk false Platform.folderRoom (everywhere s).steps start.path) ↔ _
    cases Platform.folderRoom with
    | zero =>
        exact iff_of_true (fails_error _) ⟨[], by rwa [List.append_nil], Or.inr (Nat.zero_le _)⟩
    | succ room =>
        rw [walk_everywhere_fails_iff plain hfolder, foldersFrom_fails_iff plain hfolder]
        simp only [Nat.add_le_add_iff_right]

/-- A search in all folders finds all that is in them and has a fitting name. -/
theorem mem_find_everywhere (h : find disk (everywhere s) start.path = .ok found) :
    path ∈ found ↔ ∃ folders name node, path = Place.path (start ++ folders ++ [name]) ∧
      Wildcard.fits s name = true ∧ disk.get? (start ++ folders ++ [name]) = some node := by
  have hwalk : walk disk false Platform.folderRoom (everywhere s).steps start.path = .ok found := by
    rw [find, Disk.isFolder, plain.test_place hfolder] at h
    split_ifs at h
    exact h
  cases hroom : Platform.folderRoom with
  | zero =>
      rw [hroom] at hwalk
      cases hwalk
  | succ room =>
      rw [hroom, everywhere, walk, follow] at hwalk
      split at hwalk
      · cases hwalk
      · next folders hfolders =>
          rw [mem_gather hwalk]
          cases room with
          | zero => cases hfolders
          | succ room =>
              constructor
              · rintro ⟨_, hfirst, more, hmore, hpath⟩
                obtain ⟨passed, hpassed, rfl⟩ := (mem_foldersFrom plain hfolder hfolders).mp hfirst
                rw [walk_last] at hmore
                obtain ⟨name, node, rfl, hfits, hget, -⟩ :=
                  (mem_follow_wildcard plain hpassed hmore).mp hpath
                exact ⟨passed, name, node, rfl, hfits, hget⟩
              · rintro ⟨passed, name, node, rfl, hfits, hget⟩
                have hpassed := (plain.get?_concat hget).1
                have hfirst := (mem_foldersFrom plain hfolder hfolders).mpr ⟨passed, hpassed, rfl⟩
                obtain ⟨more, hmore⟩ := exists_of_gather hwalk hfirst
                refine ⟨_, hfirst, more, hmore, ?_⟩
                rw [walk_last] at hmore
                exact (mem_follow_wildcard plain hpassed hmore).mpr
                  ⟨name, node, rfl, hfits, hget, nofun⟩

end Everywhere

end Glob
end LocaleKeys
