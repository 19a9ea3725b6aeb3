import LocaleKeys.Check.Run
import LocaleKeys.Proofs.Disk.Resolve
import LocaleKeys.Proofs.Except

/-!
Finding and reading the files of a project on a tree. Looking for files fails only for patterns that are
none and for obstacles on the way: paths that are too long, and too many folders in one another. Whatever
is found can be read back by the place it is found at, so nothing after the search fails but for paths
without bytes.
-/

namespace LocaleKeys

namespace Disk

variable {disk : Disk} {path : Path} {place : Place} {node : Node}

/-! Probing -/

/-- The faults that a disk finds on its way along a path. -/
def wayFaults : List Fault := [.missing, .notFolder, .nameTooLong, .linkLoop]

theorem fault_of_walkFrom {follow : Place → List Text → Except Fault Place} {fault : Fault}
    (hfollow : ∀ folder names, follow folder names = .error fault → fault ∈ wayFaults)
    {folder : Place} {names : List Text} (h : walkFrom disk follow folder names = .error fault) :
    fault ∈ wayFaults := by
  induction names generalizing folder with
  | nil => cases h
  | cons name rest ih =>
      rw [walkFrom] at h
      split at h
      · exact ih h
      · split at h
        · cases h
          decide
        · dsimp only at h
          split at h
          · split at h
            · cases h
            · cases h
              decide
          · split at h
            · cases h
            · cases h
              decide
          · exact ih h
          · exact hfollow _ _ h

theorem fault_of_walk {links : Nat} {folder : Place} {names : List Text} {fault : Fault}
    (h : disk.walk links folder names = .error fault) : fault ∈ wayFaults := by
  induction links generalizing folder names with
  | zero =>
      refine fault_of_walkFrom ?_ h
      intro folder names hloop
      cases hloop
      decide
  | succ links ih => exact fault_of_walkFrom (fun _ _ => ih) h

/-- A look fails for what is wrong with the path itself, or on the way. -/
theorem fault_of_look {fault : Fault} (h : disk.look path = .error fault) :
    pathFault? path = some fault ∨ pathFault? path = none ∧ fault ∈ wayFaults := by
  rw [look] at h
  split at h
  · next hlocate =>
      cases h
      rw [locate] at hlocate
      split at hlocate
      · next hfault =>
          cases hlocate
          exact Or.inl hfault
      · next hfault => exact Or.inr ⟨hfault, fault_of_walk hlocate⟩
  · next hlocate =>
      split at h
      · cases h
      · cases h
        rw [locate] at hlocate
        split at hlocate
        · cases hlocate
        · next hfault => exact Or.inr ⟨hfault, by decide⟩

theorem isOfPath_of_pathFault? {fault : Fault} (h : pathFault? path = some fault) :
    fault.isOfPath = true ∨ fault = .nameTooLong := by
  rw [pathFault?] at h
  split at h
  · cases h
    exact Or.inl rfl
  · split at h
    · cases h
      exact Or.inl rfl
    · split at h
      · cases h
        exact Or.inr rfl
      · cases h

/-- A path that disks can be asked for, whether it is too long for them or not. -/
def CanAsk (path : Path) : Prop :=
  Text.Utf8.IsNameable path.text.toList ∧ path.hasNull = false

theorem isOfPath_iff_of_look {fault : Fault} (h : disk.look path = .error fault) :
    fault.isOfPath = true ↔ ¬ CanAsk path := by
  have hway : ∀ fault ∈ wayFaults, fault.isOfPath = false := by decide
  obtain hfault | ⟨hnone, hfault⟩ := fault_of_look h
  · rw [CanAsk, ← Text.Utf8.unnameable?_eq_none_iff]
    rw [pathFault?] at hfault
    split at hfault
    · next f hbytes =>
        cases hfault
        simp [hbytes, Fault.isOfPath]
    · next hbytes =>
        split at hfault
        · next hnull =>
            cases hfault
            simp [hnull, Fault.isOfPath]
        · next hnull =>
            split at hfault
            · cases hfault
              simp [hbytes, hnull, Fault.isOfPath]
            · cases hfault
  · obtain ⟨hbytes, hnull, -⟩ := pathFault?_eq_none_iff.mp hnone
    rw [hway fault hfault]
    exact iff_of_false Bool.false_ne_true (not_not_intro ⟨hbytes, hnull⟩)

theorem canAsk_of_locate (h : disk.locate path = .ok place) : CanAsk path := by
  rw [locate] at h
  split at h
  · cases h
  · next hfault =>
      obtain ⟨hbytes, hnull, -⟩ := pathFault?_eq_none_iff.mp hfault
      exact ⟨hbytes, hnull⟩

theorem isOfPath_iff_of_read {f : Failure} (h : disk.read path = .error f) :
    f.fault.isOfPath = true ↔ ¬ CanAsk path := by
  rw [read] at h
  split at h
  · cases h
  · next place held hlook =>
      cases h
      exact iff_of_false nofun (not_not_intro (canAsk_of_locate (look_eq_ok hlook).1))
  · next fault hlook =>
      cases h
      exact isOfPath_iff_of_look hlook

theorem absence_of_look {fault : Fault} (h : disk.look path = .error fault) :
    fault.isAbsence = true ∨ fault = .nameTooLong := by
  have hpath : ∀ fault : Fault, fault.isOfPath = true → fault.isAbsence = true := by
    intro fault hfault
    cases fault <;> first | rfl | cases hfault
  have hway : ∀ fault ∈ wayFaults, fault.isAbsence = true ∨ fault = .nameTooLong := by decide
  obtain hfault | ⟨-, hfault⟩ := fault_of_look h
  · exact (isOfPath_of_pathFault? hfault).imp_left (hpath fault)
  · exact hway fault hfault

/-- A probe fails exactly if a name, or the path as a whole, is too long. -/
theorem test_eq_error_iff {passes : Node → Bool} {f : Failure} :
    disk.test passes path = .error f ↔
      disk.look path = .error .nameTooLong ∧ f = ⟨.nameTooLong, path⟩ := by
  rw [test]
  split
  · next hlook => simp [hlook]
  · next fault hlook =>
      obtain habsence | rfl := absence_of_look hlook
      · have hne : fault ≠ .nameTooLong := by
          rintro rfl
          cases habsence
        simp [habsence, hlook, hne]
      · simp [hlook, Fault.isAbsence, eq_comm]

theorem test_fails_iff {passes : Node → Bool} :
    Fails (disk.test passes path) ↔ disk.look path = .error .nameTooLong := by
  simp [Fails, test_eq_error_iff]

theorem look_of_test {passes : Node → Bool} (h : disk.test passes path = .ok true) :
    ∃ place node, disk.look path = .ok (place, node) ∧ passes node = true := by
  rw [test] at h
  split at h
  · next place node hlook => exact ⟨place, node, hlook, Except.ok.inj h⟩
  · split at h <;> cases h

theorem look_of_isFile (h : disk.isFile path = .ok true) :
    ∃ place data, disk.look path = .ok (place, .file data) := by
  obtain ⟨place, node, hlook, hnode⟩ := look_of_test h
  cases node with
  | file data => exact ⟨place, data, hlook⟩
  | folder | link _ => cases hnode

theorem look_of_isFolder (h : disk.isFolder path = .ok true) :
    ∃ place, disk.look path = .ok (place, .folder) := by
  obtain ⟨place, node, hlook, hnode⟩ := look_of_test h
  cases node with
  | folder => exact ⟨place, hlook⟩
  | file _ | link _ => cases hnode

end Disk

/-! Patterns -/

namespace Glob

/-- A text that is no pattern: it starts at the root, names nothing, has two stars inside of a name, or
has too many steps. -/
def Malformed (text : Text) : Prop :=
  (Path.ofString text).isAbsolute = true ∨ (Path.ofString text).names = [] ∨
    (∃ name ∈ (Path.ofString text).names, name ≠ "**" ∧
      Text.contains [Point.char '*', '*'] name.toList = true) ∨
    maxSteps < (Path.ofString text).names.length +
      (if text.toList.getLast? = some (Point.char '/') then 1 else 0)

theorem step_fails_iff {name : Text} :
    Fails (step name) ↔ name ≠ "**" ∧ Text.contains [Point.char '*', '*'] name.toList = true := by
  rw [step]
  split
  · next hstars => simp [hstars]
  · next hname =>
      split
      · next hinside => simp [hname, hinside]
      · next houtside => split <;> simp [houtside]

theorem steps_fails_iff {foldersOnly : Bool} {room : Nat} {names : List Text} :
    Fails (steps foldersOnly room names) ↔ (∃ name ∈ names, Fails (step name)) ∨
      room < names.length + (if foldersOnly then 1 else 0) := by
  induction names generalizing room with
  | nil =>
      rw [steps]
      cases foldersOnly <;> cases room <;> simp
  | cons name rest ih =>
      cases room with
      | zero =>
          have hroom : 0 < (name :: rest).length + (if foldersOnly then 1 else 0) :=
            Nat.lt_add_right _ (Nat.zero_lt_succ _)
          exact iff_of_true (fails_error _) (Or.inr hroom)
      | succ room =>
          have hroom : room + 1 < (name :: rest).length + (if foldersOnly then 1 else 0) ↔
              room < rest.length + (if foldersOnly then 1 else 0) := by
            rw [List.length_cons]
            omega
          rw [hroom]
          simp only [List.mem_cons, exists_eq_or_imp, or_assoc, ← ih]
          rw [steps]
          cases step name with
          | error e => simp
          | ok s => cases steps foldersOnly room rest <;> simp

theorem parse_fails_iff {text : Text} : Fails (parse text) ↔ Malformed text := by
  rw [parse, Malformed]
  split
  · next hempty => simp [hempty, Path.ofString, Path.ofChars, Path.namesOf]
  · dsimp only
    split
    · next habsolute => simp [habsolute]
    · next hrelative =>
        split
        · next hnames => simp [List.isEmpty_iff.mp hnames]
        · next hnames =>
            rw [List.isEmpty_iff] at hnames
            simp [hrelative, hnames, steps_fails_iff, step_fails_iff]

end Glob

namespace Discovery

variable {disk : Disk} {root : Place} {exclude patterns : List Text}

/-- A place that holds a file. -/
def HoldsFile (disk : Disk) (place : Place) : Prop :=
  ∃ data, disk.get? place = some (.file data)

theorem resolve_of_isFile {path : Path} (h : disk.isFile path = .ok true) :
    ∃ place, disk.resolve path = .ok place ∧ HoldsFile disk place := by
  obtain ⟨place, data, hlook⟩ := Disk.look_of_isFile h
  obtain ⟨hlocate, hfile⟩ := Disk.look_eq_ok hlook
  exact ⟨place, Disk.resolve_of_locate hlocate, data, hfile⟩

theorem error_of_filePlaces {paths : List Path} {e : DiscoveryError}
    (h : filePlaces disk paths = .error e) : ∃ o, e = .obstacle o := by
  induction paths with
  | nil => cases h
  | cons path rest ih =>
      rw [filePlaces] at h
      split at h
      · cases h
        exact ⟨_, rfl⟩
      · exact ih h
      · next hfile =>
          obtain ⟨place, hresolve, -⟩ := resolve_of_isFile hfile
          rw [hresolve] at h
          dsimp only at h
          split at h
          · next hrest =>
              cases h
              exact ih hrest
          · cases h

theorem holdsFile_of_filePlaces {paths : List Path} {places : List Place}
    (h : filePlaces disk paths = .ok places) : ∀ place ∈ places, HoldsFile disk place := by
  induction paths generalizing places with
  | nil =>
      cases h
      exact nofun
  | cons path rest ih =>
      rw [filePlaces] at h
      split at h
      · cases h
      · exact ih h
      · next hfile =>
          obtain ⟨place, hresolve, hholds⟩ := resolve_of_isFile hfile
          rw [hresolve] at h
          dsimp only at h
          split at h
          · cases h
          · next hrest =>
              cases h
              exact List.forall_mem_cons.mpr ⟨hholds, ih hrest⟩

variable [Platform]

theorem error_of_resourcesOf {pattern : Text} {e : DiscoveryError}
    (h : resourcesOf disk root exclude pattern = .error e) :
    Fails (Glob.parse pattern) ∨ ∃ o, e = .obstacle o := by
  rw [resourcesOf] at h
  split at h
  · next e' hparse => exact Or.inl ⟨e', hparse⟩
  · split at h
    · cases h
      exact Or.inr ⟨_, rfl⟩
    · exact Or.inr (error_of_filePlaces h)

/-- The search for one pattern fails exactly if the pattern is none or meets an obstacle. -/
theorem resourcesOf_fails_iff {pattern : Text} :
    Fails (resourcesOf disk root exclude pattern) ↔ Glob.Malformed pattern ∨
      ∃ o, resourcesOf disk root exclude pattern = .error (.obstacle o) := by
  rw [← Glob.parse_fails_iff]
  constructor
  · rintro ⟨e, h⟩
    obtain hparse | ⟨o, rfl⟩ := error_of_resourcesOf h
    · exact Or.inl hparse
    · exact Or.inr ⟨o, h⟩
  · rintro (⟨e, hparse⟩ | ⟨o, h⟩)
    · exact ⟨.pattern e, by rw [resourcesOf, hparse]⟩
    · exact ⟨.obstacle o, h⟩

theorem resourcesOfAll_fails_iff :
    Fails (resourcesOfAll disk root exclude patterns) ↔
      ∃ pattern ∈ patterns, Fails (resourcesOf disk root exclude pattern) := by
  induction patterns with
  | nil => simp [resourcesOfAll]
  | cons pattern rest ih =>
      simp only [List.mem_cons, exists_eq_or_imp, ← ih]
      rw [resourcesOfAll]
      cases resourcesOf disk root exclude pattern with
      | error e => simp
      | ok places => cases resourcesOfAll disk root exclude rest <;> simp

theorem holdsFile_of_resourcesOfAll {places : List Place}
    (h : resourcesOfAll disk root exclude patterns = .ok places) :
    ∀ place ∈ places, HoldsFile disk place := by
  induction patterns generalizing places with
  | nil =>
      cases h
      exact nofun
  | cons pattern rest ih =>
      rw [resourcesOfAll] at h
      split at h
      · cases h
      · next found hfound =>
          split at h
          · cases h
          · next more hmore =>
              cases h
              rw [List.forall_mem_append]
              refine ⟨?_, ih hmore⟩
              rw [resourcesOf] at hfound
              split at hfound
              · cases hfound
              · split at hfound
                · cases hfound
                · exact holdsFile_of_filePlaces hfound

omit [Platform] in
theorem mem_sorted {place : Place} {places : List Place} :
    place ∈ Place.sorted places ↔ place ∈ places := by
  rw [Place.sorted, List.mem_mergeSort, List.mem_eraseDups]

/-- Looking for resource files fails exactly if it fails for one of the patterns. -/
theorem resources_fails_iff :
    Fails (resources disk root patterns exclude) ↔
      ∃ pattern ∈ patterns, Fails (resourcesOf disk root exclude pattern) := by
  rw [resources, fails_map, resourcesOfAll_fails_iff]

theorem holdsFile_of_resources {places : List Place}
    (h : resources disk root patterns exclude = .ok places) :
    ∀ place ∈ places, HoldsFile disk place := by
  rw [resources] at h
  cases hall : resourcesOfAll disk root exclude patterns with
  | error e => rw [hall] at h; cases h
  | ok found =>
      rw [hall] at h
      cases h
      exact fun place hplace => holdsFile_of_resourcesOfAll hall place (mem_sorted.mp hplace)

/-! Sources -/

/-- A place that is resolved as it is. -/
def IsSettled (disk : Disk) (place : Place) : Prop :=
  disk.resolve place.path = .ok place

omit [Platform] in
theorem HoldsFile.isSettled (tree : disk.IsTree) {place : Place} (h : HoldsFile disk place) :
    IsSettled disk place := by
  obtain ⟨data, hdata⟩ := h
  exact tree.resolve_place hdata nofun

omit [Platform] in
theorem HoldsFile.of_isSource {extensions : List Text} {maxBytes : Int} {place : Place}
    (h : isSource disk root extensions exclude maxBytes place = true) : HoldsFile disk place := by
  rw [isSource] at h
  split at h
  · next data _ hdata => exact ⟨data, hdata⟩
  · cases h

theorem isSettled_of_sources (tree : disk.IsTree) (hroot : IsSettled disk root)
    {extensions : List Text} {places : List Place}
    (h : sources disk root extensions exclude = .ok places) :
    ∀ place ∈ places, IsSettled disk place := by
  rw [sources] at h
  intro place hplace
  split at h
  · cases h
  · cases h
    split at hplace
    · rwa [List.mem_singleton.mp hplace]
    · cases hplace
  · split at h
    · cases h
    · cases h
      rw [mem_sorted, List.mem_filter] at hplace
      exact (HoldsFile.of_isSource hplace.2).isSettled tree

end Discovery

/-! Reading -/

open Discovery (IsSettled)

variable {disk : Disk} {root : Place}

theorem RunId.seenPath_of_settled {place : Place} (hroot : IsSettled disk root)
    (hplace : IsSettled disk place) :
    seenPath disk root.path place.path = .ok (root.seenFrom place) := by
  rw [seenPath, hplace, hroot]

/-- What is hashed for places needs the bytes of their paths, and nothing else. -/
theorem RunId.payloadOf_fails_iff {places : List Place} (hroot : IsSettled disk root)
    (hplaces : ∀ place ∈ places, IsSettled disk place) :
    Fails (payloadOf disk root.path (places.map Place.path)) ↔
      ∃ place ∈ places, ¬ Text.Utf8.IsWritable (root.seenFrom place).text.toList := by
  induction places with
  | nil => simp [payloadOf]
  | cons place rest ih =>
      obtain ⟨hplace, hrest⟩ := List.forall_mem_cons.mp hplaces
      rw [List.map_cons, payloadOf, seenPath_of_settled hroot hplace, List.exists_mem_cons_iff,
        ← ih hrest]
      dsimp only
      cases hwrite : Text.Utf8.write (root.seenFrom place).text.toList with
      | error f =>
          have hbytes : ¬ Text.Utf8.IsWritable (root.seenFrom place).text.toList := fun hbytes => by
            rw [Text.Utf8.write_of_isWritable hbytes] at hwrite
            cases hwrite
          simp [hbytes]
      | ok bytes =>
          have hbytes := (Text.Utf8.write_eq_ok_iff.mp hwrite).1
          cases payloadOf disk root.path (rest.map Place.path) <;> simp [hbytes]

theorem RunId.inOrder_map_path (places : List Place) :
    ∃ ordered : List Place, inOrder (places.map Place.path) = ordered.map Place.path ∧
      ordered.Perm places := by
  refine ⟨places.mergeSort fun a b => Place.le (parts a.path) (parts b.path), ?_,
    List.mergeSort_perm _ _⟩
  exact (List.map_mergeSort (f := Place.path) fun _ _ _ _ => rfl).symm

theorem RunId.ofFiles_fails_iff {places : List Place} (hroot : IsSettled disk root)
    (hplaces : ∀ place ∈ places, IsSettled disk place) :
    Fails (ofFiles disk root.path (places.map Place.path)) ↔
      ∃ place ∈ places, ¬ Text.Utf8.IsWritable (root.seenFrom place).text.toList := by
  obtain ⟨ordered, hordered, hperm⟩ := inOrder_map_path places
  rw [ofFiles, fails_map, hordered, payloadOf_fails_iff hroot fun place hplace =>
    hplaces place (hperm.mem_iff.mp hplace)]
  simp only [hperm.mem_iff]

theorem RunId.ofFiles_ne_empty {paths : List Path} {id : Text}
    (h : ofFiles disk root.path paths = .ok id) : id ≠ "" := by
  obtain ⟨bytes, -, rfl⟩ := map_eq_ok_iff.mp h
  exact fun hempty => by simpa using congrArg Text.toList hempty

theorem ResourceFile.exists_readAll {places : List Place} (hroot : IsSettled disk root)
    (hplaces : ∀ place ∈ places, IsSettled disk place) :
    ∃ files, readAll disk root.path (places.map Place.path) = .ok files := by
  induction places with
  | nil => exact ⟨[], rfl⟩
  | cons place rest ih =>
      obtain ⟨hplace, hrest⟩ := List.forall_mem_cons.mp hplaces
      obtain ⟨files, hfiles⟩ := ih hrest
      rw [List.map_cons, readAll, read, RunId.seenPath_of_settled hroot hplace]
      exact ⟨_, by rw [hfiles]; rfl⟩

end LocaleKeys
