import LocaleKeys.Command.Run
import LocaleKeys.Proofs.Command.Plan
import LocaleKeys.Proofs.Project
import LocaleKeys.Proofs.Resource.Apply

/-!
Which command lines end with an exit code. A command ends without one exactly if something is in its
way that it does not report, and all that may be in the way of each command is listed here.
-/

namespace LocaleKeys.Command

open Project (Unsearchable Unchecked ofFiles)
open Text.Utf8 (IsWritable)

variable [Platform] {disk : Disk} {root : Path} {settings : Settings} {scope : Scope} {noPartial : Bool}
variable {cultures : List Given} {key : Given} {project : Project.Loaded} {task : Project.Task}

/-! Opening a project -/

/-- A command opens a project: its root leads to a folder, and its settings are read. -/
structure Opens (disk : Disk) (scope : Scope) (noPartial : Bool) (root : Path)
    (settings : Settings) : Prop where
  resolved : ∃ place : Place, disk.resolve scope.root = .ok place ∧ place.path = root
  isFolder : disk.isFolder root = .ok true
  isNamed : scope.isBlank "config" = false
  isRead : settingsOf disk root scope noPartial = .ok settings

/-- What keeps a command from opening a project without being reported: links in a loop, a name that
is too long, nothing in the place of the settings file, or settings that cannot be taken from a file. -/
inductive Unopened (disk : Disk) (scope : Scope) (noPartial : Bool) : Prop
  | loop (h : Fails (disk.resolve scope.root))
  | name {place : Place} (hroot : disk.resolve scope.root = .ok place)
      (h : disk.look place.path = .error .nameTooLong)
  | config {place : Place} (hroot : disk.resolve scope.root = .ok place)
      (hfolder : disk.isFolder place.path = .ok true) (h : scope.isBlank "config" = true)
  | settings {place : Place} {e : Settings.FileError} (hroot : disk.resolve scope.root = .ok place)
      (hfolder : disk.isFolder place.path = .ok true)
      (h : settingsOf disk place.path scope noPartial = .error e) (hsilent : isReported e = false)

/-- A command does not open its project, or an obstacle is in its way behind that. -/
def BlockedBy (disk : Disk) (scope : Scope) (noPartial : Bool)
    (obstacle : Path → Settings → Prop) : Prop :=
  Unopened disk scope noPartial ∨
    ∃ root settings, Opens disk scope noPartial root settings ∧ obstacle root settings

theorem withProject_fails_iff {run : Path → Settings → Effects}
    {obstacle : Path → Settings → Prop}
    (hrun : ∀ root settings, disk.isFolder root = .ok true →
      (Fails (run root settings) ↔ obstacle root settings)) :
    Fails (withProject disk scope noPartial run) ↔ BlockedBy disk scope noPartial obstacle := by
  constructor
  · intro h
    rw [withProject] at h
    split at h
    · next e hroot => exact Or.inl (.loop ⟨e, hroot⟩)
    · next place hroot =>
        dsimp only at h
        split at h
        · next f hfolder => exact Or.inl (.name hroot (Disk.test_eq_error_iff.mp hfolder).1)
        · exact absurd h (not_fails_ok _)
        · next hfolder =>
            split at h
            · next hblank => exact Or.inl (.config hroot hfolder hblank)
            · next hnamed =>
                split at h
                · next settings hsettings =>
                    have hconfig := Bool.eq_false_iff.mpr hnamed
                    exact Or.inr ⟨_, settings, ⟨⟨place, hroot, rfl⟩, hfolder, hconfig, hsettings⟩,
                      (hrun _ _ hfolder).mp h⟩
                · next e hsettings =>
                    split at h
                    · exact absurd h (not_fails_ok _)
                    · next hsilent =>
                        have hsilent := Bool.eq_false_iff.mpr hsilent
                        exact Or.inl (.settings hroot hfolder hsettings hsilent)
  · rw [withProject]
    rintro ((⟨e, hroot⟩ | ⟨hroot, hlong⟩ | ⟨hroot, hfolder, hblank⟩ |
      ⟨hroot, hfolder, hsettings, hsilent⟩) |
      ⟨root, settings, ⟨⟨place, hroot, rfl⟩, hfolder, hconfig, hsettings⟩, hobstacle⟩)
    · simp [hroot]
    · obtain ⟨f, hfolder⟩ : Fails (disk.isFolder _) := Disk.test_fails_iff.mpr hlong
      simp [hroot, hfolder]
    · simp [hroot, hfolder, hblank]
    · simp only [hroot, hfolder, hsettings, hsilent]
      split <;> simp
    · simpa [hroot, hfolder, hconfig, hsettings] using (hrun _ _ hfolder).mpr hobstacle

/-! Printing -/

omit [Platform] in
theorem printed_fails_iff {texts : List Text} :
    Fails (printed texts) ↔ ∃ s ∈ texts, ¬ IsWritable s.toList := by
  have hnone : (texts.findSome? fun s => Text.Utf8.unwritable? s.toList) = none ↔
      ∀ s ∈ texts, IsWritable s.toList := by
    simp only [List.findSome?_eq_none_iff, Text.Utf8.unwritable?_eq_none_iff]
  rw [← not_iff_not, printed]
  push Not
  rw [← hnone]
  split <;> simp [*]

omit [Platform] in
theorem isWritable_jsonText {rounded : Bool} {value : Json} :
    IsWritable (jsonText rounded value).toList ↔ value.HasBytes := by
  rw [jsonText, Text.toList_ofList, Json.isWritable_canonical_iff]

omit [Platform] in
/-- Keys that are found are printed with their scores unless one of them has no bytes. -/
theorem printed_candidates_fails_iff {json : Bool} {found : List Suggest.Candidate} :
    Fails (printed (candidateTexts json found)) ↔ ∃ c ∈ found, ¬ IsWritable c.key.toList := by
  have hcolumn : ∀ n, IsWritable (column n).toList := by
    intro n
    rw [column, Text.toList_ofList, Text.Utf8.isWritable_append]
    exact ⟨fun c hc => List.eq_of_mem_replicate hc ▸ rfl, Number.isWritable_intText n⟩
  have hend : IsWritable (Text.ofString "\n").toList := by decide
  have hgap : IsWritable (Text.ofString "  ").toList := by decide
  have hline : ∀ c : Suggest.Candidate,
      IsWritable (column c.score ++ "  " ++ c.key ++ "\n").toList ↔ IsWritable c.key.toList := by
    intro c
    simp only [Text.toList_append, Text.Utf8.isWritable_append, hcolumn, hgap, hend, true_and, and_true]
  have hjson : ∀ c : Suggest.Candidate,
      (Datum.candidateJson c).HasBytes ↔ IsWritable c.key.toList := by
    intro c
    have hkey : IsWritable (Text.ofString "key").toList := by decide
    have hscore : IsWritable (Text.ofString "score").toList := by decide
    have hnumber : Json.HasBytes (.int c.score) := List.forall_mem_nil _
    have htext : Json.HasBytes (.str c.key) ↔ IsWritable c.key.toList := List.forall_mem_singleton
    rw [Datum.candidateJson, Json.hasBytes_obj, List.forall_mem_cons, List.forall_mem_singleton, htext,
      and_iff_right hkey, and_iff_left ⟨hscore, hnumber⟩]
  rw [printed_fails_iff, candidateTexts]
  split
  · simp only [List.mem_singleton, exists_eq_left, isWritable_jsonText, Json.hasBytes_arr,
      List.forall_mem_map, hjson]
    push Not
    rfl
  · simp only [List.mem_map, exists_exists_and_eq_and, hline]

omit [Platform] in
theorem printed_report_fails_iff {options : CheckOptions} {report : Report} :
    Fails (printed (if options.json then [jsonText options.reproducible report.toJson] else [])) ↔
      options.json = true ∧ ¬ report.toJson.HasBytes := by
  rw [printed_fails_iff]
  cases options.json <;> simp [isWritable_jsonText]

/-! Reading a project -/

omit [Platform] in
theorem checkPaths_fails_iff {paths : List Text} :
    Fails (checkPaths cultures paths) ↔ none ∈ cultures ∧
      ∃ path ∈ paths, ∀ culture ∈ leading cultures,
        Culture.occurs (Culture.clues path) culture = false := by
  rw [checkPaths]
  split
  · next hblank => simpa using hblank
  · next hgiven => simpa using hgiven

/-- A command that goes on after reading a project fails if the project cannot be read, if its paths do
not do for the cultures, or if it fails then. -/
theorem load_or_fails_iff (tree : disk.IsTree) (hfolder : disk.isFolder root = .ok true)
    {fails : Project.Loaded → Prop} :
    (Fails (load disk task root settings cultures) ∨
      ∃ project, load disk task root settings cultures = .ok project ∧ fails project) ↔
    Unsearchable disk root settings ∨
      ∃ files, Project.load disk task root (some settings) = .ok (ofFiles settings files) ∧
        (Fails (checkPaths cultures (files.map (·.path))) ∨ fails (ofFiles settings files)) := by
  rw [← @Project.load_fails_iff _ disk root settings tree hfolder task, load]
  cases hload : Project.load disk task root (some settings) with
  | error e => simp
  | ok project =>
      obtain ⟨files, rfl⟩ := Project.exists_of_load hload
      have hpaths : (ofFiles settings files).resources.map (·.path) = files.map (·.path) := rfl
      simp only [not_fails_ok, false_or, Except.ok.injEq, Project.ofFiles_inj, exists_eq_left', hpaths]
      cases checkPaths cultures (files.map (·.path)) <;> simp

/-! Looking for keys -/

omit [Platform] in
theorem candidates_fails_iff {top : Option Int} :
    Fails (candidates project key top) ↔
      key = none ∧ project.catalog.keys ≠ [] ∨ top = none := by
  unfold candidates
  split
  · next hkey =>
      have hboth : key = none ∧ project.catalog.keys ≠ [] := by simpa using hkey
      simp [hboth]
  · next hkey =>
      have hnot : ¬ (key = none ∧ project.catalog.keys ≠ []) := by simpa using hkey
      cases top <;> simp [hnot]

/-- What keeps a search for keys from its end: files that cannot be looked for, a blank culture and a
file that no culture before it is found in, a blank key in a project with keys, a blank number, or a key
that is found and cannot be printed. -/
inductive SuggestObstacle (disk : Disk) (root : Path) (settings : Settings) (scope : Scope)
    (key : Given) (top : Int) : Prop
  | search (h : Unsearchable disk root settings)
  | culture {files : List ResourceFile} {file : ResourceFile}
      (hload : Project.load disk .suggest root (some settings) = .ok (ofFiles settings files))
      (hblank : none ∈ scope.cultures) (hfile : file ∈ files)
      (h : ∀ culture ∈ leading scope.cultures,
        Culture.occurs (Culture.clues file.path) culture = false)
  | key {files : List ResourceFile}
      (hload : Project.load disk .suggest root (some settings) = .ok (ofFiles settings files))
      (hblank : key = none) (h : (Catalog.build settings files).keys ≠ [])
  | top (h : scope.isBlank "top" = true)
  | printing {files : List ResourceFile} {found : List Suggest.Candidate} {c : Suggest.Candidate}
      (hload : Project.load disk .suggest root (some settings) = .ok (ofFiles settings files))
      (hfound : candidates (ofFiles settings files) key (some top) = .ok found) (hc : c ∈ found)
      (h : ¬ IsWritable c.key.toList)

theorem runSuggest_fails_iff (tree : disk.IsTree) (hfolder : disk.isFolder root = .ok true)
    (top : Int) (json : Bool) :
    Fails (runSuggest disk root settings scope key top json) ↔
      SuggestObstacle disk root settings scope key top := by
  have hsteps : Fails (runSuggest disk root settings scope key top json) ↔
      Fails (load disk .suggest root settings scope.cultures) ∨
        ∃ project, load disk .suggest root settings scope.cultures = .ok project ∧
          ((key = none ∧ project.catalog.keys ≠ []) ∨ scope.isBlank "top" = true ∨
            ∃ found, candidates project key (some top) = .ok found ∧
              ∃ c ∈ found, ¬ IsWritable c.key.toList) := by
    rw [runSuggest]
    cases load disk .suggest root settings scope.cultures with
    | error e => simp
    | ok project =>
        simp only [not_fails_ok, false_or, Except.ok.injEq, exists_eq_left']
        cases htop : scope.isBlank "top" with
        | true =>
            have hfails : Fails (candidates project key none) :=
              candidates_fails_iff.mpr (Or.inr rfl)
            obtain ⟨m, hm⟩ := hfails
            simp [hm]
        | false =>
            have hfails := @candidates_fails_iff key project (some top)
            simp only [reduceCtorEq, or_false] at hfails
            simp only [Bool.false_eq_true, if_false, false_or]
            rw [← hfails]
            cases hfound : candidates project key (some top) with
            | error m => simp
            | ok found => simp [printed_candidates_fails_iff]
  rw [hsteps, load_or_fails_iff tree hfolder]
  constructor
  · rintro (hsearch | ⟨files, hload, hpaths | ⟨hblank, hkeys⟩ | htop | ⟨found, hfound, c, hc, hbytes⟩⟩)
    · exact .search hsearch
    · obtain ⟨hblank, path, hpath, hmissed⟩ := checkPaths_fails_iff.mp hpaths
      obtain ⟨file, hfile, rfl⟩ := List.mem_map.mp hpath
      exact .culture hload hblank hfile hmissed
    · exact .key hload hblank hkeys
    · exact .top htop
    · exact .printing hload hfound hc hbytes
  · rintro (hsearch | ⟨hload, hblank, hfile, hmissed⟩ | ⟨hload, hblank, hkeys⟩ | htop |
      ⟨hload, hfound, hc, hbytes⟩)
    · exact Or.inl hsearch
    · have hpaths := checkPaths_fails_iff.mpr ⟨hblank, _, List.mem_map_of_mem hfile, hmissed⟩
      exact Or.inr ⟨_, hload, Or.inl hpaths⟩
    · exact Or.inr ⟨_, hload, Or.inr (Or.inl ⟨hblank, hkeys⟩)⟩
    · obtain hsearch | ⟨files, hload⟩ :=
        Project.unsearchable_or_load tree hfolder .suggest settings
      · exact Or.inl hsearch
      · exact Or.inr ⟨files, hload, Or.inr (Or.inr (Or.inl htop))⟩
    · exact Or.inr ⟨_, hload, Or.inr (Or.inr (Or.inr ⟨_, hfound, _, hc, hbytes⟩))⟩

/-! Adding keys -/

/-- What keeps planned edits from their end: a fix that halts the work, or a text about them that cannot
be printed. -/
inductive Unmade (disk : Disk) (mode : Fix.Mode) (json : Bool) (key : Given) (fixes : List Fix) : Prop
  | halts {i : Nat} {fix : Fix} (hfix : fixes[i]? = some fix)
      (h : Fix.Halts mode (Fix.diskAt mode disk fixes i) fix)
  | printing {edited : Project.Edited} {s : Text} (hedited : Project.applied disk mode fixes = .ok edited)
      (hs : s ∈ editTexts mode json key edited) (h : ¬ IsWritable s.toList)

omit [Platform] in
theorem applied_fails_iff {mode : Fix.Mode} {fixes : List Fix} :
    Fails (Project.applied disk mode fixes) ↔
      ∃ i fix, fixes[i]? = some fix ∧ Fix.Halts mode (Fix.diskAt mode disk fixes i) fix := by
  rw [← Fix.applyAll_halts_iff, Project.applied]
  obtain ⟨after, results⟩ := Fix.applyAll mode disk fixes
  cases results <;> simp

omit [Platform] in
theorem runEdits_fails_iff {mode : Fix.Mode} {json : Bool} {planned : Except Error (List Fix)} :
    Fails (runEdits disk mode json key planned) ↔
      Fails planned ∨ ∃ fixes, planned = .ok fixes ∧ Unmade disk mode json key fixes := by
  cases planned with
  | error e => simp [runEdits]
  | ok fixes =>
      rw [runEdits]
      have hstops := @applied_fails_iff disk mode fixes
      simp only [not_fails_ok, false_or, Except.ok.injEq, exists_eq_left']
      cases hedited : Project.applied disk mode fixes with
      | error stop =>
          rw [hedited, iff_true_left (fails_error stop)] at hstops
          obtain ⟨i, fix, hfix, hhalts⟩ := hstops
          exact iff_of_true (fails_error _) (.halts hfix hhalts)
      | ok edited =>
          rw [hedited, iff_false_left (not_fails_ok edited)] at hstops
          dsimp only
          rw [fails_map, printed_fails_iff]
          constructor
          · rintro ⟨s, hs, hbytes⟩
            exact .printing hedited hs hbytes
          · rintro (⟨hfix, hhalts⟩ | ⟨hother, hs, hbytes⟩)
            · exact absurd ⟨_, _, hfix, hhalts⟩ hstops
            · cases hedited.symm.trans hother
              exact ⟨_, hs, hbytes⟩

/-- What keeps an addition of a key from its end: files that cannot be looked for, a blank culture, a key
that does not fit into an object that it is to be added to, or edits that are not made. -/
inductive CreateObstacle (disk : Disk) (root : Path) (settings : Settings) (scope : Scope)
    (key : Given) (value : Json) (mode : Fix.Mode) (json : Bool) : Prop
  | search (h : Unsearchable disk root settings)
  | culture (h : none ∈ scope.cultures)
  | key {files : List ResourceFile}
      (hload : Project.load disk .create root (some settings) = .ok (ofFiles settings files))
      (hunfit : Unfit key) (h : ReachesObject settings files (scope.cultures.filterMap id))
  | edits {files : List ResourceFile} {fixes : List Fix}
      (hload : Project.load disk .create root (some settings) = .ok (ofFiles settings files))
      (hplan : creation (ofFiles settings files) scope.cultures key value = .ok fixes)
      (h : Unmade disk mode json key fixes)

/-- What keeps a completion of a key from its end: files that cannot be looked for, a blank culture, a
blank key in a project with keys, a key that does not fit into an object in a culture that lacks it, or
edits that are not made. -/
inductive CompleteObstacle (disk : Disk) (root : Path) (settings : Settings) (scope : Scope)
    (key : Given) (mode : Fix.Mode) (json : Bool) : Prop
  | search (h : Unsearchable disk root settings)
  | culture (h : none ∈ scope.cultures)
  | blankKey {files : List ResourceFile}
      (hload : Project.load disk .complete root (some settings) = .ok (ofFiles settings files))
      (hblank : key = none) (h : (Catalog.build settings files).cultures ≠ [])
  | key {files : List ResourceFile} {targets : List Text}
      (hload : Project.load disk .complete root (some settings) = .ok (ofFiles settings files))
      (hunfit : Unfit key)
      (htargets : targets = missingIn (Catalog.build settings files) key
        (comparedIn settings files scope.cultures))
      (hlacking : targets ≠ []) (h : ReachesObject settings files targets)
  | edits {files : List ResourceFile} {fixes : List Fix}
      (hload : Project.load disk .complete root (some settings) = .ok (ofFiles settings files))
      (hplan : completion (ofFiles settings files) scope.cultures key = .ok fixes)
      (h : Unmade disk mode json key fixes)

/-- An edit of a project that has been read fails as its plan does, or as its edits do. -/
theorem edits_fail_iff (tree : disk.IsTree) (hfolder : disk.isFolder root = .ok true)
    {mode : Fix.Mode} {json : Bool} {planOf : Project.Loaded → Except Error (List Fix)}
    {unplanned : List ResourceFile → Prop}
    (hplan : ∀ files, Fails (planOf (ofFiles settings files)) ↔
      none ∈ cultures ∨ unplanned files) :
    Fails (match load disk task root settings cultures with
      | .error e => .error e
      | .ok project => runEdits disk mode json key (planOf project)) ↔
    Unsearchable disk root settings ∨ none ∈ cultures ∨
      ∃ files, Project.load disk task root (some settings) = .ok (ofFiles settings files) ∧
        (unplanned files ∨
          ∃ fixes, planOf (ofFiles settings files) = .ok fixes ∧ Unmade disk mode json key fixes) := by
  have hsteps : Fails (match load disk task root settings cultures with
      | .error e => .error e
      | .ok project => runEdits disk mode json key (planOf project)) ↔
      Fails (load disk task root settings cultures) ∨
        ∃ project, load disk task root settings cultures = .ok project ∧
          (Fails (planOf project) ∨
            ∃ fixes, planOf project = .ok fixes ∧ Unmade disk mode json key fixes) := by
    cases load disk task root settings cultures <;> simp [runEdits_fails_iff]
  rw [hsteps, load_or_fails_iff tree hfolder]
  simp only [hplan]
  constructor
  · rintro (hsearch | ⟨files, hload, hpaths | (hblank | hunplanned) | hunmade⟩)
    · exact Or.inl hsearch
    · exact Or.inr (Or.inl (checkPaths_fails_iff.mp hpaths).1)
    · exact Or.inr (Or.inl hblank)
    · exact Or.inr (Or.inr ⟨files, hload, Or.inl hunplanned⟩)
    · exact Or.inr (Or.inr ⟨files, hload, Or.inr hunmade⟩)
  · rintro (hsearch | hblank | ⟨files, hload, hunplanned | hunmade⟩)
    · exact Or.inl hsearch
    -- A plan comes after the reading of the project, which may have failed before.
    · obtain hsearch | ⟨files, hload⟩ := Project.unsearchable_or_load tree hfolder task settings
      · exact Or.inl hsearch
      · exact Or.inr ⟨files, hload, Or.inr (Or.inl (Or.inl hblank))⟩
    · exact Or.inr ⟨files, hload, Or.inr (Or.inl (Or.inr hunplanned))⟩
    · exact Or.inr ⟨files, hload, Or.inr (Or.inr hunmade)⟩

theorem create_fails_iff (tree : disk.IsTree) (hfolder : disk.isFolder root = .ok true)
    {value : Json} {mode : Fix.Mode} {json : Bool} :
    Fails (match load disk .create root settings scope.cultures with
      | .error e => .error e
      | .ok project =>
        runEdits disk mode json key (creation project scope.cultures key value)) ↔
      CreateObstacle disk root settings scope key value mode json := by
  rw [edits_fail_iff tree hfolder fun files => creation_fails_iff]
  constructor
  · rintro (hsearch | hblank | ⟨files, hload, ⟨hunfit, hreaches⟩ | ⟨fixes, hplan, hunmade⟩⟩)
    · exact .search hsearch
    · exact .culture hblank
    · exact .key hload hunfit hreaches
    · exact .edits hload hplan hunmade
  · rintro (hsearch | hblank | ⟨hload, hunfit, hreaches⟩ | ⟨hload, hplan, hunmade⟩)
    · exact Or.inl hsearch
    · exact Or.inr (Or.inl hblank)
    · exact Or.inr (Or.inr ⟨_, hload, Or.inl ⟨hunfit, hreaches⟩⟩)
    · exact Or.inr (Or.inr ⟨_, hload, Or.inr ⟨_, hplan, hunmade⟩⟩)

theorem complete_fails_iff (tree : disk.IsTree) (hfolder : disk.isFolder root = .ok true)
    {mode : Fix.Mode} {json : Bool} :
    Fails (match load disk .complete root settings scope.cultures with
      | .error e => .error e
      | .ok project => runEdits disk mode json key (completion project scope.cultures key)) ↔
      CompleteObstacle disk root settings scope key mode json := by
  rw [edits_fail_iff tree hfolder fun files => completion_fails_iff]
  constructor
  · rintro (hsearch | hblank | ⟨files, hload, (⟨hkey, hcultures⟩ | ⟨hunfit, hlacking, hreaches⟩) |
      ⟨fixes, hplan, hunmade⟩⟩)
    · exact .search hsearch
    · exact .culture hblank
    · exact .blankKey hload hkey hcultures
    · exact .key hload hunfit rfl hlacking hreaches
    · exact .edits hload hplan hunmade
  · rintro (hsearch | hblank | ⟨hload, hkey, hcultures⟩ | ⟨hload, hunfit, rfl, hlacking, hreaches⟩ |
      ⟨hload, hplan, hunmade⟩)
    · exact Or.inl hsearch
    · exact Or.inr (Or.inl hblank)
    · exact Or.inr (Or.inr ⟨_, hload, Or.inl (Or.inl ⟨hkey, hcultures⟩)⟩)
    · exact Or.inr (Or.inr ⟨_, hload, Or.inl (Or.inr ⟨hunfit, hlacking, hreaches⟩)⟩)
    · exact Or.inr (Or.inr ⟨_, hload, Or.inr ⟨_, hplan, hunmade⟩⟩)

/-! Checks -/

omit [Platform] in
/-- The schema of reports takes no blank culture among those of the catalog. -/
theorem not_accepts_reportWith (hblank : none ∈ cultures) (report : Report) :
    ¬ Schema.Accepts Schema.report (reportWith cultures report) := by
  intro haccepts
  -- The catalog is edited last, so what its schema looks at are the given cultures.
  obtain ⟨members, hmembers⟩ : ∃ members, reportWith cultures report =
      .obj (Key.insertAt (.arr (cultures.map Given.toJson)) ["catalog", "effective_cultures"]
        members) := ⟨_, rfl⟩
  rw [hmembers, Schema.report, Schema.accepts_object, Key.insertAt_cons] at haccepts
  have hcatalog := haccepts.2.2 ("catalog", Schema.catalog) (by simp) _ (Assoc.get?_update _ _ _ _)
  rw [Key.insertBelow, Schema.catalog, Schema.accepts_object, Key.insertAt_single] at hcatalog
  have hcultures := hcatalog.2.2 ("effective_cultures", Schema.texts) (by simp) _
    (Assoc.get?_update _ _ _ _)
  rw [Schema.texts, Schema.accepts_array] at hcultures
  have hshown := hcultures (.arr []) (List.mem_map.mpr ⟨none, hblank, rfl⟩)
  simp [Schema.text, Schema.accepts_all, Schema.accepts_type, Schema.ValueType.holds] at hshown

/-- A check for a blank culture fails at the latest when its report is refused. -/
theorem checkWith_fails (hknows : Platform.KnowsReports) {request : Check.Request}
    {stamp : Check.Stamp} (hblank : none ∈ cultures) :
      Fails (checkWith disk root request stamp cultures) := by
  rw [checkWith]
  split
  · simp
  · simp
  · split
    · simp
    · dsimp only
      split
      · simp
      · split
        · simp
        · simp
        · split
          · simp
          · next haccepted =>
              exact absurd ((hknows _).mp haccepted) (not_accepts_reportWith hblank _)

/-- With a blank culture there is no outcome; else it is that of the project. -/
theorem outcomeOf_eq_ok_iff (hknows : Platform.KnowsReports) {request : Check.Request}
    {stamp : Check.Stamp} {outcome : Check.Outcome} :
    outcomeOf disk root scope request stamp = .ok outcome ↔ none ∉ scope.cultures ∧
      Project.check disk root (some request.settings) request stamp = .ok outcome := by
  rw [outcomeOf]
  split
  · next hblank =>
      rw [List.contains_iff_mem] at hblank
      obtain ⟨e, he⟩ := @checkWith_fails _ disk root scope.cultures hknows request stamp hblank
      simp [he, hblank]
  · next hgiven =>
      rw [List.contains_iff_mem] at hgiven
      rw [and_iff_right hgiven]
      cases Project.check disk root (some request.settings) request stamp <;> simp

theorem outcomeOf_fails_iff (hknows : Platform.KnowsReports) {request : Check.Request}
    {stamp : Check.Stamp} :
    Fails (outcomeOf disk root scope request stamp) ↔ none ∈ scope.cultures ∨
      Fails (Project.check disk root (some request.settings) request stamp) := by
  rw [← not_iff_not, not_or, not_fails_iff, not_fails_iff]
  simp only [outcomeOf_eq_ok_iff hknows, exists_and_left]

/-- What keeps a check from its end: files that cannot be looked for, a blank culture, nothing in the
place of the folder for the report, what comes in the way of the check itself, or a report that cannot be
printed. -/
inductive CheckObstacle (disk : Disk) (stamp : Check.Stamp) (root : Path) (settings : Settings)
    (scope : Scope) (options : CheckOptions) : Prop
  | search (h : Unsearchable disk root settings)
  | culture (h : none ∈ scope.cultures)
  | out (h : scope.isBlank "out" = true)
  | unchecked (h : Unchecked disk root (requestOf settings options) stamp)
  | printing {outcome : Check.Outcome} (hjson : options.json = true)
      (hcheck : Project.check disk root (some settings) (requestOf settings options) stamp = .ok outcome)
      (h : ¬ outcome.report.toJson.HasBytes)

theorem runCheck_fails_iff (hknows : Platform.KnowsReports) (tree : disk.IsTree)
    (hfolder : disk.isFolder root = .ok true) {environment : Environment} {stamp : Check.Stamp}
    {options : CheckOptions} (hid : stamp.id ≠ "") (htime : stamp.time ≠ "") :
    Fails (runCheck disk environment stamp root settings scope options) ↔
      (environment.wantsReproducible = true → options.reproducible = true) ∧
        CheckObstacle disk stamp root settings scope options := by
  have hcheck := @Project.check_fails_iff _ disk root settings hknows tree hfolder
    (requestOf settings options) stamp rfl rfl rfl hid htime
  have hsteps : Fails (runCheck disk environment stamp root settings scope options) ↔
      (environment.wantsReproducible = true → options.reproducible = true) ∧
        (Fails (outcomeOf disk root scope (requestOf settings options) stamp) ∨
          ∃ outcome, outcomeOf disk root scope (requestOf settings options) stamp = .ok outcome ∧
            (scope.isBlank "out" = true ∨
              options.json = true ∧ ¬ outcome.report.toJson.HasBytes)) := by
    rw [runCheck]
    split
    · next hrefused =>
        have hnot : ¬ (environment.wantsReproducible = true → options.reproducible = true) := by
          simpa using hrefused
        simp [hnot]
    · next hallowed =>
        have hallowed : environment.wantsReproducible = true → options.reproducible = true := by
          simpa using hallowed
        rw [and_iff_right hallowed]
        cases outcomeOf disk root scope (requestOf settings options) stamp with
        | error e => simp
        | ok outcome =>
            simp only [not_fails_ok, false_or, Except.ok.injEq, exists_eq_left',
              ← printed_report_fails_iff]
            cases scope.isBlank "out" with
            | true => simp
            | false =>
                cases printed (if options.json then
                  [jsonText options.reproducible outcome.report.toJson] else []) <;> simp
  have hsettings : (requestOf settings options).settings = settings := rfl
  simp only [hsteps, outcomeOf_fails_iff hknows, outcomeOf_eq_ok_iff hknows, hsettings, hcheck]
  refine and_congr_right' ?_
  constructor
  · rintro ((hblank | hsearch | hunchecked) | ⟨outcome, ⟨-, houtcome⟩, hout | ⟨hjson, hbytes⟩⟩)
    · exact .culture hblank
    · exact .search hsearch
    · exact .unchecked hunchecked
    · exact .out hout
    · exact .printing hjson houtcome hbytes
  · intro h
    by_cases hblank : none ∈ scope.cultures
    · exact Or.inl (Or.inl hblank)
    obtain hsearch | hblank' | hout | hunchecked | ⟨hjson, houtcome, hbytes⟩ := h
    · exact Or.inl (Or.inr (Or.inl hsearch))
    · exact absurd hblank' hblank
    -- That there is no folder comes to light behind the check, which may have failed before.
    · cases houtcome : Project.check disk root (some settings) (requestOf settings options) stamp with
      | error e => exact Or.inl (Or.inr (hcheck.mp (houtcome ▸ fails_error e)))
      | ok outcome => exact Or.inr ⟨outcome, ⟨hblank, rfl⟩, Or.inl hout⟩
    · exact Or.inl (Or.inr (Or.inr hunchecked))
    · exact Or.inr ⟨_, ⟨hblank, houtcome⟩, Or.inr ⟨hjson, hbytes⟩⟩

/-! Documents -/

/-- A document that is not accepted, without being reported. -/
def IsSilentDocument {α : Type} (x : Except Schema.DocumentError α) : Prop :=
  ∃ e, x = .error e ∧ isReportedDocument e = false

omit [Platform] in
@[simp]
theorem isSilentDocument_error {α : Type} {e : Schema.DocumentError} :
    IsSilentDocument (.error e : Except Schema.DocumentError α) ↔ isReportedDocument e = false := by
  simp [IsSilentDocument]

omit [Platform] in
@[simp]
theorem not_isSilentDocument_ok {α : Type} (a : α) : ¬ IsSilentDocument (.ok a) :=
  nofun

/-- A JSON text in a file is nested too deep to be read. -/
def IsTooDeep (disk : Disk) (path : Path) : Prop :=
  ∃ text, disk.readText path = .ok text ∧ Json.read .keepLast text = .error .tooDeep

omit [Platform] in
theorem readDocument_silent_iff {path : Path} :
    IsSilentDocument (Schema.readDocument disk path) ↔ IsTooDeep disk path := by
  rw [Schema.readDocument, IsTooDeep]
  cases disk.readText path with
  | error e => simp [isReportedDocument]
  | ok text =>
      cases hread : Json.read .keepLast text with
      | ok value => simp [Schema.readValue, hread]
      | error f => cases f <;> simp [Schema.readValue, isReportedDocument, Json.Fault.message, hread]

/-- What keeps a document from being accepted or reported: it is nested too deep to be read, or the
schema is, or the look at it ends in an exception that is not caught. -/
inductive ValidateObstacle (disk : Disk) (schemas : Place) (document : Path) (schema : Text) : Prop
  | document (h : IsTooDeep disk document)
  | schema {value : Json} (hvalue : Schema.readDocument disk document = .ok value)
      (h : IsTooDeep disk (schemas.path.join (Path.ofString schema)))
  | raised {value known : Json} {e : Exception} (hvalue : Schema.readDocument disk document = .ok value)
      (hschema : Schema.find disk schemas schema = .ok known)
      (hraised : Platform.validate known value = .error (.raised e)) (h : e.family = .other)

/-- Looking at a document that has been read ends silently if the schema is too deep, or if an exception
that is not caught is raised. -/
theorem checkValue_silent_iff {schemas : Place} {schema : Text} {value : Json} :
    IsSilentDocument (Schema.checkValue disk schemas schema value) ↔
      IsTooDeep disk (schemas.path.join (Path.ofString schema)) ∨
        ∃ known e, Schema.find disk schemas schema = .ok known ∧
          Platform.validate known value = .error (.raised e) ∧ e.family = .other := by
  have hfind := @readDocument_silent_iff disk (schemas.path.join (Path.ofString schema))
  rw [← Schema.find] at hfind
  rw [← hfind, Schema.checkValue]
  cases Schema.find disk schemas schema with
  | error e => simp
  | ok known =>
      cases hlook : Platform.validate known value with
      | ok _ => simp [hlook]
      | error e => cases e <;> simp [hlook, isReportedDocument]

theorem runValidate_fails_iff {schemas : Place} {document : Path} {schema : Text} :
    Fails (runValidate disk schemas document schema) ↔
      ValidateObstacle disk schemas document schema := by
  have hsteps : Fails (runValidate disk schemas document schema) ↔
      IsSilentDocument (Schema.checkFile disk schemas schema document) := by
    rw [runValidate]
    cases Schema.checkFile disk schemas schema document with
    | ok _ => simp
    | error e =>
        cases hreported : isReportedDocument e <;>
          rcases e with _ | _ | _ | (_ | _) <;> simp_all [isReportedDocument]
  have hread := @readDocument_silent_iff disk document
  rw [hsteps, Schema.checkFile]
  cases hvalue : Schema.readDocument disk document with
  | error e =>
      rw [hvalue, isSilentDocument_error] at hread
      rw [isSilentDocument_error]
      constructor
      · exact fun h => .document (hread.mp h)
      · rintro (h | ⟨hother, -⟩ | ⟨hother, -, -, -⟩)
        · exact hread.mpr h
        · cases hvalue.symm.trans hother
        · cases hvalue.symm.trans hother
  | ok value =>
      have hnot : ¬ IsTooDeep disk document := by
        rw [← hread, hvalue]
        exact not_isSilentDocument_ok value
      dsimp only
      rw [checkValue_silent_iff]
      constructor
      · rintro (h | ⟨known, e, hschema, hraised, h⟩)
        · exact .schema hvalue h
        · exact .raised hvalue hschema hraised h
      · rintro (h | ⟨-, h⟩ | ⟨hother, hschema, hraised, h⟩)
        · exact absurd h hnot
        · exact Or.inl h
        · cases hvalue.symm.trans hother
          exact Or.inr ⟨_, _, hschema, hraised, h⟩

/-! Commands -/

/-- Something is in the way of a command that it does not report. -/
def Obstructed (disk : Disk) (schemas : Place) (environment : Environment) (stamp : Check.Stamp) :
    Command → Prop
  | .check scope options =>
    BlockedBy disk scope options.noPartial fun root settings =>
      (environment.wantsReproducible = true → options.reproducible = true) ∧
        CheckObstacle disk stamp root settings scope options
  | .suggest scope key top _ =>
    BlockedBy disk scope false fun root settings => SuggestObstacle disk root settings scope key top
  | .create scope key value mode json =>
    BlockedBy disk scope false fun root settings =>
      CreateObstacle disk root settings scope key value.toJson mode json
  | .complete scope key mode json =>
    BlockedBy disk scope false fun root settings =>
      CompleteObstacle disk root settings scope key mode json
  | .validate document schema => ValidateObstacle disk schemas document schema

theorem run_fails_iff (hknows : Platform.KnowsReports) (tree : disk.IsTree) {schemas : Place}
    {environment : Environment} {stamp : Check.Stamp} (hid : stamp.id ≠ "") (htime : stamp.time ≠ "")
    (command : Command) :
    Fails (run disk schemas environment stamp command) ↔
      Obstructed disk schemas environment stamp command := by
  cases command with
  | check scope options =>
      rw [run, Obstructed]
      exact withProject_fails_iff fun _ _ hfolder => runCheck_fails_iff hknows tree hfolder hid htime
  | suggest scope key top json =>
      rw [run, Obstructed]
      exact withProject_fails_iff fun _ _ hfolder => runSuggest_fails_iff tree hfolder top json
  | create scope key value mode json =>
      rw [run, Obstructed]
      exact withProject_fails_iff fun _ _ hfolder => create_fails_iff tree hfolder
  | complete scope key mode json =>
      rw [run, Obstructed]
      exact withProject_fails_iff fun _ _ hfolder => complete_fails_iff tree hfolder
  | validate document schema => exact runValidate_fails_iff

/-! Command lines -/

theorem runArguments_fails_iff (hknows : Platform.KnowsReports) (tree : disk.IsTree) {schemas : Place}
    {environment : Environment} {stamp : Check.Stamp} (hid : stamp.id ≠ "") (htime : stamp.time ≠ "")
    (arguments : List Text) :
    Fails (runArguments disk schemas environment stamp arguments) ↔
      ∃ command, parse arguments = .ok (some command) ∧
        Obstructed disk schemas environment stamp command := by
  rw [runArguments]
  cases parse arguments with
  | error stop => simp
  | ok parsed =>
      cases parsed with
      | none => simp
      | some command => simpa using run_fails_iff hknows tree hid htime command

omit [Platform] in
theorem exit_number_le (code : ExitCode) : code.number ≤ 2 := by
  cases code <;> decide

/-- A command line ends with one of the exit codes exactly if it is no command at all, or one that has
nothing in its way. -/
theorem runArguments_ends_iff (hknows : Platform.KnowsReports) (tree : disk.IsTree) (schemas : Place)
    (environment : Environment) (bytes : List UInt8) (micros : Int) (arguments : List Text) :
    (∃ after output, runArguments disk schemas environment
        ⟨Clock.idText bytes, Clock.timeText micros⟩ arguments = .ok (after, output) ∧
        output.exit.number ≤ 2) ↔
      ∀ command, parse arguments = .ok (some command) →
        ¬ Obstructed disk schemas environment ⟨Clock.idText bytes, Clock.timeText micros⟩ command := by
  have hfails := @runArguments_fails_iff _ disk hknows tree schemas environment
    ⟨Clock.idText bytes, Clock.timeText micros⟩ (Clock.idText_ne_empty bytes)
    (Clock.timeText_ne_empty micros) arguments
  rw [← not_iff_not, not_fails_iff] at hfails
  simp only [exit_number_le, and_true]
  rw [← Prod.exists', hfails]
  simp

/-- A reproducible check of the working folder. -/
def checkHere : Command :=
  .check { root := ⟨"", []⟩ } { reproducible := true }

/-- A working folder with one resource file. -/
def plainProject : Disk where
  nodes := [(["work"], .folder), (["work", "en.json"], .file [0x7b, 0x7d])]
  here := ["work"]

omit [Platform] in
theorem runArguments_ends_plainProject :
    @Platform.KnowsReports Platform.standIn ∧ plainProject.IsTree ∧
      parse ["check", ".", "--ci"] = .ok (some checkHere) ∧
      ¬ @Obstructed Platform.standIn plainProject [] {} ⟨Clock.idText [], Clock.timeText 0⟩ checkHere ∧
      ∃ after output, @runArguments Platform.standIn plainProject [] {}
        ⟨Clock.idText [], Clock.timeText 0⟩ ["check", ".", "--ci"] = .ok (after, output) ∧
        output.exit.number ≤ 2 := by
  let _ := Platform.standIn
  have hknows : Platform.KnowsReports := Platform.knowsReports_standIn
  have tree : plainProject.IsTree := by decide
  have hparse : parse ["check", ".", "--ci"] = .ok (some checkHere) := by decide
  have hends : ¬ Fails (@runArguments Platform.standIn plainProject [] {}
      ⟨Clock.idText [], Clock.timeText 0⟩ ["check", ".", "--ci"]) := by decide +kernel
  obtain ⟨⟨after, output⟩, hrun⟩ := not_fails_iff.mp hends
  have hexit := (runArguments_ends_iff hknows tree [] {} [] 0 ["check", ".", "--ci"]).mp
    ⟨after, output, hrun, exit_number_le _⟩
  exact ⟨hknows, tree, hparse, hexit checkHere hparse, after, output, hrun, exit_number_le _⟩

/-- A working folder with settings that are not in UTF-8. -/
def mangledSettings : Disk where
  nodes := [(["work"], .folder), (["work", ".locale-audit.yaml"], .file [0xff])]
  here := ["work"]

omit [Platform] in
/-- A check of such a folder ends without an exit code. -/
theorem runArguments_fails_mangledSettings :
    mangledSettings.IsTree ∧ parse ["check", ".", "--ci"] = .ok (some checkHere) ∧
      ∃ e, @runArguments Platform.standIn mangledSettings [] {}
        ⟨Clock.idText [], Clock.timeText 0⟩ ["check", ".", "--ci"] = .error e := by
  have hfails : Fails (@runArguments Platform.standIn mangledSettings [] {}
      ⟨Clock.idText [], Clock.timeText 0⟩ ["check", ".", "--ci"]) := by decide +kernel
  exact ⟨by decide, by decide, hfails⟩

end LocaleKeys.Command
