import LocaleKeys.Proofs.Check.Run
import LocaleKeys.Proofs.Resource.Completion

/-!
When projects can be read and checked. Of a root that is a folder only the search for resource files
may fail; a check may also fail while it looks for source files, where a diagnostic has no bytes, and at
its end.
-/

namespace LocaleKeys.Project

open Discovery (IsSettled)

section

variable {disk : Disk} {root : Path} {place : Place}

/-- A root that is a folder has a place, where each task starts unless its path is too long. -/
theorem rootOf_cases (tree : disk.IsTree) (hfolder : disk.isFolder root = .ok true) :
    (∃ place, disk.resolve root = .ok place ∧ disk.look place.path = .error .nameTooLong ∧
        ∀ task, Fails (rootOf disk task root)) ∨
      ∃ place, disk.resolve root = .ok place ∧ IsSettled disk place ∧
        disk.pathExists place.path = .ok true ∧ ∀ task, rootOf disk task root = .ok place := by
  obtain ⟨place, hlook⟩ := Disk.look_of_isFolder hfolder
  obtain ⟨hlocate, hheld⟩ := Disk.look_eq_ok hlook
  have hresolve := Disk.resolve_of_locate hlocate
  have hfound := tree.look_place hheld nofun
  split at hfound
  · next hlong =>
      obtain ⟨f, hprobe⟩ : Fails (disk.pathExists place.path) := Disk.test_fails_iff.mpr hfound
      have hroot : ∀ task, Fails (rootOf disk task root) := by
        intro task
        simp only [rootOf, hresolve, hprobe, fails_error]
      exact Or.inl ⟨place, hresolve, hfound, hroot⟩
  · have hexists : disk.pathExists place.path = .ok true := by simp [Disk.pathExists, Disk.test, hfound]
    have hroot : ∀ task, rootOf disk task root = .ok place := by
      intro task
      simp only [rootOf, hresolve, hexists]
    exact Or.inr ⟨place, hresolve, tree.resolve_place hheld nofun, hexists, hroot⟩

theorem not_look_error_of_exists {disk : Disk} {path : Path} (h : disk.pathExists path = .ok true) :
    disk.look path ≠ .error .nameTooLong := by
  intro hlong
  have hprobe : Fails (disk.pathExists path) := Disk.test_fails_iff.mpr hlong
  rw [h] at hprobe
  exact not_fails_ok true hprobe

end

variable [Platform] {disk : Disk} {root : Path} {place : Place} {settings : Settings} {task : Task}

/-- The resource files of a project cannot be looked for: its root has too long a path, a pattern is
none, or a pattern leads to what the disk refuses to look at or to folders that lie too deep. -/
inductive Unsearchable (disk : Disk) (root : Path) (settings : Settings) : Prop
  | root {place : Place} (hroot : disk.resolve root = .ok place)
      (h : disk.look place.path = .error .nameTooLong)
  | pattern {pattern : Text} (hpattern : pattern ∈ settings.jsonPatterns)
      (h : Glob.Malformed pattern)
  | obstacle {place : Place} {pattern : Text} {o : Disk.Obstacle}
      (hroot : disk.resolve root = .ok place) (hpattern : pattern ∈ settings.jsonPatterns)
      (h : Discovery.resourcesOf disk place settings.exclude pattern = .error (.obstacle o))

theorem unsearchable_iff (hresolve : disk.resolve root = .ok place)
    (hexists : disk.pathExists place.path = .ok true) :
    Unsearchable disk root settings ↔
      Fails (Discovery.resources disk place settings.jsonPatterns settings.exclude) := by
  rw [Discovery.resources_fails_iff]
  simp only [Discovery.resourcesOf_fails_iff]
  constructor
  · rintro (⟨hplace, hlong⟩ | ⟨hpattern, h⟩ | ⟨hplace, hpattern, h⟩)
    · cases hresolve.symm.trans hplace
      exact absurd hlong (not_look_error_of_exists hexists)
    · exact ⟨_, hpattern, Or.inl h⟩
    · cases hresolve.symm.trans hplace
      exact ⟨_, hpattern, Or.inr ⟨_, h⟩⟩
  · rintro ⟨pattern, hpattern, h | ⟨o, h⟩⟩
    · exact .pattern hpattern h
    · exact .obstacle hresolve hpattern h

theorem load_fails_iff (tree : disk.IsTree) (hfolder : disk.isFolder root = .ok true)
    {task : Task} :
    Fails (load disk task root (some settings)) ↔ Unsearchable disk root settings := by
  obtain ⟨place, hresolve, hlong, hfails⟩ | ⟨place, hresolve, hsettled, hexists, hroot⟩ :=
    rootOf_cases tree hfolder
  · obtain ⟨e, he⟩ := hfails task
    rw [load, he]
    exact iff_of_true (fails_error e) (.root hresolve hlong)
  · rw [unsearchable_iff hresolve hexists, load, hroot]
    dsimp only [settingsOf]
    cases hplaces : Discovery.resources disk place settings.jsonPatterns settings.exclude with
    | error e => simp
    | ok places =>
        obtain ⟨files, hfiles⟩ := ResourceFile.exists_readAll hsettled fun place hplace =>
          (Discovery.holdsFile_of_resources hplaces place hplace).isSettled tree
        simp [hfiles]

omit [Platform] in
@[simp]
theorem ofFiles_inj {files others : List ResourceFile} :
    ofFiles settings files = ofFiles settings others ↔ files = others :=
  ⟨congrArg Loaded.resources, congrArg (ofFiles settings)⟩

theorem exists_of_load {project : Loaded} (h : load disk task root (some settings) = .ok project) :
    ∃ files, project = ofFiles settings files := by
  rw [load] at h
  split at h
  · cases h
  · dsimp only [settingsOf] at h
    split at h
    · cases h
    · split at h
      · cases h
      · cases h
        exact ⟨_, rfl⟩

theorem unsearchable_or_load (tree : disk.IsTree) (hfolder : disk.isFolder root = .ok true)
    (task : Task) (settings : Settings) :
    Unsearchable disk root settings ∨
      ∃ files, load disk task root (some settings) = .ok (ofFiles settings files) := by
  rw [or_iff_not_imp_left, ← load_fails_iff tree hfolder, not_fails_iff]
  rintro ⟨project, hload⟩
  obtain ⟨files, rfl⟩ := exists_of_load hload
  exact ⟨files, hload⟩

/-- What keeps a check of a project from its end once its resource files have been looked for: source
files that cannot be, a diagnostic without bytes, or a report that is not made. -/
inductive Unchecked (disk : Disk) (root : Path) (request : Check.Request) (stamp : Check.Stamp) : Prop
  | sources {place : Place} (hroot : disk.resolve root = .ok place)
      (h : Fails (Discovery.sources disk place Check.sourceExtensions request.settings.exclude))
  | diagnostic {place : Place} {catalog : Catalog} {usages : List Usage} {d : Diagnostic}
      (hroot : disk.resolve root = .ok place)
      (hcompares : Check.Compares disk place request catalog usages)
      (hd : d ∈ catalog.findings request.settings usages) (h : ¬ d.HasBytes)
  | report {place : Place} {found : Check.Findings} (hroot : disk.resolve root = .ok place)
      (hfound : Check.findings disk place request = .ok found)
      (h : Check.Unreported disk place request stamp found)

theorem check_fails_iff (hknows : Platform.KnowsReports) (tree : disk.IsTree)
    (hfolder : disk.isFolder root = .ok true) {request : Check.Request} {stamp : Check.Stamp}
    (hsettings : request.settings = settings) (hgoes : request.cancelled = false)
    (hstays : request.cancelAt = none) (hid : stamp.id ≠ "") (htime : stamp.time ≠ "") :
    Fails (check disk root (some settings) request stamp) ↔
      Unsearchable disk root settings ∨ Unchecked disk root request stamp := by
  subst hsettings
  obtain ⟨place, hresolve, hlong, hfails⟩ | ⟨place, hresolve, hsettled, hexists, hroot⟩ :=
    rootOf_cases tree hfolder
  · obtain ⟨e, he⟩ := hfails .check
    rw [check, he]
    exact iff_of_true (fails_error e) (Or.inl (.root hresolve hlong))
  · have hrun : Fails (check disk root (some request.settings) request stamp) ↔
        Fails (Check.run disk place request stamp) := by
      rw [check, hroot]
      dsimp only [settingsOf]
      cases Check.run disk place request stamp <;> simp
    rw [hrun, Check.run_fails_iff hknows tree hsettled hid htime,
      Check.findings_fails_iff hstays tree hsettled hgoes, unsearchable_iff hresolve hexists, or_assoc]
    refine or_congr_right ?_
    constructor
    · rintro ((hsources | ⟨catalog, usages, hcompares, d, hd, hbytes⟩) | ⟨found, hfound, h⟩)
      · exact .sources hresolve hsources
      · exact .diagnostic hresolve hcompares hd hbytes
      · exact .report hresolve hfound h
    · rintro (⟨hplace, hsources⟩ | ⟨hplace, hcompares, hd, hbytes⟩ | ⟨hplace, hfound, h⟩)
      · cases hresolve.symm.trans hplace
        exact Or.inl (Or.inl hsources)
      · cases hresolve.symm.trans hplace
        exact Or.inl (Or.inr ⟨_, _, hcompares, _, hd, hbytes⟩)
      · cases hresolve.symm.trans hplace
        exact Or.inr ⟨_, hfound, h⟩

end LocaleKeys.Project
