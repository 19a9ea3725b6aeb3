import LocaleKeys.Check.Clock
import LocaleKeys.Proofs.Check.Report
import LocaleKeys.Proofs.Disk.Rewrite
import LocaleKeys.Proofs.Json.Written

/-!
When checks fail. On a tree a check comes to its end unless files cannot be looked for, a diagnostic or the
path of a file has no bytes where they are hashed, its schema refuses the report, or the report cannot be
written.
-/

namespace LocaleKeys

/-! Stamps -/

namespace Clock

theorem intercalate_ne_empty (first second : Text) (rest : List Text) :
    Text.intercalate "-" (first :: second :: rest) ≠ "" := by
  intro hempty
  have hchars := congrArg Text.toList hempty
  rw [Text.toList_intercalate, List.map_cons, List.map_cons, List.intercalate_cons_cons] at hchars
  simp at hchars

theorem idText_ne_empty (bytes : List UInt8) : idText bytes ≠ "" :=
  intercalate_ne_empty _ _ _

theorem timeText_ne_empty (micros : Int) : timeText micros ≠ "" := by
  intro hempty
  have hchars := congrArg Text.toList hempty
  simp [timeText] at hchars

end Clock

namespace Check

open Discovery (IsSettled)

variable [Platform] {disk : Disk} {root : Place} {request : Request} {stamp : Stamp} {found : Findings}

/-- The folder of a report, or the report in it, cannot be made. -/
def Unwritable (disk : Disk) (folder : Path) : Prop :=
  Fails (disk.makeFolders Platform.makingRoom folder) ∨
    ∃ after, disk.makeFolders Platform.makingRoom folder = .ok after ∧
      Fails (after.write (reportPath folder) [])

theorem writeReport_fails_iff (folder : Path) (report : Report) :
    Fails (writeReport disk folder request report) ↔
      Unwritable disk folder ∨ ¬ report.toJson.HasBytes := by
  rw [writeReport, Unwritable, ← Json.isWritable_canonical_iff request.reproducible (.lines 2)]
  change _ ↔ _ ∨ ¬ Text.Utf8.IsWritable (reportText request report)
  cases disk.makeFolders Platform.makingRoom folder with
  | error o => simp
  | ok after =>
      have hwrite := @Disk.writeText_fails_iff after (reportPath folder) (reportText request report)
      simp only [not_fails_ok, false_or, Except.ok.injEq, exists_eq_left']
      rw [← hwrite]
      obtain ⟨written, result⟩ := after.writeText (reportPath folder) (reportText request report)
      cases result <;> simp

/-! Findings -/

/-- What a check compares: the catalog of its resource files, and the usages in its source files. -/
structure Compares (disk : Disk) (root : Place) (request : Request) (catalog : Catalog)
    (usages : List Usage) : Prop where
  catalog : ∃ places files, Discovery.resources disk root request.settings.jsonPatterns
      request.settings.exclude = .ok places ∧
    ResourceFile.readAll disk root.path (places.map Place.path) = .ok files ∧
    catalog = Catalog.build request.settings files
  usages : ∃ sources, Discovery.sources disk root sourceExtensions request.settings.exclude =
      .ok sources ∧ usages = sources.flatMap (scanFile disk request root)

section

variable (hstays : request.cancelAt = none)

include hstays

theorem observeFiles_eq (engine : Engine) (sources : List Place) :
    observeFiles disk request root engine sources =
      match engine.observeAll (sources.flatMap (scanFile disk request root)) with
      | (_, .error f) => .error (.unwritable f)
      | (engine, .ok staged) =>
        .ok (engine, (sources.flatMap (scanFile disk request root)).length, staged) := by
  have hscanned : sources.takeWhile (!callsOff request root ·) = sources := by
    rw [List.takeWhile_eq_self_iff]
    intro place _
    simp [callsOff, hstays]
  rw [observeFiles, hscanned]
  obtain ⟨observed, staged⟩ := engine.observeAll (sources.flatMap (scanFile disk request root))
  cases staged with
  | error f => rfl
  | ok staged => exact if_neg (Nat.lt_irrefl _)

omit [Platform] hstays in
/-- The end of a pass is reached with all diagnostics unless one of them has no bytes. -/
theorem pass_fails_iff (catalog : Catalog) (settings : Settings) (usages : List Usage) :
    (∃ ended f, (Engine.start catalog settings).observeAll usages = (ended, .error f)) ∨
        (∃ ended staged, (Engine.start catalog settings).observeAll usages = (ended, .ok staged) ∧
          Fails ended.endOfPass) ↔
      ∃ d ∈ catalog.findings settings usages, ¬ d.HasBytes := by
  rw [← Engine.drafts_start]
  simp only [List.mem_append, or_and_right, exists_or]
  rw [← Diagnostic.fails_mapM_written_iff, Engine.observeAll_eq]
  cases hfound : ((Engine.start catalog settings).drafts usages).mapM Diagnostic.written with
  | error f => simp
  | ok staged =>
      obtain ⟨hbytes, rfl⟩ := Diagnostic.mapM_written_eq_ok_iff.mp hfound
      rw [Engine.reached_eq_self _ _ hbytes]
      simp [Engine.endOfPass_eq, Diagnostic.fails_mapM_written_iff]

variable (tree : disk.IsTree) (hroot : IsSettled disk root)

include tree hroot

/-- A check that is not called off fails to find anything exactly if it cannot look for its files, or if
a diagnostic has no bytes. -/
theorem findings_fails_iff (hgoes : request.cancelled = false) :
    Fails (findings disk root request) ↔
      Fails (Discovery.resources disk root request.settings.jsonPatterns request.settings.exclude) ∨
      Fails (Discovery.sources disk root sourceExtensions request.settings.exclude) ∨
      ∃ catalog usages, Compares disk root request catalog usages ∧
        ∃ d ∈ catalog.findings request.settings usages, ¬ d.HasBytes := by
  rw [findings]
  dsimp only
  cases hplaces : Discovery.resources disk root request.settings.jsonPatterns
      request.settings.exclude with
  | error e => simp
  | ok places =>
      have hsettled : ∀ place ∈ places, IsSettled disk place := fun place hplace =>
        (Discovery.holdsFile_of_resources hplaces place hplace).isSettled tree
      obtain ⟨files, hfiles⟩ := ResourceFile.exists_readAll hroot hsettled
      cases hsources : Discovery.sources disk root sourceExtensions request.settings.exclude with
      | error e => simp [hfiles, hgoes]
      | ok sources =>
          have hcompares : ∀ catalog usages, Compares disk root request catalog usages ↔
              catalog = Catalog.build request.settings files ∧
                usages = sources.flatMap (scanFile disk request root) := by
            intro catalog usages
            constructor
            · rintro ⟨⟨_, _, hplaces', hfiles', rfl⟩, _, hsources', rfl⟩
              cases hplaces.symm.trans hplaces'
              cases hfiles.symm.trans hfiles'
              cases hsources.symm.trans hsources'
              exact ⟨rfl, rfl⟩
            · rintro ⟨rfl, rfl⟩
              exact ⟨⟨places, files, hplaces, hfiles, rfl⟩, sources, hsources, rfl⟩
          have hpass := pass_fails_iff (Catalog.build request.settings files) request.settings
            (sources.flatMap (scanFile disk request root))
          simp only [hcompares, not_fails_ok, false_or, and_assoc, exists_and_left, exists_eq_left, hfiles,
            hgoes, observeFiles_eq hstays]
          rw [← hpass]
          obtain ⟨ended, result⟩ := (Engine.start (Catalog.build request.settings files)
            request.settings).observeAll (sources.flatMap (scanFile disk request root))
          cases result with
          | error f => simp
          | ok staged => cases hend : ended.endOfPass <;> simp [hend]

end

/-! Run ids -/

theorem settled_of_findings (tree : disk.IsTree) (hroot : IsSettled disk root)
    (h : findings disk root request = .ok found) :
    ∀ place ∈ found.resources ++ found.sources, IsSettled disk place := by
  obtain ⟨-, hresources, hsources, -⟩ := exists_of_findings h
  exact List.forall_mem_append.mpr ⟨fun place hplace =>
    (Discovery.holdsFile_of_resources hresources place hplace).isSettled tree,
    Discovery.isSettled_of_sources tree hroot hsources⟩

/-- The id of a run is taken from its files, and the path of one of them has no bytes. -/
def Unnamed (root : Place) (request : Request) (found : Findings) : Prop :=
  request.runId = "" ∧ request.reproducible = true ∧
    ∃ place ∈ found.resources ++ found.sources,
      ¬ Text.Utf8.IsWritable (root.seenFrom place).text.toList

theorem runIdOf_fails_iff (tree : disk.IsTree) (hroot : IsSettled disk root)
    (hfound : findings disk root request = .ok found) :
    Fails (runIdOf disk root request stamp found) ↔ Unnamed root request found := by
  have hfiles := RunId.ofFiles_fails_iff hroot (settled_of_findings tree hroot hfound)
  rw [runIdOf, Unnamed]
  split
  · next hgiven => simp [hgiven]
  · next hnone =>
      rw [not_not] at hnone
      split
      · next hrepeats =>
          rw [and_iff_right hnone, and_iff_right hrepeats, ← hfiles]
          cases RunId.ofFiles disk root.path ((found.resources ++ found.sources).map Place.path) <;>
            simp
      · next hdrawn => simp [hdrawn]

omit [Platform] in
theorem runIdOf_ne_empty (hid : stamp.id ≠ "") {id : Text}
    (h : runIdOf disk root request stamp found = .ok id) : id ≠ "" := by
  rw [runIdOf] at h
  split at h
  · next hgiven =>
      cases h
      exact hgiven
  · split at h
    · split at h
      · next hfiles =>
          cases h
          exact RunId.ofFiles_ne_empty hfiles
      · cases h
    · cases h
      exact hid

omit [Platform] in
theorem createdAt_ne_empty (htime : stamp.time ≠ "") : createdAt request stamp ≠ "" := by
  rw [createdAt]
  split
  · assumption
  · split
    · decide
    · exact htime

/-! Checks -/

/-- What a check may find so that its schema accepts the report. -/
def Reportable (found : Findings) : Prop :=
  (∀ d ∈ found.diagnostics, d.location.IsProper) ∧ found.diagnostics.length ≤ 10000

/-- What keeps a check that has found something from its end: a path without bytes where an id is taken
from the files, a report that its schema refuses, or one that cannot be written. -/
inductive Unreported (disk : Disk) (root : Place) (request : Request) (stamp : Stamp)
    (found : Findings) : Prop
  | runId (h : Unnamed root request found)
  | schema (h : ¬ Reportable found)
  | folder {folder : Path} (hout : request.out = some folder) (h : Unwritable disk folder)
  | text {folder : Path} {id : Text} (hout : request.out = some folder)
      (hid : runIdOf disk root request stamp found = .ok id)
      (h : ¬ (reportOf root request stamp id found).toJson.HasBytes)

/-- The schema accepts the report of what has been found if it may be reported. -/
theorem validate_reportOf_iff_reportable (hknows : Platform.KnowsReports) (hid : stamp.id ≠ "")
    (htime : stamp.time ≠ "") {id : Text} (hfound : findings disk root request = .ok found)
    (hrun : runIdOf disk root request stamp found = .ok id) :
    Platform.validate Schema.report.toJson (reportOf root request stamp id found).toJson = .ok () ↔
      Reportable found := by
  rw [@validate_reportOf_iff _ _ _ _ stamp _ hknows id hfound,
    and_iff_right (runIdOf_ne_empty hid hrun), and_iff_right (createdAt_ne_empty htime), Reportable]

/-- Behind an id and a report that is accepted, only the writing of the report is left. -/
theorem unreported_iff_of_reportable {id : Text} (hnamed : ¬ Unnamed root request found)
    (hrun : runIdOf disk root request stamp found = .ok id) (hreportable : Reportable found) :
    Unreported disk root request stamp found ↔ ∃ folder, request.out = some folder ∧
      Fails (writeReport disk folder request (reportOf root request stamp id found)) := by
  simp only [writeReport_fails_iff]
  constructor
  · rintro (h | h | ⟨hout, h⟩ | ⟨hout, hother, h⟩)
    · exact absurd h hnamed
    · exact absurd hreportable h
    · exact ⟨_, hout, Or.inl h⟩
    · cases hrun.symm.trans hother
      exact ⟨_, hout, Or.inr h⟩
  · rintro ⟨folder, hout, h | h⟩
    · exact .folder hout h
    · exact .text hout hrun h

theorem run_fails_iff (hknows : Platform.KnowsReports) (tree : disk.IsTree)
    (hroot : IsSettled disk root) (hid : stamp.id ≠ "") (htime : stamp.time ≠ "") :
    Fails (run disk root request stamp) ↔
      Fails (findings disk root request) ∨
        ∃ found, findings disk root request = .ok found ∧
          Unreported disk root request stamp found := by
  rw [run]
  cases hfound : findings disk root request with
  | error e => simp
  | ok found =>
      have hnamed := @runIdOf_fails_iff _ _ _ _ stamp _ tree hroot hfound
      simp only [not_fails_ok, false_or, Except.ok.injEq, exists_eq_left']
      cases hrun : runIdOf disk root request stamp found with
      | error e =>
          rw [hrun, iff_true_left (fails_error e)] at hnamed
          exact iff_of_true (fails_error e) (.runId hnamed)
      | ok id =>
          rw [hrun, iff_false_left (not_fails_ok id)] at hnamed
          have hvalidate := validate_reportOf_iff_reportable hknows hid htime hfound hrun
          dsimp only
          cases haccepted : Platform.validate Schema.report.toJson
              (reportOf root request stamp id found).toJson with
          | error e =>
              have hunfit : ¬ Reportable found := by simpa [haccepted] using hvalidate
              exact iff_of_true (fails_error _) (.schema hunfit)
          | ok _ =>
              rw [unreported_iff_of_reportable hnamed hrun (hvalidate.mp haccepted)]
              cases request.out with
              | none => simp
              | some folder =>
                  cases hwritten : writeReport disk folder request
                    (reportOf root request stamp id found) <;> simp [hwritten]

end Check
end LocaleKeys
