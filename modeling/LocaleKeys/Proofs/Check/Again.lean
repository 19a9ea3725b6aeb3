import LocaleKeys.Proofs.Check.Run
import LocaleKeys.Proofs.Discovery.Found
import LocaleKeys.Platform.StandIn

/-!
Checks made again. A check that has written its report leaves a disk with some new folders and one file
that no search looks for. Made again there, a reproducible check finds the same and writes the same, unless
the new folders are in the way of a search.
-/

namespace LocaleKeys

open Discovery (IsSettled reportName)

variable {disk after : Disk} {root place : Place} {path folder : Path}

/-! Disks that look alike -/

theorem Disk.look_congr {node : Node} (plain : disk.IsPlain) (plain' : after.IsPlain)
    (h : disk.get? place = some node) (h' : after.get? place = some node) :
    after.look place.path = disk.look place.path := by
  rw [plain.look_place h, plain'.look_place h']

namespace RunId

variable (hresolve : ∀ path, after.resolve path = disk.resolve path) {paths : List Path}

include hresolve

theorem seenPath_congr (root path : Path) :
    seenPath after root path = seenPath disk root path := by
  rw [seenPath, seenPath, hresolve, hresolve]

theorem payloadOf_congr (root : Path) (hlook : ∀ path ∈ paths, after.look path = disk.look path) :
    payloadOf after root paths = payloadOf disk root paths := by
  induction paths with
  | nil => rfl
  | cons path rest ih =>
      obtain ⟨hpath, hrest⟩ := List.forall_mem_cons.mp hlook
      rw [payloadOf, payloadOf, seenPath_congr hresolve, ih hrest, sizeText, sizeText, hpath]

theorem ofFiles_congr (root : Path) (hlook : ∀ path ∈ paths, after.look path = disk.look path) :
    ofFiles after root paths = ofFiles disk root paths := by
  have hordered : ∀ path ∈ inOrder paths, after.look path = disk.look path :=
    fun path hpath => hlook path (List.mem_mergeSort.mp hpath)
  rw [ofFiles, ofFiles, payloadOf_congr hresolve root hordered]

end RunId

namespace ResourceFile

variable (hresolve : ∀ path, after.resolve path = disk.resolve path) {paths : List Path}

include hresolve

theorem readAll_congr (root : Path) (hlook : ∀ path ∈ paths, after.look path = disk.look path) :
    readAll after root paths = readAll disk root paths := by
  induction paths with
  | nil => rfl
  | cons path rest ih =>
      obtain ⟨hpath, hrest⟩ := List.forall_mem_cons.mp hlook
      have hread : read after root path = read disk root path := by
        rw [read, read, RunId.seenPath_congr hresolve, Disk.readMarked, Disk.readMarked, Disk.readWith,
          Disk.readWith, Disk.read, Disk.read, hpath]
      rw [readAll, readAll, hread, ih hrest]

end ResourceFile

namespace Check

variable [Platform] {request : Request} {stamp again : Stamp} {found : Findings}
variable {outcome : Outcome} {id : Text}

theorem scanFile_congr (h : after.look place.path = disk.look place.path) :
    scanFile after request root place = scanFile disk request root place := by
  rw [scanFile, scanFile, Disk.readLenient, Disk.readLenient, Disk.readWith, Disk.readWith, Disk.read,
    Disk.read, h]

/-! Grown disks -/

omit [Platform] in
/-- A file of the name of a report is no source. -/
theorem not_isSourceFile {exclude : List Text} {maxBytes : Int} {data : List UInt8}
    (h : place.getLast? = some reportName) :
    ¬ Discovery.IsSourceFile root sourceExtensions exclude maxBytes place data := by
  have hsuffix : sourceExtensions.contains (Text.lowercased place.path.suffix) = false := by
    rw [Path.suffix, Path.name, Place.path, h]
    decide
  have hsame : sourceExtensions.map Text.lowercased = sourceExtensions := by decide
  rintro (⟨rfl, hroot⟩ | ⟨-, -, hbelow, -⟩)
  · rw [hsuffix] at hroot
    cases hroot
  · rw [hsame, hsuffix] at hbelow
    cases hbelow

section Grown

variable (plain : disk.IsPlain) (plain' : after.IsPlain) (grows : Disk.Grows reportName disk after)
variable (hroot : IsSettled disk root)
variable (hpatterns : ∀ pattern ∈ request.settings.jsonPatterns,
    Text.ofString ".." ∉ (Path.ofString pattern).names)

include plain plain' grows

omit [Platform] in
theorem resolve_of_grows (path : Path) : after.resolve path = disk.resolve path := by
  have hstart : after.startOf path = disk.startOf path := by
    rw [Disk.startOf, Disk.startOf, grows.here]
  rw [Disk.resolve, Disk.resolve, Disk.unnameablePlace, Disk.unnameablePlace, hstart]
  simp only [plain.settle_eq, plain'.settle_eq, if_true]

include hroot

omit [Platform] in
theorem pathExists_of_grows (hexists : disk.pathExists root.path = .ok true) :
    after.pathExists root.path = .ok true := by
  have hup : Text.ofString ".." ∉ root := plain.not_up_of_resolve hroot
  obtain ⟨node, hget, -, hshort⟩ := (plain.test_path_iff hup).mp hexists
  obtain ⟨node', hget'⟩ := grows.exists_node hget
  exact (plain'.test_path_iff hup).mpr ⟨node', hget', rfl, hshort⟩

include hpatterns

theorem look_of_grows (h : findings disk root request = .ok found) :
    ∀ path ∈ (found.resources ++ found.sources).map Place.path,
      after.look path = disk.look path := by
  have hup : Text.ofString ".." ∉ root := plain.not_up_of_resolve hroot
  obtain ⟨-, hresources, hsources, -⟩ := exists_of_findings h
  -- Only files of the name of a report may differ, and neither search finds one.
  have hfile : ∀ {place data}, place.getLast? ≠ some reportName →
      disk.get? place = some (.file data) → after.look place.path = disk.look place.path :=
    fun hname hdata => Disk.look_congr plain plain' hdata ((grows.file_iff hname _).mpr hdata)
  intro path hpath
  obtain ⟨place, hplace, rfl⟩ := List.mem_map.mp hpath
  cases List.mem_append.mp hplace with
  | inl hplace =>
      obtain ⟨⟨data, hdata⟩, pattern, -, hasks⟩ :=
        (Discovery.mem_resources_iff plain hup hpatterns hresources).mp hplace
      exact hfile (Discovery.getLast?_ne_of_asks hasks) hdata
  | inr hplace =>
      obtain ⟨data, hdata, hsource⟩ := (Discovery.mem_sources_iff plain hup hsources).mp hplace
      exact hfile (fun hname => not_isSourceFile hname hsource) hdata

/-- Where files can still be looked for, a check finds the same. -/
theorem findings_of_grows (h : findings disk root request = .ok found) {places others : List Place}
    (hsearch : Discovery.resources after root request.settings.jsonPatterns
      request.settings.exclude = .ok places)
    (hsources' : Discovery.sources after root sourceExtensions request.settings.exclude = .ok others) :
    findings after root request = .ok found := by
  have hup : Text.ofString ".." ∉ root := plain.not_up_of_resolve hroot
  have hresolve := resolve_of_grows plain plain' grows
  have hlook := look_of_grows plain plain' grows hroot hpatterns h
  rw [List.map_append, List.forall_mem_append] at hlook
  obtain ⟨-, hresources, hsources, -⟩ := exists_of_findings h
  obtain rfl := Discovery.resources_of_grows plain plain' hup grows hpatterns hresources hsearch
  obtain rfl := Discovery.sources_of_grows plain plain' hup grows
    (fun _ _ => not_isSourceFile) hsources hsources'
  have hobserved : ∀ engine, observeFiles after request root engine found.sources =
      observeFiles disk request root engine found.sources := by
    intro engine
    have husages : (found.sources.takeWhile (!callsOff request root ·)).flatMap
          (scanFile after request root) =
        (found.sources.takeWhile (!callsOff request root ·)).flatMap (scanFile disk request root) :=
      List.flatMap_congr fun place hplace =>
        scanFile_congr (hlook.2 _ (List.mem_map_of_mem ((List.takeWhile_subset _) hplace)))
    rw [observeFiles, observeFiles, husages]
  rw [← h, findings, findings]
  dsimp only
  rw [hsearch, hresources]
  dsimp only
  rw [ResourceFile.readAll_congr hresolve root.path hlook.1]
  simp only [hsources, hsources', hobserved]

theorem runIdOf_of_grows (h : findings disk root request = .ok found)
    (hrepeats : request.reproducible = true) :
    runIdOf after root request again found = runIdOf disk root request stamp found := by
  have hlook := look_of_grows plain plain' grows hroot hpatterns h
  rw [runIdOf, runIdOf, hrepeats, if_pos rfl, if_pos rfl,
    RunId.ofFiles_congr (resolve_of_grows plain plain' grows) root.path hlook]

end Grown

/-! Reports -/

theorem exists_of_writeReport {report : Report}
    (h : writeReport disk folder request report = .ok after) :
    ∃ middle, disk.makeFolders Platform.makingRoom folder = .ok middle ∧
      Text.Utf8.IsWritable (reportText request report) ∧
      middle.write (reportPath folder) (Text.Utf8.encode (reportText request report)) = .ok after := by
  rw [writeReport] at h
  split at h
  · cases h
  · next middle hfolders =>
      split at h
      · cases h
      · next hwrite =>
          cases h
          exact ⟨middle, hfolders, Disk.writeText_eq_ok_iff.mp hwrite⟩

theorem writeReport_grows (plain : disk.IsPlain) {report : Report}
    (h : writeReport disk folder request report = .ok after) :
    after.IsPlain ∧ Disk.Grows reportName disk after := by
  obtain ⟨middle, hfolders, -, hwrite⟩ := exists_of_writeReport h
  obtain ⟨plain', hgrows⟩ := plain.makeFolders hfolders
  obtain ⟨plain'', hgrows'⟩ := plain'.write (by decide) hwrite
  exact ⟨plain'', hgrows.trans hgrows'⟩

/-- A report that has been written can be read, and writing it again changes nothing. -/
theorem writeReport_again (plain : disk.IsPlain) {report : Report}
    (h : writeReport disk folder request report = .ok after) :
    after.read (reportPath folder) = .ok (Text.Utf8.encode (reportText request report)) ∧
      writeReport after folder request report = .ok after := by
  obtain ⟨middle, hfolders, hbytes, hwrite⟩ := exists_of_writeReport h
  obtain ⟨plain', -⟩ : middle.IsPlain ∧ Disk.Grows reportName disk middle :=
    plain.makeFolders hfolders
  have hroom := Disk.room_of_makeFolders hfolders
  obtain ⟨hread, hfolders', hwrite'⟩ := plain'.write_again hroom (by decide) hwrite
  refine ⟨hread, ?_⟩
  have htext : after.writeText (reportPath folder) (reportText request report) = (after, .ok ()) :=
    Disk.writeText_eq_ok_iff.mpr ⟨hbytes, hwrite'⟩
  rw [writeReport, hfolders']
  dsimp only
  rw [htext]

omit [Platform] in
theorem reportOf_reproducible (hrepeats : request.reproducible = true) :
    reportOf root request again id found = reportOf root request stamp id found := by
  have htime : createdAt request again = createdAt request stamp := by
    rw [createdAt, createdAt, hrepeats]
    rfl
  rw [reportOf, reportOf, htime]

theorem exists_of_run (hout : request.out = some folder)
    (h : run disk root request stamp = .ok outcome) :
    ∃ found id, findings disk root request = .ok found ∧ runIdOf disk root request stamp found = .ok id ∧
      outcome.report = reportOf root request stamp id found ∧ outcome.streamed = found.diagnostics ∧
      Platform.validate Schema.report.toJson outcome.report.toJson = .ok () ∧
      writeReport disk folder request outcome.report = .ok outcome.disk := by
  rw [run] at h
  split at h
  · cases h
  · next found hfound =>
      split at h
      · cases h
      · next id hid =>
          dsimp only at h
          split at h
          · cases h
          · next hcheck =>
              rw [hout] at h
              dsimp only at h
              split at h
              · cases h
              · next hwritten =>
                  cases h
                  exact ⟨found, id, hfound, hid, rfl, rfl, hcheck, hwritten⟩

/-! Checks -/

/-- A search for the files of a check meets an obstacle: a pattern leads to one, or one of the folders
below the root has a path that is too long or lies too deep. -/
def MeetsObstacle (disk : Disk) (root : Place) (settings : Settings) : Prop :=
  (∃ pattern ∈ settings.jsonPatterns, ∃ o : Disk.Obstacle,
    Discovery.resourcesOf disk root settings.exclude pattern = .error (.obstacle o)) ∨
    ¬ Glob.IsOpen disk root

/-- A check on another disk finds the same, draws the same id and comes to the same. -/
structure Repeats (after : Disk) (root : Place) (request : Request) (again : Stamp) (found : Findings)
    (outcome : Outcome) : Prop where
  findings : findings after root request = .ok found
  runId : runIdOf after root request again found = .ok outcome.report.runId
  run : run after root request again = .ok outcome

theorem resources_fails_of_parsed {settings : Settings} {places : List Place}
    (h : Discovery.resources disk root settings.jsonPatterns settings.exclude = .ok places) :
    Fails (Discovery.resources after root settings.jsonPatterns settings.exclude) ↔
      ∃ pattern ∈ settings.jsonPatterns, ∃ o : Disk.Obstacle,
        Discovery.resourcesOf after root settings.exclude pattern = .error (.obstacle o) := by
  -- A pattern that has been looked for once is well formed, whatever the disk.
  have hparsed : ∀ pattern ∈ settings.jsonPatterns, ¬ Glob.Malformed pattern := by
    intro pattern hpattern hmalformed
    have hfails : Fails (Discovery.resources disk root settings.jsonPatterns settings.exclude) :=
      Discovery.resources_fails_iff.mpr
        ⟨pattern, hpattern, Discovery.resourcesOf_fails_iff.mpr (Or.inl hmalformed)⟩
    rw [h] at hfails
    exact not_fails_ok _ hfails
  rw [Discovery.resources_fails_iff]
  refine exists_congr fun pattern => and_congr_right fun hpattern => ?_
  rw [Discovery.resourcesOf_fails_iff, or_iff_right (hparsed pattern hpattern)]

/-- Once the files of a check have been found, an obstacle is all that can stop the searches for them. -/
theorem meetsObstacle_iff (plain : after.IsPlain) (hup : Text.ofString ".." ∉ root)
    (hexists : after.pathExists root.path = .ok true) {settings : Settings} {places : List Place}
    (h : Discovery.resources disk root settings.jsonPatterns settings.exclude = .ok places) :
    MeetsObstacle after root settings ↔
      Fails (Discovery.resources after root settings.jsonPatterns settings.exclude) ∨
        Fails (Discovery.sources after root sourceExtensions settings.exclude) := by
  rw [resources_fails_of_parsed h, Discovery.sources_fails_iff plain hup hexists, MeetsObstacle]

theorem run_fails_of_findings (h : Fails (findings disk root request)) :
    Fails (run disk root request stamp) := by
  obtain ⟨e, he⟩ := h
  rw [run, he]
  exact fails_error e

/-- What a check finds, it finds only if it can look for its files. -/
theorem findings_fails_of_search
    (h : Fails (Discovery.resources disk root request.settings.jsonPatterns request.settings.exclude) ∨
      Fails (Discovery.sources disk root sourceExtensions request.settings.exclude)) :
    Fails (findings disk root request) := by
  cases hfound : findings disk root request with
  | error e => exact fails_error e
  | ok found =>
      obtain ⟨-, hresources, hsources, -⟩ := exists_of_findings hfound
      rw [hresources, hsources] at h
      exact absurd h (not_or.mpr ⟨not_fails_ok _, not_fails_ok _⟩)

theorem repeats_iff (plain : disk.IsPlain) (hroot : IsSettled disk root)
    (hexists : disk.pathExists root.path = .ok true)
    (hpatterns : ∀ pattern ∈ request.settings.jsonPatterns,
      Text.ofString ".." ∉ (Path.ofString pattern).names)
    (hrepeats : request.reproducible = true) (hout : request.out = some folder)
    (hrun : run disk root request stamp = .ok outcome)
    (hfound : findings disk root request = .ok found) (again : Stamp) :
    (Repeats outcome.disk root request again found outcome ↔
        ¬ MeetsObstacle outcome.disk root request.settings) ∧
      (MeetsObstacle outcome.disk root request.settings →
        Fails (run outcome.disk root request again)) := by
  obtain ⟨_, id, hfound', hid, hreport, hstreamed, hcheck, hwritten⟩ := exists_of_run hout hrun
  rw [hfound] at hfound'
  cases hfound'
  obtain ⟨plain', grows⟩ := writeReport_grows plain hwritten
  obtain ⟨-, hresources, -⟩ := exists_of_findings hfound
  have hup : Text.ofString ".." ∉ root := plain.not_up_of_resolve hroot
  have hexists' := pathExists_of_grows plain plain' grows hroot hexists
  have hmeets := meetsObstacle_iff plain' hup hexists' hresources
  have hsearch : MeetsObstacle outcome.disk root request.settings →
      Fails (run outcome.disk root request again) :=
    fun hlong => run_fails_of_findings (findings_fails_of_search (hmeets.mp hlong))
  refine ⟨⟨fun hagain hlong => ?_, fun hshort => ?_⟩, hsearch⟩
  · have hboth := hsearch hlong
    rw [hagain.run] at hboth
    exact not_fails_ok _ hboth
  · rw [hmeets, not_or, not_fails_iff, not_fails_iff] at hshort
    obtain ⟨⟨places, hplaces⟩, others, hothers⟩ := hshort
    have hfindings := findings_of_grows plain plain' grows hroot hpatterns hfound hplaces hothers
    have hrunId : runIdOf outcome.disk root request again found = .ok id := by
      rw [← hid]
      exact runIdOf_of_grows plain plain' grows hroot hpatterns hfound hrepeats
    have hsame : reportOf root request again id found = outcome.report :=
      (reportOf_reproducible hrepeats).trans hreport.symm
    have hreportId : outcome.report.runId = id := by
      rw [hreport]
      rfl
    refine ⟨hfindings, hreportId ▸ hrunId, ?_⟩
    rw [run, hfindings]
    dsimp only
    rw [hrunId]
    dsimp only
    rw [hsame, hcheck, hout]
    dsimp only
    rw [(writeReport_again plain hwritten).2, ← hstreamed]

/-- A reproducible check that has written its report is made again on the disk that it leaves behind.
Its root is the same place, and its report is there. It finds the same, under the same id, and leaves all
as it is, byte by byte, exactly if no search for its files meets an obstacle; else it fails. -/
theorem run_again (plain : disk.IsPlain) (hresolve : disk.resolve path = .ok root)
    (hexists : disk.pathExists root.path = .ok true)
    (hpatterns : ∀ pattern ∈ request.settings.jsonPatterns,
      Text.ofString ".." ∉ (Path.ofString pattern).names)
    (hrepeats : request.reproducible = true) (hout : request.out = some folder)
    (hrun : run disk root request stamp = .ok outcome) :
    outcome.disk.resolve path = .ok root ∧
      outcome.disk.read (reportPath folder) =
        .ok (Text.Utf8.encode (reportText request outcome.report)) ∧
      ∃ found, findings disk root request = .ok found ∧
        runIdOf disk root request stamp found = .ok outcome.report.runId ∧
        ∀ again, (Repeats outcome.disk root request again found outcome ↔
            ¬ MeetsObstacle outcome.disk root request.settings) ∧
          (MeetsObstacle outcome.disk root request.settings →
            Fails (run outcome.disk root request again)) := by
  have hup : Text.ofString ".." ∉ root := plain.not_up_of_resolve hresolve
  obtain ⟨node, hget, -⟩ := (plain.test_path_iff hup).mp hexists
  have hroot : IsSettled disk root := plain.resolve_place hget
  obtain ⟨found, id, hfound, hid, hreport, -, -, hwritten⟩ := exists_of_run hout hrun
  obtain ⟨plain', grows⟩ := writeReport_grows plain hwritten
  have hreportId : outcome.report.runId = id := by
    rw [hreport]
    rfl
  exact ⟨(resolve_of_grows plain plain' grows path).trans hresolve, (writeReport_again plain hwritten).1,
    found, hfound, hreportId ▸ hid,
    repeats_iff plain hroot hexists hpatterns hrepeats hout hrun hfound⟩

/-! A project with one resource file -/

def smallProject : Disk where
  nodes := [(["p"], .folder), (["p", "en.json"], .file [0x7b, 0x7d])]

/-- A check by one pattern whose report goes into a new folder of the project. -/
def checkInto (pattern : Text) : Request where
  settings := { jsonPatterns := [pattern] }
  out := some ⟨"/", ["p", "out"]⟩

/-- The project with a report in the folder. -/
def withReport (data : List UInt8) : Disk :=
  (smallProject.put ["p", "out"] .folder).put ["p", "out", reportName] (.file data)

omit [Platform] in
theorem isPlain_smallProject : smallProject.IsPlain := by
  decide

omit [Platform] in
theorem isSettled_smallProject : IsSettled smallProject ["p"] :=
  isPlain_smallProject.resolve_place (show smallProject.get? ["p"] = some .folder from rfl)

/-- Whether nothing is found to report, in no files but the resource file, and the report has bytes. -/
def isUneventful (pattern : Text) : Bool :=
  (findings smallProject ["p"] (checkInto pattern)).toOption.any fun found =>
    found.diagnostics.isEmpty && (found.resources ++ found.sources).all (· = ["p", "en.json"]) &&
      (runIdOf smallProject ["p"] (checkInto pattern) ⟨"id", "time"⟩ found).toOption.all fun id =>
        (reportOf ["p"] (checkInto pattern) ⟨"id", "time"⟩ id found).toJson.HasBytes

omit [Platform] in
theorem makeFolders_smallProject :
    smallProject.makeFolders Platform.standIn.makingRoom ⟨"/", ["p", "out"]⟩ =
      .ok (smallProject.put ["p", "out"] .folder) := by
  decide

omit [Platform] in
theorem locate_report_smallProject :
    (smallProject.put ["p", "out"] .folder).locate (reportPath ⟨"/", ["p", "out"]⟩) =
      .ok ["p", "out", reportName] := by
  decide

omit [Platform] in
/-- An uneventful check of the project comes to its end. -/
theorem runs_smallProject {pattern : Text} (h : @isUneventful Platform.standIn pattern = true) :
    ∃ outcome, @run Platform.standIn smallProject ["p"] (checkInto pattern) ⟨"id", "time"⟩ =
      .ok outcome := by
  let _ := Platform.standIn
  rw [isUneventful] at h
  rw [← not_fails_iff, run_fails_iff Platform.knowsReports_standIn isPlain_smallProject.toIsTree
    isSettled_smallProject (by decide) (by decide)]
  rintro (⟨e, he⟩ | ⟨found, hfound, hreason⟩)
  · rw [he] at h
    cases h
  · rw [hfound] at h
    simp only [Except.toOption, Option.any_some, Bool.and_eq_true, List.isEmpty_iff, List.all_eq_true,
      decide_eq_true_eq] at h
    obtain ⟨⟨hnone, hplaces⟩, hbytes⟩ := h
    obtain ⟨-, -, place, hplace, hhalf⟩ | hrefused | ⟨hout, hfolder⟩ | ⟨hout, hid, hhalf⟩ := hreason
    · obtain rfl := hplaces place hplace
      exact hhalf (by decide)
    · exact hrefused ⟨by simp [hnone], by simp [hnone]⟩
    · cases hout
      obtain ⟨f, hfails⟩ | ⟨after, hafter, hfails⟩ := hfolder
      · cases makeFolders_smallProject.symm.trans hfails
      · cases makeFolders_smallProject.symm.trans hafter
        rw [Disk.write, locate_report_smallProject] at hfails
        exact not_fails_ok _ hfails
    · rw [hid] at hbytes
      simp only [Option.all_some, decide_eq_true_eq] at hbytes
      exact hhalf hbytes

omit [Platform] in
/-- A check that comes to its end adds the folder and the report in it. -/
theorem disk_of_run {pattern : Text} {stamp : Stamp} {outcome : Outcome}
    (h : @run Platform.standIn smallProject ["p"] (checkInto pattern) stamp = .ok outcome) :
    ∃ data, outcome.disk = withReport data := by
  let _ := Platform.standIn
  obtain ⟨_, _, -, -, -, -, -, hwritten⟩ := exists_of_run rfl h
  obtain ⟨middle, hfolders, -, hwrite⟩ := exists_of_writeReport hwritten
  cases makeFolders_smallProject.symm.trans hfolders
  rw [Disk.write, locate_report_smallProject] at hwrite
  exact ⟨_, (Except.ok.inj hwrite).symm⟩

omit [Platform] in
/-- The report is passed over where all resource files are looked for. -/
theorem run_again_smallProject :
    smallProject.IsPlain ∧ smallProject.resolve ⟨"/", ["p"]⟩ = .ok ["p"] ∧
      ∃ outcome found,
        @run Platform.standIn smallProject ["p"] (checkInto "**/*.json") ⟨"id", "time"⟩ = .ok outcome ∧
        found.resources = [[Text.ofString "p", "en.json"]] ∧
        @Repeats Platform.standIn outcome.disk ["p"] (checkInto "**/*.json") ⟨"id", "time"⟩ found
          outcome := by
  let _ := Platform.standIn
  have hresolve : smallProject.resolve ⟨"/", ["p"]⟩ = .ok ["p"] := by decide
  obtain ⟨outcome, hrun⟩ := @runs_smallProject "**/*.json" (by decide +kernel)
  obtain ⟨-, -, found, hfound, -, hagain⟩ := run_again isPlain_smallProject hresolve
    (by decide) (show ∀ pattern ∈ [Text.ofString "**/*.json"], _ by decide) rfl rfl hrun
  obtain ⟨data, hdisk⟩ := disk_of_run hrun
  have hresources : Discovery.resources outcome.disk ["p"] ["**/*.json"] [] = .ok [["p", "en.json"]] := by
    rw [hdisk]
    with_unfolding_all rfl
  have hsources : Discovery.sources outcome.disk ["p"] sourceExtensions [] = .ok [] := by
    rw [hdisk]
    with_unfolding_all rfl
  have hexists : outcome.disk.pathExists (Place.path ["p"]) = .ok true := by
    rw [hdisk]
    with_unfolding_all rfl
  obtain ⟨_, _, -, -, -, -, -, hwritten⟩ := exists_of_run rfl hrun
  obtain ⟨plain', -⟩ := writeReport_grows isPlain_smallProject hwritten
  obtain ⟨-, hfiles, -⟩ := exists_of_findings hfound
  have hfree : ¬ MeetsObstacle outcome.disk ["p"] (checkInto "**/*.json").settings := by
    rw [meetsObstacle_iff plain' (by decide) hexists hfiles, not_or]
    exact ⟨not_fails_iff.mpr ⟨_, hresources⟩, not_fails_iff.mpr ⟨_, hsources⟩⟩
  have hrepeated := (hagain ⟨"id", "time"⟩).1.mpr hfree
  obtain ⟨-, hagainFiles, -⟩ := exists_of_findings hrepeated.findings
  exact ⟨isPlain_smallProject, hresolve, outcome, found, hrun,
    Except.ok.inj (hagainFiles.symm.trans hresources), hrepeated⟩

/-- A name in the folder of the report that no disk takes. -/
def tooLongPattern : Text :=
  Text.ofList ([Point.char '/'].intercalate [(Text.ofString "out").toList, List.replicate 64 (.char '🔑')])

omit [Platform] in
/-- The first check makes the folder in which the second one fails to look for the name. -/
theorem run_again_fails_tooLongPattern :
    smallProject.IsPlain ∧ Text.ofString ".." ∉ (Path.ofString tooLongPattern).names ∧
      ∃ outcome,
        @run Platform.standIn smallProject ["p"] (checkInto tooLongPattern) ⟨"id", "time"⟩ = .ok outcome ∧
        Fails (@run Platform.standIn outcome.disk ["p"] (checkInto tooLongPattern) ⟨"id", "time"⟩) := by
  let _ := Platform.standIn
  obtain ⟨outcome, hrun⟩ := @runs_smallProject tooLongPattern (by decide +kernel)
  obtain ⟨data, hdisk⟩ := disk_of_run hrun
  have hsearch : Fails (Discovery.resources (withReport data) ["p"] [tooLongPattern] []) :=
    ⟨_, by with_unfolding_all rfl⟩
  refine ⟨isPlain_smallProject, by decide, outcome, hrun, ?_⟩
  exact run_fails_of_findings (findings_fails_of_search (Or.inl (hdisk ▸ hsearch)))

end Check
end LocaleKeys
