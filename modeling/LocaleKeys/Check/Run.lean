import LocaleKeys.Canonical
import LocaleKeys.Check.Report
import LocaleKeys.Discovery
import LocaleKeys.Engine
import LocaleKeys.Resource.Read
import LocaleKeys.Schema.Report
import LocaleKeys.Source.Parser

/-!
A check of a project: the catalog of its resource files is compared with the usages in its source
files, and the outcome becomes a report, which may be written to a folder.
-/

namespace LocaleKeys.Check

/-- What a check is to do. A reproducible check draws neither its id nor its time. The two source
paths at the end are those at which a check is called off and of which a scan fails. -/
structure Request where
  settings : Settings := {}
  reproducible : Bool := true
  runId : Text := ""
  createdAt : Text := ""
  out : Option Path := none
  cancelled : Bool := false
  cancelAt : Option Text := none
  failAt : Option Text := none

/-- What is drawn for a run that is not reproducible. -/
structure Stamp where
  id : Text
  time : Text

/-- Why a check gives no report. -/
inductive Error
  | discovery (e : Discovery.DiscoveryError)
  | cancelled
  | unwritable (f : Text.Utf8.Unwritable)
  | invalid (e : ValidationError)
  | folders (o : Disk.Obstacle)
  | writing (e : Disk.WriteError)

def Error.message : Error → Text
  | .discovery e => e.message
  | .cancelled => EngineError.cancelled.message
  | .unwritable f => f.message
  | .invalid (.refused r) => r.message
  | .invalid (.raised e) => e.message
  | .folders o => o.message
  | .writing e => e.message

def sourceExtensions : List Text := [".py"]

variable [Platform]

/-- The usages in one source file. A file that cannot be scanned has none. -/
def scanFile (disk : Disk) (request : Request) (root place : Place) : List Usage :=
  let seen := (root.seenFrom place).text
  if request.failAt = some seen then []
  else
    match disk.readLenient place.path with
    | .error _ => []
    | .ok text => (Source.scan Platform.charNames request.settings seen text).toOption.getD []

/-- Whether a check is called off when a source file is about to be scanned. -/
def callsOff (request : Request) (root place : Place) : Bool :=
  request.cancelAt = some (root.seenFrom place).text

/-- Takes the usages of source files in order, up to a file that calls off the check. -/
def observeFiles (disk : Disk) (request : Request) (root : Place) (engine : Engine)
    (sources : List Place) : Except Error (Engine × Nat × List Diagnostic) :=
  let scanned := sources.takeWhile (!callsOff request root ·)
  let usages := scanned.flatMap (scanFile disk request root)
  match engine.observeAll usages with
  | (_, .error f) => .error (.unwritable f)
  | (engine, .ok staged) =>
    if scanned.length < sources.length then .error .cancelled
    else .ok (engine, usages.length, staged)

/-- What a check has found: the catalog, the files, the number of usages, and the diagnostics in the
order in which they were made. -/
structure Findings where
  catalog : Catalog
  resources : List Place
  sources : List Place
  usageCount : Nat
  diagnostics : List Diagnostic

def findings (disk : Disk) (root : Place) (request : Request) : Except Error Findings :=
  let settings := request.settings
  match Discovery.resources disk root settings.jsonPatterns settings.exclude with
  | .error e => .error (.discovery e)
  | .ok resources =>
    match ResourceFile.readAll disk root.path (resources.map Place.path) with
    | .error e => .error (.discovery (.unresolved e))
    | .ok files =>
      if request.cancelled then .error .cancelled
      else
        let catalog := Catalog.build settings files
        match Discovery.sources disk root sourceExtensions settings.exclude with
        | .error e => .error (.discovery e)
        | .ok sources =>
          match observeFiles disk request root (Engine.start catalog settings) sources with
          | .error e => .error e
          | .ok (engine, usageCount, staged) =>
            match engine.endOfPass with
            | .error f => .error (.unwritable f)
            | .ok more =>
              .ok { catalog, resources, sources, usageCount, diagnostics := staged ++ more }

/-- The id of a run: the one asked for, else the one of its files, else the one that is drawn. -/
def runIdOf (disk : Disk) (root : Place) (request : Request) (stamp : Stamp)
    (found : Findings) : Except Error Text :=
  if request.runId ≠ "" then .ok request.runId
  else if request.reproducible then
    match RunId.ofFiles disk root.path ((found.resources ++ found.sources).map Place.path) with
    | .ok id => .ok id
    | .error e => .error (.discovery (.unresolved e))
  else .ok stamp.id

def createdAt (request : Request) (stamp : Stamp) : Text :=
  if request.createdAt ≠ "" then request.createdAt
  else if request.reproducible then RunId.fixedTime
  else stamp.time

/-- The report of what a check has found. A reproducible one shows the root by its name alone. -/
def reportOf (root : Place) (request : Request) (stamp : Stamp) (runId : Text)
    (found : Findings) : Report where
  runId := runId
  createdAt := createdAt request stamp
  root := if request.reproducible then root.path.name else root.path.text
  settings := request.settings
  catalog := found.catalog
  usageCount := found.usageCount
  sourceFiles := found.sources.length
  diagnostics := Diagnostic.assignIds found.diagnostics

def reportPath (folder : Path) : Path :=
  { folder with names := folder.names ++ [Discovery.reportName] }

def reportText (request : Request) (report : Report) : List Point :=
  report.toJson.canonical request.reproducible (.lines 2)

/-- Writes a report to a folder, which is made if it is missing. -/
def writeReport (disk : Disk) (folder : Path) (request : Request) (report : Report) :
    Except Error Disk :=
  match disk.makeFolders Platform.makingRoom folder with
  | .error o => .error (.folders o)
  | .ok disk =>
    match disk.writeText (reportPath folder) (reportText request report) with
    | (_, .error e) => .error (.writing e)
    | (disk, .ok ()) => .ok disk

/-- The outcome of a check. The diagnostics stand in the order in which they were made. -/
structure Outcome where
  disk : Disk
  report : Report
  streamed : List Diagnostic

def run (disk : Disk) (root : Place) (request : Request) (stamp : Stamp) : Except Error Outcome :=
  match findings disk root request with
  | .error e => .error e
  | .ok found =>
    match runIdOf disk root request stamp found with
    | .error e => .error e
    | .ok runId =>
      let report := reportOf root request stamp runId found
      match Platform.validate Schema.report.toJson report.toJson with
      | .error e => .error (.invalid e)
      | .ok () =>
        match request.out with
        | none => .ok ⟨disk, report, found.diagnostics⟩
        | some folder =>
          match writeReport disk folder request report with
          | .error e => .error e
          | .ok disk => .ok ⟨disk, report, found.diagnostics⟩

end LocaleKeys.Check
