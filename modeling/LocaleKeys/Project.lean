import LocaleKeys.Check.Run
import LocaleKeys.Resource.Apply
import LocaleKeys.Settings.File

/-!
What can be asked of a project on a disk: a check, keys like another one, and edits that add a key.
Settings that are not given are those of the project's own file.
-/

namespace LocaleKeys

namespace Project

/-- What is asked of a project. -/
inductive Task
  | check
  | suggest
  | create
  | complete
  deriving DecidableEq, Repr

def Task.name : Task → Text
  | .check => "check_project"
  | .suggest => "suggest_keys"
  | .create => "create_missing_key"
  | .complete => "fill_partial_key"

/-- Why a task cannot be done. -/
inductive Error
  | rootMissing (task : Task) (root : Path)
  | unresolved (e : Disk.Unresolved)
  | probe (f : Disk.Failure)
  | settings (e : Settings.FileError)
  | check (e : Check.Error)
  | patch (e : Patch.Error)
  | fix (stop : FixStop)

def Error.message : Error → Text
  | .rootMissing task root => task.name ++ ": root does not exist: " ++ root.text
  | .unresolved e => e.message
  | .probe f => f.message
  | .settings e => e.message
  | .check e => e.message
  | .patch e => e.message
  | .fix stop => stop.message

def rootOf (disk : Disk) (task : Task) (root : Path) : Except Error Place :=
  match disk.resolve root with
  | .error e => .error (.unresolved e)
  | .ok place =>
    match disk.pathExists place.path with
    | .error f => .error (.probe f)
    | .ok true => .ok place
    | .ok false => .error (.rootMissing task place.path)

variable [Platform]

/-- The settings that are given, else those of the project. -/
def settingsOf (disk : Disk) (root : Place) : Option Settings → Except Error Settings
  | some settings => .ok settings
  | none =>
    match Settings.discover disk root.path with
    | .ok settings => .ok settings
    | .error e => .error (.settings e)

/-- A project that has been read. -/
structure Loaded where
  settings : Settings
  resources : List ResourceFile
  catalog : Catalog

def load (disk : Disk) (task : Task) (root : Path) (settings : Option Settings) :
    Except Error Loaded :=
  match rootOf disk task root with
  | .error e => .error e
  | .ok root =>
    match settingsOf disk root settings with
    | .error e => .error e
    | .ok settings =>
      match Discovery.resources disk root settings.jsonPatterns settings.exclude with
      | .error e => .error (.check (.discovery e))
      | .ok places =>
        match ResourceFile.readAll disk root.path (places.map Place.path) with
        | .error e => .error (.check (.discovery (.unresolved e)))
        | .ok resources => .ok ⟨settings, resources, Catalog.build settings resources⟩

def check (disk : Disk) (root : Path) (settings : Option Settings) (request : Check.Request)
    (stamp : Check.Stamp) : Except Error Check.Outcome :=
  match rootOf disk .check root with
  | .error e => .error e
  | .ok root =>
    match settingsOf disk root settings with
    | .error e => .error e
    | .ok settings =>
      match Check.run disk root { request with settings } stamp with
      | .ok outcome => .ok outcome
      | .error e => .error (.check e)

/-- The keys of a catalog that are like a key. If there are none, its first keys may stand in, with
no score. -/
def candidates (project : Loaded) (key : Text) (top : Int) (fallback : Bool) :
    List Suggest.Candidate :=
  let keys := project.catalog.keys
  let found := Suggest.suggest key keys project.settings.caseSensitive top
  if found.isEmpty && fallback then
    (Suggest.fallback keys Suggest.defaultFallback).map fun key => ⟨key, 0⟩
  else found

def suggest (disk : Disk) (root : Path) (settings : Option Settings) (key : Text)
    (top : Int := Suggest.defaultTop) (fallback : Bool := true) :
    Except Error (List Suggest.Candidate) :=
  (load disk .suggest root settings).map fun project => candidates project key top fallback

/-- The outcome of edits: the disk, the fixes, and what has become of each. -/
structure Edited where
  disk : Disk
  fixes : List Fix
  results : List FixResult

def applied (disk : Disk) (mode : Fix.Mode) (fixes : List Fix) : Except FixStop Edited :=
  match Fix.applyAll mode disk fixes with
  | (_, .error stop) => .error stop
  | (disk, .ok results) => .ok ⟨disk, fixes, results⟩

def appliedPlan (disk : Disk) (mode : Fix.Mode) :
    Except Patch.Error (List Fix) → Except Error Edited
  | .error e => .error (.patch e)
  | .ok fixes =>
    match applied disk mode fixes with
    | .error stop => .error (.fix stop)
    | .ok edited => .ok edited

/-- Adds a key to the resource files of some cultures, or to all of them. -/
def createKey (disk : Disk) (root : Path) (settings : Option Settings) (key : Text)
    (cultures : List Text) (value : Json) (mode : Fix.Mode) : Except Error Edited :=
  match load disk .create root settings with
  | .error e => .error e
  | .ok project =>
    appliedPlan disk mode
      (Fix.plan project.settings.cultures cultures key value project.resources)

/-- The fixes that add a key to the cultures that lack it; a placeholder names one that has it. -/
def completion (project : Loaded) (key : Text) : Except Patch.Error (List Fix) :=
  let explicit := project.settings.cultures
  let targets := Fix.partialTargets project.catalog key explicit
  if targets.isEmpty then .ok []
  else
    Fix.plan explicit targets key (.str (Fix.placeholderFor project.catalog key)) project.resources
      Kind.partialMissing.rule.id

def completeKey (disk : Disk) (root : Path) (settings : Option Settings) (key : Text)
    (mode : Fix.Mode) : Except Error Edited :=
  match load disk .complete root settings with
  | .error e => .error e
  | .ok project => appliedPlan disk mode (completion project key)

end Project
end LocaleKeys
