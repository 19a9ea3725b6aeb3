import LocaleKeys.Disk.Glob
import LocaleKeys.Text.Lower

/-!
Finding the resource files and the source files of a project. Folders that hold tools and products
are passed over.
-/

namespace LocaleKeys.Discovery

def defaultExcludes : List Text := [
  ".git", ".github", ".venv", "venv", "__pycache__", "node_modules", "dist", "build", "bin", "obj",
  ".tox", ".mypy_cache", ".pytest_cache", ".ruff_cache"]

/-- The name of the file that a report is written to. It is no resource. -/
def reportName : Text := "check_result.json"

/-- Why files cannot be looked for. -/
inductive DiscoveryError
  | pattern (e : Glob.PatternError)
  | obstacle (o : Disk.Obstacle)
  | unresolved (e : Disk.Unresolved)
  deriving DecidableEq, Repr

def DiscoveryError.message : DiscoveryError → Text
  | .pattern e => e.message
  | .obstacle o => o.message
  | .unresolved e => e.message

/-- Whether one of the folders between the root and a path is passed over. -/
def isExcluded (exclude : List Text) (root : Place) (path : Path) : Bool :=
  (path.names.drop root.length).dropLast.any fun name =>
    defaultExcludes.contains name || exclude.contains name

/-- Whether a path may be one of a resource by its name and its folders. -/
def mayBeResource (exclude : List Text) (root : Place) (path : Path) : Bool :=
  Text.lowercased path.suffix = ".json" && path.name ≠ reportName && !isExcluded exclude root path

/-- The places of the files among paths, links followed. -/
def filePlaces (disk : Disk) : List Path → Except DiscoveryError (List Place)
  | [] => .ok []
  | path :: rest =>
    match disk.isFile path with
    | .error f => .error (.obstacle (.access f))
    | .ok false => filePlaces disk rest
    | .ok true =>
      match disk.resolve path with
      | .error e => .error (.unresolved e)
      | .ok place =>
        match filePlaces disk rest with
        | .error e => .error e
        | .ok more => .ok (place :: more)

variable [Platform]

def resourcesOf (disk : Disk) (root : Place) (exclude : List Text) (pattern : Text) :
    Except DiscoveryError (List Place) :=
  match Glob.parse pattern with
  | .error e => .error (.pattern e)
  | .ok pattern =>
    match Glob.find disk pattern root.path with
    | .error o => .error (.obstacle o)
    | .ok paths => filePlaces disk (paths.filter (mayBeResource exclude root))

/-- The resource files that patterns find, in the order of the patterns. -/
def resourcesOfAll (disk : Disk) (root : Place) (exclude : List Text) :
    List Text → Except DiscoveryError (List Place)
  | [] => .ok []
  | pattern :: rest =>
    match resourcesOf disk root exclude pattern with
    | .error e => .error e
    | .ok places =>
      match resourcesOfAll disk root exclude rest with
      | .error e => .error e
      | .ok more => .ok (places ++ more)

/-- The resource files below a root, in ascending order. -/
def resources (disk : Disk) (root : Place) (patterns exclude : List Text) :
    Except DiscoveryError (List Place) :=
  (resourcesOfAll disk root exclude patterns).map Place.sorted

/-- The most bytes of a source file that is looked at. -/
def maxSourceBytes : Int := 2000000

/-- Whether what is found at a place is a source file. One whose path is too long is passed over. -/
def isSource (disk : Disk) (root : Place) (extensions exclude : List Text) (maxBytes : Int)
    (place : Place) : Bool :=
  match Disk.pathFault? place.path, disk.get? place with
  | none, some (.file data) =>
    extensions.contains (Text.lowercased place.path.suffix) &&
      !isExcluded exclude root place.path && decide ((data.length : Int) ≤ maxBytes)
  | _, _ => false

/-- The pattern of all that lies below a folder. -/
def anything : List Glob.Step := [.anyFolders, .wildcard "*"]

/-- The source files below a root, in ascending order. A root that is a file counts by its ending
alone. -/
def sources (disk : Disk) (root : Place) (extensions exclude : List Text)
    (maxBytes : Int := maxSourceBytes) : Except DiscoveryError (List Place) :=
  match disk.isFile root.path with
  | .error f => .error (.obstacle (.access f))
  | .ok true =>
    .ok (if extensions.contains (Text.lowercased root.path.suffix) then [root] else [])
  | .ok false =>
    match Glob.find disk ⟨anything, false⟩ root.path with
    | .error o => .error (.obstacle o)
    | .ok paths =>
      let extensions := extensions.map Text.lowercased
      .ok (Place.sorted ((paths.map (·.names)).filter
        (isSource disk root extensions exclude maxBytes)))

end LocaleKeys.Discovery
