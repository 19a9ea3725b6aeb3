import LocaleKeys.Disk.Resolve
import LocaleKeys.Disk.Wildcard
import LocaleKeys.Platform
import LocaleKeys.Text.Search

/-!
Finding paths below a folder by patterns. A pattern is a list of steps: a name to be there, a pattern
for names, or two stars for the folder itself and all folders below it that no link leads to.
-/

namespace LocaleKeys

namespace Glob

/-- A step of a pattern. -/
inductive Step
  | name (s : Text)
  | wildcard (s : Text)
  | anyFolders
  deriving DecidableEq, Repr

/-- A pattern: its steps, and whether only folders count at the end. -/
structure Pattern where
  steps : List Step
  foldersOnly : Bool := false
  deriving DecidableEq, Repr

/-- Why a text is no pattern. One without steps may still ask for a folder, by a final slash. -/
inductive PatternError
  | empty
  | absolute
  | noSteps
  | onlySlash
  | partialStars
  | tooManySteps
  deriving DecidableEq, Repr

/-- The wording of an error. Too many steps have none. -/
def PatternError.message : PatternError → Text
  | .empty => "Unacceptable pattern: ''"
  | .absolute => "Non-relative patterns are unsupported"
  | .noSteps => "tuple index out of range"
  | .onlySlash => "'_TerminatingSelector' object has no attribute 'select_from'"
  | .partialStars => "Invalid pattern: '**' can only be an entire path component"
  | .tooManySteps => ""

def step (name : Text) : Except PatternError Step :=
  if name = "**" then .ok .anyFolders
  else if Text.contains ['*', '*'] name.toList then .error .partialStars
  else if Wildcard.isPattern name then .ok (.wildcard name)
  else .ok (.name name)

/-- The most steps of a pattern, a final slash being one more. -/
def maxSteps : Nat := 195

/-- The steps of names, of which there is room for so many. -/
def steps (foldersOnly : Bool) : (room : Nat) → List Text → Except PatternError (List Step)
  | room, [] => if foldersOnly && room = 0 then .error .tooManySteps else .ok []
  | 0, _ :: _ => .error .tooManySteps
  | room + 1, name :: rest =>
    match step name with
    | .error e => .error e
    | .ok s =>
      match steps foldersOnly room rest with
      | .error e => .error e
      | .ok more => .ok (s :: more)

def parse (text : Text) : Except PatternError Pattern :=
  if text = "" then .error .empty
  else
    let path := Path.ofString text
    if path.isAbsolute then .error .absolute
    else
      let foldersOnly := text.toList.getLast? = some (Point.char '/')
      if path.names.isEmpty then .error (if foldersOnly then .onlySlash else .noSteps)
      else (steps foldersOnly maxSteps path.names).map fun steps => ⟨steps, foldersOnly⟩

def child (path : Path) (name : Text) : Path :=
  { path with names := path.names ++ [name] }

/-- What is in the folder that a path leads to. -/
def entries (disk : Disk) (path : Path) : Except Disk.Obstacle (List (Text × Node)) :=
  match disk.look path with
  | .ok (place, .folder) => .ok (disk.children place)
  | .ok _ => .error (.access ⟨.notFolder, path⟩)
  | .error fault => .error (.access ⟨fault, path⟩)

/-- All that is found from some paths, or the first obstacle. -/
def gather (find : Path → Except Disk.Obstacle (List Path)) :
    List Path → Except Disk.Obstacle (List Path)
  | [] => .ok []
  | path :: rest =>
    match find path with
    | .error o => .error o
    | .ok found =>
      match gather find rest with
      | .error o => .error o
      | .ok more => .ok (found ++ more)

/-- The paths of a folder and of all folders below it that no link leads to, `room` levels at most. -/
def foldersFrom (disk : Disk) : (room : Nat) → Path → Except Disk.Obstacle (List Path)
  | 0, _ => .error .tooDeep
  | room + 1, path =>
    match entries disk path with
    | .error o => .error o
    | .ok found =>
      let folders := (found.filter fun entry => Disk.isFolderNode entry.2).map (child path ·.1)
      (gather (foldersFrom disk room) folders).map (path :: ·)

/-- The path itself, if it passes a test. -/
def passing (test : Path → Except Disk.Failure Bool) (path : Path) :
    Except Disk.Obstacle (List Path) :=
  match test path with
  | .error f => .error (.access f)
  | .ok passes => .ok (if passes then [path] else [])

/-- Whether what is in a folder is a folder or a link to one. -/
def leadsToFolder (disk : Disk) (path : Path) : Node → Except Disk.Failure Bool
  | .folder => .ok true
  | .file _ => .ok false
  | .link _ => disk.isFolder path

/-- The names among those in a folder that lead to folders. -/
def folderNames (disk : Disk) (path : Path) :
    List (Text × Node) → Except Disk.Obstacle (List Text)
  | [] => .ok []
  | (name, node) :: rest =>
    match leadsToFolder disk (child path name) node with
    | .error f => .error (.access f)
    | .ok passes =>
      match folderNames disk path rest with
      | .error o => .error o
      | .ok more => .ok (if passes then name :: more else more)

/-- Where one step leads from a folder; all but a last step lead to folders only. -/
def follow (disk : Disk) (room : Nat) (last : Bool) (path : Path) :
    Step → Except Disk.Obstacle (List Path)
  | .name s => passing (if last then disk.pathExists else disk.isFolder) (child path s)
  | .anyFolders => foldersFrom disk room path
  | .wildcard s =>
    match entries disk path with
    | .error o => .error o
    | .ok found =>
      match if last then .ok (found.map (·.1)) else folderNames disk path found with
      | .error o => .error o
      | .ok names => .ok ((names.filter (Wildcard.fits s)).map (child path))

/-- Goes on by the steps of a pattern, each of which takes some of the room. -/
def walk (disk : Disk) (foldersOnly : Bool) :
    (room : Nat) → List Step → Path → Except Disk.Obstacle (List Path)
  | _, [], path => .ok [path]
  | 0, _ :: _, _ => .error .tooDeep
  | room + 1, step :: rest, path =>
    match follow disk room (rest.isEmpty && !foldersOnly) path step with
    | .error o => .error o
    | .ok found => gather (walk disk foldersOnly room rest) found

/-- The paths that a pattern finds from a path, if that leads to a folder. -/
def find [Platform] (disk : Disk) (pattern : Pattern) (path : Path) :
    Except Disk.Obstacle (List Path) :=
  match disk.isFolder path with
  | .error f => .error (.access f)
  | .ok false => .ok []
  | .ok true => walk disk pattern.foldersOnly Platform.folderRoom pattern.steps path

end Glob
end LocaleKeys
