import LocaleKeys.Disk.Resolve
import LocaleKeys.Text.Lines
import LocaleKeys.Text.Utf8

/-!
Reading and writing files by their paths. Text is read with all line ends made one.
-/

namespace LocaleKeys.Disk

def read (disk : Disk) (path : Path) : Except Failure (List UInt8) :=
  match disk.look path with
  | .ok (_, .file data) => .ok data
  | .ok _ => .error ⟨.isFolder, path⟩
  | .error fault => .error ⟨fault, path⟩

def write (disk : Disk) (path : Path) (data : List UInt8) : Except Failure Disk :=
  match disk.locate path with
  | .error fault => .error ⟨fault, path⟩
  | .ok place =>
    match disk.get? place with
    | some .folder => .error ⟨.isFolder, path⟩
    | _ => .ok (disk.put place (.file data))

/-- Why a text cannot be read. -/
inductive ReadError
  | failure (f : Failure)
  | encoding (f : Text.Utf8.Fault)
  deriving DecidableEq, Repr

def ReadError.message : ReadError → Text
  | .failure f => f.message
  | .encoding f => f.message

/-- The text of the file at a path, its bytes being read by `decode`. -/
def readWith (decode : List UInt8 → Except Text.Utf8.Fault (List Point)) (disk : Disk)
    (path : Path) : Except ReadError (List Point) :=
  match disk.read path with
  | .error f => .error (.failure f)
  | .ok data =>
    match decode data with
    | .error f => .error (.encoding f)
    | .ok text => .ok (Text.unifyLineEnds text)

def readText (disk : Disk) (path : Path) : Except ReadError (List Point) :=
  disk.readWith Text.Utf8.decode path

/-- The text of a file that may start with a byte order mark. -/
def readMarked (disk : Disk) (path : Path) : Except ReadError (List Point) :=
  disk.readWith Text.Utf8.decodeMarked path

def readLenient (disk : Disk) (path : Path) : Except ReadError (List Point) :=
  disk.readWith (fun data => .ok (Text.Utf8.decodeLenient data)) path

/-- Why a text cannot be written. -/
inductive WriteError
  | failure (f : Failure)
  | unwritable (f : Text.Utf8.Unwritable)
  deriving DecidableEq, Repr

def WriteError.message : WriteError → Text
  | .failure f => f.message
  | .unwritable f => f.message

/-- Writes a text. The file is emptied first, and stays so if the text has no bytes. -/
def writeText (disk : Disk) (path : Path) (text : List Point) : Disk × Except WriteError Unit :=
  let data := Text.Utf8.write text
  match disk.write path (data.toOption.getD []) with
  | .error f => (disk, .error (.failure f))
  | .ok disk => (disk, (data.map fun _ => ()).mapError .unwritable)

/-- The place at which a path puts something new. All but its last name has to be there. -/
def freePlace (disk : Disk) (path : Path) : Except Fault Place :=
  match pathFault? path, path.names.getLast? with
  | some fault, _ => .error fault
  | none, none => .error .alreadyThere
  | none, some name =>
    match disk.look path.parent with
    | .error fault => .error fault
    | .ok (_, .file _) => .error .notFolder
    | .ok (folder, _) =>
      if maxNameBytes < byteSize name then .error .nameTooLong
      else if name = ".." || (disk.get? (folder ++ [name])).isSome then .error .alreadyThere
      else .ok (folder ++ [name])

def makeFolder (disk : Disk) (path : Path) : Except Fault Disk :=
  (disk.freePlace path).map fun place => disk.put place .folder

/-- What a failed attempt to make a folder comes to: nothing, if there is one already. -/
def settleFolder (disk : Disk) (path : Path) (fault : Fault) : Except Obstacle Disk :=
  match disk.isFolder path with
  | .ok true => .ok disk
  | .ok false => .error (.access ⟨fault, path⟩)
  | .error f => .error (.access f)

/-- Makes a folder and the ones above it, as far as they are missing, `room` of them at most. The names
come last first. -/
def makeFoldersAt (disk : Disk) (root : Text) :
    (room : Nat) → List Text → Except Obstacle Disk
  | _, [] => .ok disk
  | 0, _ :: _ => .error .tooDeep
  | room + 1, name :: above =>
    let path : Path := ⟨root, (name :: above).reverse⟩
    match disk.makeFolder path with
    | .ok disk => .ok disk
    | .error .missing =>
      match disk.makeFoldersAt root room above with
      | .error o => .error o
      | .ok disk =>
        match disk.makeFolder path with
        | .ok disk => .ok disk
        | .error fault => disk.settleFolder path fault
    | .error fault => disk.settleFolder path fault

/-- Makes the folder of a path and the ones above it, as far as they are missing. -/
def makeFolders (disk : Disk) (room : Nat) (path : Path) : Except Obstacle Disk :=
  disk.makeFoldersAt path.root room path.names.reverse

/-- Why a file cannot be copied. -/
inductive CopyError
  | failure (f : Failure)
  | sameFile (source target : Path) (into : Bool)
  deriving DecidableEq, Repr

/-- The message of an error. A target inside a folder is shown as a text. -/
def CopyError.message : CopyError → Text
  | .failure f => f.message
  | .sameFile source target into =>
    let shown := Text.quote target.text
    "PosixPath(" ++ Text.quote source.text ++ ") and "
      ++ (if into then shown else "PosixPath(" ++ shown ++ ")") ++ " are the same file"

/-- Where a copy of a file goes: to the target, or into it if it is a folder. -/
def copyTarget (disk : Disk) (source target : Path) : Path × Bool :=
  match disk.isFolder target with
  | .ok true => ({ target with names := target.names ++ [source.name] }, true)
  | _ => (target, false)

def copy (disk : Disk) (source target : Path) : Except CopyError Disk :=
  let (target, into) := disk.copyTarget source target
  match disk.read source with
  | .error f => .error (.failure f)
  | .ok data =>
    if (disk.locate source).toOption = (disk.locate target).toOption then
      .error (.sameFile source target into)
    else
      match disk.write target data with
      | .ok disk => .ok disk
      | .error f => .error (.failure f)

end LocaleKeys.Disk
