import LocaleKeys.Disk.Basic

/-!
From paths to places. Locating follows links one name after the other and fails where a name on the
way is missing; resolving goes on by the names alone and fails only at links that lead to themselves.
-/

namespace LocaleKeys.Disk

def maxLinks : Nat := 40

def maxNameBytes : Nat := 255

def maxPathBytes : Nat := 4095

def byteSize (name : Text) : Nat :=
  Text.Utf8.bytesInName name.toList

def pathFault? (path : Path) : Option Fault :=
  match Text.Utf8.unnameable? path.text.toList with
  | some f => some (.noBytes f)
  | none =>
    if path.hasNull then some .nullCharacter
    else if maxPathBytes < byteSize path.text then some .nameTooLong
    else none

/-- Goes down from a folder by names; `follow` goes on behind a link. The last name may be missing,
so that something can be put there. -/
def walkFrom (disk : Disk) (follow : Place → List Text → Except Fault Place) (folder : Place) :
    List Text → Except Fault Place
  | [] => .ok folder
  | name :: rest =>
    if name = ".." then walkFrom disk follow folder.dropLast rest
    else if maxNameBytes < byteSize name then .error .nameTooLong
    else
      let place := folder ++ [name]
      match disk.get? place with
      | none => if rest.isEmpty then .ok place else .error .missing
      | some (.file _) => if rest.isEmpty then .ok place else .error .notFolder
      | some .folder => walkFrom disk follow place rest
      | some (.link target) =>
        follow (if target.isAbsolute then [] else folder) (target.names ++ rest)

/-- Goes down from a folder by names and at most as many links. -/
def walk (disk : Disk) : (links : Nat) → Place → List Text → Except Fault Place
  | 0 => walkFrom disk fun _ _ => .error .linkLoop
  | links + 1 => walkFrom disk (walk disk links)

/-- The place that a path leads to, where something is or can be put. -/
def locate (disk : Disk) (path : Path) : Except Fault Place :=
  match pathFault? path with
  | some fault => .error fault
  | none => disk.walk maxLinks (disk.startOf path) path.names

def look (disk : Disk) (path : Path) : Except Fault (Place × Node) :=
  match disk.locate path with
  | .error fault => .error fault
  | .ok place =>
    match disk.get? place with
    | some node => .ok (place, node)
    | none => .error .missing

def Fault.isAbsence : Fault → Bool
  | .missing | .notFolder | .linkLoop | .nullCharacter | .noBytes _ => true
  | .alreadyThere | .isFolder | .nameTooLong => false

/-- Whether what a path leads to passes a test; a failure is one that does not mean absence. -/
def test (disk : Disk) (passes : Node → Bool) (path : Path) : Except Failure Bool :=
  match disk.look path with
  | .ok (_, node) => .ok (passes node)
  | .error fault => if fault.isAbsence then .ok false else .error ⟨fault, path⟩

def isFileNode : Node → Bool
  | .file _ => true
  | _ => false

def isFolderNode : Node → Bool
  | .folder => true
  | _ => false

def pathExists (disk : Disk) (path : Path) : Except Failure Bool :=
  disk.test (fun _ => true) path

def isFile (disk : Disk) (path : Path) : Except Failure Bool :=
  disk.test isFileNode path

def isFolder (disk : Disk) (path : Path) : Except Failure Bool :=
  disk.test isFolderNode path

/-- Where names lead, as far as links tell: the place, and whether no link led to itself. -/
structure Resolved where
  place : Place
  settled : Bool := true
  deriving DecidableEq, Repr

/-- Leaves out the names that a later step up takes back. -/
def withoutSteps : (place : Place) → List Text → Place
  | place, [] => place
  | place, name :: rest =>
    if name = ".." then withoutSteps place.dropLast rest else withoutSteps (place ++ [name]) rest

/-- Goes on by names, whether they are there or not; `follow` takes the place of a link and its
target. A link that is being followed already ends the way: the rest stays as it is. -/
def settleFrom (disk : Disk) (following : List Place) (follow : Place → Path → Resolved)
    (place : Place) : List Text → Resolved
  | [] => ⟨place, true⟩
  | name :: rest =>
    if name = ".." then settleFrom disk following follow place.dropLast rest
    else
      let next := place ++ [name]
      match disk.get? next with
      | some (.link target) =>
        if following.contains next then ⟨withoutSteps next rest, false⟩
        else
          let through := follow next target
          if through.settled then settleFrom disk following follow through.place rest
          else ⟨withoutSteps through.place rest, false⟩
      | _ => settleFrom disk following follow next rest

/-- Goes on by names while the links in `following` are being followed; `depth` bounds their number. -/
def settle (disk : Disk) : (depth : Nat) → (following : List Place) → Place → List Text → Resolved
  | 0, following => settleFrom disk following fun link _ => ⟨link, false⟩
  | depth + 1, following => settleFrom disk following fun link target =>
    settle disk depth (link :: following) (if target.isAbsolute then [] else link.dropLast)
      target.names

/-- Why a path has no place. -/
inductive Unresolved
  | loop (path : Path)
  | nullCharacter
  | noBytes (f : Text.Utf8.Unwritable)
  deriving DecidableEq, Repr

def Unresolved.message : Unresolved → Text
  | .loop path => "Symlink loop from " ++ Text.quote path.text
  | .nullCharacter => nullMessage
  | .noBytes f => f.message

/-- Where the first name of a path that is no file name leads; names before it are followed. -/
def unnameablePlace (disk : Disk) (path : Path) : Place :=
  let before := path.names.takeWhile fun name => (Text.Utf8.unnameable? name.toList).isNone
  (disk.settle (disk.nodes.length + 1) [] (disk.startOf path) before).place ++
    (path.names.drop before.length).take 1

/-- The place of a path, all links followed; names that are missing stay. A path that runs into a
loop of links has none. -/
def resolve (disk : Disk) (path : Path) : Except Unresolved Place :=
  match Text.Utf8.unnameable? path.text.toList with
  | some f =>
    let shown := (disk.unnameablePlace path).path.text
    .error (.noBytes ((Text.Utf8.unnameable? shown.toList).getD f))
  | none =>
    if path.hasNull then .error .nullCharacter
    else
      let resolved := disk.settle (disk.nodes.length + 1) [] (disk.startOf path) path.names
      if resolved.settled then .ok resolved.place
      else
        match disk.look resolved.place.path with
        | .error .linkLoop => .error (.loop resolved.place.path)
        | _ => .ok resolved.place

end LocaleKeys.Disk
