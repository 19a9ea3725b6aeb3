import LocaleKeys.Assoc
import LocaleKeys.Path
import LocaleKeys.Text.Quoted
import LocaleKeys.Text.Utf8

/-!
Disks as data: every place below the root holds a file, a folder or a link. Relative paths start at
the working folder.
-/

namespace LocaleKeys

/-- What a place holds. -/
inductive Node
  | file (data : List UInt8)
  | folder
  | link (target : Path)
  deriving DecidableEq, Repr

abbrev Place := List Text

def Place.path (place : Place) : Path :=
  ⟨"/", place⟩

/-- Whether a place comes no later than another one, name by name. -/
def Place.le : Place → Place → Bool
  | [], _ => true
  | _ :: _, [] => false
  | a :: as, b :: bs => if a = b then Place.le as bs else decide (a < b)

def Place.isBelow (folder place : Place) : Bool :=
  folder.isPrefixOf place && folder ≠ place

/-- A place as seen from a folder: relative below it, absolute elsewhere. -/
def Place.seenFrom (folder place : Place) : Path :=
  if folder.isPrefixOf place then ⟨"", place.drop folder.length⟩ else place.path

def Place.sorted (places : List Place) : List Place :=
  places.eraseDups.mergeSort Place.le

/-- The places of a disk with what they hold, and the working folder. The root needs no entry. -/
structure Disk where
  nodes : List (Place × Node) := []
  here : Place := []
  deriving DecidableEq, Repr

namespace Disk

def get? (disk : Disk) (place : Place) : Option Node :=
  if place = [] then some .folder else Assoc.get? place disk.nodes

def put (disk : Disk) (place : Place) (node : Node) : Disk :=
  { disk with nodes := Assoc.put place node disk.nodes }

/-- Takes a place off the disk, with all that lies below it. -/
def erase (disk : Disk) (place : Place) : Disk :=
  { disk with nodes := disk.nodes.filter fun node => !place.isPrefixOf node.1 }

/-- Makes the folders on the way to a place, that place included, where nothing is yet. -/
def putFolders (disk : Disk) : (done place : Place) → Disk
  | _, [] => disk
  | done, name :: rest =>
    let place := done ++ [name]
    let disk := match disk.get? place with
      | some _ => disk
      | none => disk.put place .folder
    disk.putFolders place rest

/-- The names in a folder, with what they hold. -/
def children (disk : Disk) (folder : Place) : List (Text × Node) :=
  disk.nodes.filterMap fun (place, node) =>
    if place.dropLast = folder then place.getLast?.map (·, node) else none

/-- Why an access fails. -/
inductive Fault
  | missing
  | alreadyThere
  | notFolder
  | isFolder
  | nameTooLong
  | linkLoop
  | nullCharacter
  | noBytes (f : Text.Utf8.Unwritable)
  deriving DecidableEq, Repr

/-- The number and the wording of a fault that the disk reports. A path with a null character or without
bytes never gets that far. -/
def Fault.report? : Fault → Option (Nat × Text)
  | .missing => some (2, "No such file or directory")
  | .alreadyThere => some (17, "File exists")
  | .notFolder => some (20, "Not a directory")
  | .isFolder => some (21, "Is a directory")
  | .nameTooLong => some (36, "File name too long")
  | .linkLoop => some (40, "Too many levels of symbolic links")
  | .nullCharacter | .noBytes _ => none

/-- Whether a fault is one of a path that no disk is asked for. -/
def Fault.isOfPath : Fault → Bool
  | .nullCharacter | .noBytes _ => true
  | _ => false

/-- A failed access with the path as it was given. -/
structure Failure where
  fault : Fault
  path : Path
  deriving DecidableEq, Repr

def nullMessage : Text := "embedded null byte"

def Failure.message (f : Failure) : Text :=
  match f.fault, f.fault.report? with
  | _, some (number, text) =>
    "[Errno " ++ Text.ofNat number ++ "] " ++ text ++ ": " ++ Text.quote f.path.text
  | .noBytes f, none => f.message
  | _, none => nullMessage

/-- Why work on many places ends early: an access fails, or too many folders lie in one another. -/
inductive Obstacle
  | access (f : Failure)
  | tooDeep
  deriving DecidableEq, Repr

/-- The message of an obstacle. Too many folders have none. -/
def Obstacle.message : Obstacle → Text
  | .access f => f.message
  | .tooDeep => ""

def startOf (disk : Disk) (path : Path) : Place :=
  if path.isAbsolute then [] else disk.here

end Disk
end LocaleKeys
