import LocaleKeys.Disk.Files
import LocaleKeys.Resource.Fix

/-!
Applying planned fixes. A fix is made only where the file still has the text that it was planned for;
the old file may be kept beside it.
-/

namespace LocaleKeys

/-- What goes wrong with one fix. -/
inductive FixError
  | reading (e : Disk.ReadError)
  | backup (e : Disk.CopyError)
  | writing (f : Disk.Failure)
  deriving DecidableEq, Repr

def FixError.message : FixError → Text
  | .reading e => "Error reading file: " ++ e.message
  | .backup e => "Error creating backup: " ++ e.message
  | .writing f => "Error writing file: " ++ f.message

/-- What ends the work on fixes: a target whose path no disk is asked for, or a new text without bytes. -/
inductive FixStop
  | target (f : Disk.Failure)
  | newText (f : Text.Utf8.Unwritable)
  deriving DecidableEq, Repr

def FixStop.message : FixStop → Text
  | .target f => f.message
  | .newText f => f.message

/-- What has become of one fix. -/
structure FixResult where
  target : Path
  applied : Nat := 0
  skipped : Nat := 0
  backup : Option Path := none
  errors : List FixError := []
  deriving DecidableEq, Repr

namespace FixResult

def success (result : FixResult) : Bool :=
  result.errors.isEmpty

def toJson (result : FixResult) : Json :=
  .obj [
    ("file_path", .str result.target.text),
    ("fixes_applied", .int result.applied),
    ("fixes_skipped", .int result.skipped),
    ("backup_path", match result.backup with
      | some path => .str path.text
      | none => .scalar .null),
    ("errors", .strings (result.errors.map FixError.message))]

end FixResult

namespace Fix

/-- How fixes are applied: for show only or not, and with a copy of the old file or without. -/
structure Mode where
  dryRun : Bool := false
  backup : Bool := true
  deriving DecidableEq, Repr

def backupPath (path : Path) : Path :=
  { path with names := path.names.dropLast ++ [path.name ++ ".bak"] }

/-- Keeps a copy of the file that a fix is about to change. -/
def keepCopy (disk : Disk) (fix : Fix) (result : FixResult) : Disk × FixResult :=
  match disk.copy fix.target (backupPath fix.target) with
  | .ok disk => (disk, { result with backup := some (backupPath fix.target) })
  | .error e => (disk, { result with errors := result.errors ++ [.backup e] })

def writeTarget (disk : Disk) (fix : Fix) (result : FixResult) :
    Disk × Except FixStop FixResult :=
  match disk.writeText fix.target fix.newText with
  | (disk, .ok ()) => (disk, .ok result)
  | (disk, .error (.unwritable f)) => (disk, .error (.newText f))
  | (disk, .error (.failure f)) =>
    (disk, .ok { result with
      applied := result.applied - 1
      skipped := result.skipped + 1
      errors := result.errors ++ [.writing f] })

/-- What comes of a target that cannot be read. -/
def unread (fix : Fix) (e : Disk.ReadError) : Except FixStop FixResult :=
  match e with
  | .failure f =>
    if f.fault.isOfPath then .error (.target f)
    else .ok { target := fix.target, skipped := 1, errors := [.reading e] }
  | .encoding _ => .ok { target := fix.target, skipped := 1, errors := [.reading e] }

def apply (disk : Disk) (mode : Mode) (fix : Fix) : Disk × Except FixStop FixResult :=
  match disk.readMarked fix.target with
  | .error e => (disk, unread fix e)
  | .ok text =>
    if text ≠ fix.oldText then (disk, .ok { target := fix.target, skipped := 1 })
    else if mode.dryRun then (disk, .ok { target := fix.target, applied := 1 })
    else
      let result : FixResult := { target := fix.target, applied := 1 }
      let (disk, result) := if mode.backup then keepCopy disk fix result else (disk, result)
      writeTarget disk fix result

/-- Applies fixes in order, up to one that ends the work. -/
def applyAll (mode : Mode) : Disk → List Fix → Disk × Except FixStop (List FixResult)
  | disk, [] => (disk, .ok [])
  | disk, fix :: rest =>
    match apply disk mode fix with
    | (disk, .error stop) => (disk, .error stop)
    | (disk, .ok result) =>
      let (disk, results) := applyAll mode disk rest
      (disk, results.map (result :: ·))

end Fix
end LocaleKeys
