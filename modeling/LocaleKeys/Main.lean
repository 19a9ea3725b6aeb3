import LocaleKeys.Check.Clock
import LocaleKeys.Command.Run
import LocaleKeys.Platform.StandIn
import Std.Time.DateTime.Timestamp

/-!
The program. It takes a picture of the files that the command line names, runs the command on it, and
writes back what has changed.
-/

namespace LocaleKeys.Main

/-- The place where the schemas are kept, out of the way of all files. -/
def schemas : Place := ["", "data", "schemas"]

/-- A text for the world outside; the replacement character stands for a half. -/
def stringOf (text : Text) : String :=
  String.ofList (text.toList.map fun p => p.char?.getD '\uFFFD')

def entryOf (place : Place) : IO.FS.DirEntry :=
  ⟨stringOf (Place.path place.dropLast).text, stringOf (place.getLast?.getD ".")⟩

def placeOf (text : String) : Place :=
  (Path.ofString text).names

/-- Puts what stands at a place on the picture, with all that is below it if `deep`. -/
partial def takePlace (disk : Disk) (place : Place) (deep : Bool) : IO Disk := do
  let entry := entryOf place
  match (← entry.path.symlinkMetadata).type with
  | .file =>
    let data ← IO.FS.readBinFile entry.path
    return disk.put place (.file data.toList)
  | .symlink =>
    match ← (IO.FS.realPath entry.path).toBaseIO with
    | .error _ => return disk.put place (.link (Path.ofString "."))
    | .ok real => return disk.put place (.link (Path.ofString real.toString))
  | .dir =>
    let mut disk := disk.put place .folder
    if deep then
      for child in ← entry.path.readDir do
        disk ← takePlace disk (place ++ [Text.ofString child.fileName]) true
    return disk
  | .other => return disk

/-- Puts a path on the picture, with the folders that lead to it. What is missing stays away. -/
def takePath (disk : Disk) (path : Path) : IO Disk := do
  let start := disk.startOf path
  match ← (IO.FS.realPath (stringOf (Place.path (start ++ path.names)).text)).toBaseIO with
  | .error _ => return disk
  | .ok real =>
    let place := placeOf real.toString
    let mut disk := disk
    for n in List.range place.length do
      if n ≠ 0 then disk ← takePlace disk (place.take n) false
    if place.isEmpty then return disk
    takePlace disk place true

def pathsOf (argument : String) : List Path :=
  let value := String.ofList ((argument.toList.dropWhile (· ≠ '=')).drop 1)
  [argument, value].filterMap fun s => if s = "" then none else some (Path.ofString s)

def writeBack (before after : Disk) : IO Unit := do
  for (place, node) in after.nodes do
    if before.get? place ≠ some node then
      let text := stringOf (Place.path place).text
      match node with
      | .folder => IO.FS.createDirAll text
      | .file data => IO.FS.writeBinFile text ⟨data.toArray⟩
      | .link _ => pure ()

def drawStamp : IO Check.Stamp := do
  let bytes ← IO.getRandomBytes 16
  let now ← Std.Time.Timestamp.now
  let micros := now.toNanosecondsSinceUnixEpoch.val / 1000
  return ⟨Clock.idText bytes.toList, Clock.timeText micros⟩

/-- The variables of the environment that a command looks at. -/
def environment : IO Command.Environment := do
  let deterministic ← IO.getEnv "LOCALE_AUDIT_DETERMINISTIC"
  let ci ← IO.getEnv "CI"
  return ⟨deterministic.getD "", ci.getD ""⟩

/-- The picture of the files that the arguments name, and of the working folder. -/
def picture (arguments : List String) : IO Disk := do
  let here := placeOf (← IO.currentDir).toString
  let mut disk : Disk := { here }
  for path in arguments.flatMap pathsOf do
    disk ← takePath disk path
  return Schema.mount (disk.putFolders [] here) schemas

end LocaleKeys.Main

def main (arguments : List String) : IO UInt32 := do
  let disk ← LocaleKeys.Main.picture arguments
  let environment ← LocaleKeys.Main.environment
  let stamp ← LocaleKeys.Main.drawStamp
  match @LocaleKeys.Command.runArguments LocaleKeys.Platform.standIn disk LocaleKeys.Main.schemas
      environment stamp (arguments.map LocaleKeys.Text.ofString) with
  | .ok (after, output) =>
    LocaleKeys.Main.writeBack disk after
    IO.print (LocaleKeys.Main.stringOf output.out)
    IO.eprint (LocaleKeys.Main.stringOf output.err)
    return UInt32.ofNat output.exit.number
  | .error e =>
    IO.eprintln (LocaleKeys.Main.stringOf (e.message.getD "nested too deeply"))
    return 1
