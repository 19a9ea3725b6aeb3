import LocaleKeys.Disk.Resolve
import LocaleKeys.Hash.Sha256
import LocaleKeys.Text.Utf8

/-!
What identifies a run. Reproducible runs are identified by the paths and the sizes of the files that
they look at, other ones by what is drawn for them.
-/

namespace LocaleKeys.RunId

def fixedTime : Text := "2000-01-01T00:00:00+00:00"

/-- The path of a file as seen from a root, links followed in both. -/
def seenPath (disk : Disk) (root path : Path) : Except Disk.Unresolved Path :=
  match disk.resolve path with
  | .error e => .error e
  | .ok place =>
    match disk.resolve root with
    | .error e => .error e
    | .ok root => .ok (root.seenFrom place)

/-- The size of a folder, which takes one block of the disk. -/
def folderSize : Nat := 4096

/-- The text for the size of what is at a path, a zero if nothing is there. -/
def sizeText (disk : Disk) (path : Path) : Text :=
  match disk.look path with
  | .ok (_, .file data) => Text.ofNat data.length
  | .ok (_, .folder) => Text.ofNat folderSize
  | _ => "0"

/-- The parts of a path in the order in which paths are compared. -/
def parts (path : Path) : List Text :=
  if path.isAbsolute then path.root :: path.names else path.names

def inOrder (paths : List Path) : List Path :=
  paths.mergeSort fun a b => Place.le (parts a) (parts b)

/-- The bytes that identify files: path and size of each. -/
def payloadOf (disk : Disk) (root : Path) : List Path → Except Disk.Unresolved (List UInt8)
  | [] => .ok []
  | path :: rest =>
    match seenPath disk root path with
    | .error e => .error e
    | .ok seen =>
      match Text.Utf8.write seen.text.toList with
      | .error f => .error (.noBytes f)
      | .ok seenBytes =>
        match payloadOf disk root rest with
        | .error e => .error e
        | .ok bytes =>
          .ok (seenBytes ++ Text.Utf8.encode (sizeText disk path).toList ++ bytes)

/-- The id of a run that looks at files, whatever the order in which they are given. -/
def ofFiles (disk : Disk) (root : Path) (paths : List Path) : Except Disk.Unresolved Text :=
  (payloadOf disk root (inOrder paths)).map fun bytes =>
    "ci-" ++ Text.ofList ((Sha256.hexDigest bytes).toList.take 12)

end LocaleKeys.RunId
