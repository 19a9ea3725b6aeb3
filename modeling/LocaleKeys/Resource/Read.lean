import LocaleKeys.Catalog.Build
import LocaleKeys.Check.RunId
import LocaleKeys.Disk.Files

/-!
Reading resource files from a disk. A file that cannot be read stays in the list without a text.
-/

namespace LocaleKeys.ResourceFile

def read (disk : Disk) (root path : Path) : Except Disk.Unresolved ResourceFile :=
  (RunId.seenPath disk root path).map fun seen =>
    { path := seen.text, text := (disk.readMarked path).toOption, source := some path }

/-- Reads files. A file whose path has no place ends the reading. -/
def readAll (disk : Disk) (root : Path) : List Path → Except Disk.Unresolved (List ResourceFile)
  | [] => .ok []
  | path :: rest =>
    match read disk root path with
    | .error e => .error e
    | .ok file =>
      match readAll disk root rest with
      | .error e => .error e
      | .ok files => .ok (file :: files)

end LocaleKeys.ResourceFile
