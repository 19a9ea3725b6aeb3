import LocaleKeys.Disk.Files
import LocaleKeys.Settings.Options
import LocaleKeys.Platform

/-!
Settings files: YAML with the options at the top, or in a section of their own. A project has its
settings in the first file of a fixed list of names.
-/

namespace LocaleKeys.Settings

/-- The names of settings files, in the order in which they are looked for. -/
def fileNames : List Text :=
  [".locale-audit.yaml", ".locale-audit.yml", "locale-audit.yaml"]

/-- The name of the section that may hold the options. -/
def sectionName : Text := "locale_audit"

/-- Why a file gives no settings. -/
inductive FileError
  | unreadable (path : Path) (f : Disk.Failure)
  | broken (path : Path) (e : Exception)
  | encoding (f : Text.Utf8.Fault)
  | malformed (path : Path)
  | raised (e : Exception)
  | tooDeep
  | notMap (path : Path)
  | sectionNotMap (path : Path)
  | option (e : OptionError)
  | probe (f : Disk.Failure)

/-- The message of an error. Too deep a nesting has none. -/
def FileError.message : FileError → Text
  | .unreadable path f => "cannot read " ++ path.text ++ ": " ++ f.message
  | .broken path e => "cannot read " ++ path.text ++ ": " ++ e.message
  | .encoding f => f.message
  | .malformed path => "invalid YAML in " ++ path.text
  | .raised e => e.message
  | .tooDeep => ""
  | .notMap path => path.text ++ ": expected a mapping at the top level"
  | .sectionNotMap path => path.text ++ ": '" ++ sectionName ++ "' must be a mapping"
  | .option e => e.message
  | .probe f => f.message

def isVoid : Datum → Bool
  | .null => true
  | .bool b => !b
  | .int n => n = 0
  | .float (.finite _ mantissa _) => mantissa = 0
  | .text s => s = ""
  | .bytes data => data.isEmpty
  | .list items | .set items => items.isEmpty
  | .map entries => entries.isEmpty
  | _ => false

def optionsOf (path : Path) (value : Datum) : Except FileError (List (Datum × Datum)) :=
  if isVoid value then .ok []
  else
    match value.opened with
    | .map entries =>
      match (Assoc.get? (Datum.text sectionName) entries).map Datum.opened with
      | none => .ok entries
      | some (.map options) => .ok options
      | some _ => .error (.sectionNotMap path)
    | _ => .error (.notMap path)

/-- The error of a settings file that has no value. -/
def FileError.ofLoad (path : Path) : LoadError → FileError
  | .malformed => .malformed path
  | .encoding f => .encoding f
  | .raised e => if e.family = .system then .broken path e else .raised e

variable [Platform]

def ofBytes (path : Path) (bytes : List UInt8) : Except FileError Settings :=
  match Platform.loadYaml bytes with
  | .error e => .error (FileError.ofLoad path e)
  | .ok value =>
    match optionsOf path value with
    | .error e => .error e
    | .ok options =>
      match ofOptions options with
      | .error (.unwritable .tooDeep) => .error .tooDeep
      | .error (.unwritable .longInteger) => .error (.raised ⟨.value, "ValueError", Number.unwritableMessage⟩)
      | .error e => .error (.option e)
      | .ok settings => .ok settings

def ofFile (disk : Disk) (path : Path) : Except FileError Settings :=
  match disk.read path with
  | .error ⟨.nullCharacter, _⟩ => .error (.raised ⟨.value, "ValueError", Disk.nullMessage⟩)
  | .error ⟨.noBytes f, _⟩ => .error (.raised ⟨.value, "UnicodeEncodeError", f.message⟩)
  | .error f => .error (.unreadable path f)
  | .ok bytes => ofBytes path bytes

/-- The settings of the first file of some names in a folder, else the usual ones. -/
def discoverAmong (disk : Disk) (folder : Path) : List Text → Except FileError Settings
  | [] => .ok {}
  | name :: rest =>
    let path : Path := { folder with names := folder.names ++ [name] }
    match disk.isFile path with
    | .error f => .error (.probe f)
    | .ok true => ofFile disk path
    | .ok false => discoverAmong disk folder rest

def discover (disk : Disk) (folder : Path) : Except FileError Settings :=
  discoverAmong disk folder fileNames

end LocaleKeys.Settings
