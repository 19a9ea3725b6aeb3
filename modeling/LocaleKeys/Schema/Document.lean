import LocaleKeys.Disk.Files
import LocaleKeys.Json.Reader
import LocaleKeys.Json.Printer
import LocaleKeys.Platform
import LocaleKeys.Schema.Check
import LocaleKeys.Schema.Report

/-!
Documents on a disk, and the schemas that they are checked against. Schemas are looked up by file
names in a folder of their own.
-/

namespace LocaleKeys.Schema

def reportFile : Text := "check_result.schema.json"

/-- Puts the schema of reports into a folder. -/
def mount (disk : Disk) (folder : Place) : Disk :=
  (disk.putFolders [] folder).put (folder ++ [reportFile])
    (.file (Text.Utf8.encode (Json.write (.lines 2) 0 report.toJson ['\n'])))

/-- Why a document is not accepted. -/
inductive DocumentError
  | unreadable (e : Disk.ReadError)
  | malformed (text : List Point) (f : Json.Fault)
  | version (path : Path) (found : Datum)
  | invalid (e : ValidationError)

/-- The message of an error. Too deep a nesting has none. -/
def DocumentError.message : DocumentError → Option Text
  | .unreadable e => some e.message
  | .malformed text f => f.message text
  | .version path found =>
    some (path.text ++ ": expected schema_version='" ++ reportVersion ++ "', got " ++ found.quoted)
  | .invalid (.refused r) => some r.message
  | .invalid (.raised e) => some e.message

def readValue (text : List Point) : Except DocumentError Json :=
  match Json.read .keepLast text with
  | .error f => .error (.malformed text f)
  | .ok value => .ok value

/-- The value in a file. -/
def readDocument (disk : Disk) (path : Path) : Except DocumentError Json :=
  match disk.readText path with
  | .error e => .error (.unreadable e)
  | .ok text => readValue text

/-- The schema with a file name, which may be a path from the folder of the schemas. -/
def find (disk : Disk) (folder : Place) (name : Text) : Except DocumentError Json :=
  readDocument disk (folder.path.join (Path.ofString name))

variable [Platform]

/-- Checks a value against the schema with a file name. -/
def checkValue (disk : Disk) (folder : Place) (name : Text) (value : Json) :
    Except DocumentError Unit :=
  match find disk folder name with
  | .error e => .error e
  | .ok schema =>
    match Platform.validate schema value with
    | .error e => .error (.invalid e)
    | .ok () => .ok ()

def checkText (disk : Disk) (folder : Place) (name : Text) (text : List Point) :
    Except DocumentError Unit :=
  match readValue text with
  | .error e => .error e
  | .ok value => checkValue disk folder name value

def checkFile (disk : Disk) (folder : Place) (name : Text) (path : Path) :
    Except DocumentError Unit :=
  match readDocument disk path with
  | .error e => .error e
  | .ok value => checkValue disk folder name value

/-- What stands for the version in an object, if it is not the version of reports. -/
def otherVersion? : Json → Option Datum
  | .obj members =>
    let found := Assoc.get? (Text.ofString "schema_version") members
    if found.any (isText reportVersion) then none
    else some ((found.map Datum.ofJson).getD .null)
  | _ => none

/-- Checks a file that should be a report: its version comes first. -/
def checkReportFile (disk : Disk) (folder : Place) (path : Path) : Except DocumentError Unit :=
  match readDocument disk path with
  | .error e => .error e
  | .ok value =>
    match otherVersion? value with
    | some found => .error (.version path found)
    | none => checkValue disk folder reportFile value

end LocaleKeys.Schema
