import LocaleKeys.Command.Syntax
import LocaleKeys.Path
import LocaleKeys.Resource.Apply
import LocaleKeys.Resource.Patch
import LocaleKeys.Schema.Document
import LocaleKeys.Suggest.Ranking

/-!
The commands of the program, and how they are given on a command line.
-/

namespace LocaleKeys

namespace Command

/-- What most commands share: the root, and what goes before the settings of the project. `blank`
names the options that were asked for without a value. -/
structure Scope where
  root : Path
  settingsFile : Option Path := none
  cultures : List Given := []
  ignoreCase : Bool := false
  blank : List Text := []
  deriving DecidableEq, Repr

def Scope.isBlank (scope : Scope) (name : Text) : Bool :=
  scope.blank.contains name

/-- What a check is to do besides. -/
structure CheckOptions where
  noPartial : Bool := false
  json : Bool := false
  out : Option Path := none
  reproducible : Bool := false
  strict : Bool := false
  deriving DecidableEq, Repr

end Command

/-- A command. -/
inductive Command
  | check (scope : Command.Scope) (options : Command.CheckOptions)
  | suggest (scope : Command.Scope) (key : Command.Given) (top : Int) (json : Bool)
  | create (scope : Command.Scope) (key value : Command.Given) (mode : Fix.Mode) (json : Bool)
  | complete (scope : Command.Scope) (key : Command.Given) (mode : Fix.Mode) (json : Bool)
  | validate (document : Path) (schema : Text)
  deriving DecidableEq, Repr

namespace Command

def helpSwitch : Switch := ⟨["-h", "--help"], "help", .stop .help⟩

/-- The form of a command line up to the name of a command. -/
def mainForm : Form where
  switches := [
    helpSwitch,
    ⟨["--version"], "version", .stop .version⟩,
    ⟨["-v", "--verbose"], "verbose", .flag⟩]
  slots := [.remainder "command"]

def scopeSwitches : List Switch := [
  helpSwitch,
  ⟨["--config"], "config", .text⟩,
  ⟨["--culture"], "culture", .text⟩,
  ⟨["--case-insensitive"], "case-insensitive", .flag⟩]

def jsonSwitch : Switch := ⟨["--json"], "json", .flag⟩

def editSwitches : List Switch := [
  ⟨["--dry-run"], "dry-run", .flag⟩,
  ⟨["--no-backup"], "no-backup", .flag⟩,
  jsonSwitch]

def checkForm : Form where
  switches := scopeSwitches ++ [
    ⟨["--no-partial-warnings"], "no-partial-warnings", .flag⟩,
    jsonSwitch,
    ⟨["--out"], "out", .text⟩,
    ⟨["--ci", "--deterministic"], "ci", .flag⟩,
    ⟨["--strict"], "strict", .flag⟩]
  slots := [.required "root"]

def suggestForm : Form where
  switches := scopeSwitches ++ [⟨["--top"], "top", .integer⟩, jsonSwitch]
  slots := [.required "root", .required "key"]

def createForm : Form where
  switches := scopeSwitches ++ ⟨["--value"], "value", .text⟩ :: editSwitches
  slots := [.required "root", .required "key"]

/-- The form of the addition of a key where it is missing. -/
def completeForm : Form where
  switches := scopeSwitches ++ editSwitches
  slots := [.required "root", .required "key"]

def validateForm : Form where
  switches := [helpSwitch]
  slots := [.required "instance", .optional "schema"]

def givenOf (settled : Settled) (name : Text) (usual : Given) : Given :=
  (settled.get? name).getD usual

def text? (settled : Settled) (name : Text) : Option Text :=
  givenOf settled name none

def blankNames (settled : Settled) : List Text :=
  [Text.ofString "config", "top", "out"].filter fun name => settled.get? name = some none

def scopeOf (settled : Settled) : Scope where
  root := Path.ofString ((text? settled "root").getD "")
  settingsFile := (text? settled "config").map Path.ofString
  cultures := settled.all "culture"
  ignoreCase := settled.has "case-insensitive"
  blank := blankNames settled

def modeOf (settled : Settled) : Fix.Mode where
  dryRun := settled.has "dry-run"
  backup := !settled.has "no-backup"

def checkOf (settled : Settled) : Command :=
  .check (scopeOf settled) {
    noPartial := settled.has "no-partial-warnings"
    json := settled.has "json"
    out := (text? settled "out").map Path.ofString
    reproducible := settled.has "ci"
    strict := settled.has "strict" }

def suggestOf (settled : Settled) : Command :=
  let asked := (text? settled "top").bind fun s => (Number.integer s.toList).toOption
  let top := asked.getD Suggest.defaultTop
  .suggest (scopeOf settled) (text? settled "key") top (settled.has "json")

def createOf (settled : Settled) : Command :=
  .create (scopeOf settled) (text? settled "key")
    (givenOf settled "value" (some Patch.defaultPlaceholder)) (modeOf settled) (settled.has "json")

/-- The addition of a key where it is missing that settled values make. -/
def completeOf (settled : Settled) : Command :=
  .complete (scopeOf settled) (text? settled "key") (modeOf settled) (settled.has "json")

def validateOf (settled : Settled) : Command :=
  .validate (Path.ofString ((text? settled "instance").getD ""))
    ((text? settled "schema").getD Schema.reportFile)

/-- The commands: each with its name, its form, and how it is made. -/
def table : List (Text × Form × (Settled → Command)) := [
  ("check", checkForm, checkOf),
  ("suggest", suggestForm, suggestOf),
  ("fix", createForm, createOf),
  ("fix-partial", completeForm, completeOf),
  ("validate", validateForm, validateOf)]

def parse (arguments : List Text) : Except Stop (Option Command) :=
  match mainForm.read arguments with
  | .error e => .error e
  | .ok outer =>
    match text? outer "command" with
    | none => if outer.leftOver then .error .misuse else .ok none
    | some name =>
      match table.find? (·.1 = name) with
      | none => .error .misuse
      | some (_, form, make) =>
        match form.read outer.rest with
        | .error e => .error e
        | .ok inner =>
          if outer.leftOver || inner.leftOver then .error .misuse else .ok (some (make inner))

end Command
end LocaleKeys
