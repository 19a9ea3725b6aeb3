import LocaleKeys.Command.Blank

/-!
Running commands: what each of them writes to the disk and to its two outputs, and its exit code.
Bad settings files and missing roots are reported; other obstacles end the program.
-/

namespace LocaleKeys.Command

/-- The variables of the environment that ask for reproducible checks. -/
structure Environment where
  deterministic : Text := ""
  ci : Text := ""
  deriving DecidableEq, Repr

/-- Whether the environment asks for reproducible checks. -/
def Environment.wantsReproducible (environment : Environment) : Bool :=
  environment.deterministic = "1" ||
    [Text.ofString "1", "true", "yes", "on"].contains (Text.lowercased environment.ci)

/-- What a command leaves: an exit code and the texts of both outputs. -/
structure Output where
  exit : ExitCode
  out : Text := ""
  err : Text := ""
  deriving DecidableEq, Repr

def lines (texts : List Text) : Text :=
  Text.join (texts.map (· ++ "\n"))

/-- What is written to the output for errors. -/
def errorText (texts : List Text) : Text :=
  Text.Utf8.shown (lines texts)

/-- What is written to the output text by text, unless a text has no bytes. -/
def printed (texts : List Text) : Except Error Text :=
  match texts.findSome? fun s => Text.Utf8.unwritable? s.toList with
  | some f => .error (.output f)
  | none => .ok (Text.join texts)

def usage : Text :=
  lines [
    "usage: locale-audit [-h] [--version] [-v] COMMAND ...",
    "",
    "  check ROOT        compare the keys in use with the resource files",
    "  suggest ROOT KEY  show keys that are like a key",
    "  fix ROOT KEY      add a key to resource files",
    "  fix-partial ROOT KEY",
    "                    add a key to the cultures that lack it",
    "  validate FILE [SCHEMA]",
    "                    check a document against a schema"]

def reported (message : Text) : Output :=
  { exit := .error, err := errorText ["error: " ++ message] }

/-- Texts between commas, a hyphen if that is nothing. -/
def listText (texts : List Text) : Text :=
  let joined := Text.intercalate ", " texts
  if joined.isEmpty then "-" else joined

def shownDiagnostics : Nat := 50

def diagnosticLine (d : Diagnostic) : Text :=
  "   " ++ d.location.text ++ "  " ++ d.kind.rule.severity.name ++ " " ++ d.kind.rule.id ++ "  " ++ d.message

/-- The line of an overview for the severities, if there are diagnostics. -/
def severityLines (report : Report) : List Text :=
  if report.diagnostics.isEmpty then []
  else
    let counts := (Text.sortedBy (·.1) report.bySeverity).map fun (name, n) => name ++ "=" ++ Text.ofInt n
    ["   Severity   : " ++ Text.intercalate ", " counts]

def overview (report : Report) : Text :=
  let catalog := report.catalog
  let cultures := Text.sorted (catalog.effectiveCultures report.settings.cultures)
  let count := report.diagnostics.length
  let counts : List Text := [
      "",
      "   Keys       : " ++ Text.ofNat catalog.keys.length ++ " in " ++ listText cultures,
      "   Usages     : " ++ Text.ofNat report.usageCount ++ " in " ++
        Text.ofNat report.sourceFiles ++ " file(s)",
      "   Diagnostics: " ++ Text.ofNat count]
  let more : List Text :=
    if shownDiagnostics < count then
      ["   … and " ++ Text.ofNat (count - shownDiagnostics) ++ " more"]
    else []
  errorText (counts ++ severityLines report
    ++ (report.diagnostics.take shownDiagnostics).map diagnosticLine ++ more ++ [Text.ofString ""])

def jsonText (rounded : Bool) (value : Json) : Text :=
  Text.ofList (value.canonical rounded (.lines 2))

def column (n : Int) : Text :=
  let digits := Number.intText n
  Text.ofList (List.replicate (5 - digits.length) (.char ' ') ++ digits)

abbrev Effects := Except Error (Disk × Output)

/-- What is asked of a check by its options. -/
def requestOf (settings : Settings) (options : CheckOptions) : Check.Request :=
  { settings, reproducible := options.reproducible, out := options.out }

variable [Platform]

/-- The outcome of a check for the cultures of a scope. -/
def outcomeOf (disk : Disk) (root : Path) (scope : Scope) (request : Check.Request)
    (stamp : Check.Stamp) : Except Error Check.Outcome :=
  if scope.cultures.contains none then checkWith disk root request stamp scope.cultures
  else
    match Project.check disk root (some request.settings) request stamp with
    | .error e => .error (.project e)
    | .ok outcome => .ok outcome

def runCheck (disk : Disk) (environment : Environment) (stamp : Check.Stamp) (root : Path)
    (settings : Settings) (scope : Scope) (options : CheckOptions) : Effects :=
  if environment.wantsReproducible && !options.reproducible then
    .ok (disk, reported ("CI environment requires deterministic mode for check. "
      ++ "Re-run with --ci/--deterministic."))
  else
    match outcomeOf disk root scope (requestOf settings options) stamp with
    | .error e => .error e
    | .ok outcome =>
      let report := outcome.report
      if scope.isBlank "out" then .error (.misfit (.member "mkdir"))
      else
        match printed (if options.json then [jsonText options.reproducible report.toJson] else []) with
        | .error e => .error e
        | .ok out =>
          .ok (outcome.disk, { exit := report.exitCode options.strict, out, err := overview report })

/-- What is written about candidates. -/
def candidateTexts (json : Bool) (found : List Suggest.Candidate) : List Text :=
  if json then [jsonText false (.arr (found.map Datum.candidateJson))]
  else found.map fun c => column c.score ++ "  " ++ c.key ++ "\n"

def runSuggest (disk : Disk) (root : Path) (settings : Settings) (scope : Scope) (key : Given)
    (top : Int) (json : Bool) : Effects :=
  match load disk .suggest root settings scope.cultures with
  | .error e => .error e
  | .ok project =>
    match candidates project key (if scope.isBlank "top" then none else some top) with
    | .error m => .error (.misfit m)
    | .ok found =>
      (printed (candidateTexts json found)).map fun out =>
        (disk, {
          exit := .success
          out
          err := if !json && found.isEmpty then
              errorText ["no keys similar to '" ++ key.shown ++ "'"]
            else "" })

def errorLines (results : List FixResult) : List Text :=
  results.flatMap fun result =>
    result.errors.map fun e => "error: " ++ result.target.text ++ ": " ++ e.message

def fixJson (key : Given) (fix : Fix) : Json :=
  match fix.toJson with
  | .obj members => .obj (Assoc.put "key" key.toJson members)
  | value => value

/-- What is written about edits. -/
def editTexts (mode : Fix.Mode) (json : Bool) (key : Given) (edited : Project.Edited) : List Text :=
  if json then
    [jsonText false (.obj [
      ("dry_run", .bool mode.dryRun),
      ("fixes", .arr (edited.fixes.map (fixJson key))),
      ("results", .arr (edited.results.map FixResult.toJson))])]
  else edited.fixes.map fun fix => fix.describe ++ "\n"

/-- What is left by edits that have been written about. -/
def editOutput (json : Bool) (edited : Project.Edited) (out : Text) : Output :=
  let failures := errorLines edited.results
  { exit := if failures.isEmpty then .success else .error
    out
    err := (if !json && edited.fixes.isEmpty then errorText ["nothing to fix"] else "")
      ++ errorText failures }

/-- Makes the edits of a plan for a project that has been read. -/
def runEdits (disk : Disk) (mode : Fix.Mode) (json : Bool) (key : Given)
    (planned : Except Error (List Fix)) : Effects :=
  match planned with
  | .error e => .error e
  | .ok fixes =>
    match Project.applied disk mode fixes with
    | .error stop => .error (.project (.fix stop))
    | .ok edited =>
      (printed (editTexts mode json key edited)).map fun out =>
        (edited.disk, editOutput json edited out)

/-- Whether a document that is not accepted is reported. -/
def isReportedDocument : Schema.DocumentError → Bool
  | .malformed text f => (f.message text).isSome
  | .invalid (.raised e) => e.family ≠ .other
  | _ => true

def runValidate (disk : Disk) (schemas : Place) (document : Path) (schema : Text) : Effects :=
  match Schema.checkFile disk schemas schema document with
  | .ok () => .ok (disk, { exit := .success, out := lines ["OK"] })
  | .error (.invalid (.refused r)) =>
    .ok (disk, { exit := .violation, err := errorText ["FAIL: " ++ r.message] })
  | .error e =>
    if isReportedDocument e then
      .ok (disk, { exit := .error, err := errorText ["ERROR: " ++ e.message.getD ""] })
    else .error (.document e)

def isReported : Settings.FileError → Bool
  | .unreadable .. | .broken .. | .malformed _ | .notMap _ | .sectionNotMap _ | .option _ => true
  | .encoding _ | .raised _ | .tooDeep | .probe _ => false

/-- The settings that the command line asks for in place of those of the project. Of the cultures only
those before a blank one count. -/
def changesOf (scope : Scope) (noPartial : Bool) : List Settings.Change :=
  (if scope.cultures.isEmpty then [] else [.cultures (leading scope.cultures)])
    ++ (if scope.ignoreCase then [.caseSensitive false] else [])
    ++ (if noPartial then [.warnPartial false] else [])

/-- The settings of a command: from the file that it names or from the project. -/
def settingsOf (disk : Disk) (root : Path) (scope : Scope) (noPartial : Bool) :
    Except Settings.FileError Settings :=
  let found := match scope.settingsFile with
    | some path => Settings.ofFile disk path
    | none => Settings.discover disk root
  found.map (·.withChanges (changesOf scope noPartial))

/-- Runs a command for a project: its root has to be a folder, and its settings are read first. -/
def withProject (disk : Disk) (scope : Scope) (noPartial : Bool)
    (run : Path → Settings → Effects) : Effects :=
  match disk.resolve scope.root with
  | .error e => .error (.project (.unresolved e))
  | .ok place =>
    let root := place.path
    match disk.isFolder root with
    | .error f => .error (.project (.probe f))
    | .ok false => .ok (disk, reported ("root is not a directory: " ++ root.text))
    | .ok true =>
      if scope.isBlank "config" then .error (.misfit .opened)
      else
        match settingsOf disk root scope noPartial with
        | .ok settings => run root settings
        | .error e =>
          if isReported e then .ok (disk, reported e.message)
          else .error (.project (.settings e))

def run (disk : Disk) (schemas : Place) (environment : Environment) (stamp : Check.Stamp) :
    Command → Effects
  | .check scope options =>
    withProject disk scope options.noPartial fun root settings =>
      runCheck disk environment stamp root settings scope options
  | .suggest scope key top json =>
    withProject disk scope false fun root settings =>
      runSuggest disk root settings scope key top json
  | .create scope key value mode json =>
    withProject disk scope false fun root settings =>
      match load disk .create root settings scope.cultures with
      | .error e => .error e
      | .ok project =>
        runEdits disk mode json key (creation project scope.cultures key value.toJson)
  | .complete scope key mode json =>
    withProject disk scope false fun root settings =>
      match load disk .complete root settings scope.cultures with
      | .error e => .error e
      | .ok project => runEdits disk mode json key (completion project scope.cultures key)
  | .validate document schema => runValidate disk schemas document schema

/-- What is printed when reading the command line ends early. -/
def stopOutput : Stop → Output
  | .misuse => { exit := .error, err := usage }
  | .help => { exit := .success, out := usage }
  | .version => { exit := .success, out := lines ["locale-audit " ++ Report.toolVersion] }

def runArguments (disk : Disk) (schemas : Place) (environment : Environment)
    (stamp : Check.Stamp) (arguments : List Text) : Effects :=
  match parse arguments with
  | .error stop => .ok (disk, stopOutput stop)
  | .ok none => .ok (disk, stopOutput .misuse)
  | .ok (some command) => run disk schemas environment stamp command

end LocaleKeys.Command
