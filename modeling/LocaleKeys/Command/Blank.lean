import LocaleKeys.Command.Basic
import LocaleKeys.Project
import LocaleKeys.Schema.Document

/-!
Commands for which nothing may be given in the place of a culture, of the key or of a number. An empty
list stands for it, and the command goes on up to the first use that a list is not fit for.
-/

namespace LocaleKeys.Command

/-- A use that an empty list is not fit for. -/
inductive Misfit
  | member (name : Text)
  | hashed
  | sought
  | compared (sign left right : Text)
  | opened
  deriving DecidableEq, Repr

def Misfit.message : Misfit → Text
  | .member name => "'list' object has no attribute '" ++ name ++ "'"
  | .hashed => "unhashable type: 'list'"
  | .sought => "'in <string>' requires string as left operand, not list"
  | .compared sign left right =>
    "'" ++ sign ++ "' not supported between instances of '" ++ left ++ "' and '" ++ right ++ "'"
  | .opened => "expected str, bytes or os.PathLike object, not list"

/-- Why a command ends without an exit code of its own. -/
inductive Error
  | project (e : Project.Error)
  | misfit (m : Misfit)
  | document (e : Schema.DocumentError)
  | output (f : Text.Utf8.Unwritable)

/-- The message of an error. Too deep a nesting has none. -/
def Error.message : Error → Option Text
  | .project e => some e.message
  | .misfit m => some m.message
  | .document e => e.message
  | .output f => some f.message

def Given.toJson : Given → Json
  | some s => .str s
  | none => .arr []

def Given.shown (given : Given) : Text :=
  given.getD "[]"

/-! ## Cultures -/

def leading (cultures : List Given) : List Text :=
  (cultures.takeWhile Option.isSome).filterMap id

/-- Looks for the given cultures in paths. A blank one cannot be looked for. -/
def checkPaths (cultures : List Given) (paths : List Text) : Except Misfit Unit :=
  let isFound (path : Text) : Bool :=
    (leading cultures).any (Culture.occurs (Culture.clues path))
  if cultures.contains none && !paths.all isFound then .error (.member "lower") else .ok ()

/-- Reads the resource files of a project for the given cultures. -/
def load [Platform] (disk : Disk) (task : Project.Task) (root : Path) (settings : Settings)
    (cultures : List Given) : Except Error Project.Loaded :=
  match Project.load disk task root (some settings) with
  | .error e => .error (.project e)
  | .ok project =>
    match checkPaths cultures (project.resources.map (·.path)) with
    | .error m => .error (.misfit m)
    | .ok () => .ok project

/-- What shows where texts and lists are to be put in order together. -/
def orderMisfit? : List Given → Option Misfit
  | [] => none
  | some _ :: rest => if rest.contains none then some (.compared "<" "list" "str") else none
  | none :: rest => if rest.any Option.isSome then some (.compared "<" "str" "list") else none

/-! ## Keys -/

/-- What shows where a blank key is compared with those of a catalog. -/
def keyMisfit (catalog : Catalog) (bySense : Misfit) : Misfit :=
  if catalog.caseSensitive then bySense else .member "lower"

def candidates (project : Project.Loaded) (key : Given) (top : Option Int) :
    Except Misfit (List Suggest.Candidate) :=
  if key.isNone && !project.catalog.keys.isEmpty then
    .error (keyMisfit project.catalog .sought)
  else
    match top with
    | none => .error (.compared ">" "list" "int")
    | some top => .ok (Project.candidates project (key.getD "") top true)

def hasKey (catalog : Catalog) (key culture : Given) : Except Misfit Bool :=
  match culture, key with
  | none, _ => .error .hashed
  | some culture, some key => .ok (catalog.containsIn key culture)
  | some culture, none =>
    if catalog.cultures.contains culture then .error (keyMisfit catalog .hashed) else .ok false

def lacking (catalog : Catalog) (key : Given) : List Given → Except Misfit (List Text)
  | [] => .ok []
  | culture :: rest =>
    match hasKey catalog key culture with
    | .error m => .error m
    | .ok has =>
      (lacking catalog key rest).map fun more => if has then more else culture.toList ++ more

def placeholderFor (catalog : Catalog) : Given → Except Misfit Text
  | some key => .ok (Fix.placeholderFor catalog key)
  | none =>
    if catalog.cultures.isEmpty then .ok Patch.defaultPlaceholder
    else .error (keyMisfit catalog .hashed)

/-- Sets a blank key in resource text. It has no parts, so no object takes it; text that cannot be read
gets it as it is written. -/
def applyBlank (value : Json) (text : List Point) : Except Misfit (List Point) :=
  let parts : Misfit := .member "split"
  if (Text.trim text).isEmpty then .error parts
  else
    match Json.read .keepLast text with
    | .error _ => .ok (Patch.insertText text (Given.shown none).toList value)
    | .ok (.obj _) => .error parts
    | .ok _ => .ok text

def plan (project : Project.Loaded) (targets : List Text) (key : Given) (value : Json)
    (ruleId : Text) : Except Error (List Fix) :=
  let explicit := project.settings.cultures
  match key with
  | some key =>
    match Fix.plan explicit targets key value project.resources ruleId with
    | .error e => .error (.project (.patch e))
    | .ok fixes => .ok fixes
  | none =>
    match Fix.patchedBy (applyBlank value) explicit targets project.resources with
    | .error m => .error (.misfit m)
    | .ok texts =>
      .ok (Fix.ofTexts explicit (Given.shown none) value ruleId project.resources texts)

/-- The edits that add a key to the given cultures, or to all. -/
def creation (project : Project.Loaded) (cultures : List Given) (key : Given) (value : Json) :
    Except Error (List Fix) :=
  if cultures.contains none then .error (.misfit (.member "strip"))
  else plan project (cultures.filterMap id) key value Kind.missing.rule.id

/-- The edits that add a key to the compared cultures that lack it. -/
def completion (project : Project.Loaded) (cultures : List Given) (key : Given) :
    Except Error (List Fix) :=
  let usual := project.catalog.effectiveCultures project.settings.cultures
  let compared := if cultures.isEmpty then usual.map some else cultures
  match lacking project.catalog key compared with
  | .error m => .error (.misfit m)
  | .ok [] => .ok []
  | .ok targets =>
    match placeholderFor project.catalog key with
    | .error m => .error (.misfit m)
    | .ok value => plan project targets key (.str value) Kind.partialMissing.rule.id

/-! ## Checks -/

/-- Whether a usage is one of a key whose cultures are compared. -/
def comparesCultures (request : Check.Request) (cultures : List Given) (catalog : Catalog)
    (usage : Usage) : Bool :=
  1 < cultures.length && request.settings.warnPartial && !Engine.isBlankKey usage.key &&
    catalog.contains usage.key

/-- A report as a value, with the given cultures in it. -/
def reportWith (cultures : List Given) (report : Report) : Json :=
  let shown : Json := .arr (cultures.map Given.toJson)
  match report.toJson with
  | .obj members =>
    .obj (Key.insertAt shown ["catalog", "effective_cultures"]
      (Key.insertAt shown ["run", "config", "cultures"] members))
  | value => value

/-- Checks a project for cultures some of which are blank. -/
def checkWith [Platform] (disk : Disk) (root : Path) (request : Check.Request) (stamp : Check.Stamp)
    (cultures : List Given) : Except Error Check.Outcome :=
  match load disk .check root request.settings cultures, Project.rootOf disk .check root with
  | .error e, _ => .error e
  | _, .error e => .error (.project e)
  | .ok _, .ok root =>
    match Check.findings disk root request with
    | .error e => .error (.project (.check e))
    | .ok found =>
      let usages := found.sources.flatMap (Check.scanFile disk request root)
      if usages.any (comparesCultures request cultures found.catalog) then .error (.misfit .hashed)
      else
        match Check.runIdOf disk root request stamp found, orderMisfit? cultures with
        | .error e, _ => .error (.project (.check e))
        | _, some m => .error (.misfit m)
        | .ok runId, none =>
          let report := Check.reportOf root request stamp runId found
          match Platform.validate Schema.report.toJson (reportWith cultures report) with
          | .error e => .error (.project (.check (.invalid e)))
          | .ok () => .ok ⟨disk, report, found.diagnostics⟩

end LocaleKeys.Command
