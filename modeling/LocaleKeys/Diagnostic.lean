import LocaleKeys.Location
import LocaleKeys.Hash.Sha256
import LocaleKeys.Text.Quoted
import LocaleKeys.Text.Utf8
import LocaleKeys.Text.Order

/-!
Diagnostics and the rules behind them. A rule gives a diagnostic its identifiers, its severity and its
wording; a fingerprint identifies the issue, and an id is assigned by position in the report.
-/

namespace LocaleKeys

/-- How serious a diagnostic is. -/
inductive Severity
  | info
  | warning
  | error
  deriving DecidableEq, Repr

def Severity.name : Severity → Text
  | .info => "info"
  | .warning => "warning"
  | .error => "error"

/-- What a diagnostic is about. -/
inductive Kind
  | missing
  | unused
  | partialMissing
  | duplicate
  deriving DecidableEq, Repr

namespace Kind

def all : List Kind := [.missing, .unused, .partialMissing, .duplicate]

def name : Kind → Text
  | .missing => "missing"
  | .unused => "unused"
  | .partialMissing => "partial_missing"
  | .duplicate => "duplicate"

def ofName? (name : Text) : Option Kind :=
  all.find? (·.name = name)

def unknownMessage (name : Text) : Text :=
  Text.quote name ++ " is not a valid DiagnosticKind"

end Kind

/-- A piece of a wording: fixed text, or the place of an argument. -/
inductive Piece
  | words (text : Text)
  | hole (i : Nat)
  deriving DecidableEq, Repr

def Piece.format : Piece → Text
  | .words text => text
  | .hole i => "\x7b" ++ Text.ofNat i ++ "\x7d"

/-- A rule. Rules of the end of the pass need all usages. -/
structure Rule where
  kind : Kind
  id : Text
  code : Text
  severity : Severity
  title : Text
  wording : List Piece
  description : Text
  endOfPass : Bool := false
  deriving Repr

def Kind.rule : Kind → Rule
  | .missing => {
      kind := .missing
      id := "LOC001"
      code := "MISSING_KEY"
      severity := .error
      title := "Missing localization key"
      wording := [.words "Localization key '", .hole 0,
        .words "' is not found in any configured culture"]
      description := "The referenced localization key does not exist in any of the "
        ++ "configured JSON localization files." }
  | .unused => {
      kind := .unused
      id := "LOC002"
      code := "UNUSED_KEY"
      severity := .warning
      title := "Unused localization key"
      wording := [.words "Localization key '", .hole 0, .words "' is defined but never used"]
      description := "The localization key is defined in JSON files but is not "
        ++ "referenced anywhere in the code."
      endOfPass := true }
  | .partialMissing => {
      kind := .partialMissing
      id := "LOC003"
      code := "PARTIAL_MISSING_KEY"
      severity := .warning
      title := "Localization key missing in some cultures"
      wording := [.words "Localization key '", .hole 0, .words "' is missing in cultures: ",
        .hole 1]
      description := "The localization key exists in some cultures but is missing in others." }
  | .duplicate => {
      kind := .duplicate
      id := "LOC004"
      code := "DUPLICATE_KEY"
      severity := .error
      title := "Duplicate localization key"
      wording := [.words "Localization key '", .hole 0,
        .words "' is defined multiple times in the same file"]
      description :=
        "The same localization key appears multiple times within a single JSON file."
      endOfPass := true }

namespace Rule

def all : List Rule := Kind.all.map Kind.rule

def messageFormat (rule : Rule) : Text :=
  Text.join (rule.wording.map Piece.format)

/-- Fills the pieces of a wording. The error is the first place that has no argument. -/
def fill (args : List Text) : List Piece → Except Nat Text
  | [] => .ok ""
  | .words text :: rest =>
    match fill args rest with
    | .ok s => .ok (text ++ s)
    | .error i => .error i
  | .hole i :: rest =>
    match args[i]? with
    | none => .error i
    | some arg =>
      match fill args rest with
      | .ok s => .ok (arg ++ s)
      | .error i => .error i

def format (rule : Rule) (args : List Text) : Except Nat Text :=
  fill args rule.wording

def missingArgument (i : Nat) : Text :=
  "Replacement index " ++ Text.ofNat i ++ " out of range for positional args tuple"

/-- The message of a rule, where no place goes without an argument. -/
def message (rule : Rule) (args : List Text) : Text :=
  match rule.format args with
  | .ok s => s
  | .error i => missingArgument i

end Rule

/-- The fields that identify an issue, separated by bars. -/
def fingerprintPayload (ruleId path key : Text) (line : Int) : Text :=
  let path := path.map fun c => if c = Point.char '\\' then Point.char '/' else c
  Text.intercalate "|" [ruleId, path, key, Text.ofInt line]

/-- The fingerprint of an issue, a hash of the bytes of its fields. -/
def fingerprint (ruleId path key : Text) (line : Int) : Except Text.Utf8.Unwritable Text :=
  match Text.Utf8.write (fingerprintPayload ruleId path key line).toList with
  | .error f => .error f
  | .ok bytes => .ok ("sha256:" ++ Sha256.hexDigest bytes)

/-- A detected issue. -/
structure Diagnostic where
  id : Text := ""
  kind : Kind
  key : Text
  message : Text
  location : Location
  fingerprint : Text
  missingCultures : List Text := []
  culture : Text := ""
  deriving DecidableEq, Repr

namespace Diagnostic

/-- The message for a key of a kind. -/
def messageOf (kind : Kind) (key : Text) (missingCultures : List Text) : Text :=
  kind.rule.message (match kind with
    | .partialMissing => [key, Text.intercalate ", " missingCultures]
    | _ => [key])

def make (kind : Kind) (key : Text) (location : Location) (missingCultures : List Text := [])
    (culture : Text := "") : Except Text.Utf8.Unwritable Diagnostic :=
  match LocaleKeys.fingerprint kind.rule.id location.path key location.lineStart with
  | .error f => .error f
  | .ok fingerprint =>
    .ok {
      kind, key, location, fingerprint, missingCultures, culture
      message := messageOf kind key missingCultures }

def toJson (d : Diagnostic) : Json :=
  let members : List (Text × Json) := [
    ("diagnostic_id", .str d.id),
    ("kind", .str d.kind.name),
    ("rule_id", .str d.kind.rule.id),
    ("code", .str d.kind.rule.code),
    ("severity", .str d.kind.rule.severity.name),
    ("key", .str d.key),
    ("message", .str d.message),
    ("location", d.location.toJson),
    ("fingerprint", .str d.fingerprint)]
  let cultures : List (Text × Json) :=
    if d.missingCultures.isEmpty then []
    else [("missing_cultures", Json.strings d.missingCultures)]
  let culture : List (Text × Json) :=
    if d.culture = "" then [] else [("culture", .str d.culture)]
  .obj (members ++ cultures ++ culture)

/-- Whether one diagnostic stands before another one in a report: by path, line, column, rule and
key. -/
def before (a b : Diagnostic) : Bool :=
  let order := (compare a.location.path b.location.path).then <|
    (compare a.location.lineStart b.location.lineStart).then <|
    (compare a.location.column b.location.column).then <|
    (compare a.kind.rule.id b.kind.rule.id).then (compare a.key b.key)
  order.isLE

def fourDigits (n : Nat) : Text :=
  let digits := Text.digits n
  Text.ofList (List.replicate (4 - digits.length) (Point.char '0') ++ digits)

/-- The id of the diagnostic at a position: part of its fingerprint and the position. -/
def idAt (d : Diagnostic) (i : Nat) : Text :=
  let digits := (d.fingerprint.toList.drop 7).take 8
  "loc_" ++ Text.ofList digits ++ "_" ++ fourDigits i

/-- Gives diagnostics their ids by position, from `i` on. -/
def numberFrom (i : Nat) : List Diagnostic → List Diagnostic
  | [] => []
  | d :: rest => { d with id := d.idAt i } :: numberFrom (i + 1) rest

/-- Puts diagnostics in report order and gives them their ids. -/
def assignIds (diagnostics : List Diagnostic) : List Diagnostic :=
  numberFrom 0 (diagnostics.mergeSort before)

end Diagnostic
end LocaleKeys
