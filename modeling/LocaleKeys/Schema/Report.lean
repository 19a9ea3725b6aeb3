import LocaleKeys.Schema.Basic
import LocaleKeys.Diagnostic

/-!
The schema of check reports.
-/

namespace LocaleKeys.Schema

/-- An object with the given members, all or some of them required. -/
def object (open_ : Bool) (required : List Text) (members : List (Text × Schema)) : Schema :=
  .all (
    [.type .object] ++ (if open_ then [] else [.closed (members.map (·.1))]) ++
      [.required required, .properties members])

def text : Schema := .all [.type .string]

def nonEmptyString : Schema := .all [.type .string, .nonEmptyText]

def integerFrom (bound : Nat) : Schema := .all [.type .integer, .minimum bound]

def fitting (pattern : Pattern) : Schema := .all [.type .string, .pattern pattern]

def texts : Schema := .all [.type .array, .items text]

def oneOf (choices : List Text) : Schema := .all [.enum choices]

/-- An object of counts whose names are among some texts. -/
def countsBy (choices : List Text) : Schema :=
  .all [.type .object, .names (oneOf choices), .others [] (integerFrom 0)]

def severityNames : List Text := [Severity.info, .warning, .error].map Severity.name

def ruleCodes : List Text := Rule.all.map (·.code)

def hexRanges : List (Point × Point) := [('0', '9'), ('a', 'f')]

def digitRanges : List (Point × Point) := [('0', '9')]

def location : Schema :=
  object false ["path", "line_start", "line_end", "column"] [
    ("path", text),
    ("line_start", integerFrom 1),
    ("line_end", integerFrom 1),
    ("column", integerFrom 1)]

def diagnostic : Schema :=
  object false
    ["diagnostic_id", "kind", "rule_id", "code", "severity", "key", "message", "location",
      "fingerprint"] [
    ("diagnostic_id",
      fitting [.words "loc_", .chars hexRanges 8, .words "_", .chars digitRanges 4]),
    ("kind", oneOf (Kind.all.map Kind.name)),
    ("rule_id", fitting [.words "LOC", .chars digitRanges 3]),
    ("code", oneOf ruleCodes),
    ("severity", oneOf severityNames),
    ("key", text),
    ("message", text),
    ("location", location),
    ("fingerprint", fitting [.words "sha256:", .chars hexRanges 64]),
    ("missing_cultures", .all [.type .array, .items text, .nonEmptyArray]),
    ("culture", text)]

def run : Schema :=
  object false ["run_id", "created_at", "tool_version", "engine_version", "config"] [
    ("run_id", nonEmptyString),
    ("created_at", nonEmptyString),
    ("tool_version", text),
    ("engine_version", text),
    ("config", .all [.type .object])]

def summary : Schema :=
  object false ["usage_count", "source_files", "counts"] [
    ("usage_count", integerFrom 0),
    ("source_files", integerFrom 0),
    ("counts", object false ["diagnostics_total", "by_severity", "by_code"] [
      ("diagnostics_total", integerFrom 0),
      ("by_severity", countsBy severityNames),
      ("by_code", countsBy ruleCodes)])]

def catalog : Schema :=
  object true
    ["key_count", "cultures", "effective_cultures", "keys_by_culture", "duplicate_count",
      "files_parsed", "files_skipped"] [
    ("key_count", integerFrom 0),
    ("cultures", texts),
    ("effective_cultures", texts),
    ("keys_by_culture", .all [.type .object, .others [] (integerFrom 0)]),
    ("duplicate_count", integerFrom 0),
    ("files_parsed", texts),
    ("files_skipped", texts)]

def reportVersion : Text := "check_result_v1"

def report : Schema :=
  object false ["schema_version", "run", "summary", "catalog", "diagnostics"] [
    ("schema_version", .all [.const reportVersion]),
    ("run", run),
    ("summary", summary),
    ("catalog", catalog),
    ("diagnostics", .all [.type .array, .items diagnostic])]

end LocaleKeys.Schema
