import LocaleKeys.Catalog.Basic
import LocaleKeys.Diagnostic
import LocaleKeys.ExitCode
import LocaleKeys.Schema.Report
import LocaleKeys.Settings.Basic

/-!
The report of a check: what identifies the run, what was counted, an overview of the catalog, and the
diagnostics in report order.
-/

namespace LocaleKeys

/-- A report. The root is shown as it is given here. -/
structure Report where
  runId : Text
  createdAt : Text
  root : Text
  settings : Settings
  catalog : Catalog
  usageCount : Nat
  sourceFiles : Nat
  diagnostics : List Diagnostic

namespace Report

def toolVersion : Text := "0.1.0"

def engineVersion : Text := "engine_v1"

/-- How often each text occurs, in the order of first occurrence. -/
def tally (texts : List Text) : List (Text × Nat) :=
  texts.foldl (fun counts s => Assoc.update s (fun n => n.getD 0 + 1) counts) []

def bySeverity (report : Report) : List (Text × Nat) :=
  tally (report.diagnostics.map (·.kind.rule.severity.name))

def byCode (report : Report) : List (Text × Nat) :=
  tally (report.diagnostics.map (·.kind.rule.code))

def count (report : Report) (severity : Severity) : Nat :=
  report.diagnostics.countP (·.kind.rule.severity = severity)

def countsJson (counts : List (Text × Nat)) : Json :=
  .obj (counts.map fun (name, n) => (name, .int n))

def runJson (report : Report) : Json :=
  .obj [
    ("run_id", .str report.runId),
    ("created_at", .str report.createdAt),
    ("tool_version", .str toolVersion),
    ("engine_version", .str engineVersion),
    ("config", .obj (("root", .str report.root) :: report.settings.members))]

def summaryJson (report : Report) : Json :=
  .obj [
    ("usage_count", .int report.usageCount),
    ("source_files", .int report.sourceFiles),
    ("counts", .obj [
      ("diagnostics_total", .int report.diagnostics.length),
      ("by_severity", countsJson report.bySeverity),
      ("by_code", countsJson report.byCode)])]

def toJson (report : Report) : Json :=
  .obj [
    ("schema_version", .str Schema.reportVersion),
    ("run", report.runJson),
    ("summary", report.summaryJson),
    ("catalog", report.catalog.summary report.settings.cultures),
    ("diagnostics", .arr (report.diagnostics.map Diagnostic.toJson))]

/-- The exit code for a report: errors are violations, and warnings are too if they are to count. -/
def exitCode (strict : Bool) (report : Report) : ExitCode :=
  if report.count .error ≠ 0 then .violation
  else if strict && report.count .warning ≠ 0 then .violation
  else .success

end Report
end LocaleKeys
