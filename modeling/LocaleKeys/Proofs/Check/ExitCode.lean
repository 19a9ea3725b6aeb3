import LocaleKeys.Proofs.Check.Report
import LocaleKeys.Proofs.Assoc
import Mathlib.Algebra.Order.Ring.Int

/-!
What the exit code of a check says about the catalog and the usages. The code is read off the document
of the report, as its readers do, so the counts are followed from the findings of the pass through the
tallies into the document and back.
-/

namespace LocaleKeys

/-! Reading counts off a document -/

namespace Json

open Schema (membersOf)

/-- The value behind the names of a path, an empty object where there is none. -/
def under (doc : Json) (path : List Text) : Json :=
  path.foldl (fun value name => (Assoc.get? name (membersOf value)).getD (.obj [])) doc

def number : Json → Int
  | .scalar (.int n) => n
  | _ => 0

/-- The count of a name, zero where there is none. -/
def countOf (counts : Json) (name : Text) : Int :=
  ((Assoc.get? name (membersOf counts)).map number).getD 0

/-- All counts of an object together. -/
def countTotal (counts : Json) : Int :=
  ((membersOf counts).map fun member => member.2.number).sum

end Json

/-- The exit code for the document of a report. -/
def ExitCode.ofDocument (strict : Bool) (doc : Json) : ExitCode :=
  let severities := doc.under ["summary", "counts", "by_severity"]
  if severities.countOf "error" ≠ 0 then .violation
  else if strict && severities.countOf "warning" ≠ 0 then .violation
  else .success

/-! Tallies -/

namespace Report

theorem getD_foldl_tally (s : Text) (texts : List Text) (counts : List (Text × Nat)) :
    (Assoc.get? s (texts.foldl
      (fun counts s => Assoc.update s (fun n => n.getD 0 + 1) counts) counts)).getD 0 =
      (Assoc.get? s counts).getD 0 + texts.count s := by
  induction texts generalizing counts with
  | nil => rfl
  | cons text rest ih =>
      rw [List.foldl_cons, ih, Assoc.get?_update, List.count_cons]
      by_cases hsame : text = s
      · simp only [hsame, beq_self_eq_true, if_true, Option.getD_some]
        omega
      · simp [hsame]

theorem getD_tally (s : Text) (texts : List Text) :
    (Assoc.get? s (tally texts)).getD 0 = texts.count s := by
  rw [tally, getD_foldl_tally, Assoc.get?, Option.getD_none, Nat.zero_add]

theorem sum_update_succ (s : Text) (counts : List (Text × Nat)) :
    ((Assoc.update s (fun n => n.getD 0 + 1) counts).map Prod.snd).sum =
      (counts.map Prod.snd).sum + 1 := by
  induction counts with
  | nil => rfl
  | cons entry rest ih =>
      obtain ⟨name, n⟩ := entry
      rw [Assoc.update]
      split
      · simp only [List.map_cons, List.sum_cons, Option.getD_some]
        omega
      · simp only [List.map_cons, List.sum_cons, ih]
        omega

theorem sum_foldl_tally (texts : List Text) (counts : List (Text × Nat)) :
    ((texts.foldl (fun counts s => Assoc.update s (fun n => n.getD 0 + 1) counts) counts).map
      Prod.snd).sum = (counts.map Prod.snd).sum + texts.length := by
  induction texts generalizing counts with
  | nil => rfl
  | cons text rest ih =>
      rw [List.foldl_cons, ih, sum_update_succ, List.length_cons]
      omega

/-- The counts of a tally add up to the number of texts. -/
theorem sum_tally (texts : List Text) : ((tally texts).map Prod.snd).sum = texts.length := by
  rw [tally, sum_foldl_tally]
  exact Nat.zero_add _

/-! Counts in the document -/

theorem countOf_countsJson (counts : List (Text × Nat)) (name : Text) :
    (countsJson counts).countOf name = (Assoc.get? name counts).getD 0 := by
  rw [Json.countOf, countsJson, Schema.membersOf]
  induction counts with
  | nil => rfl
  | cons entry rest ih =>
      obtain ⟨k, n⟩ := entry
      rw [List.map_cons, Assoc.get?, Assoc.get?]
      split
      · rfl
      · exact ih

theorem countTotal_countsJson (counts : List (Text × Nat)) :
    (countsJson counts).countTotal = (counts.map Prod.snd).sum := by
  rw [Json.countTotal, countsJson, Schema.membersOf]
  induction counts with
  | nil => rfl
  | cons entry rest ih =>
      rw [List.map_cons, List.map_cons, List.sum_cons, ih, List.map_cons, List.sum_cons]
      exact (Int.natCast_add _ _).symm

variable (report : Report)

theorem countOf_severity (severity : Severity) :
    (report.toJson.under ["summary", "counts", "by_severity"]).countOf severity.name =
      report.count severity := by
  have hunder : report.toJson.under ["summary", "counts", "by_severity"] =
      countsJson report.bySeverity := rfl
  have hname : ∀ other : Severity, (other.name == severity.name) = decide (other = severity) := by
    intro other
    cases other <;> cases severity <;> decide
  rw [hunder, countOf_countsJson, bySeverity, getD_tally, count, List.count, List.countP_map]
  simp only [Function.comp_def, hname]

/-- The counts of severities and those of codes each add up to the number of diagnostics. -/
theorem countTotal_eq :
    (report.toJson.under ["summary", "counts", "by_severity"]).countTotal =
        (report.toJson.under ["summary", "counts", "diagnostics_total"]).number ∧
      (report.toJson.under ["summary", "counts", "by_code"]).countTotal =
        (report.toJson.under ["summary", "counts", "diagnostics_total"]).number := by
  have htotal : (report.toJson.under ["summary", "counts", "diagnostics_total"]).number =
      report.diagnostics.length := rfl
  have hseverities : report.toJson.under ["summary", "counts", "by_severity"] =
      countsJson report.bySeverity := rfl
  have hcodes : report.toJson.under ["summary", "counts", "by_code"] =
      countsJson report.byCode := rfl
  rw [htotal, hseverities, hcodes, countTotal_countsJson, countTotal_countsJson, bySeverity, byCode,
    sum_tally, sum_tally, List.length_map, List.length_map]
  exact ⟨rfl, rfl⟩

/-- The code of the process is the one that the document gives. -/
theorem exitCode_eq_ofDocument (strict : Bool) :
    report.exitCode strict = ExitCode.ofDocument strict report.toJson := by
  have herror := countOf_severity report .error
  have hwarning := countOf_severity report .warning
  simp only [Severity.name] at herror hwarning
  simp only [exitCode, ExitCode.ofDocument, herror, hwarning, ne_eq, Int.natCast_eq_zero]

variable {report}

theorem count_eq_zero_iff {severity : Severity} :
    report.count severity = 0 ↔ ∀ d ∈ report.diagnostics, d.kind.rule.severity ≠ severity := by
  simp [count, List.countP_eq_zero]

theorem exitCode_eq_success_iff {strict : Bool} :
    report.exitCode strict = .success ↔
      report.count .error = 0 ∧ (strict = true → report.count .warning = 0) := by
  rw [exitCode]
  cases strict <;> by_cases herror : report.count .error = 0 <;>
    by_cases hwarning : report.count .warning = 0 <;> simp [herror, hwarning]

theorem exitCode_eq_violation_iff {strict : Bool} :
    report.exitCode strict = .violation ↔ report.exitCode strict ≠ .success := by
  rw [exitCode]
  cases strict <;> by_cases herror : report.count .error = 0 <;>
    by_cases hwarning : report.count .warning = 0 <;> simp [herror, hwarning]

end Report

/-! Numbering keeps the diagnostics -/

theorem Kind.severity_cases (kind : Kind) :
    kind.rule.severity = .error ∨ kind.rule.severity = .warning := by
  cases kind <;> decide

namespace Diagnostic

theorem map_kind_numberFrom (i : Nat) (ds : List Diagnostic) :
    (numberFrom i ds).map (·.kind) = ds.map (·.kind) := by
  induction ds generalizing i with
  | nil => rfl
  | cons d rest ih => rw [numberFrom, List.map_cons, List.map_cons, ih]

theorem map_kind_assignIds_perm (ds : List Diagnostic) :
    ((assignIds ds).map (·.kind)).Perm (ds.map (·.kind)) := by
  rw [assignIds, map_kind_numberFrom]
  exact (List.mergeSort_perm ds before).map _

theorem length_assignIds (ds : List Diagnostic) : (assignIds ds).length = ds.length := by
  simpa using (map_kind_assignIds_perm ds).length_eq

theorem forall_kind_assignIds {ds : List Diagnostic} {p : Kind → Prop} :
    (∀ d ∈ assignIds ds, p d.kind) ↔ ∀ d ∈ ds, p d.kind := by
  have hmem : ∀ kind, kind ∈ (assignIds ds).map (·.kind) ↔ kind ∈ ds.map (·.kind) :=
    fun _ => (map_kind_assignIds_perm ds).mem_iff
  have hall : ∀ ds : List Diagnostic,
      (∀ d ∈ ds, p d.kind) ↔ ∀ kind ∈ ds.map (·.kind), p kind :=
    fun _ => List.forall_mem_map.symm
  rw [hall, hall]
  simp only [hmem]

end Diagnostic

/-! The contract -/

namespace Catalog

/-- Nothing that is an error: no key is defined twice in a file, and every used key is defined. -/
def Sound (catalog : Catalog) (usages : List Usage) : Prop :=
  catalog.duplicates = [] ∧
    ∀ usage ∈ usages, Engine.isBlankKey usage.key = false → catalog.Defines usage.key

/-- Nothing left to warn about: every key is used, and where several cultures are compared each of
them defines every used key. -/
def Tidy (catalog : Catalog) (settings : Settings) (usages : List Usage) : Prop :=
  (∀ key ∈ catalog.keys, catalog.IsUsed usages key) ∧
    (settings.warnPartial = true → 1 < (catalog.effectiveCultures settings.cultures).length →
      ∀ usage ∈ usages, Engine.isBlankKey usage.key = false →
        ∀ culture ∈ catalog.effectiveCultures settings.cultures,
          catalog.DefinesIn usage.key culture)

variable {catalog : Catalog} {settings : Settings} {usages : List Usage}

theorem lacking_eq_nil_iff {key : Text} :
    catalog.lacking settings key = [] ↔
      ∀ culture ∈ catalog.effectiveCultures settings.cultures, catalog.DefinesIn key culture := by
  simp [lacking, List.filter_eq_nil_iff]

theorem unusedEntries_eq_nil_iff :
    catalog.unusedEntries usages = [] ↔ ∀ key ∈ catalog.keys, catalog.IsUsed usages key := by
  rw [keys_eq, List.forall_mem_map, unusedEntries, List.filter_eq_nil_iff]
  simp

/-- The errors of a pass are the usages of unknown keys and the duplicates. -/
theorem forall_not_error_iff :
    (∀ d ∈ catalog.findings settings usages, d.kind.rule.severity ≠ .error) ↔
      catalog.Sound usages := by
  constructor
  · intro h
    constructor
    · refine List.eq_nil_iff_forall_not_mem.mpr fun duplicate hmem => ?_
      refine h _ (List.mem_append_right _ (List.mem_map_of_mem hmem)) ?_
      rfl
    · intro usage husage hblank
      by_contra hkey
      have hfound : catalog.usageDiagnostic? settings usage = _ :=
        usageDiagnostic?_of_not_defines hblank hkey
      refine h _ (List.mem_append_left _ (List.mem_append_left _
        (List.mem_filterMap.mpr ⟨usage, husage, hfound⟩))) ?_
      rfl
  · rintro ⟨hduplicates, hdefined⟩ d hd
    obtain ⟨usage, husage, hfound⟩ | ⟨e, -, rfl⟩ | ⟨duplicate, hmem, -⟩ := mem_findings hd
    · obtain ⟨-, hkey⟩ | ⟨rfl, -⟩ := usageDiagnostic?_cases hfound
      · have hblank : Engine.isBlankKey usage.key = false := by
          by_contra hblank
          rw [usageDiagnostic?_eq_none_iff.mpr (Or.inl (Bool.not_eq_false _ ▸ hblank))] at hfound
          cases hfound
        exact absurd (hdefined usage husage hblank) hkey
      · exact nofun
    · exact nofun
    · rw [hduplicates] at hmem
      cases hmem

theorem findings_eq_nil_iff :
    catalog.findings settings usages = [] ↔
      catalog.Sound usages ∧ catalog.Tidy settings usages := by
  rw [findings, List.append_eq_nil_iff, List.append_eq_nil_iff, List.map_eq_nil_iff,
    List.map_eq_nil_iff, List.filterMap_eq_nil_iff, unusedEntries_eq_nil_iff, Sound, Tidy]
  simp only [usageDiagnostic?_eq_none_iff, lacking_eq_nil_iff]
  constructor
  · rintro ⟨⟨husages, hused⟩, hduplicates⟩
    have hknown : ∀ usage ∈ usages, Engine.isBlankKey usage.key = false → _ :=
      fun usage husage hblank => (husages usage husage).resolve_left (by simp [hblank])
    exact ⟨⟨hduplicates, fun usage husage hblank => (hknown usage husage hblank).1⟩, hused,
      fun hwarn hmany usage husage hblank => (hknown usage husage hblank).2 hwarn hmany⟩
  · rintro ⟨⟨hduplicates, hdefined⟩, hused, hcultures⟩
    refine ⟨⟨fun usage husage => ?_, hused⟩, hduplicates⟩
    cases hblank : Engine.isBlankKey usage.key with
    | true => exact Or.inl rfl
    | false =>
        exact Or.inr ⟨hdefined usage husage hblank,
          fun hwarn hmany => hcultures hwarn hmany usage husage hblank⟩

end Catalog

namespace Report

variable (runId createdAt root : Text) (settings : Settings) (catalog : Catalog)
variable (usageCount sourceFiles : Nat) (usages : List Usage)

/-- What the exit code of a complete pass means. Without strictness it is success exactly if the catalog
has no duplicates and defines every used key; with strictness every key must be used as well, and where
several cultures are compared each of them must define every used key. Otherwise it is a violation. The
document, from which the code can be read, counts each diagnostic once by severity and once by code. A
pass is complete if the path and the key of each diagnostic have bytes. -/
theorem exitCode_of_pass :
    (∀ ds, ((Engine.start catalog settings).analyze usages).2 = .ok ds →
      let report := ofFindings runId createdAt root settings catalog usageCount sourceFiles ds
      let doc := report.toJson
      (∀ strict, report.exitCode strict = ExitCode.ofDocument strict doc) ∧
      (∀ strict, ExitCode.ofDocument strict doc = .success ∨
        ExitCode.ofDocument strict doc = .violation) ∧
      (ExitCode.ofDocument false doc = .success ↔ catalog.Sound usages) ∧
      (ExitCode.ofDocument true doc = .success ↔
        catalog.Sound usages ∧ catalog.Tidy settings usages) ∧
      (doc.under ["summary", "counts", "by_severity"]).countTotal = ds.length ∧
      (doc.under ["summary", "counts", "by_code"]).countTotal = ds.length ∧
      (doc.under ["summary", "counts", "diagnostics_total"]).number = ds.length) ∧
      ((∃ ds, ((Engine.start catalog settings).analyze usages).2 = .ok ds) ↔
        ∀ d ∈ catalog.findings settings usages, d.HasBytes) := by
  have hkinds : ∀ severity,
      (ofFindings runId createdAt root settings catalog usageCount sourceFiles
        (catalog.findings settings usages)).count severity = 0 ↔
        ∀ d ∈ catalog.findings settings usages, d.kind.rule.severity ≠ severity :=
    fun severity => count_eq_zero_iff.trans
      (Diagnostic.forall_kind_assignIds (p := fun kind => kind.rule.severity ≠ severity))
  refine ⟨fun ds hds => ?_, Engine.exists_analyze_start_iff usages catalog settings⟩
  obtain ⟨-, rfl⟩ := (Engine.analyze_start_eq_ok_iff usages catalog settings).mp hds
  intro report doc
  have hcode : ∀ strict, report.exitCode strict = ExitCode.ofDocument strict doc :=
    exitCode_eq_ofDocument report
  have hlength : (doc.under ["summary", "counts", "diagnostics_total"]).number =
      (catalog.findings settings usages).length :=
    congrArg Nat.cast (Diagnostic.length_assignIds _)
  obtain ⟨hseverities, hcodes⟩ := countTotal_eq report
  refine ⟨hcode, fun strict => ?_, ?_, ?_, hseverities.trans hlength, hcodes.trans hlength, hlength⟩
  · rw [← hcode, exitCode_eq_violation_iff]
    exact em _
  · rw [← hcode, exitCode_eq_success_iff, hkinds, Catalog.forall_not_error_iff]
    simp
  · rw [← hcode, exitCode_eq_success_iff, hkinds, hkinds, ← Catalog.findings_eq_nil_iff]
    refine ⟨fun ⟨hnoError, hnoWarning⟩ => ?_, fun hnone => ?_⟩
    · refine List.eq_nil_iff_forall_not_mem.mpr fun d hd => ?_
      cases Kind.severity_cases d.kind with
      | inl herror => exact hnoError d hd herror
      | inr hwarning => exact hnoWarning rfl d hd hwarning
    · rw [hnone]
      exact ⟨nofun, fun _ => nofun⟩

/-- No error and yet no success: the pass is not complete. -/
theorem exitCode_halfKey :
    let catalog : Catalog :=
      { entries := [⟨Engine.halfKey, "en", { path := "en.json" }, .int 1⟩] }
    catalog.Sound [] ∧ Fails ((Engine.start catalog {}).analyze []).2 :=
  ⟨⟨rfl, nofun⟩, by decide⟩

end Report
end LocaleKeys
