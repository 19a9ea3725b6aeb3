import LocaleKeys.Check.Report
import LocaleKeys.Proofs.Assoc
import LocaleKeys.Proofs.Schema.Accepts
import LocaleKeys.Proofs.Text.Point

/-!
The schema of reports part by part: what each part of a report has to be so that its schema accepts
it. Most parts are accepted as they are; a report as a whole comes down to its diagnostics.
-/

namespace LocaleKeys

/-- Lines and columns are counted from one. -/
def Location.IsProper (l : Location) : Prop :=
  1 ≤ l.lineStart ∧ 1 ≤ l.lineEnd ∧ 1 ≤ l.column

instance (l : Location) : Decidable l.IsProper :=
  inferInstanceAs (Decidable (_ ∧ _))

namespace Schema

/-! Small schemas -/

@[simp]
theorem accepts_text (s : Text) : Accepts text (.str s) := by
  simp [text, accepts_all, accepts_type, ValueType.holds]

@[simp]
theorem accepts_nonEmptyString (s : Text) : Accepts nonEmptyString (.str s) ↔ s ≠ "" := by
  simp [nonEmptyString, accepts_all, accepts_type, ValueType.holds, accepts_nonEmptyText]

@[simp]
theorem accepts_integerFrom (bound : Nat) (n : Int) :
    Accepts (integerFrom bound) (.int n) ↔ bound ≤ n := by
  simp [integerFrom, accepts_all, accepts_type, ValueType.holds, accepts_minimum]

@[simp]
theorem accepts_fitting (p : Pattern) (s : Text) :
    Accepts (fitting p) (.str s) ↔ p.fits s.toList = true := by
  simp [fitting, accepts_all, accepts_type, ValueType.holds, accepts_pattern]

@[simp]
theorem accepts_oneOf (choices : List Text) (s : Text) :
    Accepts (oneOf choices) (.str s) ↔ s ∈ choices := by
  simp [oneOf, accepts_all, accepts_enum]

theorem accepts_array (schema : Schema) (elements : List Json) :
    Accepts (.all [.type .array, .items schema]) (.arr elements) ↔
      ∀ v ∈ elements, Accepts schema v := by
  simp [accepts_all, accepts_type, ValueType.holds, accepts_items]

@[simp]
theorem accepts_texts (words : List Text) : Accepts texts (.strings words) := by
  rw [texts, Json.strings, accepts_array, List.forall_mem_map]
  exact fun s _ => accepts_text s

theorem accepts_object (open_ : Bool) (required : List Text) (schemas : List (Text × Schema))
    (members : List (Text × Json)) :
    Accepts (object open_ required schemas) (.obj members) ↔
      (open_ = false → ∀ member ∈ members, member.1 ∈ schemas.map (·.1)) ∧
        (∀ name ∈ required, Assoc.has name members = true) ∧
          ∀ named ∈ schemas, ∀ member,
            Assoc.get? named.1 members = some member → Accepts named.2 member := by
  cases open_ <;>
    simp [object, accepts_all, accepts_type, ValueType.holds, accepts_closed, accepts_required,
      accepts_properties, membersOf]

/-- The members of an object whose names are those of its schemas, one by one. -/
theorem members_accepted_iff {schemas : List (Text × Schema)} {members : List (Text × Json)}
    (hnames : Assoc.keys members = Assoc.keys schemas) (hnodup : (Assoc.keys schemas).Nodup) :
    (∀ named ∈ schemas, ∀ member, Assoc.get? named.1 members = some member →
        Accepts named.2 member) ↔
      List.Forall₂ (fun named member => Accepts named.2 member.2) schemas members := by
  induction schemas generalizing members with
  | nil =>
      obtain rfl : members = [] := List.map_eq_nil_iff.mp hnames
      simp
  | cons named rest ih =>
      cases members with
      | nil => cases hnames
      | cons member members =>
          obtain ⟨hname, hrest⟩ := List.cons.inj hnames
          obtain ⟨hnew, hnodup⟩ := List.nodup_cons.mp hnodup
          have hlater : ∀ later ∈ rest,
              Assoc.get? later.1 (member :: members) = Assoc.get? later.1 members := by
            intro later hlater
            have hne : ¬ member.1 = later.1 := by
              intro heq
              exact hnew (hname ▸ heq ▸ List.mem_map_of_mem hlater)
            rw [Assoc.get?, if_neg (by simpa using hne)]
          rw [List.forall_mem_cons, List.forall₂_cons, ← ih hrest hnodup]
          refine and_congr ?_ ?_
          · simp [Assoc.get?, hname]
          · refine forall₂_congr fun later h => ?_
            rw [hlater later h]

/-- An object with exactly the members that its schema knows is accepted if they are, one by one. -/
theorem accepts_object_iff {open_ : Bool} {required : List Text}
    {schemas : List (Text × Schema)} {members : List (Text × Json)}
    (hnames : Assoc.keys members = Assoc.keys schemas) (hnodup : (Assoc.keys schemas).Nodup)
    (hrequired : ∀ name ∈ required, name ∈ Assoc.keys schemas) :
    Accepts (object open_ required schemas) (.obj members) ↔
      List.Forall₂ (fun named member => Accepts named.2 member.2) schemas members := by
  rw [accepts_object, members_accepted_iff hnames hnodup, ← and_assoc, and_iff_right]
  refine ⟨fun _ member hmember => ?_, fun name hname => ?_⟩
  · have hkey : member.1 ∈ Assoc.keys members := List.mem_map_of_mem hmember
    rwa [hnames] at hkey
  · rw [Assoc.has_iff, hnames]
    exact hrequired name hname

/-! Diagnostics -/

theorem accepts_location (l : Location) : Accepts location l.toJson ↔ l.IsProper := by
  rw [location, Location.toJson, accepts_object_iff rfl (by decide) (by decide)]
  simp [Location.IsProper]

def idPattern : Pattern :=
  [.words "loc_", .chars hexRanges 8, .words "_", .chars digitRanges 4]

def fingerprintPattern : Pattern :=
  [.words "sha256:", .chars hexRanges 64]

theorem ruleId_fits (kind : Kind) :
    Pattern.fits [.words "LOC", .chars digitRanges 3] kind.rule.id.toList = true := by
  cases kind <;> decide

theorem kind_mem (kind : Kind) : kind.name ∈ Kind.all.map Kind.name :=
  List.mem_map_of_mem (by cases kind <;> decide)

theorem code_mem (kind : Kind) : kind.rule.code ∈ ruleCodes := by
  cases kind <;> decide

theorem severity_mem (severity : Severity) : severity.name ∈ severityNames :=
  List.mem_map_of_mem (by cases severity <;> decide)

theorem accepts_lacking (words : List Text) :
    Accepts (.all [.type .array, .items text, .nonEmptyArray]) (.strings words) ↔ words ≠ [] := by
  simp [Json.strings, accepts_all, accepts_type, ValueType.holds, accepts_items,
    accepts_nonEmptyArray]

/-- A member that is left out under a condition is looked up like one that is there otherwise. -/
theorem get?_unless (key : Text) (c : Prop) [Decidable c] (name : Text) (v : Json) :
    Assoc.get? key (if c then [] else [(name, v)]) =
      if c then none else if name == key then some v else none := by
  split <;> rfl

theorem forall_mem_unless {c : Prop} [Decidable c] {member : Text × Json}
    {P : Text × Json → Prop} :
    (∀ m ∈ if c then [] else [member], P m) ↔ (¬ c → P member) := by
  split <;> simp [*]

/-- Of a diagnostic, the schema restricts the id, the fingerprint and the location. -/
theorem accepts_diagnostic (d : Diagnostic) :
    Accepts diagnostic d.toJson ↔ idPattern.fits d.id.toList = true ∧
      fingerprintPattern.fits d.fingerprint.toList = true ∧ d.location.IsProper := by
  have hkind := kind_mem d.kind
  have hrule := ruleId_fits d.kind
  have hcode := code_mem d.kind
  have hseverity := severity_mem d.kind.rule.severity
  rw [diagnostic, Diagnostic.toJson, accepts_object, idPattern, fingerprintPattern,
    List.forall_mem_append, List.forall_mem_append, forall_mem_unless, forall_mem_unless]
  simp [Assoc.has, Assoc.get?, Assoc.get?_append, get?_unless, accepts_lacking, accepts_location,
    -List.mem_map, hkind, hrule, hcode, hseverity]
  exact fun _ => and_comm

/-! Counts -/

theorem mem_keys_tally {texts : List Text} {counts : List (Text × Nat)} {name : Text}
    (h : name ∈ Assoc.keys
      (texts.foldl (fun counts s => Assoc.update s (fun n => n.getD 0 + 1) counts) counts)) :
    name ∈ Assoc.keys counts ∨ name ∈ texts := by
  induction texts generalizing counts with
  | nil => exact Or.inl h
  | cons s rest ih =>
      cases ih h with
      | inr later => exact Or.inr (List.mem_cons_of_mem _ later)
      | inl here =>
          rw [Assoc.keys_update] at here
          split at here
          · exact Or.inl here
          · cases List.mem_append.mp here with
            | inl old => exact Or.inl old
            | inr new => exact Or.inr (by rw [List.mem_singleton.mp new]; exact List.mem_cons_self)

theorem mem_tally {texts : List Text} {count : Text × Nat} (h : count ∈ Report.tally texts) :
    count.1 ∈ texts :=
  (mem_keys_tally (List.mem_map_of_mem h)).resolve_left List.not_mem_nil

theorem accepts_countsBy (choices : List Text) (counts : List (Text × Nat)) :
    Accepts (countsBy choices) (Report.countsJson counts) ↔ ∀ count ∈ counts, count.1 ∈ choices := by
  rw [countsBy, Report.countsJson, accepts_all, List.forall_mem_cons, List.forall_mem_cons,
    List.forall_mem_singleton, accepts_type, accepts_names, accepts_others, membersOf,
    List.forall_mem_map, List.forall_mem_map]
  simp [ValueType.holds]

theorem accepts_tally {choices : List Text} {name : Diagnostic → Text}
    (hname : ∀ d, name d ∈ choices) (ds : List Diagnostic) :
    Accepts (countsBy choices) (Report.countsJson (Report.tally (ds.map name))) := by
  rw [accepts_countsBy]
  intro count hcount
  obtain ⟨d, -, hd⟩ := List.mem_map.mp (mem_tally hcount)
  rw [← hd]
  exact hname d

theorem accepts_counts (counts : List (Text × Nat)) :
    Accepts (.all [.type .object, .others [] (integerFrom 0)]) (Report.countsJson counts) := by
  rw [Report.countsJson, accepts_all, List.forall_mem_cons, List.forall_mem_singleton, accepts_type,
    accepts_others, membersOf, List.forall_mem_map]
  simp [ValueType.holds]

/-! A report -/

theorem accepts_run (report : Report) :
    Accepts run report.runJson ↔ report.runId ≠ "" ∧ report.createdAt ≠ "" := by
  rw [run, Report.runJson, accepts_object_iff rfl (by decide) (by decide)]
  simp [accepts_all, accepts_type, ValueType.holds]

theorem accepts_summary (report : Report) : Accepts summary report.summaryJson := by
  have hseverity := accepts_tally (fun d => severity_mem d.kind.rule.severity) report.diagnostics
  have hcode := accepts_tally (fun d => code_mem d.kind) report.diagnostics
  rw [summary, Report.summaryJson, accepts_object_iff rfl (by decide) (by decide)]
  refine .cons ?_ (.cons ?_ (.cons ?_ .nil))
  · simp
  · simp
  · rw [accepts_object_iff rfl (by decide) (by decide)]
    simp [Report.bySeverity, Report.byCode, hseverity, hcode]

theorem accepts_catalog (c : Catalog) (explicit : List Text) :
    Accepts catalog (c.summary explicit) := by
  have hcounts := accepts_counts c.keyCounts
  rw [Report.countsJson] at hcounts
  rw [catalog, Catalog.summary, accepts_object_iff rfl (by decide) (by decide)]
  simp [hcounts]

/-- Of a report, the schema restricts the id and the time of the run and the diagnostics. -/
theorem accepts_report (r : Report) :
    Accepts report r.toJson ↔ r.runId ≠ "" ∧ r.createdAt ≠ "" ∧
      ∀ d ∈ r.diagnostics, Accepts diagnostic d.toJson := by
  have hsummary := accepts_summary r
  have hcatalog := accepts_catalog r.catalog r.settings.cultures
  have hversion : Accepts (.all [.const reportVersion]) (.str reportVersion) := by
    simp [accepts_all, accepts_const, isText]
  rw [report, Report.toJson, accepts_object_iff rfl (by decide) (by decide)]
  simp [hversion, hsummary, hcatalog, accepts_run, accepts_array, and_assoc]

end Schema
end LocaleKeys
