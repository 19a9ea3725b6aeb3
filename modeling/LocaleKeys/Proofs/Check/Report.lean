import LocaleKeys.Check.Run
import LocaleKeys.Proofs.Engine.Pass
import LocaleKeys.Proofs.Hash.Digest
import LocaleKeys.Proofs.Platform
import LocaleKeys.Proofs.Schema.Report
import Mathlib.Data.Nat.Init

/-!
Reports of passes against the schema of reports. Fingerprints and most of an id come from digests and
always fit; the running number of an id has four digits as long as there are enough of them.
-/

namespace LocaleKeys

open Schema (Pattern InRanges hexRanges digitRanges idPattern fingerprintPattern fits_words fits_chars)

namespace Diagnostic

/-! Fingerprints -/

def Hashed (d : Diagnostic) : Prop :=
  ∃ message, d.fingerprint = "sha256:" ++ Sha256.hexDigest message

theorem hashed_draft (kind : Kind) (key : Text) (location : Location)
    (missingCultures : List Text) (culture : Text) :
    (draft kind key location missingCultures culture).Hashed :=
  ⟨_, rfl⟩

theorem inRanges_hexDigest (message : List UInt8) :
    InRanges hexRanges (Sha256.hexDigest message).toList := by
  have hdigit : ∀ n < 16, hexRanges.any
      (fun r => r.1 ≤ Nat.digitChar n && Nat.digitChar n ≤ r.2) = true := by decide
  intro c hc
  obtain ⟨n, hn, rfl⟩ := Sha256.mem_hexDigest hc
  exact hdigit n hn

theorem fingerprint_fits {d : Diagnostic} (h : d.Hashed) :
    fingerprintPattern.fits d.fingerprint.toList = true := by
  obtain ⟨message, heq⟩ := h
  have hfits := fits_chars (inRanges_hexDigest message) [] []
  rw [Sha256.length_hexDigest, List.append_nil] at hfits
  rw [heq, Text.toList_append, fingerprintPattern, fits_words, hfits]
  rfl

/-! Ids -/

theorem inRanges_digits {digits : List Point} (h : ∀ c ∈ digits, c.isDigit = true) :
    InRanges digitRanges digits := by
  intro c hc
  have hdigit := h c hc
  cases c with
  | half n => cases hdigit
  | char c =>
      rw [Point.isDigit_char, Char.isDigit, Bool.and_eq_true, decide_eq_true_iff,
        decide_eq_true_iff] at hdigit
      have hrange : Point.char '0' ≤ Point.char c ∧ Point.char c ≤ Point.char '9' := hdigit
      simp [digitRanges, hrange]

theorem isDigit_of_mem_fourDigits {n : Nat} {c : Point} (h : c ∈ (fourDigits n).toList) :
    c.isDigit = true := by
  rw [fourDigits, Text.toList_ofList, List.mem_append] at h
  cases h with
  | inl zero => rw [List.eq_of_mem_replicate zero]; rfl
  | inr digit => exact Number.isDigit_of_mem_toDigits digit

theorem length_fourDigits (n : Nat) :
    (fourDigits n).toList.length = max 4 (Text.digits n).length := by
  rw [fourDigits, Text.toList_ofList, List.length_append, List.length_replicate]
  omega

theorem fourDigits_fits_iff (n : Nat) :
    Pattern.fits [.chars digitRanges 4] (fourDigits n).toList = true ↔ n < 10000 := by
  have hlength := length_fourDigits n
  have hdigits : ∀ c ∈ (fourDigits n).toList, c.isDigit = true :=
    fun _ => isDigit_of_mem_fourDigits
  generalize (fourDigits n).toList = s at hlength hdigits
  have hfour : (s.take 4).length = 4 := by
    rw [List.length_take]
    omega
  have hranges : InRanges digitRanges (s.take 4) :=
    inRanges_digits fun c hc => hdigits c (List.mem_of_mem_take hc)
  have hfits := fits_chars hranges [] (s.drop 4)
  rw [hfour, List.take_append_drop] at hfits
  have hfeed : s.drop 4 ≠ [Point.char '\n'] := by
    intro heq
    have hmem : Point.char '\n' ∈ s := List.mem_of_mem_drop (heq ▸ List.mem_singleton_self _)
    exact absurd (hdigits _ hmem) (by decide)
  have hend : Pattern.fits [] (s.drop 4) = true ↔ s.drop 4 = [] := by
    simp [Pattern.fits, hfeed]
  rw [hfits, hend, List.drop_eq_nil_iff, hlength,
    show max 4 (Text.digits n).length ≤ 4 ↔ (Text.digits n).length ≤ 4 by omega]
  exact Number.length_digits_le (by decide)

/-- The id at a position fits as long as the position has no more than four digits. -/
theorem idAt_fits_iff {d : Diagnostic} (h : d.Hashed) (i : Nat) :
    idPattern.fits (d.idAt i).toList = true ↔ i < 10000 := by
  obtain ⟨message, heq⟩ := h
  have hdigits : d.fingerprint.toList.drop 7 = (Sha256.hexDigest message).toList := by
    rw [heq, Text.toList_append]
    rfl
  have height : ((Sha256.hexDigest message).toList.take 8).length = 8 := by
    rw [List.length_take, Sha256.length_hexDigest]
    rfl
  have hranges : InRanges hexRanges ((Sha256.hexDigest message).toList.take 8) :=
    fun c hc => inRanges_hexDigest message c (List.mem_of_mem_take hc)
  have hchars := fits_chars hranges
  rw [height] at hchars
  rw [idAt, hdigits, Text.toList_append, Text.toList_append, Text.toList_append,
    @Text.toList_ofList (((Sha256.hexDigest message).toList).take 8), List.append_assoc,
    List.append_assoc, idPattern, fits_words, hchars, fits_words, fourDigits_fits_iff]

/-! Numbered diagnostics -/

theorem accepts_numberFrom {ds : List Diagnostic} (h : ∀ d ∈ ds, d.Hashed) (i : Nat) :
    (∀ d ∈ numberFrom i ds, Schema.Accepts Schema.diagnostic d.toJson) ↔
      (∀ d ∈ ds, d.location.IsProper) ∧ ∀ j < ds.length, i + j < 10000 := by
  induction ds generalizing i with
  | nil => simp [numberFrom]
  | cons d rest ih =>
      obtain ⟨hd, hrest⟩ := List.forall_mem_cons.mp h
      have hid : Schema.Accepts Schema.diagnostic ({ d with id := d.idAt i } : Diagnostic).toJson ↔
          d.location.IsProper ∧ i < 10000 := by
        rw [Schema.accepts_diagnostic]
        simp only [idAt_fits_iff hd, fingerprint_fits hd, true_and]
        exact and_comm
      have hpositions : (∀ j < rest.length + 1, i + j < 10000) ↔
          i < 10000 ∧ ∀ j < rest.length, i + 1 + j < 10000 := by
        rw [Nat.forall_lt_succ_left]
        simp only [Nat.add_zero, Nat.add_assoc, Nat.add_comm 1]
      rw [numberFrom, List.forall_mem_cons, List.forall_mem_cons, hid, ih hrest, List.length_cons,
        hpositions]
      exact and_and_and_comm

theorem accepts_assignIds {ds : List Diagnostic} (h : ∀ d ∈ ds, d.Hashed) :
    (∀ d ∈ assignIds ds, Schema.Accepts Schema.diagnostic d.toJson) ↔
      (∀ d ∈ ds, d.location.IsProper) ∧ ds.length ≤ 10000 := by
  have hsorted : ∀ d ∈ ds.mergeSort before, d.Hashed := fun d hd => h d (List.mem_mergeSort.mp hd)
  have hpositions : (∀ j < ds.length, 0 + j < 10000) ↔ ds.length ≤ 10000 := by
    constructor
    · intro hall
      by_contra hmore
      exact absurd (hall 10000 (by omega)) (by omega)
    · intro hfew j hj
      omega
  rw [assignIds, accepts_numberFrom hsorted, List.length_mergeSort, hpositions]
  simp only [List.mem_mergeSort]

end Diagnostic

/-! Reports of passes -/

namespace Catalog

variable {catalog : Catalog} {settings : Settings} {usages : List Usage} {d : Diagnostic}

theorem hashed_of_mem_findings (h : d ∈ catalog.findings settings usages) : d.Hashed := by
  obtain ⟨usage, -, hd⟩ | ⟨e, -, rfl⟩ | ⟨duplicate, -, rfl⟩ := mem_findings h
  · obtain ⟨rfl, -⟩ | ⟨rfl, -⟩ := usageDiagnostic?_cases hd
    · exact Diagnostic.hashed_draft _ _ _ _ _
    · exact Diagnostic.hashed_draft _ _ _ _ _
  · exact Diagnostic.hashed_draft _ _ _ _ _
  · exact Diagnostic.hashed_draft _ _ _ _ _

/-- A diagnostic stands where a usage, an entry or a duplicate does. -/
theorem location_of_mem_findings (h : d ∈ catalog.findings settings usages) :
    d.location ∈ usages.map (·.location) ∨ d.location ∈ catalog.entries.map (·.location) ∨
      d.location ∈ catalog.duplicates.map (·.location) := by
  obtain ⟨usage, husage, hd⟩ | ⟨e, he, rfl⟩ | ⟨duplicate, hduplicate, rfl⟩ := mem_findings h
  · refine Or.inl (List.mem_map.mpr ⟨usage, husage, ?_⟩)
    obtain ⟨rfl, -⟩ | ⟨rfl, -⟩ := usageDiagnostic?_cases hd
    · rfl
    · rfl
  · have hentry : e ∈ catalog.entries :=
      (firstEntries_sublist _ _).mem (List.mem_filter.mp he).1
    exact Or.inr (Or.inl (List.mem_map_of_mem hentry))
  · exact Or.inr (Or.inr (List.mem_map_of_mem hduplicate))

/-- In an empty catalog every usage with a key has a diagnostic. -/
theorem length_findings_empty (hblank : ∀ usage ∈ usages, Engine.isBlankKey usage.key = false) :
    (findings {} settings usages).length = usages.length := by
  have hmissing : ∀ usage ∈ usages, usageDiagnostic? {} settings usage =
      some (Diagnostic.draft .missing usage.key usage.location) := by
    intro usage husage
    rw [usageDiagnostic?, if_neg (by simp [hblank usage husage]), if_pos]
    rintro ⟨e, he, -⟩
    cases he
  rw [findings, List.filterMap_congr hmissing, List.filterMap_eq_map', unusedEntries]
  simp [firstEntries]

end Catalog

namespace Report

def ofFindings (runId createdAt root : Text) (settings : Settings) (catalog : Catalog)
    (usageCount sourceFiles : Nat) (ds : List Diagnostic) : Report :=
  { runId, createdAt, root, settings, catalog, usageCount, sourceFiles
    diagnostics := Diagnostic.assignIds ds }

variable [Platform] (runId createdAt root : Text) (settings : Settings) (catalog : Catalog)
variable (usageCount sourceFiles : Nat) (usages : List Usage)

theorem validate_findings_iff (hknows : Platform.KnowsReports) :
    Platform.validate Schema.report.toJson (ofFindings runId createdAt root settings catalog
        usageCount sourceFiles (catalog.findings settings usages)).toJson = .ok () ↔
      runId ≠ "" ∧ createdAt ≠ "" ∧
        (∀ d ∈ catalog.findings settings usages, d.location.IsProper) ∧
        (catalog.findings settings usages).length ≤ 10000 := by
  rw [hknows, Schema.accepts_report]
  exact and_congr_right' (and_congr_right'
    (Diagnostic.accepts_assignIds fun _ => Catalog.hashed_of_mem_findings))

/-- Exactly when the report of a pass is accepted: the run has an id and a time, the diagnostics stand
at proper places, which are those of usages, entries and duplicates, and there are at most ten
thousand of them. There is a report if the path and the key of each diagnostic have bytes. -/
theorem validate_pass_iff (hknows : Platform.KnowsReports) :
    (∀ ds, ((Engine.start catalog settings).analyze usages).2 = .ok ds →
      (∀ d ∈ ds, d.location ∈ usages.map (·.location) ∨
        d.location ∈ catalog.entries.map (·.location) ∨
        d.location ∈ catalog.duplicates.map (·.location)) ∧
      (Platform.validate Schema.report.toJson
          (ofFindings runId createdAt root settings catalog usageCount sourceFiles ds).toJson =
        .ok () ↔
          runId ≠ "" ∧ createdAt ≠ "" ∧ (∀ d ∈ ds, d.location.IsProper) ∧ ds.length ≤ 10000)) ∧
      ((∃ ds, ((Engine.start catalog settings).analyze usages).2 = .ok ds) ↔
        ∀ d ∈ catalog.findings settings usages, d.HasBytes) := by
  refine ⟨fun ds hds => ?_, Engine.exists_analyze_start_iff usages catalog settings⟩
  obtain ⟨-, rfl⟩ := (Engine.analyze_start_eq_ok_iff usages catalog settings).mp hds
  exact ⟨fun _ => Catalog.location_of_mem_findings, validate_findings_iff runId createdAt root
    settings catalog usageCount sourceFiles usages hknows⟩

omit [Platform] in
/-- The stand-in and a report of one missing key. -/
theorem validate_pass_iff_missing :
    @Platform.KnowsReports Platform.standIn ∧
      ∃ ds, ((Engine.start {} {}).analyze [⟨"k", { path := "a.py" }⟩]).2 = .ok ds ∧
        @Platform.validate Platform.standIn Schema.report.toJson
          (ofFindings "r" "t" "." {} {} 1 1 ds).toJson = .ok () := by
  have hpass := @validate_pass_iff Platform.standIn "r" "t" "." {} {} 1 1
    [⟨"k", { path := "a.py" }⟩] Platform.knowsReports_standIn
  obtain ⟨ds, hds⟩ := hpass.2.mpr (by decide)
  obtain ⟨-, rfl⟩ := (Engine.analyze_start_eq_ok_iff _ _ _).mp hds
  refine ⟨Platform.knowsReports_standIn, _, hds, (hpass.1 _ hds).2.mpr ?_⟩
  decide

/-- One usage more than there are ids, on a line of its own each. -/
def tooManyUsages : List Usage :=
  (List.range 10001).map fun (i : Nat) =>
    ⟨"k", { path := "a.py", lineStart := i + 1, lineEnd := i + 1 }⟩

omit [Platform] in
/-- Usages at proper places whose diagnostics are too many for their report to be accepted. -/
theorem validate_tooManyUsages :
    (∀ usage ∈ tooManyUsages, usage.location.IsProper) ∧
      ∃ ds, ((Engine.start {} {}).analyze tooManyUsages).2 = .ok ds ∧
        @Platform.validate Platform.standIn Schema.report.toJson
          (ofFindings "r" "t" "." {} {} tooManyUsages.length 1 ds).toJson ≠ .ok () := by
  have hproper : ∀ usage ∈ tooManyUsages, usage.location.IsProper := by
    intro usage husage
    obtain ⟨i, -, rfl⟩ := List.mem_map.mp husage
    have hline : (1 : Int) ≤ i + 1 := by omega
    exact ⟨hline, hline, Int.le_refl 1⟩
  have hblank : ∀ usage ∈ tooManyUsages, Engine.isBlankKey usage.key = false := by
    intro usage husage
    obtain ⟨i, -, rfl⟩ := List.mem_map.mp husage
    have hkey : Engine.isBlankKey "k" = false := by decide
    exact hkey
  have hlength : (Catalog.findings {} {} tooManyUsages).length = 10001 := by
    rw [Catalog.length_findings_empty hblank, tooManyUsages, List.length_map, List.length_range]
  have hbytes : ∀ d ∈ Catalog.findings {} {} tooManyUsages, d.HasBytes := by
    intro d hd
    obtain ⟨usage, husage, hfound⟩ | ⟨e, he, -⟩ | ⟨duplicate, hduplicate, -⟩ :=
      Catalog.mem_findings hd
    · obtain ⟨i, -, rfl⟩ := List.mem_map.mp husage
      obtain ⟨hlocation, hkey⟩ := Catalog.usageDiagnostic?_source hfound
      have hwritable : Text.Utf8.IsWritable (Text.ofString "a.py").toList ∧
          Text.Utf8.IsWritable (Text.ofString "k").toList := by decide
      rwa [Diagnostic.HasBytes, hlocation, hkey]
    · cases he
    · cases hduplicate
  refine ⟨hproper, _, (Engine.analyze_start_eq_ok_iff _ _ _).mpr ⟨hbytes, rfl⟩, fun haccepted => ?_⟩
  obtain ⟨-, -, -, hfew⟩ := (@validate_findings_iff Platform.standIn _ _ _ _ _ _ _ _
    Platform.knowsReports_standIn).mp haccepted
  omega

end Report

/-! Checks -/

namespace Check

variable [Platform] {disk : Disk} {root : Place} {request : Request} {stamp : Stamp}
variable {found : Findings}

theorem exists_of_observeFiles {engine ended : Engine} {sources : List Place} {usageCount : Nat}
    {staged : List Diagnostic}
    (h : observeFiles disk request root engine sources = .ok (ended, usageCount, staged)) :
    ∃ usages : List Usage, usageCount = usages.length ∧
      engine.observeAll usages = (ended, .ok staged) := by
  rw [observeFiles] at h
  split at h
  · cases h
  · next hall =>
      split at h
      · cases h
      · obtain ⟨rfl, rest⟩ := Prod.mk.inj (Except.ok.inj h)
        obtain ⟨rfl, rfl⟩ := Prod.mk.inj rest
        exact ⟨_, rfl, hall⟩

/-- What a check finds: the files of both kinds, and the findings of a pass over the usages, all of which
have bytes. -/
theorem exists_of_findings (h : findings disk root request = .ok found) :
    ∃ usages, Discovery.resources disk root request.settings.jsonPatterns
        request.settings.exclude = .ok found.resources ∧
      Discovery.sources disk root sourceExtensions request.settings.exclude = .ok found.sources ∧
      found.usageCount = usages.length ∧
      found.diagnostics = found.catalog.findings request.settings usages ∧
      ∀ d ∈ found.diagnostics, d.HasBytes := by
  rw [findings] at h
  dsimp only at h
  split at h
  · cases h
  · next hresources =>
      split at h
      · cases h
      · split at h
        · cases h
        · split at h
          · cases h
          · next hsources =>
              split at h
              · cases h
              · next hobserved =>
                  split at h
                  · cases h
                  · next hend =>
                      obtain rfl := Except.ok.inj h
                      obtain ⟨usages, hcount, hstaged⟩ := exists_of_observeFiles hobserved
                      obtain ⟨hbytes, hfound⟩ :=
                        Engine.observeAll_start_of_ok usages _ _ hstaged hend
                      exact ⟨usages, hresources, hsources, hcount, hfound.symm, hfound ▸ hbytes⟩

theorem validate_reportOf_iff (hknows : Platform.KnowsReports) (runId : Text)
    (hfound : findings disk root request = .ok found) :
    Platform.validate Schema.report.toJson
        (reportOf root request stamp runId found).toJson = .ok () ↔
      runId ≠ "" ∧ createdAt request stamp ≠ "" ∧
        (∀ d ∈ found.diagnostics, d.location.IsProper) ∧ found.diagnostics.length ≤ 10000 := by
  obtain ⟨usages, -, -, -, hdiagnostics, -⟩ := exists_of_findings hfound
  have hvalidate := Report.validate_findings_iff runId (createdAt request stamp)
    (if request.reproducible then root.path.name else root.path.text) request.settings found.catalog
    found.usageCount found.sources.length usages hknows
  rwa [← hdiagnostics] at hvalidate

end Check
end LocaleKeys
