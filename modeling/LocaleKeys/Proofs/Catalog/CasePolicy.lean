import LocaleKeys.Proofs.Catalog.Contribution
import LocaleKeys.Proofs.Engine.Pass

/-!
Two passes over the same files and usages, a strict one that tells letter case apart and a relaxed one
that does not. Both catalogs come from the same leaves and differ in which of them are repeats, so a
key that the strict catalog defines is defined in the relaxed one, file by file.
-/

namespace LocaleKeys

/-- The settings with letter case told apart, whatever they said about it. -/
def Settings.strict (settings : Settings) : Settings :=
  settings.change (.caseSensitive true)

/-- The settings with letter case left aside. -/
def Settings.relaxed (settings : Settings) : Settings :=
  settings.change (.caseSensitive false)

theorem normalizeKey_relaxed {a b : Text} (h : normalizeKey true a = normalizeKey true b) :
    normalizeKey false a = normalizeKey false b := by
  have hsame : a = b := h
  rw [hsame]

namespace Catalog

/-- An entry that is first with letter case left aside is first with letter case told apart. -/
theorem firstEntries_relaxed_sublist (entries : List Entry) :
    (firstEntries false entries).Sublist (firstEntries true entries) := by
  induction entries with
  | nil => exact List.Sublist.refl []
  | cons e rest ih =>
      refine List.Sublist.cons_cons e ((ih.filter _).trans ?_)
      refine List.monotone_filter_right _ fun later hlater => ?_
      have hkept := of_decide_eq_true hlater
      exact decide_eq_true (mt normalizeKey_relaxed hkept)

end Catalog

namespace Contribution

variable {locate : Text → Location} {culture : Text}

/-- Keys that are repeated with letter case told apart are repeated with letter case left aside. -/
theorem duplicates_takeLeaves_relaxed {seen seen' : List Text}
    (hseen : ∀ key, normalizeKey true key ∈ seen → normalizeKey false key ∈ seen')
    (leaves : List (Text × Scalar)) :
    (takeLeaves true locate culture seen leaves).2.Sublist
      (takeLeaves false locate culture seen' leaves).2 := by
  induction leaves generalizing seen seen' with
  | nil => exact List.Sublist.refl []
  | cons leaf rest ih =>
      obtain ⟨key, value⟩ := leaf
      have hadded : ∀ k, normalizeKey true k ∈ normalizeKey true key :: seen →
          normalizeKey false k ∈ normalizeKey false key :: seen' := by
        intro k hk
        cases List.mem_cons.mp hk with
        | inl here => exact List.mem_cons.mpr (Or.inl (normalizeKey_relaxed here))
        | inr before => exact List.mem_cons_of_mem _ (hseen k before)
      by_cases hstrict : normalizeKey true key ∈ seen
      · have hrelaxed := hseen key hstrict
        simpa [takeLeaves, hstrict, hrelaxed] using ih hseen
      · by_cases hrelaxed : normalizeKey false key ∈ seen'
        · have hstill : ∀ k, normalizeKey true k ∈ normalizeKey true key :: seen →
              normalizeKey false k ∈ seen' := by
            intro k hk
            cases List.mem_cons.mp (hadded k hk) with
            | inl here => exact here ▸ hrelaxed
            | inr before => exact before
          simpa [takeLeaves, hstrict, hrelaxed] using (ih hstill).cons _
        · simpa [takeLeaves, hstrict, hrelaxed] using ih hadded

theorem duplicates_ofFile_relaxed (settings : Settings) (file : ResourceFile) :
    (ofFile settings.strict file).duplicates.Sublist (ofFile settings.relaxed file).duplicates := by
  rw [ofFile, ofFile]
  cases file.text with
  | none => exact List.Sublist.refl []
  | some text =>
      dsimp only
      cases Key.readResource text with
      | error fault => cases fault <;> exact List.Sublist.refl _
      | ok value =>
          have hempty : ∀ key, normalizeKey true key ∈ [] → normalizeKey false key ∈ [] :=
            fun _ h => (List.not_mem_nil h).elim
          exact (List.Sublist.refl _).append (duplicates_takeLeaves_relaxed hempty _)

end Contribution

/-! Catalogs under the two policies -/

namespace Catalog

variable {settings : Settings} {files : List ResourceFile} {key culture : Text}

theorem definesIn_relaxed (h : (build settings.strict files).DefinesIn key culture) :
    (build settings.relaxed files).DefinesIn key culture := by
  obtain ⟨file, hfile, hculture, e, he, hkey⟩ := definesIn_build_iff.mp h
  exact definesIn_build_iff.mpr ⟨file, hfile, hculture, e, he, normalizeKey_relaxed hkey⟩

theorem defines_relaxed (h : (build settings.strict files).Defines key) :
    (build settings.relaxed files).Defines key := by
  obtain ⟨culture, hculture⟩ := defines_iff_definesIn.mp h
  exact defines_iff_definesIn.mpr ⟨culture, definesIn_relaxed hculture⟩

theorem isUsed_relaxed {usages : List Usage} (h : (build settings.strict files).IsUsed usages key) :
    (build settings.relaxed files).IsUsed usages key := by
  obtain ⟨usage, husage, hblank, hkey⟩ := h
  exact ⟨usage, husage, hblank, normalizeKey_relaxed hkey⟩

theorem lacking_relaxed (h : (build settings.strict files).lacking settings.strict key = []) :
    (build settings.relaxed files).lacking settings.relaxed key = [] := by
  rw [lacking, List.filter_eq_nil_iff] at h ⊢
  intro culture hculture
  have hdefined := h culture hculture
  rw [decide_not, Bool.not_eq_true', decide_eq_false_iff_not, not_not] at hdefined
  simpa using definesIn_relaxed hdefined

theorem unusedEntries_build (settings : Settings) (files : List ResourceFile) (usages : List Usage) :
    (build settings files).unusedEntries usages =
      (firstEntries settings.caseSensitive (files.flatMap (Contribution.leafEntries settings))).filter
        fun e => ¬ (build settings files).IsUsed usages e.key := by
  have hfirst := firstEntries_build settings files
  exact congrArg (List.filter _) hfirst

theorem unusedEntries_relaxed_sublist (settings : Settings) (files : List ResourceFile)
    (usages : List Usage) :
    ((build settings.relaxed files).unusedEntries usages).Sublist
      ((build settings.strict files).unusedEntries usages) := by
  have hfirst := firstEntries_relaxed_sublist
    (files.flatMap (Contribution.leafEntries settings.strict))
  rw [unusedEntries_build, unusedEntries_build]
  refine (hfirst.filter _).trans (List.monotone_filter_right _ fun e he => ?_)
  exact decide_eq_true (mt isUsed_relaxed (of_decide_eq_true he))

theorem duplicates_relaxed_sublist (settings : Settings) (files : List ResourceFile) :
    (build settings.strict files).duplicates.Sublist (build settings.relaxed files).duplicates := by
  change ((files.map (Contribution.ofFile settings.strict)).flatMap (·.duplicates)).Sublist
    ((files.map (Contribution.ofFile settings.relaxed)).flatMap (·.duplicates))
  induction files with
  | nil => exact List.Sublist.refl []
  | cons file files ih =>
      exact (Contribution.duplicates_ofFile_relaxed settings file).append ih

theorem usageDiagnostic?_relaxed {usage : Usage}
    (h : (build settings.strict files).usageDiagnostic? settings.strict usage = none) :
    (build settings.relaxed files).usageDiagnostic? settings.relaxed usage = none := by
  rw [usageDiagnostic?_eq_none_iff] at h ⊢
  refine h.imp_right fun ⟨hkey, hcultures⟩ => ⟨defines_relaxed hkey, fun hwarn hmany => ?_⟩
  exact lacking_relaxed (hcultures hwarn hmany)

/-- What the relaxed pass finds missing, the strict one reports in the same words. -/
theorem usageDiagnostic?_strict_of_missing {usage : Usage} {d : Diagnostic}
    (h : (build settings.relaxed files).usageDiagnostic? settings.relaxed usage = some d)
    (hmissing : d.kind = .missing) :
    (build settings.strict files).usageDiagnostic? settings.strict usage = some d := by
  obtain ⟨rfl, hkey⟩ | ⟨rfl, -⟩ := usageDiagnostic?_cases h
  · refine usageDiagnostic?_of_not_defines ?_ (mt defines_relaxed hkey)
    by_contra hblank
    rw [usageDiagnostic?_eq_none_iff.mpr (Or.inl (Bool.not_eq_false _ ▸ hblank))] at h
    cases h
  · cases hmissing

end Catalog

/-! The two passes -/

namespace Engine

/-- What a pass says of a usage after it has taken other ones. -/
def verdict (engine : Engine) (before : List Usage) (usage : Usage) :
    Except Text.Utf8.Unwritable (Option Diagnostic) :=
  ((engine.observeAll before).1.observe usage).2

theorem verdict_start (catalog : Catalog) (settings : Settings) (before : List Usage)
    (usage : Usage) :
    (start catalog settings).verdict before usage =
      (catalog.usageDiagnostic? settings usage).mapM Diagnostic.written := by
  rw [verdict, observeAll_eq, observe_eq, ← diagnose_start]
  rfl

theorem verdict_start_eq_none_iff {catalog : Catalog} {settings : Settings} {before : List Usage}
    {usage : Usage} :
    (start catalog settings).verdict before usage = .ok none ↔
      catalog.usageDiagnostic? settings usage = none := by
  rw [verdict_start]
  cases catalog.usageDiagnostic? settings usage with
  | none => simp [pure, Except.pure]
  | some d => cases hd : d.written <;> simp [hd]

theorem verdict_start_eq_some_iff {catalog : Catalog} {settings : Settings} {before : List Usage}
    {usage : Usage} {d : Diagnostic} :
    (start catalog settings).verdict before usage = .ok (some d) ↔
      catalog.usageDiagnostic? settings usage = some d ∧ d.HasBytes := by
  rw [verdict_start]
  cases catalog.usageDiagnostic? settings usage with
  | none => simp [pure, Except.pure]
  | some found =>
      cases hwritten : found.written with
      | error f =>
          refine iff_of_false (by simp [hwritten]) fun ⟨heq, hbytes⟩ => ?_
          obtain rfl := Option.some.inj heq
          exact Diagnostic.fails_written_iff.mp ⟨f, hwritten⟩ hbytes
      | ok made =>
          obtain ⟨hbytes, rfl⟩ := Diagnostic.written_eq_ok_iff.mp hwritten
          simpa [hwritten] using fun heq : found = d => heq ▸ hbytes

/-- Leaving letter case aside is never stricter. Of the same files and usages, a usage that is fine in
the strict pass is fine in the relaxed one, whatever was taken before it, and one that the relaxed pass
finds missing the strict one finds missing; each unused key that the relaxed pass reports is reported by
the strict one, at the same place and in the same order; and the strict catalog has no duplicate that the
relaxed one does not have. Either pass gives diagnostics exactly if those it finds have bytes. -/
theorem relaxed_reports_less (settings : Settings) (files : List ResourceFile)
    (usages : List Usage) :
    let strict := start (Catalog.build settings.strict files) settings.strict
    let relaxed := start (Catalog.build settings.relaxed files) settings.relaxed
    (∀ before usage after, usages = before ++ usage :: after →
        (strict.verdict before usage = .ok none → relaxed.verdict before usage = .ok none) ∧
          ∀ d, relaxed.verdict before usage = .ok (some d) → d.kind = .missing →
            strict.verdict before usage = .ok (some d)) ∧
      (∀ ds ds', (strict.analyze usages).2 = .ok ds → (relaxed.analyze usages).2 = .ok ds' →
        (ds'.filter (·.kind = .unused)).Sublist (ds.filter (·.kind = .unused))) ∧
      strict.catalog.duplicates.Sublist relaxed.catalog.duplicates ∧
      ((∃ ds, (strict.analyze usages).2 = .ok ds) ↔
        ∀ d ∈ strict.catalog.findings settings.strict usages, d.HasBytes) ∧
      ((∃ ds, (relaxed.analyze usages).2 = .ok ds) ↔
        ∀ d ∈ relaxed.catalog.findings settings.relaxed usages, d.HasBytes) := by
  intro strict relaxed
  refine ⟨fun before usage after _ => ⟨fun hfine => ?_, fun d hd hmissing => ?_⟩,
    fun ds ds' hds hds' => ?_, Catalog.duplicates_relaxed_sublist settings files,
    exists_analyze_start_iff usages _ _, exists_analyze_start_iff usages _ _⟩
  · rw [verdict_start_eq_none_iff] at hfine ⊢
    exact Catalog.usageDiagnostic?_relaxed hfine
  · rw [verdict_start_eq_some_iff] at hd ⊢
    exact hd.imp_left fun hfound => Catalog.usageDiagnostic?_strict_of_missing hfound hmissing
  · obtain ⟨-, rfl⟩ := (analyze_start_eq_ok_iff usages _ _).mp hds
    obtain ⟨-, rfl⟩ := (analyze_start_eq_ok_iff usages _ _).mp hds'
    rw [Catalog.filter_unused_findings, Catalog.filter_unused_findings]
    exact (Catalog.unusedEntries_relaxed_sublist settings files usages).map _

/-- Two spellings of a key without bytes, both used. They are fine in the strict pass, and the relaxed one
fails on the second of them, which is a duplicate there. -/
theorem analyze_halfKeys_relaxed :
    let file : ResourceFile :=
      { path := "en.json"
        text := some (Text.ofString "\x7b\"A\\ud800\": 1, \"a\\ud800\": 2\x7d").toList }
    let usages : List Usage := [⟨Text.ofList ['A', .half 0], { path := "x.py" }⟩,
      ⟨Text.ofList ['a', .half 0], { path := "x.py" }⟩]
    ((start (Catalog.build (Settings.strict {}) [file]) (Settings.strict {})).analyze usages).2 =
        .ok [] ∧
      ((start (Catalog.build (Settings.relaxed {}) [file]) (Settings.relaxed {})).analyze usages).2 =
        .error (.unwritable ⟨16, 1, .half 0⟩) := by
  decide +kernel

end Engine
end LocaleKeys
