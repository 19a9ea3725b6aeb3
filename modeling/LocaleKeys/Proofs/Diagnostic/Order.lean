import LocaleKeys.Proofs.Engine.Pass
import LocaleKeys.Proofs.Stable

/-!
The order of a report. Sorting is stable, so what stands in a sorted list depends on the elements and
on the order among tied ones only; tied diagnostics of usages are one diagnostic, so a report does not
depend on the order in which the usages come.
-/

namespace LocaleKeys

/-! The order of diagnostics -/

namespace Diagnostic

/-- The comparison behind the order of a report. -/
def order : Diagnostic → Diagnostic → Ordering :=
  compareLex (compareOn (·.location.path)) <|
    compareLex (compareOn (·.location.lineStart)) <|
      compareLex (compareOn (·.location.column)) <|
        compareLex (compareOn (·.kind.rule.id)) (compareOn (·.key))

theorem before_eq (a b : Diagnostic) : before a b = (order a b).isLE := rfl

instance : Std.TransCmp order :=
  inferInstanceAs (Std.TransCmp (compareLex _ _))

theorem before_trans (a b c : Diagnostic) (hab : before a b = true) (hbc : before b c = true) :
    before a c = true := by
  rw [before_eq] at hab hbc ⊢
  exact Std.TransCmp.isLE_trans hab hbc

theorem before_total (a b : Diagnostic) : (before a b || before b a) = true := by
  have hswap : order b a = (order a b).swap := Std.OrientedCmp.eq_swap
  rw [before_eq, before_eq, hswap]
  cases order a b <;> rfl

theorem eq_of_tied {a b : Diagnostic} (h : Stable.tied before a b = true) :
    a.location.path = b.location.path ∧ a.location.lineStart = b.location.lineStart ∧
      a.location.column = b.location.column ∧ a.kind.rule.id = b.kind.rule.id ∧ a.key = b.key := by
  obtain ⟨hab, hba⟩ := Bool.and_eq_true_iff.mp h
  rw [before_eq] at hab hba
  have heq : order a b = .eq := Std.OrientedCmp.isLE_antisymm hab hba
  simpa only [order, compareLex, compareOn, Ordering.then_eq_eq, Std.compare_eq_iff_eq] using heq

end Diagnostic

/-! Passes over the same usages -/

/-- Usages with the same key that start at the same place are one usage. -/
def Usage.Separated (usages : List Usage) : Prop :=
  ∀ a ∈ usages, ∀ b ∈ usages, a.location.path = b.location.path →
    a.location.lineStart = b.location.lineStart → a.location.column = b.location.column →
    a.key = b.key → a = b

instance (usages : List Usage) : Decidable (Usage.Separated usages) :=
  inferInstanceAs (Decidable (∀ a ∈ usages, ∀ b ∈ usages, _))

namespace Catalog

variable {catalog : Catalog} {settings : Settings} {usages usages' : List Usage}

theorem unusedEntries_perm (hperm : usages.Perm usages') :
    catalog.unusedEntries usages = catalog.unusedEntries usages' := by
  have hused : ∀ key, catalog.IsUsed usages key ↔ catalog.IsUsed usages' key := by
    intro key
    simp only [IsUsed, hperm.mem_iff]
  simp only [unusedEntries, hused]

/-- Diagnostics of usages that are tied are one diagnostic. -/
theorem eq_of_tied_usages (hsep : Usage.Separated usages) {d d' : Diagnostic}
    (hd : d ∈ usages.filterMap (catalog.usageDiagnostic? settings))
    (hd' : d' ∈ usages.filterMap (catalog.usageDiagnostic? settings))
    (htied : Stable.tied Diagnostic.before d d' = true) : d = d' := by
  obtain ⟨usage, husage, hfound⟩ := List.mem_filterMap.mp hd
  obtain ⟨usage', husage', hfound'⟩ := List.mem_filterMap.mp hd'
  obtain ⟨hpath, hline, hcolumn, -, hkey⟩ := Diagnostic.eq_of_tied htied
  obtain ⟨hlocation, hdkey⟩ := usageDiagnostic?_source hfound
  obtain ⟨hlocation', hdkey'⟩ := usageDiagnostic?_source hfound'
  rw [hlocation, hlocation'] at hpath hline hcolumn
  rw [hdkey, hdkey'] at hkey
  have hsame : usage = usage' := hsep usage husage usage' husage' hpath hline hcolumn hkey
  rw [hsame, hfound'] at hfound
  exact (Option.some.inj hfound).symm

theorem assignIds_findings_perm (hperm : usages.Perm usages') (hsep : Usage.Separated usages) :
    Diagnostic.assignIds (catalog.findings settings usages) =
      Diagnostic.assignIds (catalog.findings settings usages') := by
  have hsort := Stable.mergeSort_append_congr Diagnostic.before_trans Diagnostic.before_total
    (hperm.filterMap (catalog.usageDiagnostic? settings))
    (fun _ hd _ hd' => eq_of_tied_usages hsep hd hd')
  rw [Diagnostic.assignIds, Diagnostic.assignIds, findings, findings, unusedEntries_perm hperm,
    List.append_assoc, List.append_assoc, hsort]

theorem findings_perm (hperm : usages.Perm usages') :
    (catalog.findings settings usages).Perm (catalog.findings settings usages') := by
  rw [findings, findings, unusedEntries_perm hperm]
  exact ((hperm.filterMap _).append_right _).append_right _

end Catalog

namespace Engine

/-- The report of a pass does not depend on the order of the usages, down to ids and fingerprints, if
those with the same key and start are the same. In either order there is a report if the path and the
key of each diagnostic have bytes, and the pass fails otherwise. -/
theorem analyze_report_perm (catalog : Catalog) (settings : Settings) {usages usages' : List Usage}
    (hperm : usages.Perm usages') (hsep : Usage.Separated usages) :
    let pass := ((start catalog settings).analyze usages).2
    let pass' := ((start catalog settings).analyze usages').2
    ((∀ d ∈ catalog.findings settings usages, d.HasBytes) → ∃ report,
        pass.map Diagnostic.assignIds = .ok report ∧ pass'.map Diagnostic.assignIds = .ok report) ∧
      ((∃ d ∈ catalog.findings settings usages, ¬ d.HasBytes) →
        ∃ f f', pass = .error (.unwritable f) ∧ pass' = .error (.unwritable f')) := by
  intro pass pass'
  have hmem : ∀ d, d ∈ catalog.findings settings usages' ↔ d ∈ catalog.findings settings usages :=
    fun d => (Catalog.findings_perm hperm).symm.mem_iff
  constructor
  · intro hbytes
    have hpass : pass = .ok (catalog.findings settings usages) :=
      (analyze_start_eq_ok_iff usages catalog settings).mpr ⟨hbytes, rfl⟩
    have hpass' : pass' = .ok (catalog.findings settings usages') :=
      (analyze_start_eq_ok_iff usages' catalog settings).mpr
        ⟨fun d hd => hbytes d ((hmem d).mp hd), rfl⟩
    refine ⟨Diagnostic.assignIds (catalog.findings settings usages), ?_, ?_⟩
    · rw [hpass]
      rfl
    · rw [hpass', Catalog.assignIds_findings_perm hperm hsep]
      rfl
  · rintro ⟨d, hd, hbytes⟩
    obtain ⟨f, hf⟩ := analyze_start_of_unwritable usages catalog settings ⟨d, hd, hbytes⟩
    obtain ⟨f', hf'⟩ :=
      analyze_start_of_unwritable usages' catalog settings ⟨d, (hmem d).mpr hd, hbytes⟩
    exact ⟨f, f', hf, hf'⟩

theorem analyze_report_perm_swap :
    let a : Usage := ⟨"a", { path := "x.py" }⟩
    let b : Usage := ⟨"b", { path := "x.py" }⟩
    [a, b].Perm [b, a] ∧ Usage.Separated [a, b] ∧
      ∃ report, ((start {} {}).analyze [a, b]).2.map Diagnostic.assignIds = .ok report ∧
        ((start {} {}).analyze [b, a]).2.map Diagnostic.assignIds = .ok report := by
  intro a b
  have hperm : [a, b].Perm [b, a] := List.Perm.swap b a []
  have hsep : Usage.Separated [a, b] := by decide
  have hbytes : ∀ d ∈ Catalog.findings {} {} [a, b], d.HasBytes := by decide
  exact ⟨hperm, hsep, (analyze_report_perm {} {} hperm hsep).1 hbytes⟩

/-- Of one usage whose key has no bytes there is no report, in the one order there is. -/
theorem analyze_halfKey_alone :
    Usage.Separated [⟨halfKey, { path := "x.py" }⟩] ∧
      ((start {} {}).analyze [⟨halfKey, { path := "x.py" }⟩]).2.map Diagnostic.assignIds =
        .error (.unwritable ⟨12, 1, .half 0⟩) := by
  decide

end Engine
end LocaleKeys
