import LocaleKeys.Engine
import LocaleKeys.Proofs.Catalog.Lookup
import LocaleKeys.Proofs.Diagnostic.Written
import LocaleKeys.Proofs.Text.Order

/-!
What a pass finds, read off the entries of the catalog and the list of usages. The engine decides
usage by usage and keeps the keys it has seen; here each diagnostic has its condition on the whole
list, and the run is an induction over the usages. A pass gives all of this or, if a diagnostic of it has
no bytes, nothing.
-/

namespace LocaleKeys

/-! Diagnostics by their conditions -/

namespace Catalog

/-- The cultures compared that have no entry with a key. -/
def lacking (catalog : Catalog) (settings : Settings) (key : Text) : List Text :=
  (catalog.effectiveCultures settings.cultures).filter fun culture =>
    ¬ catalog.DefinesIn key culture

/-- The diagnostic of a usage: its key is in no entry, or cultures are compared and some lack it. -/
def usageDiagnostic? (catalog : Catalog) (settings : Settings) (usage : Usage) :
    Option Diagnostic :=
  if Engine.isBlankKey usage.key then none
  else if ¬ catalog.Defines usage.key then
    some (Diagnostic.draft .missing usage.key usage.location)
  else if settings.warnPartial ∧ 1 < (catalog.effectiveCultures settings.cultures).length ∧
      catalog.lacking settings usage.key ≠ [] then
    some (Diagnostic.draft .partialMissing usage.key usage.location
      (Text.sorted (catalog.lacking settings usage.key)))
  else none

/-- Some usage that is not blank has a key, in some spelling. -/
def IsUsed (catalog : Catalog) (usages : List Usage) (key : Text) : Prop :=
  ∃ usage ∈ usages, Engine.isBlankKey usage.key = false ∧
    catalog.normalize usage.key = catalog.normalize key

instance (catalog : Catalog) (usages : List Usage) (key : Text) :
    Decidable (catalog.IsUsed usages key) :=
  inferInstanceAs (Decidable (∃ usage ∈ usages, _))

/-- The first entries of the keys that no usage has. -/
def unusedEntries (catalog : Catalog) (usages : List Usage) : List Entry :=
  (firstEntries catalog.caseSensitive catalog.entries).filter fun e =>
    ¬ catalog.IsUsed usages e.key

/-- The diagnostics of a pass: those of the usages in their order, one for each unused key at its
first entry, and one for each duplicate. -/
def findings (catalog : Catalog) (settings : Settings) (usages : List Usage) : List Diagnostic :=
  usages.filterMap (catalog.usageDiagnostic? settings) ++
    (catalog.unusedEntries usages).map (fun e =>
      Diagnostic.draft .unused e.key e.location [] e.culture) ++
    catalog.duplicates.map fun d => Diagnostic.draft .duplicate d.key d.location [] d.culture

variable {catalog : Catalog} {settings : Settings} {usage : Usage} {usages : List Usage}
variable {d : Diagnostic}

theorem usageDiagnostic?_cases (h : catalog.usageDiagnostic? settings usage = some d) :
    d = Diagnostic.draft .missing usage.key usage.location ∧ ¬ catalog.Defines usage.key ∨
      d = Diagnostic.draft .partialMissing usage.key usage.location
        (Text.sorted (catalog.lacking settings usage.key)) ∧ catalog.Defines usage.key := by
  rw [usageDiagnostic?] at h
  split at h
  · cases h
  · split at h
    · next hkey => exact Or.inl ⟨(Option.some.inj h).symm, hkey⟩
    · next hkey =>
        split at h
        · exact Or.inr ⟨(Option.some.inj h).symm, not_not.mp hkey⟩
        · cases h

theorem usageDiagnostic?_source (h : catalog.usageDiagnostic? settings usage = some d) :
    d.location = usage.location ∧ d.key = usage.key := by
  obtain ⟨rfl, -⟩ | ⟨rfl, -⟩ := usageDiagnostic?_cases h
  · exact ⟨rfl, rfl⟩
  · exact ⟨rfl, rfl⟩

theorem usageDiagnostic?_eq_none_iff :
    catalog.usageDiagnostic? settings usage = none ↔
      Engine.isBlankKey usage.key = true ∨ catalog.Defines usage.key ∧
        (settings.warnPartial = true → 1 < (catalog.effectiveCultures settings.cultures).length →
          catalog.lacking settings usage.key = []) := by
  rw [usageDiagnostic?]
  by_cases hblank : Engine.isBlankKey usage.key = true
  · simp [hblank]
  · by_cases hkey : catalog.Defines usage.key
    · simp [hblank, hkey]
    · simp [hblank, hkey]

theorem usageDiagnostic?_of_not_defines (hblank : Engine.isBlankKey usage.key = false)
    (hkey : ¬ catalog.Defines usage.key) :
    catalog.usageDiagnostic? settings usage =
      some (Diagnostic.draft .missing usage.key usage.location) := by
  rw [usageDiagnostic?, if_neg (by simp [hblank]), if_pos hkey]

theorem mem_findings (h : d ∈ catalog.findings settings usages) :
    (∃ usage ∈ usages, catalog.usageDiagnostic? settings usage = some d) ∨
      (∃ e ∈ catalog.unusedEntries usages,
        d = Diagnostic.draft .unused e.key e.location [] e.culture) ∨
      ∃ duplicate ∈ catalog.duplicates, d =
        Diagnostic.draft .duplicate duplicate.key duplicate.location [] duplicate.culture := by
  rw [findings, List.mem_append, List.mem_append, List.mem_filterMap, List.mem_map, List.mem_map,
    or_assoc] at h
  simpa only [eq_comm (a := d)] using h

theorem not_defines_of_missing (h : d ∈ catalog.findings settings usages)
    (hkind : d.kind = .missing) : ¬ catalog.Defines d.key := by
  obtain ⟨usage, -, hd⟩ | ⟨e, -, rfl⟩ | ⟨duplicate, -, rfl⟩ := mem_findings h
  · obtain ⟨rfl, hkey⟩ | ⟨rfl, -⟩ := usageDiagnostic?_cases hd
    · exact hkey
    · cases hkind
  · cases hkind
  · cases hkind

theorem filter_unused_findings (catalog : Catalog) (settings : Settings) (usages : List Usage) :
    (catalog.findings settings usages).filter (·.kind = .unused) =
      (catalog.unusedEntries usages).map fun e =>
        Diagnostic.draft .unused e.key e.location [] e.culture := by
  have husages : (usages.filterMap (catalog.usageDiagnostic? settings)).filter
      (·.kind = .unused) = [] := by
    rw [List.filter_eq_nil_iff]
    intro d hd
    obtain ⟨usage, -, hd⟩ := List.mem_filterMap.mp hd
    obtain ⟨rfl, -⟩ | ⟨rfl, -⟩ := usageDiagnostic?_cases hd
    · simp
    · simp
  rw [findings, List.filter_append, List.filter_append, husages]
  simp [List.filter_map, Function.comp_def]

end Catalog

namespace Engine

variable (engine : Engine) (usages : List Usage)

/-! One usage -/

def noteUsed (catalog : Catalog) (used : List Text) (usage : Usage) : List Text :=
  if isBlankKey usage.key then used
  else if used.contains (catalog.normalize usage.key) then used
  else catalog.normalize usage.key :: used

/-- The engine with the keys of usages used. -/
def noting : Engine :=
  { engine with used := usages.foldl (noteUsed engine.catalog) engine.used }

/-- The diagnostic of a usage, as far as it can be made. -/
def diagnose (usage : Usage) : Option Diagnostic :=
  if isBlankKey usage.key then none
  else if !engine.catalog.contains usage.key then
    some (Diagnostic.draft .missing usage.key usage.location)
  else
    let missing := engine.catalog.missingCultures usage.key engine.cultures
    if engine.settings.warnPartial ∧ 1 < engine.cultures.length ∧ !missing.isEmpty then
      some (Diagnostic.draft .partialMissing usage.key usage.location missing)
    else none

@[simp]
theorem diagnose_noting : (engine.noting usages).diagnose = engine.diagnose := rfl

theorem use_eq (compared : Text) :
    engine.use compared = { engine with
      used := if engine.used.contains compared then engine.used else compared :: engine.used } := by
  rw [use]
  split <;> rfl

theorem classify_eq {usage : Usage} (hblank : ¬ isBlankKey usage.key = true) :
    engine.classify usage = (engine.diagnose usage).mapM Diagnostic.written := by
  have hmade : ∀ d : Diagnostic, (some d).mapM Diagnostic.written = d.written.map some := by
    intro d
    cases hd : d.written <;> simp [hd, Except.map]
  rw [diagnose, if_neg hblank, classify]
  by_cases hcontains : engine.catalog.contains usage.key = true
  · by_cases hcultures : 1 < engine.cultures.length
    · by_cases hwarn : engine.settings.warnPartial = true
      · cases hmissing : (engine.catalog.missingCultures usage.key engine.cultures).isEmpty with
        | false => simp [hcontains, hcultures, hwarn, hmissing, Diagnostic.make_eq, hmade]
        | true => simp [hcontains, hcultures, hwarn, hmissing, pure, Except.pure]
      · simp [hcontains, hcultures, hwarn, pure, Except.pure]
    · simp [hcontains, hcultures, pure, Except.pure]
  · simp [hcontains, Diagnostic.make_eq, hmade]

/-- One usage changes the keys that are used and nothing else. -/
theorem observe_eq (usage : Usage) :
    engine.observe usage =
      (engine.noting [usage], (engine.diagnose usage).mapM Diagnostic.written) := by
  rw [observe, noting, List.foldl_cons, List.foldl_nil, noteUsed]
  by_cases hblank : isBlankKey usage.key = true
  · simp [hblank, diagnose, pure, Except.pure]
  · rw [if_neg hblank, if_neg hblank, use_eq, engine.classify_eq hblank]

theorem mem_noteUsed {catalog : Catalog} {used : List Text} {usage : Usage} {compared : Text} :
    compared ∈ noteUsed catalog used usage ↔
      compared ∈ used ∨ isBlankKey usage.key = false ∧ catalog.normalize usage.key = compared := by
  rw [noteUsed]
  by_cases hblank : isBlankKey usage.key = true
  · simp [hblank]
  · by_cases hseen : catalog.normalize usage.key ∈ used
    · have hsame : catalog.normalize usage.key = compared → compared ∈ used := fun heq => heq ▸ hseen
      simp [hblank, hseen, or_iff_left_of_imp hsame]
    · simp [hblank, hseen, eq_comm, or_comm]

theorem mem_used_noting {compared : Text} :
    compared ∈ (engine.noting usages).used ↔ compared ∈ engine.used ∨
      ∃ usage ∈ usages, isBlankKey usage.key = false ∧
        engine.catalog.normalize usage.key = compared := by
  rw [noting]
  generalize engine.used = used
  induction usages generalizing used with
  | nil => simp
  | cons usage usages ih =>
      rw [List.foldl_cons, ih, mem_noteUsed, List.exists_mem_cons_iff, or_assoc]

/-! All usages -/

/-- The diagnostics of usages, as far as they can be made. -/
def drafts : List Diagnostic :=
  usages.filterMap engine.diagnose

/-- The usages up to the first one whose diagnostic has no bytes, that one included. -/
def reached : List Usage → List Usage
  | [] => []
  | usage :: rest =>
    if (engine.diagnose usage).all fun d => d.HasBytes then usage :: reached rest else [usage]

theorem reached_noting (noted : List Usage) :
    (engine.noting noted).reached usages = engine.reached usages := by
  induction usages with
  | nil => rfl
  | cons usage usages ih => rw [reached, reached, diagnose_noting, ih]

theorem reached_prefix : engine.reached usages <+: usages := by
  induction usages with
  | nil => exact List.prefix_refl _
  | cons usage usages ih =>
      rw [reached]
      split
      · exact (List.prefix_cons_inj usage).mpr ih
      · exact ⟨usages, rfl⟩

theorem reached_eq_self (h : ∀ d ∈ engine.drafts usages, d.HasBytes) :
    engine.reached usages = usages := by
  induction usages with
  | nil => rfl
  | cons usage usages ih =>
      have hrest : ∀ d ∈ engine.drafts usages, d.HasBytes := fun d hd =>
        h d (((List.sublist_cons_self _ _).filterMap _).mem hd)
      have hfirst : (engine.diagnose usage).all (fun d => d.HasBytes) = true := by
        rw [Option.all_eq_true]
        exact fun d hd => decide_eq_true (h d (List.mem_filterMap.mpr ⟨usage, by simp, hd⟩))
      rw [reached, if_pos hfirst, ih hrest]

/-- Usages are noted up to the first one whose diagnostic cannot be made. -/
theorem observeAll_eq :
    engine.observeAll usages =
      (engine.noting (engine.reached usages), (engine.drafts usages).mapM Diagnostic.written) := by
  induction usages generalizing engine with
  | nil => rfl
  | cons usage usages ih =>
      rw [observeAll, observe_eq, drafts, List.filterMap_cons, reached]
      cases hd : engine.diagnose usage with
      | none =>
          rw [Option.mapM_none]
          dsimp only [pure, Except.pure]
          rw [ih, reached_noting]
          cases hrest : ((engine.noting [usage]).drafts usages).mapM Diagnostic.written with
          | error f => exact congrArg _ hrest.symm
          | ok made => exact congrArg _ hrest.symm
      | some d =>
          rw [Option.mapM_some, List.mapM_cons]
          by_cases hbytes : d.HasBytes
          · rw [Diagnostic.written_eq_ok_iff.mpr ⟨hbytes, rfl⟩]
            dsimp only [Functor.map, Except.map, bind, Except.bind, pure, Except.pure]
            rw [ih, reached_noting, drafts, diagnose_noting]
            cases (usages.filterMap engine.diagnose).mapM Diagnostic.written <;>
              simp [hbytes, noting]
          · obtain ⟨f, hf⟩ := Diagnostic.fails_written_iff.mpr hbytes
            simp [hf, hbytes, Functor.map, Except.map, bind, Except.bind]

/-! The end of a pass -/

def unusedDraft (key : Text) : Diagnostic :=
  match engine.catalog.firstEntry key with
  | some entry => Diagnostic.draft .unused key entry.location [] entry.culture
  | none => Diagnostic.draft .unused key { path := "" }

/-- The diagnostics of the end of a pass, as far as they can be made. -/
def endDrafts : List Diagnostic :=
  let unused := engine.catalog.keys.filter fun key =>
    !engine.used.contains (engine.catalog.normalize key)
  unused.map engine.unusedDraft ++
    engine.catalog.duplicates.map fun d => Diagnostic.draft .duplicate d.key d.location [] d.culture

theorem unusedDiagnostic_eq (key : Text) :
    engine.unusedDiagnostic key = (engine.unusedDraft key).written := by
  rw [unusedDiagnostic, unusedDraft]
  cases engine.catalog.firstEntry key with
  | none => exact Diagnostic.make_eq ..
  | some entry => exact Diagnostic.make_eq ..

theorem endOfPass_eq : engine.endOfPass = engine.endDrafts.mapM Diagnostic.written := by
  have hunused : engine.unusedDiagnostic = Diagnostic.written ∘ engine.unusedDraft :=
    funext engine.unusedDiagnostic_eq
  have hduplicate : (fun d : Duplicate => Diagnostic.make .duplicate d.key d.location [] d.culture) =
      Diagnostic.written ∘ fun d : Duplicate =>
        Diagnostic.draft .duplicate d.key d.location [] d.culture :=
    funext fun d => Diagnostic.make_eq ..
  rw [endOfPass, endDrafts, List.mapM_append, List.mapM_map, List.mapM_map, hunused, hduplicate]
  cases List.mapM (Diagnostic.written ∘ engine.unusedDraft) _ with
  | error f => rfl
  | ok unused => cases List.mapM (Diagnostic.written ∘ fun d : Duplicate => _) _ <;> rfl

/-! A whole pass -/

/-- As long as the token has not fired, usages at the front are taken one by one. -/
theorem passFrom_append {cancelAt : Option Nat} {taken : Nat} {front : List Usage}
    (hgoes : ∀ k < front.length, hasFired cancelAt (taken + k) = false)
    (staged : List Diagnostic) (back : List Usage) :
    engine.passFrom cancelAt taken staged (front ++ back) =
      match engine.observeAll front with
      | (engine, .error f) => (engine, .error (.unwritable f))
      | (engine, .ok found) =>
        engine.passFrom cancelAt (taken + front.length) (staged ++ found) back := by
  induction front generalizing engine taken staged with
  | nil => simp [observeAll]
  | cons usage front ih =>
      have hfirst : hasFired cancelAt taken = false := hgoes 0 (Nat.zero_lt_succ _)
      have hothers : ∀ k < front.length, hasFired cancelAt (taken + 1 + k) = false := by
        intro k hk
        rw [Nat.add_assoc, Nat.add_comm 1 k]
        exact hgoes (k + 1) (Nat.succ_lt_succ hk)
      rw [List.cons_append, passFrom, hfirst, if_neg Bool.false_ne_true, observeAll]
      obtain ⟨next, found⟩ := engine.observe usage
      cases found with
      | error f => rfl
      | ok found =>
          dsimp only
          rw [ih next hothers]
          obtain ⟨last, more⟩ := next.observeAll front
          cases more with
          | error f => rfl
          | ok more =>
              dsimp only
              rw [List.length_cons, List.append_assoc, Nat.add_assoc, Nat.add_comm 1 front.length]

/-- A pass in which the token does not fire gives all that it finds, if all of it has bytes. It has come
to its end if the diagnostics of the usages have. -/
theorem analyze_of_not_fired {cancelAt : Option Nat}
    (hgoes : ∀ k ≤ usages.length, hasFired cancelAt k = false) (hopen : engine.finalized = false) :
    engine.analyze usages cancelAt =
      (if ∀ d ∈ engine.drafts usages, d.HasBytes then
          { engine.noting usages with finalized := true }
        else engine.noting (engine.reached usages),
        ((engine.drafts usages ++ (engine.noting usages).endDrafts).mapM
          Diagnostic.written).mapError .unwritable) := by
  have hfront : ∀ k < usages.length, hasFired cancelAt (0 + k) = false := by
    intro k hk
    rw [Nat.zero_add]
    exact hgoes k (Nat.le_of_lt hk)
  have hlast : hasFired cancelAt usages.length = false := hgoes _ (Nat.le_refl _)
  have happend := engine.passFrom_append hfront [] []
  rw [List.append_nil, Nat.zero_add, observeAll_eq] at happend
  rw [analyze, happend, List.mapM_append]
  cases hfound : (engine.drafts usages).mapM Diagnostic.written with
  | error f =>
      have hbytes : ¬ ∀ d ∈ engine.drafts usages, d.HasBytes := fun hall => by
        rw [Diagnostic.mapM_written_eq_ok_iff.mpr ⟨hall, rfl⟩] at hfound
        cases hfound
      rw [if_neg hbytes]
      rfl
  | ok found =>
      obtain ⟨hbytes, rfl⟩ := Diagnostic.mapM_written_eq_ok_iff.mp hfound
      have hstays : (engine.noting usages).finalized = false := hopen
      dsimp only
      rw [if_pos hbytes, engine.reached_eq_self usages hbytes, passFrom, hlast,
        if_neg Bool.false_ne_true, finalize, hstays, if_neg Bool.false_ne_true, endOfPass_eq]
      cases (engine.noting usages).endDrafts.mapM Diagnostic.written <;> rfl

/-! A pass from the start -/

variable (catalog : Catalog) (settings : Settings)

theorem missingCultures_eq (key : Text) :
    catalog.missingCultures key (catalog.effectiveCultures settings.cultures) =
      Text.sorted (catalog.lacking settings key) := by
  have hlacks : ∀ culture, (!catalog.containsIn key culture) =
      decide (¬ catalog.DefinesIn key culture) := by
    intro culture
    rw [Bool.eq_iff_iff, Bool.not_eq_true', decide_eq_true_iff, ← Bool.not_eq_true,
      Catalog.containsIn_iff]
  simp only [Catalog.missingCultures, Catalog.lacking, hlacks]

theorem pairwise_sorted (texts : List Text) : (Text.sorted texts).Pairwise (· ≤ ·) :=
  Text.pairwise_sortedBy id texts

theorem isEmpty_sorted (texts : List Text) : (Text.sorted texts).isEmpty = texts.isEmpty := by
  rw [Bool.eq_iff_iff, List.isEmpty_iff_length_eq_zero, List.isEmpty_iff_length_eq_zero,
    Text.sorted, List.length_mergeSort]

theorem diagnose_start (usage : Usage) :
    (start catalog settings).diagnose usage = catalog.usageDiagnostic? settings usage := by
  have hcultures : (start catalog settings).cultures =
      catalog.effectiveCultures settings.cultures := rfl
  rw [diagnose, Catalog.usageDiagnostic?, hcultures]
  by_cases hkey : catalog.Defines usage.key
  · have hcontains := (catalog.contains_iff usage.key).mpr hkey
    by_cases hlacking : catalog.lacking settings usage.key = []
    · simp [start, missingCultures_eq, isEmpty_sorted, hcontains, hkey, hlacking]
    · simp [start, missingCultures_eq, isEmpty_sorted, hcontains, hkey, hlacking]
  · have hcontains := mt (catalog.contains_iff usage.key).mp hkey
    simp [start, hcontains, hkey]

/-- The end of a pass needs of the usages only which keys they use. -/
theorem endDrafts_eq {engine : Engine} {usages : List Usage}
    (hused : ∀ key, engine.catalog.normalize key ∈ engine.used ↔
      engine.catalog.IsUsed usages key) :
    engine.endDrafts =
      (engine.catalog.unusedEntries usages).map (fun e =>
        Diagnostic.draft .unused e.key e.location [] e.culture) ++
      engine.catalog.duplicates.map fun d =>
        Diagnostic.draft .duplicate d.key d.location [] d.culture := by
  rw [endDrafts, Catalog.keys_eq, List.filter_map, List.map_map]
  congr 1
  have hkept : ∀ e : Entry,
      (!engine.used.contains (engine.catalog.normalize e.key)) =
        decide (¬ engine.catalog.IsUsed usages e.key) := by
    intro e
    rw [Bool.eq_iff_iff, Bool.not_eq_true', decide_eq_true_iff, ← Bool.not_eq_true,
      List.contains_iff_mem, hused]
  simp only [Function.comp_def, hkept, Catalog.unusedEntries]
  refine List.map_congr_left fun e he => ?_
  rw [unusedDraft, Catalog.firstEntry_of_mem (List.mem_filter.mp he).1]

/-- What is found on the way and at the end of a pass from the start. -/
theorem drafts_start :
    (start catalog settings).drafts usages ++ ((start catalog settings).noting usages).endDrafts =
      catalog.findings settings usages := by
  have hused : ∀ key, catalog.normalize key ∈ ((start catalog settings).noting usages).used ↔
      catalog.IsUsed usages key := by
    intro key
    rw [mem_used_noting]
    simp [start, Catalog.IsUsed]
  have hdiagnose : (start catalog settings).diagnose = catalog.usageDiagnostic? settings :=
    funext (diagnose_start catalog settings)
  rw [drafts, hdiagnose, endDrafts_eq hused, Catalog.findings, List.append_assoc]
  rfl

theorem analyze_start :
    ((start catalog settings).analyze usages).2 =
      ((catalog.findings settings usages).mapM Diagnostic.written).mapError .unwritable := by
  rw [analyze_of_not_fired _ _ (fun _ _ => rfl) rfl, drafts_start]

theorem analyze_start_eq_ok_iff {diagnostics : List Diagnostic} :
    ((start catalog settings).analyze usages).2 = .ok diagnostics ↔
      (∀ d ∈ catalog.findings settings usages, d.HasBytes) ∧
        catalog.findings settings usages = diagnostics := by
  rw [analyze_start, ← Diagnostic.mapM_written_eq_ok_iff]
  cases (catalog.findings settings usages).mapM Diagnostic.written <;> simp [Except.mapError]

/-- The usages of a pass that has come to its end, and what it has found till then. -/
theorem observeAll_start_of_ok {engine : Engine} {staged more : List Diagnostic}
    (hstaged : (start catalog settings).observeAll usages = (engine, .ok staged))
    (hmore : engine.endOfPass = .ok more) :
    (∀ d ∈ catalog.findings settings usages, d.HasBytes) ∧
      catalog.findings settings usages = staged ++ more := by
  rw [observeAll_eq] at hstaged
  obtain ⟨rfl, hfound⟩ := Prod.mk.inj hstaged
  obtain ⟨hbytes, rfl⟩ := Diagnostic.mapM_written_eq_ok_iff.mp hfound
  rw [reached_eq_self _ _ hbytes, endOfPass_eq] at hmore
  obtain ⟨hend, rfl⟩ := Diagnostic.mapM_written_eq_ok_iff.mp hmore
  rw [← drafts_start]
  exact ⟨List.forall_mem_append.mpr ⟨hbytes, hend⟩, rfl⟩

theorem exists_analyze_start_iff :
    (∃ diagnostics, ((start catalog settings).analyze usages).2 = .ok diagnostics) ↔
      ∀ d ∈ catalog.findings settings usages, d.HasBytes := by
  simp only [analyze_start_eq_ok_iff, exists_and_left, exists_eq', and_true]

theorem analyze_start_of_unwritable
    (h : ∃ d ∈ catalog.findings settings usages, ¬ d.HasBytes) :
    ∃ f, ((start catalog settings).analyze usages).2 = .error (.unwritable f) := by
  obtain ⟨f, hf⟩ := Diagnostic.fails_mapM_written_iff.mpr h
  exact ⟨f, by rw [analyze_start, hf, Except.mapError]⟩

theorem pairwise_missingCultures {d : Diagnostic} (h : d ∈ catalog.findings settings usages) :
    d.missingCultures.Pairwise (· ≤ ·) := by
  obtain ⟨usage, -, hd⟩ | ⟨e, -, rfl⟩ | ⟨duplicate, -, rfl⟩ := Catalog.mem_findings h
  · obtain ⟨rfl, -⟩ | ⟨rfl, -⟩ := Catalog.usageDiagnostic?_cases hd
    · exact List.Pairwise.nil
    · exact pairwise_sorted _
  · exact List.Pairwise.nil
  · exact List.Pairwise.nil

/-- A pass from the start gives the diagnostics of the usages, one by one and in their order, then
one for each key that no usage has, at its first entry, and one for each duplicate, if the path and the
key of each have bytes; it fails otherwise. No key comes out both missing and unused, and none unused
twice, whatever their spellings. -/
theorem analyze_findings :
    (∀ diagnostics, ((start catalog settings).analyze usages).2 = .ok diagnostics ↔
        (∀ d ∈ catalog.findings settings usages, d.HasBytes) ∧
          catalog.findings settings usages = diagnostics) ∧
      ((∃ d ∈ catalog.findings settings usages, ¬ d.HasBytes) →
        ∃ f, ((start catalog settings).analyze usages).2 = .error (.unwritable f)) ∧
      (∀ d ∈ catalog.findings settings usages, d.missingCultures.Pairwise (· ≤ ·)) ∧
      (∀ d ∈ catalog.findings settings usages, ∀ d' ∈ catalog.findings settings usages,
        d.kind = .missing → d'.kind = .unused →
          catalog.normalize d.key ≠ catalog.normalize d'.key) ∧
      ((catalog.findings settings usages).filter (·.kind = .unused)).Pairwise fun d d' =>
        catalog.normalize d.key ≠ catalog.normalize d'.key := by
  refine ⟨fun _ => analyze_start_eq_ok_iff usages catalog settings,
    analyze_start_of_unwritable usages catalog settings,
    fun _ => pairwise_missingCultures usages catalog settings, ?_, ?_⟩
  · intro d hd d' hd' hmissing hunused hsame
    have hmem : d' ∈ (catalog.findings settings usages).filter (·.kind = .unused) :=
      List.mem_filter.mpr ⟨hd', decide_eq_true hunused⟩
    rw [Catalog.filter_unused_findings] at hmem
    obtain ⟨e, he, rfl⟩ := List.mem_map.mp hmem
    have hentry : e ∈ catalog.entries :=
      (Catalog.firstEntries_sublist _ _).mem (List.mem_filter.mp he).1
    exact Catalog.not_defines_of_missing hd hmissing ⟨e, hentry, hsame.symm⟩
  · rw [Catalog.filter_unused_findings, List.pairwise_map]
    exact (Catalog.pairwise_firstEntries _ _).sublist List.filter_sublist

/-- A key that is half of a surrogate pair, as an escape in a resource file brings it in. -/
def halfKey : Text := Text.ofList [.half 0]

/-- A key without bytes is unused, and the pass fails. -/
theorem analyze_halfKey :
    let catalog : Catalog := { entries := [⟨halfKey, "en", { path := "en.json" }, .int 1⟩] }
    (catalog.findings {} []).map Diagnostic.key = [halfKey] ∧
      ((start catalog {}).analyze []).2 = .error (.unwritable ⟨15, 1, .half 0⟩) := by
  decide

end Engine
end LocaleKeys
