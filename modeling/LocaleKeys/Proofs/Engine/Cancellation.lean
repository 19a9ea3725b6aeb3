import LocaleKeys.Proofs.Engine.Pass

/-!
Passes that are called off. A pass looks at its token each time it has been handed a usage and once more
behind the last one, so a token that fires in between stops it at the next look: the usages before it have
been noted as used, nothing is given, and the end of the pass is still to come. A diagnostic without bytes
stops a pass too, if it comes before that.
-/

namespace LocaleKeys.Engine

variable {engine : Engine} {usages : List Usage}

/-! The looks at a token -/

theorem hasFired_some {i taken : Nat} : hasFired (some i) taken = decide (i ≤ taken) := rfl

theorem passFrom_of_fired {cancelAt : Option Nat} {taken : Nat}
    (h : hasFired cancelAt taken = true) (staged : List Diagnostic) (usages : List Usage) :
    engine.passFrom cancelAt taken staged usages = (engine, .error .cancelled) := by
  cases usages with
  | nil => rw [passFrom, if_pos h]
  | cons usage rest => rw [passFrom, if_pos h]

/-- The first look that finds the token fired is the one behind the usages before it. -/
theorem analyze_of_fired {i : Nat} (hi : i ≤ usages.length) :
    engine.analyze usages (some i) =
      match engine.observeAll (usages.take i) with
      | (engine, .error f) => (engine, .error (.unwritable f))
      | (engine, .ok _) => (engine, .error .cancelled) := by
  have hlength : (usages.take i).length = i := by
    rw [List.length_take, Nat.min_eq_left hi]
  have hgoes : ∀ k < (usages.take i).length, hasFired (some i) (0 + k) = false := by
    intro k hk
    rw [hlength] at hk
    rw [hasFired_some, Nat.zero_add, decide_eq_false_iff_not]
    exact Nat.not_le.mpr hk
  have hfired : hasFired (some i) (0 + (usages.take i).length) = true := by
    rw [hasFired_some, hlength, Nat.zero_add]
    exact decide_eq_true (Nat.le_refl i)
  have happend := engine.passFrom_append hgoes [] (usages.drop i)
  rw [List.take_append_drop] at happend
  rw [analyze, happend]
  obtain ⟨ended, observed⟩ := engine.observeAll (usages.take i)
  cases observed with
  | error f => rfl
  | ok taken =>
      dsimp only
      rw [passFrom_of_fired hfired]

theorem analyze_of_late {i : Nat} (hopen : engine.finalized = false) (hi : usages.length < i) :
    engine.analyze usages (some i) = engine.analyze usages := by
  have hgoes : ∀ k ≤ usages.length, hasFired (some i) k = false := fun k hk => by
    rw [hasFired_some, decide_eq_false_iff_not]
    exact Nat.not_le.mpr (Nat.lt_of_le_of_lt hk hi)
  rw [analyze_of_not_fired engine usages hgoes hopen,
    analyze_of_not_fired engine usages (fun _ _ => rfl) hopen]

/-! What a pass leaves behind -/

theorem finalize_eq (hopen : engine.finalized = false) :
    engine.finalize = ({ engine with finalized := true },
      (engine.endDrafts.mapM Diagnostic.written).mapError .unwritable) := by
  rw [finalize, hopen, if_neg Bool.false_ne_true, endOfPass_eq]
  cases engine.endDrafts.mapM Diagnostic.written <;> rfl

/-- The end of a pass is reached once, and gives what it finds if all of that has bytes. -/
theorem finalize_once (hopen : engine.finalized = false) :
    ((∃ diagnostics, engine.finalize.2 = .ok diagnostics) ↔ ∀ d ∈ engine.endDrafts, d.HasBytes) ∧
      engine.finalize.1.finalize = (engine.finalize.1, .error .alreadyFinalized) := by
  rw [finalize_eq hopen]
  refine ⟨?_, rfl⟩
  cases hall : engine.endDrafts.mapM Diagnostic.written with
  | error f => simpa [Except.mapError] using Diagnostic.fails_mapM_written_iff.mp ⟨f, hall⟩
  | ok made => simpa [Except.mapError] using (Diagnostic.mapM_written_eq_ok_iff.mp hall).1

/-- A pass gives all or nothing. Where the token fires before the usage at a position is produced, or
behind the last one, nothing is given, and the engine differs only in the keys of the usages up to there,
which are used now; its pass can still be ended, once. A token that does not fire makes no difference.
This is so as far as the diagnostics have bytes: one of a usage that has none is an error of its own and
comes before the token, and one of the end is an error of the end. -/
theorem analyze_all_or_nothing (engine : Engine) (hopen : engine.finalized = false)
    (usages : List Usage) :
    (∀ i ≤ usages.length,
      ((∀ d ∈ engine.drafts (usages.take i), d.HasBytes) → ∃ used,
        engine.analyze usages (some i) = ({ engine with used := used }, .error .cancelled) ∧
        (∀ compared, compared ∈ used ↔ compared ∈ engine.used ∨
          ∃ usage ∈ usages.take i, isBlankKey usage.key = false ∧
            engine.catalog.normalize usage.key = compared) ∧
        ((∃ diagnostics, (finalize { engine with used := used }).2 = .ok diagnostics) ↔
          ∀ d ∈ endDrafts { engine with used := used }, d.HasBytes) ∧
        ∃ ended, (finalize { engine with used := used }).1 = ended ∧
          ended.finalize = (ended, .error .alreadyFinalized)) ∧
      ((∃ d ∈ engine.drafts (usages.take i), ¬ d.HasBytes) → ∃ used f,
        engine.analyze usages (some i) =
          ({ engine with used := used }, .error (.unwritable f)) ∧
        ∀ compared ∈ used, compared ∈ engine.used ∨
          ∃ usage ∈ usages.take i, isBlankKey usage.key = false ∧
            engine.catalog.normalize usage.key = compared)) ∧
      (∀ i, usages.length < i → engine.analyze usages (some i) = engine.analyze usages) ∧
      ((∃ ended diagnostics, engine.analyze usages = (ended, .ok diagnostics)) ↔
        ∀ d ∈ engine.drafts usages ++ (engine.noting usages).endDrafts, d.HasBytes) := by
  refine ⟨fun i hi => ⟨fun hbytes => ?_, fun hnone => ?_⟩, fun i => analyze_of_late hopen, ?_⟩
  · refine ⟨(engine.noting (usages.take i)).used, ?_, fun compared => engine.mem_used_noting _, ?_⟩
    · rw [analyze_of_fired hi, observeAll_eq, engine.reached_eq_self _ hbytes,
        Diagnostic.mapM_written_eq_ok_iff.mpr ⟨hbytes, rfl⟩]
      rfl
    · have hend := @finalize_once (engine.noting (usages.take i)) hopen
      exact ⟨hend.1, _, rfl, hend.2⟩
  · obtain ⟨f, hf⟩ := Diagnostic.fails_mapM_written_iff.mpr hnone
    refine ⟨(engine.noting (engine.reached (usages.take i))).used, f, ?_, fun compared hused => ?_⟩
    · rw [analyze_of_fired hi, observeAll_eq, hf]
      rfl
    · obtain hbefore | ⟨usage, husage, hkey⟩ := (engine.mem_used_noting _).mp hused
      · exact Or.inl hbefore
      · exact Or.inr ⟨usage, (engine.reached_prefix _).subset husage, hkey⟩
  · rw [analyze_of_not_fired engine usages (fun _ _ => rfl) hopen]
    cases hall : (engine.drafts usages ++ (engine.noting usages).endDrafts).mapM
        Diagnostic.written with
    | error f =>
        have hnone := Diagnostic.fails_mapM_written_iff.mp ⟨f, hall⟩
        simpa [Except.mapError] using hnone
    | ok made =>
        have hbytes := (Diagnostic.mapM_written_eq_ok_iff.mp hall).1
        simpa [Except.mapError] using hbytes

/-- A token that fires behind the first of two usages, in an engine that has seen a key before. -/
theorem analyze_all_or_nothing_between :
    let engine : Engine := { start {} {} with used := ["seen"] }
    let usages : List Usage := [⟨"k", { path := "a.py" }⟩, ⟨"l", { path := "a.py" }⟩]
    engine.finalized = false ∧ (∀ d ∈ engine.drafts (usages.take 1), d.HasBytes) ∧ ∃ used,
      engine.analyze usages (some 1) = ({ engine with used := used }, .error .cancelled) ∧
        (∀ compared, compared ∈ used ↔ compared ∈ [Text.ofString "seen"] ∨
          ∃ usage ∈ usages.take 1, isBlankKey usage.key = false ∧
            engine.catalog.normalize usage.key = compared) ∧
        ∃ ended, (finalize { engine with used := used }).1 = ended ∧
          ended.finalize = (ended, .error .alreadyFinalized) := by
  intro engine usages
  have hopen : engine.finalized = false := rfl
  have hbytes : ∀ d ∈ engine.drafts (usages.take 1), d.HasBytes := by decide
  obtain ⟨used, hfired, hused, -, hended⟩ :=
    ((analyze_all_or_nothing engine hopen usages).1 1 (by decide)).1 hbytes
  exact ⟨hopen, hbytes, used, hfired, hused, hended⟩

/-- A token fires behind a usage with a key that has no bytes, and that error comes before. -/
theorem analyze_halfKey_fired :
    ((start {} {}).analyze [⟨halfKey, { path := "a.py" }⟩] (some 1)).2 =
      .error (.unwritable ⟨12, 1, .half 0⟩) := by
  decide

end LocaleKeys.Engine
