import LocaleKeys.Command.Blank
import LocaleKeys.Proofs.Resource.Completion

/-!
Plans of the commands that add keys. Making a plan fails for what is given and not for what is in the
files: nothing in the place of a culture, or a key that no object takes, as soon as the plan comes to an
object.
-/

namespace LocaleKeys.Command

open Json (maxDepth)

variable {settings : Settings} {files : List ResourceFile} {cultures : List Given} {key : Given}
variable {targets : List Text} {value : Json} {ruleId : Text}

/-! Edits -/

/-- A key that no object takes: nothing, or one with too many parts. -/
def Unfit : Given → Prop
  | none => True
  | some key => maxDepth < (Key.segments key).length

/-- An edit for some cultures comes to a file that is edited as an object. -/
def ReachesObject (settings : Settings) (files : List ResourceFile) (targets : List Text) : Prop :=
  ∃ file ∈ files, ∃ text, file.text = some text ∧
    Fix.Selected settings.cultures targets file.path ∧ ∃ ms, Patch.EditsAs text ms

theorem applyBlank_fails_iff (value : Json) (text : List Point) :
    Fails (applyBlank value text) ↔ ∃ ms, Patch.EditsAs text ms := by
  rw [Patch.exists_editsAs_iff, applyBlank]
  split
  · next hblank => simp [hblank]
  · next hfilled =>
      split
      · next hread => simp [hfilled, hread]
      · next ms hread => simp [hread]
      · next hobject hread => simp [hfilled, Patch.not_read_object hread hobject]

theorem patchedBy_fails_iff {ε : Type} (edit : List Point → Except ε (List Point)) {unfit : Prop}
    (hedit : ∀ text, Fails (edit text) ↔ (∃ ms, Patch.EditsAs text ms) ∧ unfit) :
    Fails (Fix.patchedBy edit settings.cultures targets files) ↔
      unfit ∧ ReachesObject settings files targets := by
  rw [Fix.patchedBy_eq, Fix.foldlM_fails_iff]
  simp only [Fix.selects_iff, hedit, ReachesObject]
  constructor
  · rintro ⟨file, hfile, text, htext, hselected, hobject, hunfit⟩
    exact ⟨hunfit, file, hfile, text, htext, hselected, hobject⟩
  · rintro ⟨hunfit, file, hfile, text, htext, hselected, hobject⟩
    exact ⟨file, hfile, text, htext, hselected, hobject, hunfit⟩

theorem plan_fails_iff :
    Fails (plan (Project.ofFiles settings files) targets key value ruleId) ↔
      Unfit key ∧ ReachesObject settings files targets := by
  cases key with
  | some key =>
      have hpatched := @patchedBy_fails_iff settings files targets _ (Patch.apply · key value) _
        fun text => Patch.apply_fails_iff text key value
      rw [Unfit, ← hpatched, plan, Fix.plan, Fix.patched]
      dsimp only [Project.ofFiles]
      cases Fix.patchedBy (Patch.apply · key value) settings.cultures targets files <;>
        simp [Except.map]
  | none =>
      have hpatched := @patchedBy_fails_iff settings files targets _ (applyBlank value) True
        fun text => by rw [applyBlank_fails_iff, and_true]
      rw [Unfit, ← hpatched, plan]
      dsimp only [Project.ofFiles]
      cases Fix.patchedBy (applyBlank value) settings.cultures targets files <;> simp

theorem creation_fails_iff :
    Fails (creation (Project.ofFiles settings files) cultures key value) ↔
      none ∈ cultures ∨ Unfit key ∧ ReachesObject settings files (cultures.filterMap id) := by
  rw [creation]
  split
  · next hblank => simp [List.contains_iff_mem.mp hblank]
  · next hgiven =>
      rw [List.contains_iff_mem] at hgiven
      rw [plan_fails_iff]
      simp [hgiven]

/-! Cultures that lack a key -/

variable {catalog : Catalog}

/-- The cultures among the given ones that lack a key; no culture has nothing as a key. -/
def missingIn (catalog : Catalog) (key : Given) (cultures : List Given) : List Text :=
  (cultures.filterMap id).filter fun culture => !key.any fun key => catalog.containsIn key culture

theorem hasKey_fails_iff {culture : Given} :
    Fails (hasKey catalog key culture) ↔
      culture = none ∨ key = none ∧ ∃ name ∈ catalog.cultures, culture = some name := by
  cases culture with
  | none => simp [hasKey]
  | some name =>
      cases key with
      | some key => simp [hasKey]
      | none =>
          rw [hasKey]
          split
          · next hmem => simpa using hmem
          · next hnot => simpa using hnot

theorem hasKey_of_ok {culture : Text} {has : Bool}
    (h : hasKey catalog key (some culture) = .ok has) :
    has = key.any fun key => catalog.containsIn key culture := by
  cases key with
  | some key =>
      cases h
      rfl
  | none =>
      rw [hasKey] at h
      split at h <;> cases h
      rfl

theorem lacking_fails_iff :
    Fails (lacking catalog key cultures) ↔
      none ∈ cultures ∨ key = none ∧ ∃ name ∈ catalog.cultures, some name ∈ cultures := by
  have hany : Fails (lacking catalog key cultures) ↔
      ∃ culture ∈ cultures, Fails (hasKey catalog key culture) := by
    induction cultures with
    | nil => simp [lacking]
    | cons culture rest ih =>
        simp only [List.mem_cons, exists_eq_or_imp, ← ih]
        rw [lacking]
        cases hasKey catalog key culture <;> simp
  simp only [hany, hasKey_fails_iff]
  constructor
  · rintro ⟨culture, hculture, rfl | ⟨hkey, name, hname, rfl⟩⟩
    · exact Or.inl hculture
    · exact Or.inr ⟨hkey, name, hname, hculture⟩
  · rintro (hblank | ⟨hkey, name, hname, hculture⟩)
    · exact ⟨none, hblank, Or.inl rfl⟩
    · exact ⟨some name, hculture, Or.inr ⟨hkey, name, hname, rfl⟩⟩

theorem lacking_of_ok (h : lacking catalog key cultures = .ok targets) :
    targets = missingIn catalog key cultures := by
  induction cultures generalizing targets with
  | nil =>
      cases h
      rfl
  | cons culture rest ih =>
      rw [lacking] at h
      cases hhas : hasKey catalog key culture with
      | error m => rw [hhas] at h; cases h
      | ok has =>
          cases hrest : lacking catalog key rest with
          | error m => rw [hhas, hrest] at h; cases h
          | ok more =>
              rw [hhas, hrest] at h
              cases culture with
              | none => cases hhas
              | some culture =>
                  have hmore := ih hrest
                  cases h
                  rw [hasKey_of_ok hhas, hmore, missingIn, missingIn]
                  simp only [List.filterMap_cons, id, List.filter_cons]
                  split <;> simp [*]

theorem missingIn_none_ne_nil (hcultures : cultures ≠ []) (hgiven : none ∉ cultures) :
    missingIn catalog none cultures ≠ [] := by
  obtain ⟨culture, hculture⟩ := List.exists_mem_of_ne_nil _ hcultures
  cases culture with
  | none => exact absurd hculture hgiven
  | some name =>
      have hmem : name ∈ missingIn catalog none cultures := by simpa [missingIn] using hculture
      exact List.ne_nil_of_mem hmem

/-! Completions -/

/-- The cultures that a completion compares: the given ones, else those of the project. -/
def comparedIn (settings : Settings) (files : List ResourceFile) (cultures : List Given) :
    List Given :=
  if cultures.isEmpty then
    ((Catalog.build settings files).effectiveCultures settings.cultures).map some
  else cultures

theorem none_mem_comparedIn :
    none ∈ comparedIn settings files cultures ↔ none ∈ cultures := by
  rw [comparedIn]
  split
  · next hempty => simp [List.isEmpty_iff.mp hempty]
  · rfl

theorem effective_ne_nil {explicit discovered : List Text} (h : discovered ≠ []) :
    Culture.effective explicit discovered ≠ [] := by
  rw [Culture.effective]
  split
  · dsimp only
    split
    · exact h
    · next hnamed => simpa using hnamed
  · next hexplicit => simpa using hexplicit

theorem comparedIn_ne_nil (h : (Catalog.build settings files).cultures ≠ []) :
    comparedIn settings files cultures ≠ [] := by
  rw [comparedIn]
  split
  · cases files with
    | nil => exact absurd rfl h
    | cons file files =>
        have hmem : Culture.resolve settings.cultures file.path ∈
            Culture.discover settings.cultures ((file :: files).map (·.path)) :=
          Culture.mem_distinct.mpr (List.mem_map_of_mem List.mem_cons_self)
        rw [Ne, List.map_eq_nil_iff]
        exact effective_ne_nil (List.ne_nil_of_mem hmem)
  · next hgiven => simpa using hgiven

theorem placeholderFor_fails_iff :
    Fails (placeholderFor catalog key) ↔ key = none ∧ catalog.cultures ≠ [] := by
  cases key with
  | some key => simp [placeholderFor]
  | none =>
      rw [placeholderFor]
      split
      · next hempty => simpa using hempty
      · next hsome => simpa using hsome

/-- A completion fails for a blank culture, for a blank key if any culture has keys, and for a key that
does not fit as soon as a culture that lacks it brings it to an object. -/
theorem completion_fails_iff :
    Fails (completion (Project.ofFiles settings files) cultures key) ↔
      none ∈ cultures ∨ (key = none ∧ (Catalog.build settings files).cultures ≠ []) ∨
        Unfit key ∧
          missingIn (Catalog.build settings files) key (comparedIn settings files cultures) ≠ [] ∧
          ReachesObject settings files
            (missingIn (Catalog.build settings files) key (comparedIn settings files cultures)) := by
  have hlacking := @lacking_fails_iff (comparedIn settings files cultures) key
    (Catalog.build settings files)
  rw [none_mem_comparedIn] at hlacking
  rw [completion]
  dsimp only [Project.ofFiles]
  rw [← comparedIn]
  cases hfound : lacking (Catalog.build settings files) key
      (comparedIn settings files cultures) with
  | error m =>
      rw [hfound] at hlacking
      obtain hblank | ⟨hkey, name, hname, -⟩ := hlacking.mp (fails_error m)
      · simp [hblank]
      · simp [hkey, List.ne_nil_of_mem hname]
  | ok targets =>
      rw [hfound, iff_false_left (not_fails_ok _), not_or] at hlacking
      obtain ⟨hgiven, -⟩ := hlacking
      have htargets := lacking_of_ok hfound
      rw [← htargets]
      cases targets with
      | nil =>
          have hkeyless : ¬ (key = none ∧ (Catalog.build settings files).cultures ≠ []) := by
            rintro ⟨rfl, hcultures⟩
            refine missingIn_none_ne_nil (comparedIn_ne_nil hcultures) ?_ htargets.symm
            rwa [none_mem_comparedIn]
          simp [hgiven, hkeyless]
      | cons target targets =>
          have hplaceholder := @placeholderFor_fails_iff key (Catalog.build settings files)
          dsimp only
          cases hvalue : placeholderFor (Catalog.build settings files) key with
          | error m =>
              rw [hvalue, iff_true_left (fails_error m)] at hplaceholder
              simp [hplaceholder]
          | ok value =>
              rw [hvalue, iff_false_left (not_fails_ok value)] at hplaceholder
              dsimp only
              rw [← Project.ofFiles, plan_fails_iff]
              simp [hgiven, hplaceholder]

end LocaleKeys.Command
