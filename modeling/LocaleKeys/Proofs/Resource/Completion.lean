import LocaleKeys.Project
import LocaleKeys.Proofs.Culture
import LocaleKeys.Proofs.Engine.Pass
import LocaleKeys.Proofs.Resource.Planned

/-!
Completing a key that some cultures lack. The lacking cultures are found by comparing names as they
are, the files to edit by comparing them with letter case aside, so the files that have the key are left
alone as long as both comparisons agree on the cultures of the files.
-/

namespace LocaleKeys

/-! Cultures that both comparisons tell apart -/

namespace Culture

/-- Configured cultures that are told apart however they are compared: none is blank, no two differ in
letter case only, and none is the default culture in other letters. -/
structure Distinguished (explicit : List Text) : Prop where
  named : ∀ t ∈ explicit, Text.trimmed t ≠ ""
  apart : ∀ s ∈ explicit, ∀ t ∈ explicit, Text.lowercased s = Text.lowercased t → s = t
  reserved : ∀ t ∈ explicit, Text.lowercased t = default → t = default

theorem lowercased_default : Text.lowercased default = default := by decide

variable {explicit : List Text}

theorem eq_resolve_of_configured (h : Distinguished explicit) {t path : Text} (ht : t ∈ explicit)
    (hsame : Text.lowercased t = Text.lowercased (resolve explicit path)) :
    t = resolve explicit path := by
  obtain hconfigured | hdefault | ⟨hsmall, -, hother⟩ := resolve_cases explicit path
  · exact h.apart t ht _ hconfigured hsame
  · rw [hdefault] at hsame ⊢
    exact h.reserved t ht (hsame.trans lowercased_default)
  · exact absurd (hsame.trans hsmall) (hother t ht)

/-- Without configured cultures the ones of files are in small letters and not blank. -/
theorem resolve_nil (path : Text) :
    Text.lowercased (resolve [] path) = resolve [] path ∧ Text.trimmed (resolve [] path) ≠ "" := by
  obtain hconfigured | hdefault | ⟨hsmall, hblank, -⟩ := resolve_cases [] path
  · cases hconfigured
  · rw [hdefault]
    exact ⟨lowercased_default, by decide⟩
  · exact ⟨hsmall, hblank⟩

theorem mem_distinct {s : Text} {texts : List Text} : s ∈ Text.distinct texts ↔ s ∈ texts := by
  have hfold : ∀ seen, s ∈ texts.foldl (fun seen s => if seen.contains s then seen else seen ++ [s])
      seen ↔ s ∈ seen ∨ s ∈ texts := by
    induction texts with
    | nil => simp
    | cons text rest ih =>
        intro seen
        rw [List.foldl_cons, ih, List.mem_cons, ← or_assoc]
        refine or_congr_left ?_
        split
        · next hseen =>
            have htext : text ∈ seen := List.contains_iff_mem.mp hseen
            exact ⟨Or.inl, fun h => h.elim id fun heq => heq ▸ htext⟩
        · simp
  rw [Text.distinct, hfold]
  simp

/-- The cultures that are compared are configured or, if none is, those of files. -/
theorem mem_effective {explicit paths : List Text} {t : Text}
    (h : t ∈ effective explicit (discover explicit paths)) :
    t ∈ explicit ∨ explicit = [] ∧ ∃ path ∈ paths, resolve [] path = t := by
  rw [effective] at h
  cases explicit with
  | cons first rest => exact Or.inl h
  | nil =>
      have hfound : t ∈ discover [] paths := by
        simp only [List.isEmpty_nil, if_true] at h
        split at h
        · exact h
        · exact (List.mem_filter.mp h).1
      exact Or.inr ⟨rfl, List.mem_map.mp (mem_distinct.mp hfound)⟩

variable {paths : List Text} {t path : Text}

theorem eq_resolve_of_effective (h : Distinguished explicit)
    (ht : t ∈ effective explicit (discover explicit paths))
    (hsame : Text.lowercased t = Text.lowercased (resolve explicit path)) :
    t = resolve explicit path := by
  obtain hconfigured | ⟨rfl, other, -, rfl⟩ := mem_effective ht
  · exact eq_resolve_of_configured h hconfigured hsame
  · rwa [(resolve_nil other).1, (resolve_nil path).1] at hsame

theorem trimmed_ne_of_effective (h : Distinguished explicit)
    (ht : t ∈ effective explicit (discover explicit paths)) : Text.trimmed t ≠ "" := by
  obtain hconfigured | ⟨rfl, other, -, rfl⟩ := mem_effective ht
  · exact h.named t hconfigured
  · exact (resolve_nil other).2

end Culture

/-! Which files a plan edits -/

namespace Fix

variable {explicit targets : List Text} {key ruleId : Text} {value : Json}
variable {files : List ResourceFile} {file : ResourceFile}

/-- New texts come from files that are selected. -/
theorem mem_foldlM {ε : Type} {edit : List Point → Except ε (List Point)}
    {done changed : List (Text × List Point)} {entry : Text × List Point}
    (h : files.foldlM (putNew edit explicit targets) done = .ok changed) (hentry : entry ∈ changed) :
    entry ∈ done ∨ ∃ file ∈ files, ∃ text, file.text = some text ∧
      selects explicit targets file.path = true ∧ edit text = .ok entry.2 ∧
      entry.1 = file.path := by
  induction files generalizing done with
  | nil =>
      cases h
      exact Or.inl hentry
  | cons file files ih =>
      obtain ⟨next, hnext, hrest⟩ := foldlM_cons_ok h
      obtain hdone | ⟨later, hlater, hedit⟩ := ih hrest
      · obtain ⟨rfl, -⟩ | ⟨text, new, htext, hselects, hedit, rfl⟩ := putNew_cases hnext
        · exact Or.inl hdone
        · rw [Assoc.put_eq_update] at hdone
          obtain hold | ⟨_, rfl, -⟩ := Assoc.mem_update hdone
          · exact Or.inl hold
          · exact Or.inr ⟨file, List.mem_cons_self, text, htext, hselects, hedit, rfl⟩
      · exact Or.inr ⟨later, List.mem_cons_of_mem _ hlater, hedit⟩

theorem fileAt?_of_mem (hpaths : (files.map (·.path)).Nodup) (hfile : file ∈ files) :
    fileAt? files file.path = some file := by
  rw [fileAt?]
  cases hfound : files.reverse.find? (·.path = file.path) with
  | none =>
      have habsent := List.find?_eq_none.mp hfound file (List.mem_reverse.mpr hfile)
      exact absurd (decide_eq_true rfl) habsent
  | some other =>
      have hother : other ∈ files := List.mem_reverse.mp (List.mem_of_find?_eq_some hfound)
      have hpath : other.path = file.path := by simpa using List.find?_some hfound
      rw [List.inj_on_of_nodup_map hpaths hother hfile hpath]

theorem ofPatched_eq (hpaths : (files.map (·.path)).Nodup) (hfile : file ∈ files)
    (new : List Point) :
    (ofPatched explicit key value ruleId files file.path new).isSome = true ↔
      file.text ≠ some new := by
  rw [ofPatched, fileAt?_of_mem hpaths hfile]
  dsimp only
  split <;> simp_all

theorem path_of_ofPatched {path : Text} {new : List Point} {fix : Fix}
    (h : ofPatched explicit key value ruleId files path new = some fix) : fix.path = path := by
  rw [ofPatched] at h
  split at h
  · cases h
  · split at h
    · cases h
    · cases h
      rfl

/-- A plan edits a file exactly if the file is readable and selected and the edit changes its text. -/
theorem plan_edits_iff {fixes : List Fix} (hpaths : (files.map (·.path)).Nodup)
    (hfile : file ∈ files) (h : plan explicit targets key value files ruleId = .ok fixes) :
    (∃ fix ∈ fixes, fix.path = file.path) ↔
      ∃ text new, file.text = some text ∧ Selected explicit targets file.path ∧
        Patch.apply text key value = .ok new ∧ text ≠ new := by
  rw [plan] at h
  cases hchanged : patched explicit targets key value files with
  | error e => rw [hchanged] at h; cases h
  | ok changed =>
      rw [hchanged] at h
      cases h
      have hfold : files.foldlM (putNew (Patch.apply · key value) explicit
          (comparableTargets targets)) [] = .ok changed := hchanged
      constructor
      · rintro ⟨fix, hfix, hpath⟩
        obtain ⟨⟨path, new⟩, hentry, hplanned⟩ := List.mem_filterMap.mp hfix
        obtain rfl : path = file.path := (path_of_ofPatched hplanned).symm.trans hpath
        obtain hnone | ⟨other, hother, text, htext, hselects, hedit, hsame⟩ := mem_foldlM hfold hentry
        · cases hnone
        · obtain rfl : other = file := List.inj_on_of_nodup_map hpaths hother hfile hsame.symm
          have hnew := (ofPatched_eq hpaths hfile new).mp (Option.isSome_of_eq_some hplanned)
          exact ⟨text, new, htext, (selects_iff _ _ _).mp hselects, hedit,
            fun heq => hnew (heq ▸ htext)⟩
      · rintro ⟨text, new, htext, hselected, hedit, hne⟩
        have hentry := Assoc.mem_of_get? (get?_foldlM_of_selected hpaths hfile htext
          ((selects_iff _ _ _).mpr hselected) hedit hfold)
        have hnew : file.text ≠ some new := by
          rw [htext]
          exact fun heq => hne (Option.some.inj heq)
        obtain ⟨fix, hplanned⟩ := Option.isSome_iff_exists.mp
          ((@ofPatched_eq explicit key ruleId value _ _ hpaths hfile new).mpr hnew)
        exact ⟨fix, List.mem_filterMap.mpr ⟨_, hentry, hplanned⟩, path_of_ofPatched hplanned⟩

theorem exists_plan (explicit targets : List Text) (value : Json) (files : List ResourceFile)
    (ruleId : Text) (hdepth : (Key.segments key).length ≤ Json.maxDepth) :
    ∃ fixes, plan explicit targets key value files ruleId = .ok fixes := by
  have htotal : ∀ text, ∃ new, Patch.apply text key value = .ok new :=
    fun text => Patch.exists_apply text value hdepth
  obtain ⟨changed, hchanged⟩ := exists_foldlM htotal files []
  have hpatched : patched explicit targets key value files = .ok changed := hchanged
  exact ⟨_, by rw [plan, hpatched]; rfl⟩

theorem selected_congr {targets targets' : List Text} {path : Text}
    (h : ∀ t, t ∈ targets ↔ t ∈ targets') :
    Selected explicit targets path ↔ Selected explicit targets' path := by
  simp only [Selected, h]

end Fix

/-! Completions -/

/-- A file that has a key: one of its entries does, in some spelling that the case policy takes for the
same. -/
def ResourceFile.Gives (settings : Settings) (file : ResourceFile) (key : Text) : Prop :=
  ∃ e ∈ (Contribution.ofFile settings file).entries,
    normalizeKey settings.caseSensitive e.key = normalizeKey settings.caseSensitive key

namespace Project

open Json (maxDepth)

variable {settings : Settings} {files : List ResourceFile} {file : ResourceFile} {key : Text}
variable {fixes : List Fix}

/-- The project of settings and resource files. -/
def ofFiles (settings : Settings) (files : List ResourceFile) : Loaded :=
  ⟨settings, files, Catalog.build settings files⟩

/-- The text that completing a key gives to a file that it edits. -/
def completedText (settings : Settings) (files : List ResourceFile) (key : Text)
    (text : List Point) : Except Patch.Error (List Point) :=
  Patch.apply text key (.str (Fix.placeholderFor (Catalog.build settings files) key))

theorem mem_partialTargets {t : Text} :
    t ∈ Fix.partialTargets (Catalog.build settings files) key settings.cultures ↔
      t ∈ (Catalog.build settings files).lacking settings key := by
  rw [Fix.partialTargets, Engine.missingCultures_eq, Text.sorted, List.mem_mergeSort]

/-- A file that has a key is in no culture that lacks it. -/
theorem not_mem_lacking (hfile : file ∈ files) (hgives : file.Gives settings key) :
    Culture.resolve settings.cultures file.path ∉
      (Catalog.build settings files).lacking settings key := by
  intro hlacking
  obtain ⟨e, he, hkey⟩ := hgives
  rw [Contribution.entries_ofFile] at he
  have hleaf := (Catalog.firstEntries_sublist _ _).mem he
  have hnot := (List.mem_filter.mp hlacking).2
  exact of_decide_eq_true hnot (Catalog.definesIn_build_iff.mpr ⟨file, hfile, rfl, e, hleaf, hkey⟩)

theorem not_selected (hcultures : Culture.Distinguished settings.cultures) (hfile : file ∈ files)
    (hgives : file.Gives settings key)
    (hlacking : (Catalog.build settings files).lacking settings key ≠ []) :
    ¬ Fix.Selected settings.cultures ((Catalog.build settings files).lacking settings key)
      file.path := by
  have heffective : ∀ t ∈ (Catalog.build settings files).lacking settings key,
      t ∈ Culture.effective settings.cultures
        (Culture.discover settings.cultures (files.map (·.path))) :=
    fun t ht => (List.mem_filter.mp ht).1
  rintro (hblank | ⟨t, ht, -, hsame⟩)
  · obtain ⟨t, ht⟩ := List.exists_mem_of_ne_nil _ hlacking
    exact Culture.trimmed_ne_of_effective hcultures (heffective t ht) (hblank t ht)
  · have heq := Culture.eq_resolve_of_effective hcultures (heffective t ht) hsame
    exact not_mem_lacking hfile hgives (heq ▸ ht)

theorem exists_completion (settings : Settings) (files : List ResourceFile)
    (hdepth : (Key.segments key).length ≤ maxDepth) :
    ∃ fixes, completion (ofFiles settings files) key = .ok fixes := by
  rw [completion]
  split
  · exact ⟨[], rfl⟩
  · exact Fix.exists_plan _ _ _ _ _ hdepth

/-- Completing a key edits a file exactly if some culture lacks the key, the lacking ones select the
file, and its text is not yet the completed one. -/
theorem completion_edits_iff (hpaths : (files.map (·.path)).Nodup) (hfile : file ∈ files)
    (h : completion (ofFiles settings files) key = .ok fixes) :
    (∃ fix ∈ fixes, fix.path = file.path) ↔
      (Catalog.build settings files).lacking settings key ≠ [] ∧
        ∃ text new, file.text = some text ∧
          Fix.Selected settings.cultures ((Catalog.build settings files).lacking settings key)
            file.path ∧
          completedText settings files key text = .ok new ∧ text ≠ new := by
  have hselected : Fix.Selected settings.cultures
      (Fix.partialTargets (Catalog.build settings files) key settings.cultures) file.path ↔
      Fix.Selected settings.cultures ((Catalog.build settings files).lacking settings key)
        file.path :=
    Fix.selected_congr fun _ => mem_partialTargets
  have hempty : (Fix.partialTargets (Catalog.build settings files) key
      settings.cultures).isEmpty = true ↔
      (Catalog.build settings files).lacking settings key = [] := by
    rw [Fix.partialTargets, Engine.missingCultures_eq, Engine.isEmpty_sorted, List.isEmpty_iff]
  rw [completion, ofFiles] at h
  dsimp only at h
  split at h
  · next hnone =>
      cases h
      simp [hempty.mp hnone]
  · next hsome =>
      rw [Fix.plan_edits_iff hpaths hfile h, hselected]
      exact (and_iff_right (mt hempty.mpr hsome)).symm

/-- Completing a key succeeds unless the key is too long. It leaves the files that have the key alone
exactly if none of them is selected by the cultures that lack it, save those whose text is the completed
one already; so it does if the configured cultures are told apart however they are compared. -/
theorem completion_spares_iff (settings : Settings) {files : List ResourceFile}
    (hpaths : (files.map (·.path)).Nodup) (key : Text) :
    ((Key.segments key).length ≤ maxDepth →
      ∃ fixes, completion (ofFiles settings files) key = .ok fixes) ∧
    ∀ fixes, completion (ofFiles settings files) key = .ok fixes →
      ((∀ fix ∈ fixes, ∀ file ∈ files, file.path = fix.path → ¬ file.Gives settings key) ↔
        ∀ file ∈ files, file.Gives settings key →
          (Catalog.build settings files).lacking settings key ≠ [] →
          Fix.Selected settings.cultures ((Catalog.build settings files).lacking settings key)
            file.path →
          ∀ text new, file.text = some text → completedText settings files key text = .ok new →
            text = new) ∧
      (Culture.Distinguished settings.cultures →
        ∀ fix ∈ fixes, ∀ file ∈ files, file.path = fix.path → ¬ file.Gives settings key) := by
  constructor
  · exact exists_completion settings files
  · intro fixes hfixes
    have hedits : ∀ file ∈ files, (∃ fix ∈ fixes, fix.path = file.path) ↔ _ :=
      fun file hfile => completion_edits_iff hpaths hfile hfixes
    constructor
    · constructor
      · intro hspared file hfile hgives hlacking hselected text new htext hcompleted
        by_contra hne
        obtain ⟨fix, hfix, hpath⟩ := (hedits file hfile).mpr
          ⟨hlacking, text, new, htext, hselected, hcompleted, hne⟩
        exact hspared fix hfix file hfile hpath.symm hgives
      · intro hunchanged fix hfix file hfile hpath hgives
        obtain ⟨hlacking, text, new, htext, hselected, hcompleted, hne⟩ :=
          (hedits file hfile).mp ⟨fix, hfix, hpath.symm⟩
        exact hne (hunchanged file hfile hgives hlacking hselected text new htext hcompleted)
    · intro hcultures fix hfix file hfile hpath hgives
      obtain ⟨hlacking, -, -, -, hselected, -⟩ := (hedits file hfile).mp ⟨fix, hfix, hpath.symm⟩
      exact not_selected hcultures hfile hgives hlacking hselected

theorem exists_completed {text : List Point} (hdepth : (Key.segments key).length ≤ maxDepth)
    (hchanged : (completedText settings files key text).toOption ≠ some text) :
    ∃ new, completedText settings files key text = .ok new ∧ text ≠ new := by
  obtain ⟨new, hnew⟩ := Patch.exists_apply text
    (.str (Fix.placeholderFor (Catalog.build settings files) key)) hdepth
  refine ⟨new, hnew, ?_⟩
  rintro rfl
  exact hchanged (by rw [completedText, hnew]; rfl)

/-- A key that one culture has and another one lacks. -/
def twoFiles : List ResourceFile := [
  { path := "en.json", text := some (Text.ofString "\x7b\"k\": \"v\"\x7d").toList },
  { path := "de.json", text := some (Text.ofString "\x7b\x7d").toList }]

theorem completion_spares_translated :
    (twoFiles.map (·.path)).Nodup ∧
      ∃ fixes, completion (ofFiles { cultures := ["de", "en"] } twoFiles) "k" = .ok fixes ∧
        (∃ fix ∈ fixes, fix.path = "de.json") ∧
        ∀ fix ∈ fixes, ∀ file ∈ twoFiles, file.path = fix.path →
          ¬ file.Gives { cultures := ["de", "en"] } "k" := by
  have hpaths : (twoFiles.map (·.path)).Nodup := by decide
  have hdepth : (Key.segments "k").length ≤ maxDepth := by decide
  have hcultures : Culture.Distinguished ["de", "en"] := ⟨by decide, by decide, by decide⟩
  have hlacking : (Catalog.build { cultures := ["de", "en"] } twoFiles).lacking
      { cultures := ["de", "en"] } "k" = ["de"] := by decide +kernel
  obtain ⟨hsome, hspares⟩ := completion_spares_iff { cultures := ["de", "en"] } hpaths "k"
  obtain ⟨fixes, hfixes⟩ := hsome hdepth
  obtain ⟨new, hnew, hne⟩ := @exists_completed { cultures := ["de", "en"] } twoFiles "k"
    (Text.ofString "\x7b\x7d").toList hdepth (by decide +kernel)
  have hedits := completion_edits_iff hpaths (.tail _ (.head _)) hfixes
  rw [hlacking] at hedits
  exact ⟨hpaths, fixes, hfixes,
    hedits.mpr ⟨List.cons_ne_nil _ _, _, new, rfl, Or.inr ⟨"de", .head _, by decide, by decide⟩, hnew,
      hne⟩,
    (hspares fixes hfixes).2 hcultures⟩

/-- One culture configured in two spellings. The file has the first of them, so the second one lacks
the key, and with letter case aside it selects the file. -/
theorem completion_overwrites_spelling :
    let settings : Settings := { cultures := ["en-US", "en-us"] }
    let file : ResourceFile :=
      { path := "en-US.json", text := some (Text.ofString "\x7b\"k\": \"v\"\x7d").toList }
    ([file].map (·.path)).Nodup ∧ file.Gives settings "k" ∧
      ∃ fixes, completion (ofFiles settings [file]) "k" = .ok fixes ∧
        ∃ fix ∈ fixes, fix.path = file.path := by
  intro settings file
  have hpaths : ([file].map (·.path)).Nodup := List.nodup_singleton _
  have hdepth : (Key.segments "k").length ≤ maxDepth := by decide
  have hgives : ∃ e ∈ (Contribution.ofFile settings file).entries, e.key = "k" := by decide +kernel
  have hlacking : (Catalog.build settings [file]).lacking settings "k" = ["en-us"] := by
    decide +kernel
  obtain ⟨new, hnew, hne⟩ := @exists_completed settings [file] "k"
    (Text.ofString "\x7b\"k\": \"v\"\x7d").toList hdepth (by decide +kernel)
  obtain ⟨fixes, hfixes⟩ := exists_completion settings [file] hdepth
  have hedits := completion_edits_iff hpaths (.head _) hfixes
  rw [hlacking] at hedits
  exact ⟨hpaths, hgives, fixes, hfixes,
    hedits.mpr ⟨List.cons_ne_nil _ _, _, new, rfl,
      Or.inr ⟨"en-us", .head _, by decide, by decide⟩, hnew, hne⟩⟩

end Project
end LocaleKeys
