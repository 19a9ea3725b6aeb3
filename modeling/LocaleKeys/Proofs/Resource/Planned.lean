import LocaleKeys.Proofs.Catalog.Contribution
import LocaleKeys.Proofs.Except
import LocaleKeys.Proofs.Key.Frame
import LocaleKeys.Proofs.Resource.Patch
import LocaleKeys.Resource.Fix

/-!
Adding a key to the files of some cultures. A file that is selected gets its new text under its path,
any other file gets none, and the catalog of the new texts has the key in the culture of each file
whose text was blank or an object.
-/

namespace LocaleKeys

namespace Patch

open Json (Readable maxDepth)

variable {text : List Point} {key : Text} {ms : List (Text × Json)}

/-- A text that is edited as an object: a blank text is the empty one. -/
def EditsAs (text : List Point) (ms : List (Text × Json)) : Prop :=
  (Text.trim text).isEmpty = true ∧ ms = [] ∨ Json.read .keepLast text = .ok (.obj ms)

/-- An edited object is read back with the value set, whichever member of a name counts. -/
theorem read_apply (value : Text) (h : EditsAs text ms)
    (hdepth : (Key.segments key).length ≤ maxDepth) (policy : Json.Repeats) :
    ∃ after, apply text key (.str value) = .ok after ∧
      Json.read policy after = .ok (.obj (Key.insert key (.str value) ms)) := by
  refine ⟨fileText (Key.insert key (.str value) ms), ?_⟩
  obtain ⟨hblank, rfl⟩ | hread := h
  · have hinsert : Readable maxDepth (.obj (Key.insert key (.str value) [])) :=
      readable_insert value readable_nil hdepth
    exact ⟨by rw [apply_of_blank hblank, renderFile_eq hdepth], read_fileText hinsert policy⟩
  · have hinsert := readable_insert value (Json.readable_of_read hread) hdepth
    exact ⟨by rw [apply_of_read hread, renderFile_eq hdepth], read_fileText hinsert policy⟩

theorem exists_editsAs_iff :
    (∃ ms, EditsAs text ms) ↔ (Text.trim text).isEmpty = true ∨
      ∃ ms, Json.read .keepLast text = .ok (.obj ms) := by
  simp only [EditsAs, exists_or, exists_and_left, exists_eq, and_true]

theorem not_read_object {v : Json} (hread : Json.read .keepLast text = .ok v)
    (hobject : ∀ ms, v = .obj ms → False) : ¬ ∃ ms, Json.read .keepLast text = .ok (.obj ms) := by
  rintro ⟨ms, hms⟩
  rw [hms] at hread
  exact hobject ms (Except.ok.inj hread).symm

theorem renderFile_fails_iff (v : Json) :
    Fails (renderFile key v ms) ↔ maxDepth < (Key.segments key).length := by
  rw [renderFile]
  split <;> simp [*]

/-- An edit fails exactly on what is edited as an object, for a key with too many parts. -/
theorem apply_fails_iff (text : List Point) (key : Text) (v : Json) :
    Fails (apply text key v) ↔ (∃ ms, EditsAs text ms) ∧ maxDepth < (Key.segments key).length := by
  rw [exists_editsAs_iff, apply]
  split
  · next hblank => simp [hblank, renderFile_fails_iff]
  · next hfilled =>
      split
      · next hread => simp [hfilled, hread]
      · next ms hread => simp [hread, renderFile_fails_iff]
      · next hobject hread => simp [hfilled, not_read_object hread hobject]

/-- A key that is not too long can be set in any text. -/
theorem exists_apply (text : List Point) (v : Json)
    (hdepth : (Key.segments key).length ≤ maxDepth) : ∃ after, apply text key v = .ok after :=
  not_fails_iff.mp fun hfails =>
    absurd ((apply_fails_iff text key v).mp hfails).2 (Nat.not_lt.mpr hdepth)

end Patch

namespace Fix

variable {ε : Type} {edit : List Point → Except ε (List Point)} {explicit targets : List Text}
variable {files : List ResourceFile} {done changed : List (Text × List Point)}

/-- A file that is to get a key: all targets are blank, or one that is not is the culture of the
file, case aside. -/
def Selected (explicit targets : List Text) (path : Text) : Prop :=
  (∀ t ∈ targets, Text.trimmed t = "") ∨
    ∃ t ∈ targets, Text.trimmed t ≠ "" ∧
      Text.lowercased t = Text.lowercased (Culture.resolve explicit path)

theorem selects_iff (explicit targets : List Text) (path : Text) :
    selects explicit (comparableTargets targets) path = true ↔ Selected explicit targets path := by
  simp [selects, comparableTargets, Selected, and_assoc]

/-- What one file does to the new texts. -/
def putNew (edit : List Point → Except ε (List Point)) (explicit targets : List Text)
    (done : List (Text × List Point)) (file : ResourceFile) :
    Except ε (List (Text × List Point)) :=
  match file.text with
  | some text =>
    if selects explicit targets file.path then
      (edit text).map fun text => Assoc.put file.path text done
    else .ok done
  | none => .ok done

theorem patchedBy_eq (edit : List Point → Except ε (List Point)) (explicit targets : List Text)
    (files : List ResourceFile) :
    patchedBy edit explicit targets files =
      files.foldlM (putNew edit explicit (comparableTargets targets)) [] := rfl

/-- A file is passed over, or its new text is put under its path. -/
theorem putNew_cases {file : ResourceFile} {next : List (Text × List Point)}
    (h : putNew edit explicit targets done file = .ok next) :
    (next = done ∧ (file.text = none ∨ selects explicit targets file.path = false)) ∨
      ∃ text new, file.text = some text ∧ selects explicit targets file.path = true ∧
        edit text = .ok new ∧ next = Assoc.put file.path new done := by
  rw [putNew] at h
  split at h
  · next text htext =>
      split at h
      · next hselects =>
          cases hedit : edit text with
          | error e => rw [hedit] at h; cases h
          | ok new =>
              rw [hedit] at h
              cases h
              exact Or.inr ⟨text, new, htext, hselects, hedit, rfl⟩
      · next hnot =>
          cases h
          exact Or.inl ⟨rfl, Or.inr (Bool.eq_false_iff.mpr hnot)⟩
  · next htext =>
      cases h
      exact Or.inl ⟨rfl, Or.inl htext⟩

theorem putNew_of_selected {file : ResourceFile} {text new : List Point}
    (htext : file.text = some text) (hselects : selects explicit targets file.path = true)
    (hedit : edit text = .ok new) :
    putNew edit explicit targets done file = .ok (Assoc.put file.path new done) := by
  simp [putNew, htext, hselects, hedit, Except.map]

theorem foldlM_cons_ok {file : ResourceFile}
    (h : (file :: files).foldlM (putNew edit explicit targets) done = .ok changed) :
    ∃ next, putNew edit explicit targets done file = .ok next ∧
      files.foldlM (putNew edit explicit targets) next = .ok changed := by
  rw [List.foldlM_cons] at h
  cases hnext : putNew edit explicit targets done file with
  | error e => rw [hnext] at h; cases h
  | ok next => rw [hnext] at h; exact ⟨next, rfl, h⟩

/-- What stands under a path stays as long as the files with that path are passed over. -/
theorem get?_foldlM_of_skipped {path : Text}
    (hskipped : ∀ file ∈ files, file.path = path →
      file.text = none ∨ selects explicit targets file.path = false)
    (h : files.foldlM (putNew edit explicit targets) done = .ok changed) :
    Assoc.get? path changed = Assoc.get? path done := by
  induction files generalizing done with
  | nil => cases h; rfl
  | cons file files ih =>
      obtain ⟨next, hnext, hrest⟩ := foldlM_cons_ok h
      rw [ih (fun f hf => hskipped f (List.mem_cons_of_mem _ hf)) hrest]
      obtain ⟨rfl, -⟩ | ⟨text, new, htext, hselects, -, rfl⟩ := putNew_cases hnext
      · rfl
      · have hpath : file.path ≠ path := by
          intro heq
          cases hskipped file List.mem_cons_self heq with
          | inl hnone => rw [htext] at hnone; cases hnone
          | inr hnot => rw [hselects] at hnot; cases hnot
        rw [Assoc.put_eq_update, Assoc.get?_update, if_neg (by simpa using hpath)]

/-- With one file a path, each selected file has its new text under its path. -/
theorem get?_foldlM_of_selected {file : ResourceFile} {text new : List Point}
    (hpaths : (files.map (·.path)).Nodup) (hfile : file ∈ files) (htext : file.text = some text)
    (hselects : selects explicit targets file.path = true) (hedit : edit text = .ok new)
    (h : files.foldlM (putNew edit explicit targets) done = .ok changed) :
    Assoc.get? file.path changed = some new := by
  induction files generalizing done with
  | nil => cases hfile
  | cons first files ih =>
      obtain ⟨next, hnext, hrest⟩ := foldlM_cons_ok h
      obtain ⟨hfirst, hpaths⟩ := List.nodup_cons.mp hpaths
      cases hfile with
      | tail _ later => exact ih hpaths later hrest
      | head _ =>
          have hothers : ∀ f ∈ files, f.path = file.path →
              f.text = none ∨ selects explicit targets f.path = false :=
            fun f hf heq => absurd (List.mem_map.mpr ⟨f, hf, heq⟩) hfirst
          rw [putNew_of_selected htext hselects hedit, Except.ok.injEq] at hnext
          rw [get?_foldlM_of_skipped hothers hrest, ← hnext, Assoc.put_eq_update,
            Assoc.get?_update, beq_self_eq_true, if_pos rfl]

theorem putNew_fails_iff {file : ResourceFile} :
    Fails (putNew edit explicit targets done file) ↔
      ∃ text, file.text = some text ∧ selects explicit targets file.path = true ∧
        Fails (edit text) := by
  rw [putNew]
  split
  · next text htext =>
      split
      · next hselects => simp [htext, hselects]
      · next hnot => simp [hnot]
  · next htext => simp [htext]

/-- Making the new texts fails exactly if the edit of a readable and selected file does. -/
theorem foldlM_fails_iff :
    Fails (files.foldlM (putNew edit explicit targets) done) ↔
      ∃ file ∈ files, ∃ text, file.text = some text ∧ selects explicit targets file.path = true ∧
        Fails (edit text) := by
  induction files generalizing done with
  | nil => simp [List.foldlM, pure, Except.pure]
  | cons file files ih =>
      rw [List.foldlM_cons]
      simp only [List.mem_cons, exists_eq_or_imp,
        ← @putNew_fails_iff _ edit explicit targets done file]
      cases putNew edit explicit targets done file with
      | error e => simp [bind, Except.bind]
      | ok next => simpa [bind, Except.bind] using ih

/-- An edit that always succeeds makes the new texts of all files. -/
theorem exists_foldlM (hedit : ∀ text, ∃ new, edit text = .ok new) (files : List ResourceFile)
    (done : List (Text × List Point)) :
    ∃ changed, files.foldlM (putNew edit explicit targets) done = .ok changed := by
  refine not_fails_iff.mp fun hfails => ?_
  obtain ⟨file, -, text, -, -, hfails⟩ := foldlM_fails_iff.mp hfails
  exact not_fails_iff.mpr (hedit text) hfails

end Fix

/-- The file with the text that stands under its path, if any does. -/
def ResourceFile.withTexts (texts : List (Text × List Point)) (file : ResourceFile) :
    ResourceFile :=
  match Assoc.get? file.path texts with
  | some text => { file with text := some text }
  | none => file

namespace Fix

open Json (maxDepth)

/-- Adding a key to the files of some cultures leaves out every file that is unreadable or not
selected. A key that is not too long is added without failure, and the catalog of the new texts has
it in the culture of each selected file whose text is edited as an object. -/
theorem build_patched_containsIn (settings : Settings) {files : List ResourceFile}
    (hpaths : (files.map (·.path)).Nodup) (targets : List Text) {key : Text} (hkey : key ≠ "")
    (hpoint : ∀ r, key ≠ "." ++ r) (value : Text) :
    (∀ changed, patched settings.cultures targets key (.str value) files = .ok changed →
      ∀ file ∈ files, file.text = none ∨ ¬ Selected settings.cultures targets file.path →
        Assoc.get? file.path changed = none) ∧
    ((Key.segments key).length ≤ maxDepth →
      ∃ changed, patched settings.cultures targets key (.str value) files = .ok changed ∧
        ∀ file ∈ files, ∀ text ms, file.text = some text →
          Selected settings.cultures targets file.path → Patch.EditsAs text ms →
            (Catalog.build settings (files.map (ResourceFile.withTexts changed))).containsIn key
              (Culture.resolve settings.cultures file.path) = true) := by
  constructor
  · intro changed hchanged file hfile hnot
    refine get?_foldlM_of_skipped (fun other hother hpath => ?_) hchanged
    have hsame : other = file := List.inj_on_of_nodup_map hpaths hother hfile hpath
    rw [hsame, ← Bool.not_eq_true, selects_iff]
    exact hnot
  · intro hdepth
    have htotal : ∀ text, ∃ new, Patch.apply text key (.str value) = .ok new :=
      fun text => Patch.exists_apply text _ hdepth
    obtain ⟨changed, hchanged⟩ := exists_foldlM htotal files []
    refine ⟨changed, hchanged, fun file hfile text ms htext hselected hedits => ?_⟩
    obtain ⟨after, hafter, hread⟩ := Patch.read_apply value hedits hdepth .keepFirst
    have hnew := get?_foldlM_of_selected hpaths hfile htext
      ((selects_iff _ _ _).mpr hselected) hafter hchanged
    have hwith : file.withTexts changed = { file with text := some after } := by
      rw [ResourceFile.withTexts, hnew]
    have htexts : (file.withTexts changed).text = some after := by rw [hwith]
    have hpath : (file.withTexts changed).path = file.path := by rw [hwith]
    have hleaf := Key.mem_flatten_insert hkey hpoint (.str value) ms
    have hfound := Catalog.containsIn_build settings (List.mem_map_of_mem hfile) htexts hread hleaf
    rwa [hpath] at hfound

/-- Files of two cultures, and one that is unreadable. -/
def threeFiles : List ResourceFile := [
  { path := "app.en.json", text := some (Text.ofString "\x7b\x7d").toList },
  { path := "app.de.json", text := none },
  { path := "app.th.json", text := some (Text.ofString "\x7b\"a\": 1\x7d").toList }]

/-- The target is the culture of one of the files, where a value is in the way of the key. -/
theorem build_patched_containsIn_target :
    ∃ changed, patched [] ["TH"] "a.b" (.str "v") threeFiles = .ok changed ∧
      Assoc.get? (Text.ofString "app.en.json") changed = none ∧
        Assoc.get? (Text.ofString "app.de.json") changed = none ∧
      (Catalog.build { caseSensitive := false }
        (threeFiles.map (ResourceFile.withTexts changed))).containsIn "a.b" "th" = true := by
  have hpaths : (threeFiles.map (·.path)).Nodup := by decide
  have hpoint : ∀ r, Text.ofString "a.b" ≠ "." ++ r := by
    intro r heq
    have hchars := congrArg Text.toList heq
    simp [Text.toList_append] at hchars
  have hdepth : (Key.segments "a.b").length ≤ maxDepth := by
    rw [show Key.segments "a.b" = ["a", "b"] from rfl]
    decide
  have hculture : Culture.resolve [] "app.th.json" = "th" := by decide
  have hselected : Selected [] ["TH"] "app.th.json" :=
    Or.inr ⟨"TH", List.mem_cons_self, by decide, by decide⟩
  have hother : ¬ Selected [] ["TH"] "app.en.json" := by
    rintro (hblank | ⟨t, ht, -, hsame⟩)
    · exact absurd (hblank "TH" List.mem_cons_self) (by decide)
    · rw [List.mem_singleton.mp ht] at hsame
      exact absurd hsame (by decide)
  have htree : Json.readTree (Text.ofString "\x7b\"a\": 1\x7d").toList =
      .ok (.obj [(⟨"a", 1⟩, .scalar (.int 1))]) := rfl
  have hedits : Patch.EditsAs (Text.ofString "\x7b\"a\": 1\x7d").toList [("a", .int 1)] :=
    Or.inr (Json.read_of_readTree htree .keepLast)
  obtain ⟨hout, hin⟩ := build_patched_containsIn { caseSensitive := false } hpaths ["TH"]
    (by decide) hpoint "v"
  obtain ⟨changed, hchanged, hfound⟩ := hin hdepth
  have hen := hout changed hchanged _ (.head _) (Or.inr hother)
  have hde := hout changed hchanged _ (.tail _ (.head _)) (Or.inl rfl)
  have hth := hfound _ (.tail _ (.tail _ (.head _))) _ _ rfl hselected hedits
  exact ⟨changed, hchanged, hen, hde, hculture ▸ hth⟩

/-- A blank target is no target, not even for a file whose culture is blank: the culture of the file
is among the targets as they are given, and the file is left out. -/
theorem patched_skips_blank_culture :
    ∃ changed, patched [""] ["", "en"] "k" (.str "v")
        [⟨"x.json", some (Text.ofString "\x7b\x7d").toList, none⟩] = .ok changed ∧
      (∃ t ∈ ["", "en"], Text.lowercased t = Text.lowercased (Culture.resolve [""] "x.json")) ∧
      Json.read .keepLast (Text.ofString "\x7b\x7d").toList = .ok (.obj []) ∧
      (Catalog.build { cultures := [""] } (List.map (ResourceFile.withTexts changed)
        [⟨"x.json", some (Text.ofString "\x7b\x7d").toList, none⟩])).containsIn "k"
          (Culture.resolve [""] "x.json") = false :=
  ⟨[], rfl, ⟨"", List.mem_cons_self, rfl⟩, rfl, rfl⟩

end Fix
end LocaleKeys
