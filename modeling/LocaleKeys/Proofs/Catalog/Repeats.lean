import LocaleKeys.Proofs.Catalog.Contribution
import LocaleKeys.Proofs.Except
import LocaleKeys.Proofs.Text.Point
import Mathlib.Tactic.ByContra
import Mathlib.Tactic.SplitIfs

/-!
Names that are repeated in the raw text of a file, as the catalog has them. They are found before the
text is read, so it does not matter whether it is JSON; only text that is nested too deeply to be read
takes them along.
-/

namespace LocaleKeys

namespace Key.Scan

variable (scan : Scan)

/-- One character takes back no repeat. -/
theorem repeats_step (c : Point) (rest : List Point) : scan.repeats <+: (scan.step c rest).repeats := by
  rw [step]
  split
  · next string _ =>
      rw [stepInside]
      split
      · exact List.prefix_rfl
      · split
        · rw [closeString]
          dsimp only
          split
          · split
            · rw [noteMember]
              dsimp only
              split
              · exact List.prefix_append _ _
              · exact List.prefix_rfl
            · exact List.prefix_rfl
          · exact List.prefix_rfl
        · exact List.prefix_rfl
  · rw [stepOutside]
    dsimp only
    split_ifs <;> exact List.prefix_rfl

theorem repeats_run (text : List Point) : scan.repeats <+: (run scan text).repeats := by
  induction text generalizing scan with
  | nil => exact List.prefix_rfl
  | cons c rest ih => exact (scan.repeats_step c rest).trans (ih (scan.step c rest))

end Key.Scan

namespace Contribution

variable {settings : Settings} {file : ResourceFile} {text : List Point} {d : Duplicate}

/-- The repeats in a text as duplicates of its file, in the culture of the file. -/
def repeatsIn (settings : Settings) (file : ResourceFile) (text : List Point) : List Duplicate :=
  (Key.scan text).repeats.map fun r =>
    { key := r.path
      culture := Culture.resolve settings.cultures file.path
      location := {
        path := file.path
        lineStart := r.place.line
        lineEnd := r.place.line
        column := r.place.column } }

theorem repeatsIn_prefix (htext : file.text = some text)
    (hread : Key.readResource text ≠ .error .tooDeep) :
    repeatsIn settings file text <+: (ofFile settings file).duplicates := by
  rw [ofFile, htext]
  dsimp only
  split
  · next hdeep => exact absurd hdeep hread
  · exact List.prefix_rfl
  · exact List.prefix_append _ _

theorem duplicates_of_tooDeep (htext : file.text = some text)
    (hread : Key.readResource text = .error .tooDeep) : (ofFile settings file).duplicates = [] := by
  simp only [ofFile, htext, hread]

theorem location_of_mem_takeLeaves {caseSensitive : Bool} {locate : Text → Location}
    {culture : Text} {seen : List Text} {leaves : List (Text × Scalar)}
    (h : d ∈ (takeLeaves caseSensitive locate culture seen leaves).2) :
    ∃ key, d.location = locate key := by
  induction leaves generalizing seen with
  | nil => cases h
  | cons leaf rest ih =>
      rw [takeLeaves] at h
      dsimp only at h
      split at h
      · cases h with
        | head _ => exact ⟨_, rfl⟩
        | tail _ later => exact ih later
      · exact ih h

/-- Whatever is a duplicate in a file is placed in that file. -/
theorem path_of_mem_duplicates (h : d ∈ (ofFile settings file).duplicates) :
    d.location.path = file.path := by
  have hraw : ∀ text, d ∈ repeatsIn settings file text → d.location.path = file.path := by
    intro text hd
    obtain ⟨r, -, rfl⟩ := List.mem_map.mp hd
    rfl
  rw [ofFile] at h
  split at h
  · cases h
  · dsimp only at h
    split at h
    · cases h
    · exact hraw _ h
    · cases List.mem_append.mp h with
      | inl hd => exact hraw _ hd
      | inr hd =>
          obtain ⟨key, hkey⟩ := location_of_mem_takeLeaves hd
          rw [hkey]
          rfl

end Contribution

namespace Catalog

open Contribution (repeatsIn)

variable {settings : Settings} {files : List ResourceFile} {file : ResourceFile} {text : List Point}

theorem duplicates_build (settings : Settings) (files : List ResourceFile) :
    (build settings files).duplicates =
      files.flatMap fun file => (Contribution.ofFile settings file).duplicates := by
  change (files.map (Contribution.ofFile settings)).flatMap (·.duplicates) = _
  rw [List.flatMap_map]

theorem repeatsIn_sublist_build (hfile : file ∈ files) (htext : file.text = some text)
    (hread : Key.readResource text ≠ .error .tooDeep) :
    (repeatsIn settings file text).Sublist (build settings files).duplicates := by
  obtain ⟨front, back, rfl⟩ := List.append_of_mem hfile
  rw [duplicates_build, List.flatMap_append, List.flatMap_cons]
  have hkept : (repeatsIn settings file text).Sublist (Contribution.ofFile settings file).duplicates :=
    (Contribution.repeatsIn_prefix htext hread).sublist
  exact (hkept.trans (List.sublist_append_left _ _)).trans (List.sublist_append_right _ _)

/-- Nothing is a duplicate in a file that is nested too deeply, unless its path is that of another file
too. -/
theorem path_ne_of_tooDeep (hpaths : ∀ other ∈ files, other.path = file.path → other = file)
    (htext : file.text = some text) (hread : Key.readResource text = .error .tooDeep) :
    ∀ d ∈ (build settings files).duplicates, d.location.path ≠ file.path := by
  intro d hd hpath
  rw [duplicates_build] at hd
  obtain ⟨other, hother, hd⟩ := List.mem_flatMap.mp hd
  obtain rfl := hpaths other hother ((Contribution.path_of_mem_duplicates hd).symm.trans hpath)
  rw [Contribution.duplicates_of_tooDeep htext hread] at hd
  cases hd

/-- The repeats in the text of a file are duplicates of the catalog unless the text is nested too deeply
to be read, whether it is JSON or not. Then all of them are lost: for a file that shares its path with no
other one they are in the catalog exactly if there are none. -/
theorem repeats_kept_iff (settings : Settings) (hfile : file ∈ files) (htext : file.text = some text) :
    (Key.readResource text ≠ .error .tooDeep →
      (repeatsIn settings file text).Sublist (build settings files).duplicates) ∧
    ((∀ other ∈ files, other.path = file.path → other = file) →
      (repeatsIn settings file text ⊆ (build settings files).duplicates ↔
        Key.readResource text = .error .tooDeep → (Key.scan text).repeats = [])) := by
  refine ⟨repeatsIn_sublist_build hfile htext, fun hpaths => ⟨fun hkept hread => ?_, fun hnone => ?_⟩⟩
  · by_contra hsome
    obtain ⟨r, hr⟩ := List.exists_mem_of_ne_nil _ hsome
    exact path_ne_of_tooDeep hpaths htext hread _ (hkept (List.mem_map_of_mem hr)) rfl
  · by_cases hread : Key.readResource text = .error .tooDeep
    · rw [repeatsIn, hnone hread]
      exact List.nil_subset _
    · exact (repeatsIn_sublist_build hfile htext hread).subset

/-- A name that comes twice before a bracket that stays open. -/
theorem repeats_kept_open_bracket :
    let text := (Text.ofString "\x7b\"a\": 1, \"a\": [").toList
    let file : ResourceFile := { path := "de.json", text := some text }
    Fails (Key.readResource text) ∧ Key.readResource text ≠ .error .tooDeep ∧
      (⟨"a", "de", ⟨"de.json", 1, 1, 10⟩⟩ : Duplicate) ∈ (build {} [file]).duplicates := by
  intro text file
  have hfails : Key.readResource text = .error (.malformed .expectingValue 15) := by rfl
  have hread : Key.readResource text ≠ .error .tooDeep := by
    rw [hfails]
    nofun
  have hculture : Culture.resolve [] "de.json" = "de" := by decide
  have hrepeat : (Key.scan text).repeats = [⟨"a", "a", ⟨1, 10⟩⟩] := by decide
  have hfile : file ∈ [file] := .head _
  have hkept := (repeats_kept_iff {} hfile rfl).1 hread
  refine ⟨⟨_, hfails⟩, hread, hkept.mem ?_⟩
  rw [repeatsIn, hrepeat, hculture]
  exact .head _

theorem repeat_found_before (more : List Point) :
    ⟨"a", "a", ⟨1, 10⟩⟩ ∈ (Key.scan ((Text.ofString "\x7b\"a\": 1, \"a\": ").toList ++ more)).repeats := by
  have hscan : Key.scan ((Text.ofString "\x7b\"a\": 1, \"a\": ").toList ++ more) =
      Key.Scan.run (Key.scan (Text.ofString "\x7b\"a\": 1, \"a\": ").toList) more := by
    simp [Key.scan, Key.Scan.run, Key.Scan.step, Key.Scan.stepOutside, Key.Scan.stepInside,
      Key.Scan.closeString, Json.isSpace]
  rw [hscan]
  refine (Key.Scan.repeats_run _ more).mem ?_
  decide

/-- The same name before three thousand open brackets: the repeat is found, and then it is lost. -/
theorem repeats_lost_tooDeep :
    let text := (Text.ofString "\x7b\"a\": 1, \"a\": ").toList ++ List.replicate 3000 (.char '[')
    let file : ResourceFile := { path := "de.json", text := some text }
    ⟨"a", "a", ⟨1, 10⟩⟩ ∈ (Key.scan text).repeats ∧ (build {} [file]).duplicates = [] := by
  intro text file
  exact ⟨repeat_found_before _, by decide +kernel⟩

end Catalog
end LocaleKeys
