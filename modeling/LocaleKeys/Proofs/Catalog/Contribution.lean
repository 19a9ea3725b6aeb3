import LocaleKeys.Catalog.Build
import LocaleKeys.Proofs.Catalog.Lookup

/-!
What a resource file contributes to a catalog. The entries of a file are its leaves without those whose
keys compare equal to earlier ones, so each key of the file is defined in the culture of the file, and a
catalog defines what some leaf of its files has.
-/

namespace LocaleKeys

namespace Contribution

variable {caseSensitive : Bool} {locate : Text → Location} {culture : Text}

/-- The leaf of a file as an entry. -/
def leafEntry (locate : Text → Location) (culture : Text) (leaf : Text × Scalar) : Entry :=
  ⟨leaf.1, culture, locate leaf.1, leaf.2⟩

/-- All leaves of a file as entries, those with repeated keys too. -/
def leafEntries (settings : Settings) (file : ResourceFile) : List Entry :=
  match file.text with
  | none => []
  | some text =>
    match Key.readResource text with
    | .error _ => []
    | .ok value =>
      (Key.flatten "" value).map (leafEntry (leafLocation file.path (Key.scan text))
        (Culture.resolve settings.cultures file.path))

theorem entries_takeLeaves (seen : List Text) (leaves : List (Text × Scalar)) :
    (takeLeaves caseSensitive locate culture seen leaves).1 =
      (Catalog.firstEntries caseSensitive (leaves.map (leafEntry locate culture))).filter fun e =>
        !seen.contains (normalizeKey caseSensitive e.key) := by
  induction leaves generalizing seen with
  | nil => rfl
  | cons leaf rest ih =>
      obtain ⟨key, value⟩ := leaf
      have hkey : (leafEntry locate culture (key, value)).key = key := rfl
      rw [takeLeaves, List.map_cons, Catalog.firstEntries, List.filter_cons, List.filter_filter, hkey]
      by_cases h : normalizeKey caseSensitive key ∈ seen
      · rw [if_pos (by simpa using h), if_neg (by simpa using h)]
        dsimp only
        rw [ih]
        refine List.filter_congr fun e _ => ?_
        by_cases he : normalizeKey caseSensitive e.key = normalizeKey caseSensitive key
        · simp [he, h]
        · simp [he]
      · rw [if_neg (by simpa using h), if_pos (by simpa using h)]
        dsimp only
        rw [ih]
        refine congrArg (leafEntry locate culture (key, value) :: ·) (List.filter_congr fun e _ => ?_)
        by_cases he : normalizeKey caseSensitive e.key = normalizeKey caseSensitive key
        · simp [he]
        · simp [he]

theorem entries_ofFile (settings : Settings) (file : ResourceFile) :
    (ofFile settings file).entries =
      Catalog.firstEntries settings.caseSensitive (leafEntries settings file) := by
  rw [ofFile, leafEntries]
  cases file.text with
  | none => rfl
  | some text =>
      dsimp only
      cases Key.readResource text with
      | error fault => cases fault <;> rfl
      | ok value =>
          dsimp only
          rw [entries_takeLeaves]
          simp

theorem culture_of_mem_leafEntries {settings : Settings} {file : ResourceFile} {e : Entry}
    (h : e ∈ leafEntries settings file) : e.culture = Culture.resolve settings.cultures file.path := by
  rw [leafEntries] at h
  split at h
  · cases h
  · split at h
    · cases h
    · obtain ⟨leaf, -, rfl⟩ := List.mem_map.mp h
      rfl

theorem mem_leafEntries {settings : Settings} {file : ResourceFile} {text : List Point} {v : Json}
    {leaf : Text × Scalar} (htext : file.text = some text) (hread : Key.readResource text = .ok v)
    (hleaf : leaf ∈ Key.flatten "" v) :
    ∃ e ∈ leafEntries settings file, e.key = leaf.1 := by
  rw [leafEntries, htext]
  dsimp only
  rw [hread]
  exact ⟨_, List.mem_map_of_mem hleaf, rfl⟩

end Contribution

namespace Catalog

variable {settings : Settings} {files : List ResourceFile} {key culture : Text}

theorem entries_build (settings : Settings) (files : List ResourceFile) :
    (build settings files).entries = files.flatMap fun file =>
      firstEntries settings.caseSensitive (Contribution.leafEntries settings file) := by
  change (files.map (Contribution.ofFile settings)).flatMap (·.entries) = _
  rw [List.flatMap_map]
  simp only [Contribution.entries_ofFile]

/-- A key is defined in a culture by the leaves of its files, repeated or not. -/
theorem definesIn_build_iff :
    (build settings files).DefinesIn key culture ↔
      ∃ file ∈ files, Culture.resolve settings.cultures file.path = culture ∧
        ∃ e ∈ Contribution.leafEntries settings file,
          normalizeKey settings.caseSensitive e.key = normalizeKey settings.caseSensitive key := by
  have hentries := entries_build settings files
  constructor
  · rintro ⟨e, he, hculture, hkey⟩
    rw [hentries] at he
    obtain ⟨file, hfile, he⟩ := List.mem_flatMap.mp he
    have hleaf := (firstEntries_sublist _ _).mem he
    exact ⟨file, hfile, (Contribution.culture_of_mem_leafEntries hleaf).symm.trans hculture, e, hleaf,
      hkey⟩
  · rintro ⟨file, hfile, hculture, e, he, hkey⟩
    obtain ⟨first, hfirst, hsame⟩ := @exists_firstEntries settings.caseSensitive _ _ he
    have hleaf := (firstEntries_sublist _ _).mem hfirst
    refine ⟨first, ?_, (Contribution.culture_of_mem_leafEntries hleaf).trans hculture,
      hsame.trans hkey⟩
    rw [hentries]
    exact List.mem_flatMap.mpr ⟨file, hfile, hfirst⟩

theorem defines_iff_definesIn {catalog : Catalog} :
    catalog.Defines key ↔ ∃ culture, catalog.DefinesIn key culture :=
  ⟨fun ⟨e, he, hkey⟩ => ⟨e.culture, e, he, rfl, hkey⟩, fun ⟨_, e, he, _, hkey⟩ => ⟨e, he, hkey⟩⟩

theorem firstEntries_build (settings : Settings) (files : List ResourceFile) :
    firstEntries settings.caseSensitive (build settings files).entries =
      firstEntries settings.caseSensitive (files.flatMap (Contribution.leafEntries settings)) := by
  rw [entries_build, firstEntries_flatMap]

theorem containsIn_build (settings : Settings) {file : ResourceFile} {text : List Point} {v : Json}
    {leaf : Text × Scalar} (hfile : file ∈ files) (htext : file.text = some text)
    (hread : Key.readResource text = .ok v) (hleaf : leaf ∈ Key.flatten "" v) :
    (build settings files).containsIn leaf.1 (Culture.resolve settings.cultures file.path) =
      true := by
  obtain ⟨e, he, hkey⟩ : ∃ e ∈ Contribution.leafEntries settings file, e.key = leaf.1 :=
    Contribution.mem_leafEntries htext hread hleaf
  exact (containsIn_iff _ _ _).mpr (definesIn_build_iff.mpr ⟨file, hfile, rfl, e, he, by rw [hkey]⟩)

end Catalog
end LocaleKeys
