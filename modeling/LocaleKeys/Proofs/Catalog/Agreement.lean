import LocaleKeys.Proofs.Engine.Pass

/-!
A catalog agrees with its entries. Every look-up has its meaning in the list of entries, where the
first match counts, and all look-ups of one key say the same about whether it is there.
-/

namespace LocaleKeys.Catalog

variable (catalog : Catalog) (key : Text)

/-! Keys -/

theorem nodup_normalize_keys : (catalog.keys.map catalog.normalize).Nodup := by
  rw [keys_eq, List.map_map, List.Nodup, List.pairwise_map]
  exact pairwise_firstEntries catalog.caseSensitive catalog.entries

theorem mem_normalize_keys (compared : Text) :
    compared ∈ catalog.keys.map catalog.normalize ↔
      ∃ e ∈ catalog.entries, catalog.normalize e.key = compared := by
  rw [keys_eq, List.map_map, List.mem_map]
  constructor
  · rintro ⟨first, hfirst, hkey⟩
    exact ⟨first, (firstEntries_sublist _ _).mem hfirst, hkey⟩
  · rintro ⟨e, he, rfl⟩
    exact exists_firstEntries he

/-! Cultures -/

theorem contains_iff_containsIn :
    catalog.contains key = true ↔ ∃ culture, catalog.containsIn key culture = true := by
  simp only [contains_iff, containsIn_iff]
  exact ⟨fun ⟨e, he, hkey⟩ => ⟨e.culture, e, he, rfl, hkey⟩,
    fun ⟨_, e, he, _, hkey⟩ => ⟨e, he, hkey⟩⟩

theorem contains_iff_culturesWith :
    catalog.contains key = true ↔ catalog.culturesWith key ≠ [] := by
  rw [contains_iff_containsIn]
  constructor
  · rintro ⟨culture, hculture⟩
    exact List.ne_nil_of_mem ((catalog.mem_culturesWith key culture).mpr hculture)
  · intro hsome
    obtain ⟨culture, hmem⟩ := List.exists_mem_of_ne_nil _ hsome
    exact ⟨culture, (catalog.mem_culturesWith key culture).mp hmem⟩

theorem missingCultures_perm (required : List Text) :
    (catalog.missingCultures key required).Perm
      (required.filter fun culture => ¬ catalog.containsIn key culture) := by
  have hlacks : ∀ culture, (!catalog.containsIn key culture) =
      decide (¬ catalog.containsIn key culture = true) := by
    intro culture
    cases catalog.containsIn key culture <;> rfl
  simp only [missingCultures, hlacks]
  exact List.mergeSort_perm _ _

/-- All that can be looked up, read off the entries. The keys are those of the entries that come first,
no two of them are compared as the same, and each entry is compared as one of them. A key is contained
if some entry has it, which some culture and the list of its cultures say as well; its first entry is the
earliest one, within a culture if that has one. -/
theorem lookups_agree :
    (catalog.keys = (firstEntries catalog.caseSensitive catalog.entries).map (·.key) ∧
      (catalog.keys.map catalog.normalize).Nodup ∧
      ∀ compared, compared ∈ catalog.keys.map catalog.normalize ↔
        ∃ e ∈ catalog.entries, catalog.normalize e.key = compared) ∧
    ∀ key,
      (catalog.contains key = true ↔
        ∃ e ∈ catalog.entries, catalog.normalize e.key = catalog.normalize key) ∧
      (catalog.contains key = true ↔ ∃ culture, catalog.containsIn key culture = true) ∧
      (catalog.contains key = true ↔ catalog.culturesWith key ≠ []) ∧
      (∀ culture, catalog.containsIn key culture = true ↔
        ∃ e ∈ catalog.entries, e.culture = culture ∧
          catalog.normalize e.key = catalog.normalize key) ∧
      (catalog.firstEntry key =
        catalog.entries.find? fun e => catalog.normalize e.key == catalog.normalize key) ∧
      (∀ culture, catalog.firstEntry key (some culture) =
        (catalog.entries.find? fun e =>
          e.culture == culture && catalog.normalize e.key == catalog.normalize key).or
          (catalog.entries.find? fun e => catalog.normalize e.key == catalog.normalize key)) ∧
      ∀ required, (catalog.missingCultures key required).Pairwise (· ≤ ·) ∧
        (catalog.missingCultures key required).Perm
          (required.filter fun culture => ¬ catalog.containsIn key culture) := by
  refine ⟨⟨catalog.keys_eq, catalog.nodup_normalize_keys, catalog.mem_normalize_keys⟩, fun key => ?_⟩
  refine ⟨catalog.contains_iff key, catalog.contains_iff_containsIn key,
    catalog.contains_iff_culturesWith key, catalog.containsIn_iff key, catalog.firstEntry_eq key,
    fun culture => ?_, fun required => ⟨Engine.pairwise_sorted _,
      catalog.missingCultures_perm key required⟩⟩
  rw [firstEntry_culture, firstEntry_eq]

end LocaleKeys.Catalog
