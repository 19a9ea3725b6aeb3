import LocaleKeys.Catalog.Build
import LocaleKeys.Proofs.Catalog.Agreement
import LocaleKeys.Proofs.Key.Members
import Mathlib.Data.List.Dedup

/-!
How many keys a culture has, as the summary of a catalog counts them and as look-ups find them. The
summary counts spellings. Look-ups compare keys under the case policy, so of several spellings that
compare as the same they find one key.
-/

namespace LocaleKeys

namespace Assoc

variable {α β : Type} [BEq α]

theorem get?_map {γ : Type} (f : β → γ) (key : α) (entries : List (α × β)) :
    get? key (entries.map fun entry => (entry.1, f entry.2)) = (get? key entries).map f := by
  induction entries with
  | nil => rfl
  | cons entry rest ih =>
      rw [List.map_cons, get?, get?, ih]
      split <;> rfl

variable [LawfulBEq α]

theorem get?_eq_some_iff {key : α} {value : β} {entries : List (α × β)}
    (hnodup : (keys entries).Nodup) : get? key entries = some value ↔ (key, value) ∈ entries :=
  ⟨mem_of_get?, get?_of_mem hnodup⟩

/-- What a key has does not depend on the order of the entries. -/
theorem get?_perm {entries others : List (α × β)} (hperm : entries.Perm others)
    (hnodup : (keys entries).Nodup) (key : α) : get? key entries = get? key others := by
  have hothers : (keys others).Nodup := (hperm.map Prod.fst).nodup_iff.mp hnodup
  apply Option.ext
  intro value
  rw [get?_eq_some_iff hnodup, get?_eq_some_iff hothers, hperm.mem_iff]

end Assoc

namespace Catalog

/-! Groups of texts -/

section Groups

variable {textOf : Entry → Text} {groups : List (Text × List Text)}

theorem nodup_addText (s : Text) {texts : Option (List Text)} (h : (texts.getD []).Nodup) :
    (addText s texts).Nodup := by
  cases texts with
  | none => exact List.nodup_singleton s
  | some texts =>
      rw [addText]
      split
      · exact h
      · next hnew => exact List.nodup_cons.mpr ⟨by simpa using hnew, h⟩

theorem nodup_keys_groupTexts (entries : List Entry) (h : (Assoc.keys groups).Nodup) :
    (Assoc.keys (groupTexts textOf entries groups)).Nodup := by
  induction entries generalizing groups with
  | nil => exact h
  | cons e rest ih => exact ih (Assoc.nodup_keys_update _ _ h)

theorem nodup_groupTexts (entries : List Entry) (h : ∀ group ∈ groups, group.2.Nodup) :
    ∀ group ∈ groupTexts textOf entries groups, group.2.Nodup := by
  induction entries generalizing groups with
  | nil => exact h
  | cons e rest ih =>
      refine ih (Assoc.forall_update h fun old hold => nodup_addText _ ?_)
      cases old with
      | none => exact List.nodup_nil
      | some texts => exact hold texts rfl

end Groups

/-! Keys of a culture -/

variable {catalog : Catalog} {culture : Text}

/-- The keys of a culture as its entries spell them, each spelling once. -/
def spellings (catalog : Catalog) (culture : Text) : List Text :=
  ((catalog.entries.filter (·.culture = culture)).map (·.key)).dedup

theorem mem_spellings {key : Text} :
    key ∈ catalog.spellings culture ↔ ∃ e ∈ catalog.entries, e.culture = culture ∧ e.key = key := by
  simp [spellings, and_assoc]

/-- The keys of a catalog that a culture has. -/
def keysOf (catalog : Catalog) (culture : Text) : List Text :=
  catalog.keys.filter fun key => catalog.containsIn key culture

/-- The keys that a culture has are its spellings, those that compare as the same taken for one. -/
theorem map_normalize_keysOf :
    ((catalog.keysOf culture).map catalog.normalize).Perm
      ((catalog.spellings culture).map catalog.normalize).dedup := by
  have hnodup : ((catalog.keysOf culture).map catalog.normalize).Nodup :=
    catalog.nodup_normalize_keys.sublist (List.filter_sublist.map _)
  apply (List.perm_ext_iff_of_nodup hnodup (List.nodup_dedup _)).mpr
  intro compared
  rw [List.mem_dedup, List.mem_map, List.mem_map]
  constructor
  · intro h
    obtain ⟨key, hkey, rfl⟩ := h
    obtain ⟨e, he, hculture, hsame⟩ :=
      (catalog.containsIn_iff key culture).mp (List.mem_filter.mp hkey).2
    exact ⟨e.key, mem_spellings.mpr ⟨e, he, hculture, rfl⟩, hsame⟩
  · intro h
    obtain ⟨spelling, hspelling, rfl⟩ := h
    obtain ⟨e, he, hculture, rfl⟩ := mem_spellings.mp hspelling
    obtain ⟨key, hkey, hsame⟩ :=
      List.mem_map.mp ((catalog.mem_normalize_keys _).mpr ⟨e, he, rfl⟩)
    have hhas : catalog.containsIn key culture = true :=
      (catalog.containsIn_iff key culture).mpr ⟨e, he, hculture, hsame.symm⟩
    exact ⟨key, List.mem_filter.mpr ⟨hkey, hhas⟩, hsame⟩

theorem length_keysOf :
    (catalog.keysOf culture).length =
      ((catalog.spellings culture).map catalog.normalize).dedup.length := by
  rw [← map_normalize_keysOf.length_eq, List.length_map]

/-- A culture has as many keys as spellings if no two of these compare as the same. -/
theorem length_spellings_eq_iff :
    (catalog.spellings culture).length = (catalog.keysOf culture).length ↔
      ∀ e ∈ catalog.entries, ∀ other ∈ catalog.entries,
        e.culture = culture → other.culture = culture →
        catalog.normalize e.key = catalog.normalize other.key → e.key = other.key := by
  rw [length_keysOf]
  constructor
  · intro hlength e he other hother hculture hotherCulture hsame
    have hall : ((catalog.spellings culture).map catalog.normalize).dedup =
        (catalog.spellings culture).map catalog.normalize :=
      (List.dedup_sublist _).eq_of_length (by rw [← hlength, List.length_map])
    exact List.inj_on_of_nodup_map (List.dedup_eq_self.mp hall)
      (mem_spellings.mpr ⟨e, he, hculture, rfl⟩)
      (mem_spellings.mpr ⟨other, hother, hotherCulture, rfl⟩) hsame
  · intro hapart
    have hnodup : ((catalog.spellings culture).map catalog.normalize).Nodup := by
      apply List.Nodup.map_on _ (List.nodup_dedup _)
      intro spelling hspelling other hother hsame
      obtain ⟨e, he, hculture, rfl⟩ := mem_spellings.mp hspelling
      obtain ⟨e', he', hculture', rfl⟩ := mem_spellings.mp hother
      exact hapart e he e' he' hculture hculture' hsame
    rw [List.dedup_eq_self.mpr hnodup, List.length_map]

/-! Counts of the summary -/

/-- The index holds each spelling of a culture once. -/
theorem perm_spellings {texts : List Text}
    (h : Assoc.get? culture catalog.index.keysIn = some texts) :
    texts.Perm (catalog.spellings culture) := by
  rw [catalog.index_eq, Index.ofEntries, keysIn_eq] at h
  have hnodup : texts.Nodup :=
    nodup_groupTexts catalog.entries (by simp) (culture, texts) (Assoc.mem_of_get? h)
  apply (List.perm_ext_iff_of_nodup hnodup (List.nodup_dedup _)).mpr
  intro key
  have hmem := mem_groupTexts (·.key) catalog.entries [] culture key
  rw [h] at hmem
  exact hmem.trans (by simp [Assoc.get?, ← mem_spellings, spellings])

/-- The summary counts the spellings of each culture that has keys. -/
theorem member?_summary (catalog : Catalog) (explicit : List Text) (culture : Text) :
    Json.member? ["keys_by_culture", culture] (catalog.summary explicit) =
      if culture ∈ catalog.cultures then some (.int (catalog.spellings culture).length)
      else none := by
  have hnodup : (Assoc.keys catalog.index.keysIn).Nodup := by
    rw [catalog.index_eq, Index.ofEntries, keysIn_eq]
    exact nodup_keys_groupTexts catalog.entries List.nodup_nil
  let counts := catalog.index.keysIn.map fun group => (group.1, group.2.length)
  have hcounts : (Assoc.keys counts).Nodup := by
    rw [Assoc.keys, List.map_map]
    exact hnodup
  have hperm : counts.Perm catalog.keyCounts := (List.mergeSort_perm _ _).symm
  have hmember : Json.member? ["keys_by_culture", culture] (catalog.summary explicit) =
      (Assoc.get? culture catalog.index.keysIn).map fun texts => .int texts.length := by
    calc
      _ = Assoc.get? culture (catalog.keyCounts.map fun group => (group.1, Json.int group.2)) := by
        simp [summary, Json.member?, Assoc.get?]
      _ = (Assoc.get? culture counts).map fun n : Nat => Json.int n := by
        rw [Assoc.get?_perm hperm hcounts, Assoc.get?_map (fun n : Nat => Json.int n)]
      _ = _ := by
        rw [Assoc.get?_map List.length, Option.map_map]
        rfl
  rw [hmember]
  cases hget : Assoc.get? culture catalog.index.keysIn with
  | some texts =>
      have hculture : culture ∈ catalog.cultures := List.mem_map_of_mem (Assoc.mem_of_get? hget)
      rw [if_pos hculture, Option.map_some, (perm_spellings hget).length_eq]
  | none =>
      have hculture : culture ∉ catalog.cultures := by
        intro h
        have hhas : Assoc.has culture catalog.index.keysIn = true := Assoc.has_iff.mpr h
        rw [Assoc.has, hget] at hhas
        cases hhas
      rw [if_neg hculture, Option.map_none]

/-- The summary counts as many keys for a culture as look-ups find in it exactly if no two spellings
of the culture compare as the same. It never counts fewer, and it counts as many wherever letter case
is told apart. -/
theorem keyCount_eq_iff (catalog : Catalog) (explicit : List Text) (culture : Text) :
    let contained := catalog.keys.filter fun key => catalog.containsIn key culture
    let spelt := ((catalog.entries.filter (·.culture = culture)).map (·.key)).dedup
    Json.member? ["keys_by_culture", culture] (catalog.summary explicit) =
        (if culture ∈ catalog.cultures then some (.int spelt.length) else none) ∧
      contained.length ≤ spelt.length ∧ contained.length ≤ catalog.keys.length ∧
      (spelt.length = contained.length ↔
        ∀ e ∈ catalog.entries, ∀ other ∈ catalog.entries,
          e.culture = culture → other.culture = culture →
          catalog.normalize e.key = catalog.normalize other.key → e.key = other.key) ∧
      (catalog.caseSensitive = true → spelt.length = contained.length) := by
  intro contained spelt
  have hle := (List.dedup_sublist ((catalog.spellings culture).map catalog.normalize)).length_le
  rw [List.length_map, ← length_keysOf] at hle
  refine ⟨member?_summary catalog explicit culture, hle, List.length_filter_le _ _,
    length_spellings_eq_iff, ?_⟩
  intro hcase
  refine length_spellings_eq_iff.mpr fun e _ other _ _ _ hsame => ?_
  rwa [normalize, normalize, normalizeKey, normalizeKey, hcase] at hsame

/-- Two files of one culture that spell a key in two ways: with letter case left aside the catalog has
one key, and the summary counts two for the culture. -/
theorem keyCount_two_spellings :
    let catalog := build { caseSensitive := false } [
      { path := "en.json", text := some (Text.ofString "\x7b\"Save\": \"1\"\x7d").toList },
      { path := "app/en.json", text := some (Text.ofString "\x7b\"save\": \"2\"\x7d").toList }]
    catalog.keys = ["Save"] ∧ (catalog.keys.filter fun key => catalog.containsIn key "en") = ["Save"] ∧
      Json.member? ["keys_by_culture", "en"] (catalog.summary []) = some (.int 2) := by
  intro catalog
  have hculture : Text.ofString "en" ∈ catalog.cultures := by decide +kernel
  have hspelt : (catalog.spellings "en").length = 2 := by decide +kernel
  refine ⟨by decide +kernel, by decide +kernel, ?_⟩
  rw [member?_summary, if_pos hculture, hspelt]
  rfl

end Catalog
end LocaleKeys
