import LocaleKeys.Proofs.Catalog.Contribution
import LocaleKeys.Proofs.Except
import Mathlib.Data.List.Induction

/-!
Building a catalog from two lists of files, one after the other. Entries, duplicates and file lists are
appended; what is kept once, keys and cultures, is appended as far as it is new. So a file that has no
value leaves all keys as they are, wherever it stands in the list.
-/

namespace LocaleKeys

/-! Cultures -/

namespace Text

/-- One text more, unless it has been seen. -/
def addNew (seen : List Text) (s : Text) : List Text :=
  if seen.contains s then seen else seen ++ [s]

theorem distinct_concat (texts : List Text) (s : Text) :
    distinct (texts ++ [s]) = addNew (distinct texts) s :=
  (List.foldl_append (f := addNew)).trans rfl

theorem foldl_addNew (seen texts : List Text) :
    texts.foldl addNew seen = seen ++ (distinct texts).filter (· ∉ seen) := by
  induction texts using List.reverseRecOn with
  | nil => simp [distinct]
  | append_singleton texts s ih =>
      rw [List.foldl_append, ih, distinct_concat, List.foldl_cons, List.foldl_nil]
      by_cases hseen : s ∈ seen
      · by_cases hbefore : s ∈ distinct texts
        · simp [addNew, hseen, hbefore]
        · simp [addNew, hseen, hbefore]
      · by_cases hbefore : s ∈ distinct texts
        · simp [addNew, hseen, hbefore]
        · simp [addNew, hseen, hbefore]

theorem distinct_append (front back : List Text) :
    distinct (front ++ back) = distinct front ++ (distinct back).filter (· ∉ distinct front) :=
  (List.foldl_append (f := addNew)).trans (foldl_addNew (distinct front) back)

end Text

/-! Files without a value -/

/-- A file that cannot be read, or whose text is not read as JSON. -/
def ResourceFile.Lacks (file : ResourceFile) : Prop :=
  ∀ text, file.text = some text → Fails (Key.readResource text)

namespace Catalog

variable {settings : Settings} {fs gs : List ResourceFile} {file : ResourceFile}

theorem entries_ofFile_of_lacks (h : file.Lacks) :
    (Contribution.ofFile settings file).entries = [] := by
  rw [Contribution.entries_ofFile, Contribution.leafEntries]
  cases htext : file.text with
  | none => rfl
  | some text =>
      obtain ⟨fault, hfault⟩ := h text htext
      simp [hfault, firstEntries]

theorem entries_insert (h : file.Lacks) :
    (build settings (fs ++ file :: gs)).entries = (build settings (fs ++ gs)).entries := by
  have hnone := @entries_ofFile_of_lacks settings file h
  simp [build, hnone]

/-- Catalogs with the same entries and case policy have the same keys, and look them up alike. -/
theorem lookups_congr {catalog other : Catalog} (hpolicy : catalog.caseSensitive = other.caseSensitive)
    (hentries : catalog.entries = other.entries) :
    catalog.keys = other.keys ∧
      ∀ key culture, catalog.firstEntry key culture = other.firstEntry key culture := by
  have hindex : catalog.index = other.index := by
    rw [catalog.index_eq, other.index_eq, hpolicy, hentries]
  refine ⟨by rw [keys, keys, hindex], fun key culture => ?_⟩
  simp only [firstEntry, normalize, hindex, hpolicy]

/-! Two lists of files -/

theorem keys_append :
    (build settings (fs ++ gs)).keys =
      (build settings fs).keys ++
        (build settings gs).keys.filter fun key => ¬ (build settings fs).contains key := by
  have hentries : (build settings (fs ++ gs)).entries =
      (build settings fs).entries ++ (build settings gs).entries := by
    simp [build]
  have hnew : ∀ e : Entry,
      decide (∀ before ∈ (build settings fs).entries,
        normalizeKey settings.caseSensitive e.key ≠ normalizeKey settings.caseSensitive before.key) =
      decide (¬ (build settings fs).contains e.key = true) := by
    intro e
    rw [decide_eq_decide, contains_iff, Defines, not_exists]
    refine forall_congr' fun before => ?_
    rw [not_and]
    exact imp_congr_right fun _ => not_congr eq_comm
  simp only [keys_eq, hentries]
  change (firstEntries settings.caseSensitive _).map _ = (firstEntries settings.caseSensitive _).map _ ++
    ((firstEntries settings.caseSensitive _).map _).filter _
  rw [firstEntries_append, List.map_append, List.filter_map]
  simp only [hnew, Function.comp_def]

/-- The first entry of a key is in the first list that has the key. -/
theorem firstEntry_append (key : Text) :
    (build settings (fs ++ gs)).firstEntry key =
      if (build settings fs).contains key then (build settings fs).firstEntry key
      else (build settings gs).firstEntry key := by
  have hentries : (build settings (fs ++ gs)).entries =
      (build settings fs).entries ++ (build settings gs).entries := by
    simp [build]
  have hfound : (build settings fs).contains key = ((build settings fs).firstEntry key).isSome := rfl
  rw [hfound, firstEntry_eq, hentries, List.find?_append]
  change ((build settings fs).entries.find? fun e =>
      (build settings fs).normalize e.key == (build settings fs).normalize key).or
    ((build settings gs).entries.find? fun e =>
      (build settings gs).normalize e.key == (build settings gs).normalize key) = _
  rw [← firstEntry_eq, ← firstEntry_eq]
  cases (build settings fs).firstEntry key <;> rfl

/-- The catalog of two lists of files is put together from those of the lists. The first list decides
about the keys that it has, the second one about the others; and a file without a value, put in between,
changes no key and nothing that is looked up for a key. -/
theorem build_append (settings : Settings) (fs gs : List ResourceFile) :
    let front := build settings fs
    let back := build settings gs
    let joined := build settings (fs ++ gs)
    (joined.entries = front.entries ++ back.entries ∧
      joined.duplicates = front.duplicates ++ back.duplicates ∧
      joined.parsed = front.parsed ++ back.parsed ∧
      joined.skipped = front.skipped ++ back.skipped ∧
      joined.keys = front.keys ++ back.keys.filter (fun key => ¬ front.contains key) ∧
      joined.discovered = front.discovered ++ back.discovered.filter (· ∉ front.discovered)) ∧
    (∀ key,
      joined.valueOf key = (if front.contains key then front.valueOf key else back.valueOf key) ∧
      joined.firstLocation key =
        if front.contains key then front.firstLocation key else back.firstLocation key) ∧
    ∀ file : ResourceFile, file.Lacks →
      (build settings (fs ++ file :: gs)).keys = joined.keys ∧
      ∀ key culture,
        (build settings (fs ++ file :: gs)).valueOf key culture = joined.valueOf key culture ∧
        (build settings (fs ++ file :: gs)).firstLocation key culture =
          joined.firstLocation key culture := by
  intro front back joined
  refine ⟨⟨?_, ?_, ?_, ?_, keys_append, ?_⟩, fun key => ?_, fun file hfile => ?_⟩
  · simp [joined, front, back, build]
  · simp [joined, front, back, build]
  · simp [joined, front, back, build]
  · simp [joined, front, back, build]
  · change Text.distinct _ = _
    rw [List.map_append, List.map_append, Text.distinct_append]
    rfl
  · rw [valueOf, firstLocation, firstEntry_append]
    change _ = (if front.contains key then front.valueOf key else _) ∧
      Option.map _ (if front.contains key then _ else _) = _
    cases front.contains key <;> exact ⟨rfl, rfl⟩
  · have hsame : (build settings (fs ++ file :: gs)).caseSensitive = joined.caseSensitive := rfl
    obtain ⟨hkeys, hfirst⟩ := lookups_congr hsame (entries_insert hfile)
    refine ⟨hkeys, fun key culture => ?_⟩
    rw [valueOf, firstLocation, hfirst]
    exact ⟨rfl, rfl⟩

/-- An open brace between two files that share a key: the value of the first one stays. -/
theorem build_append_malformed :
    let english : ResourceFile :=
      { path := "en.json", text := some (Text.ofString "\x7b\"a\": 1\x7d").toList }
    let german : ResourceFile :=
      { path := "de.json", text := some (Text.ofString "\x7b\"a\": 2, \"b\": 3\x7d").toList }
    let broken : ResourceFile := { path := "it.json", text := some (Text.ofString "\x7b").toList }
    broken.Lacks ∧ (build {} ([english] ++ broken :: [german])).keys = ["a", "b"] ∧
      (build {} ([english] ++ broken :: [german])).valueOf "a" = .int 1 := by
  intro english german broken
  have hbroken : broken.Lacks := by
    intro text htext
    cases htext
    decide
  obtain ⟨hkeys, hlookups⟩ := (build_append {} [english] [german]).2.2 broken hbroken
  have hvalue : (build {} ([english] ++ [german])).valueOf "a" = .int 1 := by decide +kernel
  exact ⟨hbroken, hkeys.trans (by decide +kernel), (hlookups "a" none).1.trans hvalue⟩

end Catalog
end LocaleKeys
