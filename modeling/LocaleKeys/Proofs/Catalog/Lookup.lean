import LocaleKeys.Catalog.Basic
import LocaleKeys.Proofs.Assoc
import Mathlib.Data.List.Basic

/-!
What the look-ups of a catalog answer, in terms of its entries. The index is built entry by entry, so
each part of it is followed through the fold; everything else reads these parts.
-/

namespace LocaleKeys.Catalog

/-! Keys of entries -/

/-- A catalog has an entry with a key, in some spelling that its case policy takes for the same. -/
def Defines (catalog : Catalog) (key : Text) : Prop :=
  ∃ e ∈ catalog.entries, catalog.normalize e.key = catalog.normalize key

def DefinesIn (catalog : Catalog) (key culture : Text) : Prop :=
  ∃ e ∈ catalog.entries, e.culture = culture ∧ catalog.normalize e.key = catalog.normalize key

instance (catalog : Catalog) (key : Text) : Decidable (catalog.Defines key) :=
  inferInstanceAs (Decidable (∃ e ∈ catalog.entries, _))

instance (catalog : Catalog) (key culture : Text) : Decidable (catalog.DefinesIn key culture) :=
  inferInstanceAs (Decidable (∃ e ∈ catalog.entries, _))

/-- The entries whose keys do not come before, in any spelling. -/
def firstEntries (caseSensitive : Bool) : List Entry → List Entry
  | [] => []
  | e :: rest =>
    e :: (firstEntries caseSensitive rest).filter fun later =>
      normalizeKey caseSensitive later.key ≠ normalizeKey caseSensitive e.key

theorem firstEntries_sublist (caseSensitive : Bool) (entries : List Entry) :
    (firstEntries caseSensitive entries).Sublist entries := by
  induction entries with
  | nil => exact List.Sublist.refl []
  | cons e rest ih => exact (List.filter_sublist.trans ih).cons_cons e

theorem pairwise_firstEntries (caseSensitive : Bool) (entries : List Entry) :
    (firstEntries caseSensitive entries).Pairwise fun a b =>
      normalizeKey caseSensitive a.key ≠ normalizeKey caseSensitive b.key := by
  induction entries with
  | nil => exact List.Pairwise.nil
  | cons e rest ih =>
      refine List.Pairwise.cons ?_ (ih.sublist List.filter_sublist)
      intro later hlater
      have hnot := (List.mem_filter.mp hlater).2
      exact fun heq => (of_decide_eq_true hnot) heq.symm

/-- The first entry of a key is the one that a search for the key finds. -/
theorem find?_of_mem_firstEntries {caseSensitive : Bool} {entries : List Entry} {first : Entry}
    (h : first ∈ firstEntries caseSensitive entries) :
    entries.find? (fun e => normalizeKey caseSensitive e.key ==
      normalizeKey caseSensitive first.key) = some first := by
  induction entries with
  | nil => cases h
  | cons e rest ih =>
      cases h with
      | head _ => exact List.find?_cons_of_pos (beq_self_eq_true _)
      | tail _ later =>
          obtain ⟨hrest, hnot⟩ := List.mem_filter.mp later
          have hne : normalizeKey caseSensitive e.key ≠ normalizeKey caseSensitive first.key :=
            fun heq => (of_decide_eq_true hnot) heq.symm
          rw [List.find?_cons_of_neg (by simpa using hne)]
          exact ih hrest

variable {caseSensitive : Bool}

theorem exists_firstEntries {entries : List Entry} {e : Entry} (h : e ∈ entries) :
    ∃ first ∈ firstEntries caseSensitive entries,
      normalizeKey caseSensitive first.key = normalizeKey caseSensitive e.key := by
  induction entries with
  | nil => cases h
  | cons head rest ih =>
      by_cases hhead : normalizeKey caseSensitive head.key = normalizeKey caseSensitive e.key
      · exact ⟨head, List.mem_cons_self, hhead⟩
      · have hrest : e ∈ rest := by
          cases h with
          | head _ => exact absurd rfl hhead
          | tail _ later => exact later
        obtain ⟨first, hfirst, hkey⟩ := ih hrest
        have hkept : normalizeKey caseSensitive first.key ≠ normalizeKey caseSensitive head.key :=
          fun heq => hhead (heq.symm.trans hkey)
        exact ⟨first, List.mem_cons_of_mem _ (List.mem_filter.mpr ⟨hfirst, decide_eq_true hkept⟩),
          hkey⟩

theorem firstEntries_of_pairwise {entries : List Entry}
    (h : entries.Pairwise fun a b =>
      normalizeKey caseSensitive a.key ≠ normalizeKey caseSensitive b.key) :
    firstEntries caseSensitive entries = entries := by
  induction entries with
  | nil => rfl
  | cons e rest ih =>
      obtain ⟨hnew, hrest⟩ := List.pairwise_cons.mp h
      have hkept : ∀ later ∈ rest, decide (normalizeKey caseSensitive later.key ≠
          normalizeKey caseSensitive e.key) = true :=
        fun later hlater => decide_eq_true fun heq => hnew later hlater heq.symm
      rw [firstEntries, ih hrest, List.filter_eq_self.mpr hkept]

/-- Behind other entries only those with new keys count. -/
theorem firstEntries_append (front back : List Entry) :
    firstEntries caseSensitive (front ++ back) =
      firstEntries caseSensitive front ++ (firstEntries caseSensitive back).filter fun e =>
        ∀ before ∈ front,
          normalizeKey caseSensitive e.key ≠ normalizeKey caseSensitive before.key := by
  induction front with
  | nil => simp [firstEntries]
  | cons head front ih =>
      rw [List.cons_append, firstEntries, firstEntries, ih, List.filter_append, List.filter_filter,
        List.cons_append]
      simp only [List.forall_mem_cons, Bool.decide_and]

/-- Leaving out what is repeated within each part first changes nothing. -/
theorem firstEntries_flatMap {α : Type} (part : α → List Entry) (sources : List α) :
    firstEntries caseSensitive (sources.flatMap fun s => firstEntries caseSensitive (part s)) =
      firstEntries caseSensitive (sources.flatMap part) := by
  induction sources with
  | nil => rfl
  | cons s sources ih =>
      have hkeys : ∀ e : Entry,
          (∀ before ∈ firstEntries caseSensitive (part s),
            normalizeKey caseSensitive e.key ≠ normalizeKey caseSensitive before.key) ↔
          ∀ before ∈ part s,
            normalizeKey caseSensitive e.key ≠ normalizeKey caseSensitive before.key := by
        intro e
        constructor
        · intro hnew before hbefore heq
          obtain ⟨first, hfirst, hkey⟩ := exists_firstEntries hbefore
          exact hnew first hfirst (heq.trans hkey.symm)
        · exact fun hnew before hbefore => hnew before ((firstEntries_sublist _ _).mem hbefore)
      rw [List.flatMap_cons, List.flatMap_cons, firstEntries_append, firstEntries_append, ih,
        firstEntries_of_pairwise (pairwise_firstEntries _ _)]
      simp only [hkeys]

/-! The index -/

theorem get?_first (entries : List Entry) (index : Index) (compared : Text) :
    Assoc.get? compared (entries.foldl (Index.add caseSensitive) index).first =
      (Assoc.get? compared index.first).or
        (entries.find? fun e => normalizeKey caseSensitive e.key == compared) := by
  induction entries generalizing index with
  | nil => simp
  | cons e rest ih =>
      rw [List.foldl_cons, ih, Index.add, Assoc.get?_offer, Option.or_assoc]
      by_cases h : normalizeKey caseSensitive e.key = compared
      · simp [h]
      · have hne : (normalizeKey caseSensitive e.key == compared) = false := by simpa using h
        simp [hne]

/-- What the fold adds to the first entries: those of the list whose keys are not there yet. -/
theorem first_eq (entries : List Entry) (index : Index) :
    (entries.foldl (Index.add caseSensitive) index).first =
      index.first ++ ((firstEntries caseSensitive entries).filter fun e =>
        normalizeKey caseSensitive e.key ∉ Assoc.keys index.first).map fun e =>
          (normalizeKey caseSensitive e.key, e) := by
  induction entries generalizing index with
  | nil => simp [firstEntries]
  | cons e rest ih =>
      rw [List.foldl_cons, ih, Index.add, firstEntries]
      by_cases h : normalizeKey caseSensitive e.key ∈ Assoc.keys index.first
      · have hsame : ∀ later : Entry,
            (decide (normalizeKey caseSensitive later.key ∉ Assoc.keys index.first) &&
              decide (normalizeKey caseSensitive later.key ≠ normalizeKey caseSensitive e.key)) =
            decide (normalizeKey caseSensitive later.key ∉ Assoc.keys index.first) := by
          intro later
          by_cases hlater : normalizeKey caseSensitive later.key = normalizeKey caseSensitive e.key
          · simp [hlater, h]
          · simp [hlater]
        simp only [Assoc.offer_of_mem e h, List.filter_cons, h, not_true_eq_false, decide_false,
          Bool.false_eq_true, if_false, List.filter_filter, hsame]
      · have hkeys : Assoc.keys (index.first ++ [(normalizeKey caseSensitive e.key, e)]) =
            Assoc.keys index.first ++ [normalizeKey caseSensitive e.key] := by
          simp [Assoc.keys]
        simp [Assoc.offer_of_not_mem e h, h, hkeys, List.filter_filter]

theorem get?_firstIn (entries : List Entry) (index : Index) (compared culture : Text) :
    Assoc.get? (compared, culture) (entries.foldl (Index.add caseSensitive) index).firstIn =
      (Assoc.get? (compared, culture) index.firstIn).or
        (entries.find? fun e =>
          e.culture == culture && normalizeKey caseSensitive e.key == compared) := by
  induction entries generalizing index with
  | nil => simp
  | cons e rest ih =>
      rw [List.foldl_cons, ih, Index.add, Assoc.get?_offer, Option.or_assoc]
      have hpair : ((normalizeKey caseSensitive e.key, e.culture) == (compared, culture)) =
          (e.culture == culture && normalizeKey caseSensitive e.key == compared) :=
        Bool.and_comm _ _
      rw [hpair, List.find?_cons]
      cases e.culture == culture && normalizeKey caseSensitive e.key == compared <;> rfl

theorem mem_addText {s t : Text} {texts : Option (List Text)} :
    s ∈ addText t texts ↔ s = t ∨ s ∈ texts.getD [] := by
  cases texts with
  | none => simp [addText]
  | some texts =>
      by_cases h : t ∈ texts
      · have hsame : s = t → s ∈ texts := fun heq => heq ▸ h
        rw [addText, if_pos (by simpa using h), Option.getD_some, or_iff_right_of_imp hsame]
      · simp [addText, h]

/-- Adds a text of each entry to the texts of its culture, each text once. -/
def groupTexts (textOf : Entry → Text) (entries : List Entry)
    (groups : List (Text × List Text)) : List (Text × List Text) :=
  entries.foldl (fun groups e => Assoc.update e.culture (addText (textOf e)) groups) groups

theorem keysIn_eq (entries : List Entry) (index : Index) :
    (entries.foldl (Index.add caseSensitive) index).keysIn =
      groupTexts (·.key) entries index.keysIn := by
  induction entries generalizing index with
  | nil => rfl
  | cons e rest ih => exact ih _

theorem comparedIn_eq (entries : List Entry) (index : Index) :
    (entries.foldl (Index.add caseSensitive) index).comparedIn =
      groupTexts (normalizeKey caseSensitive ·.key) entries index.comparedIn := by
  induction entries generalizing index with
  | nil => rfl
  | cons e rest ih => exact ih _

theorem mem_groupTexts (textOf : Entry → Text) (entries : List Entry)
    (groups : List (Text × List Text)) (culture s : Text) :
    s ∈ (Assoc.get? culture (groupTexts textOf entries groups)).getD [] ↔
      s ∈ (Assoc.get? culture groups).getD [] ∨
        ∃ e ∈ entries, e.culture = culture ∧ textOf e = s := by
  induction entries generalizing groups with
  | nil => simp [groupTexts]
  | cons e rest ih =>
      rw [groupTexts, List.foldl_cons, ← groupTexts, ih, Assoc.get?_update,
        List.exists_mem_cons_iff, ← or_assoc]
      refine or_congr_left ?_
      by_cases h : e.culture = culture
      · simp [h, mem_addText, eq_comm, or_comm]
      · simp [h]

/-! Look-ups -/

theorem contains_iff (catalog : Catalog) (key : Text) :
    catalog.contains key = true ↔ catalog.Defines key := by
  rw [contains, Assoc.has, catalog.index_eq, Index.ofEntries, get?_first, Assoc.get?, Option.none_or,
    List.find?_isSome]
  simp [Defines, normalize]

theorem containsIn_iff (catalog : Catalog) (key culture : Text) :
    catalog.containsIn key culture = true ↔ catalog.DefinesIn key culture := by
  have hmem := mem_groupTexts (normalizeKey catalog.caseSensitive ·.key) catalog.entries [] culture
    (catalog.normalize key)
  rw [containsIn, catalog.index_eq, Index.ofEntries, comparedIn_eq]
  cases hget : Assoc.get? culture
      (groupTexts (normalizeKey catalog.caseSensitive ·.key) catalog.entries []) with
  | none => simpa [hget, DefinesIn, normalize, Assoc.get?] using hmem
  | some texts => simpa [hget, DefinesIn, normalize, Assoc.get?] using hmem

theorem keys_eq (catalog : Catalog) :
    catalog.keys = (firstEntries catalog.caseSensitive catalog.entries).map (·.key) := by
  rw [keys, catalog.index_eq, Index.ofEntries, first_eq]
  simp [Function.comp_def]

theorem firstEntry_eq (catalog : Catalog) (key : Text) :
    catalog.firstEntry key =
      catalog.entries.find? fun e => catalog.normalize e.key == catalog.normalize key := by
  rw [firstEntry, catalog.index_eq, Index.ofEntries, get?_first, Assoc.get?, Option.none_or]
  rfl

/-- Within a culture its own entries come first, then those of any other. -/
theorem firstEntry_culture (catalog : Catalog) (key culture : Text) :
    catalog.firstEntry key (some culture) =
      (catalog.entries.find? fun e =>
        e.culture == culture && catalog.normalize e.key == catalog.normalize key).or
        (catalog.firstEntry key) := by
  have hwithin : Assoc.get? (catalog.normalize key, culture) catalog.index.firstIn =
      catalog.entries.find? fun e =>
        e.culture == culture && catalog.normalize e.key == catalog.normalize key := by
    rw [catalog.index_eq, Index.ofEntries, get?_firstIn, Assoc.get?, Option.none_or]
    rfl
  rw [← hwithin, firstEntry, firstEntry]
  cases Assoc.get? (catalog.normalize key, culture) catalog.index.firstIn <;> rfl

theorem firstEntry_of_mem {catalog : Catalog} {first : Entry}
    (h : first ∈ firstEntries catalog.caseSensitive catalog.entries) :
    catalog.firstEntry first.key = some first := by
  rw [firstEntry_eq]
  exact find?_of_mem_firstEntries h

theorem mem_culturesWith (catalog : Catalog) (key culture : Text) :
    culture ∈ catalog.culturesWith key ↔ catalog.containsIn key culture = true := by
  rw [culturesWith, List.mem_filter, and_iff_right_iff_imp]
  intro h
  rw [containsIn] at h
  split at h
  · next compared hget => exact List.mem_map_of_mem (f := Prod.fst) (Assoc.mem_of_get? hget)
  · cases h

end LocaleKeys.Catalog
