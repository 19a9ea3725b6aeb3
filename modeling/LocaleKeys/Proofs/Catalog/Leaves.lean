import LocaleKeys.Proofs.Assoc
import LocaleKeys.Proofs.Catalog.Contribution
import LocaleKeys.Proofs.Json.Readable

/-!
What becomes of the leaves of a file. Each is an entry or a duplicate: an entry if no leaf before it
has the same key under the case policy, and a duplicate otherwise. So no leaf is lost and none
counts twice.
-/

namespace LocaleKeys.Contribution

variable {caseSensitive : Bool} {locate : Text → Location} {culture : Text}

/-- The leaves fall into entries and duplicates. -/
theorem keys_takeLeaves (seen : List Text) (leaves : List (Text × Scalar)) :
    let taken := takeLeaves caseSensitive locate culture seen leaves
    (taken.2.map (·.key) ++ taken.1.map (·.key)).Perm (leaves.map (·.1)) := by
  induction leaves generalizing seen with
  | nil => exact List.Perm.refl []
  | cons leaf rest ih =>
      rw [takeLeaves]
      dsimp only
      split
      · exact (ih seen).cons leaf.1
      · have hrest := ih (normalizeKey caseSensitive leaf.1 :: seen)
        exact List.perm_middle.trans (hrest.cons leaf.1)

/-- A leaf is a duplicate if its key comes before, in whatever spelling. -/
theorem mem_duplicates_takeLeaves {seen : List Text} {leaves : List (Text × Scalar)}
    {d : Duplicate} :
    d ∈ (takeLeaves caseSensitive locate culture seen leaves).2 ↔
      ∃ front leaf back, leaves = front ++ leaf :: back ∧
        normalizeKey caseSensitive leaf.1 ∈ seen ++ front.map (normalizeKey caseSensitive ·.1) ∧
          d = ⟨leaf.1, culture, locate leaf.1⟩ := by
  induction leaves generalizing seen with
  | nil => simp [takeLeaves]
  | cons first rest ih =>
      rw [takeLeaves, Assoc.exists_split_cons]
      simp only [List.contains_iff_mem, List.map_nil, List.append_nil, List.map_cons]
      by_cases hseen : normalizeKey caseSensitive first.1 ∈ seen
      · have hfront : ∀ (k : Text) (front : List (Text × Scalar)),
            k ∈ seen ++ normalizeKey caseSensitive first.1 ::
                front.map (normalizeKey caseSensitive ·.1) ↔
              k ∈ seen ++ front.map (normalizeKey caseSensitive ·.1) := by
          intro k front
          simp only [List.mem_append, List.mem_cons]
          exact ⟨fun h => h.elim Or.inl fun h => h.elim (fun e => Or.inl (e ▸ hseen)) Or.inr,
            Or.imp_right Or.inr⟩
        simp only [hseen, if_true, List.mem_cons, ih, hfront, true_and]
      · have hfront : ∀ (k : Text) (front : List (Text × Scalar)),
            k ∈ seen ++ normalizeKey caseSensitive first.1 ::
                front.map (normalizeKey caseSensitive ·.1) ↔
              k ∈ normalizeKey caseSensitive first.1 :: seen ++
                front.map (normalizeKey caseSensitive ·.1) := by
          intro k front
          simp only [List.mem_append, List.mem_cons, or_left_comm, or_assoc]
        simp only [hseen, if_false, ih, hfront, false_and, false_or]

/-! Entries -/

/-- An entry has the spelling and the value of the first leaf with its key. -/
theorem find?_of_mem_entries {leaves : List (Text × Scalar)} {e : Entry}
    (h : e ∈ Catalog.firstEntries caseSensitive (leaves.map (leafEntry locate culture))) :
    leaves.find? (fun leaf => normalizeKey caseSensitive leaf.1 ==
      normalizeKey caseSensitive e.key) = some (e.key, e.value) := by
  have hfind := Catalog.find?_of_mem_firstEntries h
  rw [List.find?_map, Option.map_eq_some_iff] at hfind
  obtain ⟨leaf, hleaf, rfl⟩ := hfind
  exact hleaf

/-- Where keys differ, one entry has the key of an entry. -/
theorem filter_of_pairwise {entries : List Entry} {e : Entry}
    (h : entries.Pairwise fun a b =>
      normalizeKey caseSensitive a.key ≠ normalizeKey caseSensitive b.key)
    (he : e ∈ entries) :
    entries.filter (fun other => normalizeKey caseSensitive other.key ==
      normalizeKey caseSensitive e.key) = [e] := by
  obtain ⟨front, back, rfl⟩ := List.append_of_mem he
  obtain ⟨-, hback, hfront⟩ := List.pairwise_append.mp h
  have hnoneBefore : front.filter (fun other => normalizeKey caseSensitive other.key ==
      normalizeKey caseSensitive e.key) = [] := by
    rw [List.filter_eq_nil_iff]
    intro other hother
    simpa using hfront other hother e List.mem_cons_self
  have hnoneAfter : back.filter (fun other => normalizeKey caseSensitive other.key ==
      normalizeKey caseSensitive e.key) = [] := by
    rw [List.filter_eq_nil_iff]
    intro other hother
    simpa using ((List.pairwise_cons.mp hback).1 other hother).symm
  rw [List.filter_append, List.filter_cons_of_pos (by simp), hnoneBefore, hnoneAfter,
    List.nil_append]

/-! Files -/

variable {settings : Settings} {file : ResourceFile} {text : List Point} {v : Json}

/-- What a file adds whose text is read. -/
theorem ofFile_of_read (htext : file.text = some text) (hread : Key.readResource text = .ok v) :
    let culture := Culture.resolve settings.cultures file.path
    let scan := Key.scan text
    let taken := takeLeaves settings.caseSensitive (leafLocation file.path scan) culture []
      (Key.flatten "" v)
    ofFile settings file =
      { path := file.path
        culture
        entries := taken.1
        duplicates := rawDuplicates file.path culture scan ++ taken.2
        parsed := true } := by
  rw [ofFile, htext]
  dsimp only
  rw [hread]

theorem entries_of_read (htext : file.text = some text) (hread : Key.readResource text = .ok v) :
    (ofFile settings file).entries = Catalog.firstEntries settings.caseSensitive
      ((Key.flatten "" v).map (leafEntry (leafLocation file.path (Key.scan text))
        (Culture.resolve settings.cultures file.path))) := by
  rw [entries_ofFile, leafEntries, htext]
  dsimp only
  rw [hread]

/-- No leaf of a file is lost, and none counts twice. The entries of a file whose text is read have
keys that differ under the case policy. They are leaves in the order of the leaves, and each key of
a leaf has exactly one entry, spelt and valued as the first leaf with that key. The other leaves are
duplicates, next to the repeats of the text. -/
theorem leaves_counted_once (settings : Settings) (htext : file.text = some text)
    (hread : Key.readResource text = .ok v) :
    let leaves := Key.flatten "" v
    let repeats := (Key.scan text).repeats
    let added := ofFile settings file
    let compared := normalizeKey settings.caseSensitive
    added.entries.Pairwise (fun a b => compared a.key ≠ compared b.key) ∧
      (added.entries.map fun e => (e.key, e.value)).Sublist leaves ∧
      (∀ leaf ∈ leaves, ∃ e, added.entries.filter (fun e => compared e.key == compared leaf.1) = [e] ∧
        leaves.find? (fun l => compared l.1 == compared leaf.1) = some (e.key, e.value)) ∧
      (added.duplicates.map (·.key) ++ added.entries.map (·.key)).Perm
        (repeats.map (·.path) ++ leaves.map (·.1)) ∧
      added.duplicates.length = repeats.length + leaves.length - added.entries.length := by
  intro leaves repeats added compared
  let entryOf := leafEntry (leafLocation file.path (Key.scan text))
    (Culture.resolve settings.cultures file.path)
  have hentries : added.entries =
      Catalog.firstEntries settings.caseSensitive (leaves.map entryOf) := entries_of_read htext hread
  have hdistinct : added.entries.Pairwise fun a b => compared a.key ≠ compared b.key :=
    hentries ▸ Catalog.pairwise_firstEntries _ _
  have hkeys : (added.duplicates.map (·.key) ++ added.entries.map (·.key)).Perm
      (repeats.map (·.path) ++ leaves.map (·.1)) := by
    have hadded : added = _ := ofFile_of_read htext hread
    rw [hadded, List.map_append, List.append_assoc, rawDuplicates, List.map_map]
    exact (keys_takeLeaves [] leaves).append_left _
  refine ⟨hdistinct, ?_, fun leaf hleaf => ?_, hkeys, ?_⟩
  · have hsublist : added.entries.Sublist (leaves.map entryOf) :=
      hentries ▸ Catalog.firstEntries_sublist _ _
    have hleaves : (leaves.map entryOf).map (fun e => (e.key, e.value)) = leaves := by
      rw [List.map_map]
      exact List.map_id leaves
    exact hleaves ▸ hsublist.map _
  · have hmem : entryOf leaf ∈ leaves.map entryOf := List.mem_map_of_mem hleaf
    obtain ⟨e, he, hsame⟩ := @Catalog.exists_firstEntries settings.caseSensitive _ _ hmem
    have hkey : compared e.key = compared leaf.1 := hsame
    rw [← hkey]
    exact ⟨e, filter_of_pairwise hdistinct (hentries ▸ he), find?_of_mem_entries he⟩
  · have hlength := hkeys.length_eq
    simp only [List.length_append, List.length_map] at hlength
    omega

/-- Two spellings of one name, the first of which comes again. Without regard to case they have one
entry, and the other spelling and the repeat are duplicates. -/
theorem leaves_counted_once_spellings :
    let text := (Text.ofString "\x7b\"a\":1,\"A\":2,\"a\":3\x7d").toList
    let file : ResourceFile := { path := "de.json", text := some text }
    let added := ofFile { caseSensitive := false } file
    let v : Json := .obj [("a", .scalar (.int 1)), ("A", .scalar (.int 2))]
    file.text = some text ∧ Key.readResource text = .ok v ∧
      (∃ e, added.entries.filter (fun e => normalizeKey false e.key == normalizeKey false "A") = [e] ∧
        e.key = "a" ∧ e.value = .int 1) ∧
      (added.duplicates.map (·.key) ++ added.entries.map (·.key)).Perm ["a", "a", "A"] ∧
      added.duplicates.length = 3 - added.entries.length := by
  intro text file added v
  have htree : Json.readTree text = .ok (.obj [(⟨"a", 1⟩, .scalar (.int 1)),
      (⟨"A", 7⟩, .scalar (.int 2)), (⟨"a", 13⟩, .scalar (.int 3))]) := rfl
  have hread : Key.readResource text = .ok v := Json.read_of_readTree htree .keepFirst
  have hleaves : Key.flatten "" v =
      [(Text.ofString "a", .int 1), (Text.ofString "A", .int 2)] := by decide
  have hrepeats : (Key.scan text).repeats = [⟨"a", "a", ⟨1, 14⟩⟩] := by decide
  obtain ⟨-, -, hentry, hkeys, hlength⟩ :=
    @leaves_counted_once file text v { caseSensitive := false } rfl hread
  rw [hleaves, hrepeats] at hkeys hlength
  rw [hleaves] at hentry
  have hleaf : (Text.ofString "A", Scalar.int 2) ∈
      [(Text.ofString "a", Scalar.int 1), (Text.ofString "A", .int 2)] := by decide
  obtain ⟨e, honly, hfirst⟩ := hentry _ hleaf
  have hsame : some (Text.ofString "a", Scalar.int 1) = some (e.key, e.value) := hfirst
  obtain ⟨hkey, hvalue⟩ := Prod.mk.inj (Option.some.inj hsame)
  exact ⟨rfl, hread, ⟨e, honly, hkey.symm, hvalue.symm⟩, hkeys, hlength⟩

end LocaleKeys.Contribution
