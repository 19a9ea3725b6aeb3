import LocaleKeys.Proofs.Catalog.Leaves
import LocaleKeys.Proofs.Key.Anchor
import LocaleKeys.Proofs.Text.Lower

/-!
Duplicates and the entry of their key, by place. A name that its object has had before is reported
where it stands, so never at an entry. A leaf whose key comes again is located by that key alone, so
it is reported at the entry exactly if it is spelt like the entry.
-/

namespace LocaleKeys

namespace Key

open Text (Position)

/-! Spellings of one key that differ in indices only -/

/-- Indices are ASCII and have no letters. -/
theorem ascii_of_mem_element {c : Point} {is : List Nat} (h : c ∈ (element "" is).toList) :
    c.toNat < 0x80 ∧ c.toLower = c := by
  induction is using List.reverseRecOn with
  | nil => cases h
  | append_singleton is i ih =>
      rw [element_concat, toList_index, List.mem_append, List.mem_cons, List.mem_append,
        List.mem_singleton] at h
      obtain before | rfl | digit | rfl := h
      · exact ih before
      · decide
      · exact Text.ascii_of_isDigit (Number.isDigit_of_mem_toDigits digit)
      · decide

theorem isAscii_element (is : List Nat) : Text.IsAscii (element "" is).toList :=
  fun _ hc => (ascii_of_mem_element hc).1

theorem map_toLower_element (is : List Nat) :
    (element "" is).toList.map Point.toLower = (element "" is).toList :=
  (List.map_congr_left fun _ hc => (ascii_of_mem_element hc).2).trans (List.map_id _)

/-- Keys that go on from one path with indices are the same under a case policy only if they are
spelt the same. -/
theorem element_inj_of_normalizeKey {caseSensitive : Bool} {path : Text} {is js : List Nat}
    (h : normalizeKey caseSensitive (element path is) =
      normalizeKey caseSensitive (element path js)) : element path is = element path js := by
  cases caseSensitive with
  | true => exact h
  | false =>
      have hlower : Text.lower (element path is).toList = Text.lower (element path js).toList :=
        Text.ofList_injective h
      rw [element_eq path is, element_eq path js, Text.toList_append,
        Text.toList_append] at hlower
      have hindices :=
        Text.map_toLower_of_lower_append (isAscii_element is) (isAscii_element js) hlower
      rw [map_toLower_element, map_toLower_element] at hindices
      rw [element_eq path is, element_eq path js, Text.toList_injective hindices]

/-! Places of leaves and of repeats -/

variable {text : List Point} {v : Json} {leaf other : Text × Scalar}

theorem readTree_of_readResource (h : readResource text = .ok v) :
    ∃ tree, Json.readTree text = .ok tree ∧ v = tree.toJson .keepFirst := by
  rw [readResource, Json.read] at h
  cases htree : Json.readTree text with
  | error fault =>
      rw [htree] at h
      cases h
  | ok tree =>
      rw [htree] at h
      exact ⟨tree, rfl, (Except.ok.inj h).symm⟩

/-- Leaves at one place with one key are spelt the same. -/
theorem key_eq_of_place_eq {caseSensitive : Bool} (hread : readResource text = .ok v)
    (hleaf : leaf ∈ flatten "" v) (hother : other ∈ flatten "" v)
    (hplace : ((scan text).locate leaf.1).getD Position.start =
      ((scan text).locate other.1).getD Position.start)
    (hkey : normalizeKey caseSensitive leaf.1 = normalizeKey caseSensitive other.1) :
    leaf.1 = other.1 := by
  obtain ⟨tree, htree, rfl⟩ := readTree_of_readResource hread
  obtain ⟨path, is, js, hleafKey, hotherKey⟩ := common_path_of_place_eq htree hleaf hother hplace
  rw [hleafKey, hotherKey] at hkey ⊢
  exact element_inj_of_normalizeKey hkey

/-- No leaf is located at a repeat. -/
theorem place_ne_of_mem_repeats (hread : readResource text = .ok v) (hleaf : leaf ∈ flatten "" v)
    {r : Repeat} (hr : r ∈ (scan text).repeats) :
    r.place ≠ ((scan text).locate leaf.1).getD Position.start := by
  obtain ⟨tree, htree, rfl⟩ := readTree_of_readResource hread
  have hreads := Json.readsText_of_readTree htree
  rw [repeats_of_readsText hreads] at hr
  obtain ⟨o, ho, rfl⟩ := List.mem_map.mp hr
  obtain ⟨hmem, hrepeated⟩ := List.mem_filter.mp ho
  obtain ⟨path, -, -, ⟨-, hnone⟩ | ⟨place, hget, hsome⟩⟩ := locate_leaf htree hleaf
  · rw [hnone, Option.getD_none]
    exact place_ne_start htree hmem
  · rw [hsome, Option.getD_some]
    obtain ⟨first, hfirst, hnew, -, rfl⟩ := mem_occurrences_of_get? htree hget
    intro hplace
    have horder := inOrder_of_readsText hreads
    obtain rfl := horder.place_inj le_rfl hmem hfirst hplace
    rw [hnew] at hrepeated
    cases hrepeated

end Key

/-- The same line and column, in whatever file. -/
def Location.SamePlace (l other : Location) : Prop :=
  l.lineStart = other.lineStart ∧ l.column = other.column

namespace Contribution

open Text (Position)

variable {settings : Settings} {file : ResourceFile} {text : List Point} {v : Json} {e : Entry}
  {d : Duplicate}

theorem samePlace_iff {path path' : Text} {p q : Position} :
    Location.SamePlace ⟨path, p.line, p.line, p.column⟩ ⟨path', q.line, q.line, q.column⟩ ↔
      p = q := by
  obtain ⟨line, column⟩ := p
  obtain ⟨line', column'⟩ := q
  simp only [Location.SamePlace, Nat.cast_inj, Position.mk.injEq]

/-- An entry is a leaf, where the leaf is reported. -/
theorem leaf_of_mem_entries (htext : file.text = some text) (hread : Key.readResource text = .ok v)
    (he : e ∈ (ofFile settings file).entries) :
    (e.key, e.value) ∈ Key.flatten "" v ∧
      e.location = leafLocation file.path (Key.scan text) e.key := by
  rw [entries_of_read htext hread] at he
  obtain ⟨leaf, hleaf, rfl⟩ := List.mem_map.mp ((Catalog.firstEntries_sublist _ _).mem he)
  exact ⟨hleaf, rfl⟩

/-- A repeat of the text is not at the entry of any key. -/
theorem apart_of_mem_rawDuplicates {culture : Text} (htext : file.text = some text)
    (hread : Key.readResource text = .ok v)
    (hd : d ∈ rawDuplicates file.path culture (Key.scan text))
    (he : e ∈ (ofFile settings file).entries) : ¬ d.location.SamePlace e.location := by
  obtain ⟨r, hr, rfl⟩ := List.mem_map.mp hd
  obtain ⟨hleaf, hlocation⟩ := leaf_of_mem_entries htext hread he
  rw [hlocation, leafLocation, samePlace_iff]
  exact Key.place_ne_of_mem_repeats hread hleaf hr

/-- Leaves with the key of an entry are reported there exactly if they are spelt like it. -/
theorem samePlace_leafLocation_iff {leaf : Text × Scalar} (htext : file.text = some text)
    (hread : Key.readResource text = .ok v) (hleaf : leaf ∈ Key.flatten "" v)
    (he : e ∈ (ofFile settings file).entries)
    (hkey : normalizeKey settings.caseSensitive leaf.1 = normalizeKey settings.caseSensitive e.key) :
    (leafLocation file.path (Key.scan text) leaf.1).SamePlace e.location ↔ leaf.1 = e.key := by
  obtain ⟨hentry, hlocation⟩ := leaf_of_mem_entries htext hread he
  rw [hlocation]
  constructor
  · intro hplace
    exact Key.key_eq_of_place_eq hread hleaf hentry (samePlace_iff.mp hplace) hkey
  · intro hspelling
    rw [hspelling]
    exact samePlace_iff.mpr rfl

theorem one_lt_count_map_iff {α β : Type} [BEq β] [LawfulBEq β] {f : α → β} {b : β} {l : List α} :
    1 < (l.map f).count b ↔
      ∃ front a back, l = front ++ a :: back ∧ f a = b ∧ b ∈ front.map f := by
  constructor
  · intro h
    have htwice : [b, b].Sublist (l.map f) := List.replicate_sublist_iff.mpr h
    obtain ⟨first, rest, hsplit, hfirst, hrest⟩ := List.cons_sublist_iff.mp htwice
    obtain ⟨front, back, rfl, rfl, rfl⟩ := List.map_eq_append_iff.mp hsplit
    obtain ⟨a, ha, rfl⟩ := List.mem_map.mp (List.singleton_sublist.mp hrest)
    obtain ⟨middle, last, rfl⟩ := List.append_of_mem ha
    refine ⟨front ++ middle, a, last, (List.append_assoc _ _ _).symm, rfl, ?_⟩
    rw [List.map_append]
    exact List.mem_append_left _ hfirst
  · rintro ⟨front, a, back, rfl, rfl, hfront⟩
    have hpos := List.count_pos_iff.mpr hfront
    rw [List.map_append, List.map_cons, List.count_append, List.count_cons_self]
    omega

/-- The duplicates of a file are the repeats of its text and the leaves whose key comes before. -/
theorem mem_duplicates_ofFile (htext : file.text = some text)
    (hread : Key.readResource text = .ok v) :
    let culture := Culture.resolve settings.cultures file.path
    d ∈ (ofFile settings file).duplicates ↔
      d ∈ rawDuplicates file.path culture (Key.scan text) ∨
        ∃ front leaf back, Key.flatten "" v = front ++ leaf :: back ∧
          normalizeKey settings.caseSensitive leaf.1 ∈
            front.map (normalizeKey settings.caseSensitive ·.1) ∧
          d = ⟨leaf.1, culture, leafLocation file.path (Key.scan text) leaf.1⟩ := by
  rw [ofFile_of_read htext hread, List.mem_append, mem_duplicates_takeLeaves]
  rfl

/-- A key that comes before a leaf has its entry there. -/
theorem mem_front_of_mem_entries {front back : List (Text × Scalar)} {leaf : Text × Scalar}
    (htext : file.text = some text) (hread : Key.readResource text = .ok v)
    (he : e ∈ (ofFile settings file).entries) (hsplit : Key.flatten "" v = front ++ leaf :: back)
    (hbefore : normalizeKey settings.caseSensitive e.key ∈
      front.map (normalizeKey settings.caseSensitive ·.1)) : (e.key, e.value) ∈ front := by
  rw [entries_of_read htext hread] at he
  have hfirst := find?_of_mem_entries he
  obtain ⟨earlier, hearlier, hsame⟩ := List.mem_map.mp hbefore
  have hfound : (front.find? fun l => normalizeKey settings.caseSensitive l.1 ==
      normalizeKey settings.caseSensitive e.key).isSome = true :=
    List.find?_isSome.mpr ⟨earlier, hearlier, by simpa using hsame⟩
  rw [hsplit, List.find?_append, Option.or_of_isSome hfound] at hfirst
  exact List.mem_of_find?_eq_some hfirst

/-- Some duplicate is at the entry of its key exactly if the very spelling of the entry comes again.
-/
theorem exists_duplicate_at_iff (htext : file.text = some text)
    (hread : Key.readResource text = .ok v) (he : e ∈ (ofFile settings file).entries) :
    (∃ d ∈ (ofFile settings file).duplicates,
        normalizeKey settings.caseSensitive d.key = normalizeKey settings.caseSensitive e.key ∧
          d.location.SamePlace e.location) ↔
      1 < ((Key.flatten "" v).map (·.1)).count e.key := by
  rw [one_lt_count_map_iff]
  constructor
  · rintro ⟨d, hd, hkey, hplace⟩
    obtain hraw | ⟨front, leaf, back, hsplit, hcomes, rfl⟩ :=
      (mem_duplicates_ofFile htext hread).mp hd
    · exact absurd hplace (apart_of_mem_rawDuplicates htext hread hraw he)
    · have hleaf : leaf ∈ Key.flatten "" v := by
        rw [hsplit]
        exact List.mem_append_right _ List.mem_cons_self
      have hspelling : leaf.1 = e.key :=
        (samePlace_leafLocation_iff htext hread hleaf he hkey).mp hplace
      have hfirst : (e.key, e.value) ∈ front :=
        mem_front_of_mem_entries htext hread he hsplit (hspelling ▸ hcomes)
      exact ⟨front, leaf, back, hsplit, hspelling, List.mem_map_of_mem hfirst⟩
  · rintro ⟨front, leaf, back, hsplit, hspelling, hbefore⟩
    obtain ⟨first, hfirst, hsame⟩ := List.mem_map.mp hbefore
    have hcomes : normalizeKey settings.caseSensitive leaf.1 ∈
        front.map (normalizeKey settings.caseSensitive ·.1) :=
      List.mem_map.mpr ⟨first, hfirst, by rw [hsame, hspelling]⟩
    refine ⟨_, (mem_duplicates_ofFile htext hread).mpr
      (Or.inr ⟨front, leaf, back, hsplit, hcomes, rfl⟩), by rw [hspelling], ?_⟩
    rw [hspelling, (leaf_of_mem_entries htext hread he).2]
    exact ⟨rfl, rfl⟩

/-- The duplicates of a file whose text is read, by place. Repeats of the text never are where an
entry is. So all duplicates are apart from the entry of their key exactly if no other leaf has the
very spelling of an entry. -/
theorem duplicates_apart_iff (settings : Settings) (htext : file.text = some text)
    (hread : Key.readResource text = .ok v) :
    let leaves := Key.flatten "" v
    let added := ofFile settings file
    let compared := normalizeKey settings.caseSensitive
    (∀ d ∈ rawDuplicates file.path added.culture (Key.scan text), ∀ e ∈ added.entries,
      ¬ d.location.SamePlace e.location) ∧
    ((∀ d ∈ added.duplicates, ∀ e ∈ added.entries, compared d.key = compared e.key →
        ¬ d.location.SamePlace e.location) ↔
      ∀ e ∈ added.entries, (leaves.map (·.1)).count e.key = 1) := by
  intro leaves added compared
  have honce : ∀ e ∈ added.entries, ((leaves.map (·.1)).count e.key = 1 ↔
      ¬ ∃ d ∈ added.duplicates, compared d.key = compared e.key ∧
        d.location.SamePlace e.location) := by
    intro e he
    have hpos : 0 < (leaves.map (·.1)).count e.key :=
      List.count_pos_iff.mpr (List.mem_map_of_mem (leaf_of_mem_entries htext hread he).1)
    have hagain : (∃ d ∈ added.duplicates, compared d.key = compared e.key ∧
        d.location.SamePlace e.location) ↔ 1 < (leaves.map (·.1)).count e.key :=
      exists_duplicate_at_iff htext hread he
    rw [hagain]
    omega
  refine ⟨fun d hd e he => apart_of_mem_rawDuplicates htext hread hd he,
    fun hapart e he => (honce e he).mpr ?_, fun hcounts d hd e he hkey hplace => ?_⟩
  · rintro ⟨d, hd, hkey, hplace⟩
    exact hapart d hd e he hkey hplace
  · exact (honce e he).mp (hcounts e he) ⟨d, hd, hkey, hplace⟩

/-- Two spellings of one name, the second of which comes again: neither the other spelling nor the
repeat is where the entry is. -/
theorem duplicates_apart_spellings :
    let text := (Text.ofString "\x7b\"A\":1,\"a\":2,\"a\":3\x7d").toList
    let file : ResourceFile := { path := "de.json", text := some text }
    let added := ofFile { caseSensitive := false } file
    Key.readResource text = .ok (.obj [("A", .scalar (.int 1)), ("a", .scalar (.int 2))]) ∧
      added.duplicates = [⟨"a", "de", ⟨"de.json", 1, 1, 14⟩⟩, ⟨"a", "de", ⟨"de.json", 1, 1, 8⟩⟩] ∧
      ∀ d ∈ added.duplicates, ∀ e ∈ added.entries,
        normalizeKey false d.key = normalizeKey false e.key → ¬ d.location.SamePlace e.location := by
  intro text file added
  have htree : Json.readTree text = .ok (.obj [(⟨"A", 1⟩, .scalar (.int 1)),
      (⟨"a", 7⟩, .scalar (.int 2)), (⟨"a", 13⟩, .scalar (.int 3))]) := rfl
  have hread : Key.readResource text =
      .ok (.obj [("A", .scalar (.int 1)), ("a", .scalar (.int 2))]) :=
    Json.read_of_readTree htree .keepFirst
  have hleaves : Key.flatten "" (.obj [("A", .scalar (.int 1)), ("a", .scalar (.int 2))]) =
      [(Text.ofString "A", .int 1), ("a", .int 2)] := by decide
  obtain ⟨-, hapart⟩ := @duplicates_apart_iff file text _ { caseSensitive := false } rfl hread
  rw [hleaves] at hapart
  refine ⟨hread, by decide +kernel, hapart.mpr fun e he => ?_⟩
  obtain ⟨hleaf, -⟩ := leaf_of_mem_entries rfl hread he
  rw [hleaves] at hleaf
  have honce : ∀ leaf ∈ [(Text.ofString "A", Scalar.int 1), (Text.ofString "a", Scalar.int 2)],
      ([(Text.ofString "A", Scalar.int 1), (Text.ofString "a", Scalar.int 2)].map
        (·.1)).count leaf.1 = 1 := by decide
  exact honce _ hleaf

/-- A name with a point that collides with a nested path is reported where the path is, not where
the name is. -/
theorem duplicate_at_entry_dotted :
    let text := (Text.ofString "\x7b\"a\": \x7b\"b\": 1\x7d, \"a.b\": 2\x7d").toList
    let added := ofFile {} { path := "en.json", text := some text }
    added.parsed = true ∧ added.entries = [⟨"a.b", "en", ⟨"en.json", 1, 1, 8⟩, .int 1⟩] ∧
      added.duplicates = [⟨"a.b", "en", ⟨"en.json", 1, 1, 8⟩⟩] ∧
      (text.drop 16).take 5 = (Text.ofString "\"a.b\"").toList ∧ Position.ofOffset text 16 = ⟨1, 17⟩ := by
  decide +kernel

end Contribution
end LocaleKeys
