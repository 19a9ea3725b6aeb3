import LocaleKeys.Proofs.Catalog.Leaves
import LocaleKeys.Proofs.Key.Plain

/-!
Where the entries of a file are located. In a file with plain names an entry is at the opening quote
of the innermost member around its leaf, however many arrays lie between the two, and at the start
of the file if the leaf is in no member.
-/

namespace LocaleKeys.Contribution

open Text (Position)

/-- A leaf as an entry at the member around it, or at the start if there is none. -/
def anchoredEntry (path culture : Text) (text : List Point) (a : Key.Anchored) : Entry :=
  let place := (a.anchor.map (·.place text)).getD Position.start
  ⟨a.key, culture, ⟨path, place.line, place.line, place.column⟩, a.value⟩

variable {settings : Settings} {file : ResourceFile} {text : List Point} {tree : Json.Tree}

/-- The members around leaves stand in the text. -/
theorem stands_of_mem_anchored (htree : Json.readTree text = .ok tree) {a : Key.Anchored}
    (ha : a ∈ Key.anchored "" none tree) : ∀ o ∈ a.anchor, o.Stands text := by
  intro o hanchor
  obtain ⟨hnone, -⟩ | ⟨member, hmember, -, hsome, -⟩ := Key.under_of_mem_anchored "" none tree a ha
  · rw [hnone] at hanchor
    cases hanchor
  · rw [hsome] at hanchor
    obtain rfl := Option.some.inj hanchor
    exact (Key.inOrder_of_readsText (Json.readsText_of_readTree htree)).stands _ hmember

/-- The entries of a file whose text is read and has plain names only, each of them once in its
object: the first leaves of their keys, each at the opening quote of the innermost member around it,
and at the start of the file if there is none. -/
theorem entries_at_anchors (settings : Settings) (htext : file.text = some text)
    (htree : Json.readTree text = .ok tree)
    (hplain : ∀ o ∈ Key.occurrences "" tree, o.IsPlain) :
    let leaves := Key.anchored "" none tree
    let culture := Culture.resolve settings.cultures file.path
    Key.readResource text = .ok (tree.toJson .keepFirst) ∧
      leaves.map Key.Anchored.leaf = Key.flatten "" (tree.toJson .keepFirst) ∧
      (∀ a ∈ leaves, ∀ o ∈ a.anchor, o.Stands text) ∧
      (ofFile settings file).entries = Catalog.firstEntries settings.caseSensitive
        (leaves.map (anchoredEntry file.path culture text)) := by
  intro leaves culture
  have hread : Key.readResource text = .ok (tree.toJson .keepFirst) :=
    Json.read_of_readTree htree .keepFirst
  have hleaves : leaves.map Key.Anchored.leaf = Key.flatten "" (tree.toJson .keepFirst) :=
    Key.map_leaf_anchored "" none tree
  refine ⟨hread, hleaves, fun a ha => stands_of_mem_anchored htree ha, ?_⟩
  rw [entries_of_read htext hread, ← hleaves, List.map_map]
  refine congrArg _ (List.map_congr_left fun a ha => ?_)
  have hplace : (Key.scan text).locate a.leaf.1 = a.anchor.map (·.place text) :=
    Key.locate_anchored htree hplain ha
  rw [Function.comp_apply, leafEntry, leafLocation, hplace]
  rfl

/-- A leaf in an array in an array, one in an object in that array, and one in no member. -/
theorem entries_at_anchors_nested :
    let text := (Text.ofString "[\x7b\"a\":[[1],\x7b\"b\":2\x7d]\x7d,3]").toList
    let file : ResourceFile := { path := "de.json", text := some text }
    let tree : Json.Tree := .arr [.obj [(⟨"a", 2⟩, .arr [.arr [.scalar (.int 1)],
      .obj [(⟨"b", 12⟩, .scalar (.int 2))]])], .scalar (.int 3)]
    Json.readTree text = .ok tree ∧ (∀ o ∈ Key.occurrences "" tree, o.IsPlain) ∧
      (ofFile {} file).entries = [⟨"[0].a[0][0]", "de", ⟨"de.json", 1, 1, 3⟩, .int 1⟩,
        ⟨"[0].a[1].b", "de", ⟨"de.json", 1, 1, 13⟩, .int 2⟩,
        ⟨"[1]", "de", ⟨"de.json", 1, 1, 1⟩, .int 3⟩] := by
  intro text file tree
  have htree : Json.readTree text = .ok tree := rfl
  have hplain : ∀ o ∈ Key.occurrences "" tree, o.IsPlain := by decide
  obtain ⟨-, -, -, hentries⟩ := @entries_at_anchors file text tree {} rfl htree hplain
  refine ⟨htree, hplain, hentries.trans ?_⟩
  decide

end LocaleKeys.Contribution
