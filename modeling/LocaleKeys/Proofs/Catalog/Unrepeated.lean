import LocaleKeys.Proofs.Catalog.Leaves
import LocaleKeys.Proofs.Key.Place

/-!
Files whose member names have no separators in them. Their leaves have keys of their own, so with
letter case told apart nothing is a duplicate but what the scan of the text finds to be repeated.
-/

namespace LocaleKeys

theorem Json.Readable.distinct {depth : Nat} {v : Json} (h : Readable depth v) : Distinct v := by
  induction h with
  | scalar _ => exact .scalar
  | arr _ ih => exact .arr ih
  | obj distinct _ ih => exact .obj distinct ih

namespace Contribution

open Json (Distinct Named LeafAt)
open Key (IsStepName keyOf)

variable {settings : Settings} {file : ResourceFile} {text : List Point} {v : Json}

/-- Leaves with keys of their own give no duplicates. -/
theorem duplicates_takeLeaves_of_pairwise {locate : Text → Location} {culture : Text}
    {leaves : List (Text × Scalar)} (h : leaves.Pairwise fun a b => a.1 ≠ b.1) :
    (takeLeaves true locate culture [] leaves).2 = [] := by
  apply List.eq_nil_iff_forall_not_mem.mpr
  intro d hd
  obtain ⟨front, leaf, back, rfl, hbefore, -⟩ := mem_duplicates_takeLeaves.mp hd
  obtain ⟨earlier, hearlier, hsame⟩ := List.mem_map.mp hbefore
  exact (List.pairwise_append.mp h).2.2 earlier hearlier leaf List.mem_cons_self hsame

theorem duplicates_of_step_names (hcase : settings.caseSensitive = true)
    (htext : file.text = some text) (hread : Key.readResource text = .ok v)
    (hnames : Named IsStepName v) :
    (ofFile settings file).duplicates =
      rawDuplicates file.path (Culture.resolve settings.cultures file.path) (Key.scan text) := by
  have hdistinct : Distinct v := (Json.readable_of_read hread).distinct
  have hkeys := Key.pairwise_key_flatten hnames hdistinct ""
  rw [ofFile_of_read htext hread, hcase]
  dsimp only
  rw [duplicates_takeLeaves_of_pairwise hkeys, List.append_nil]

/-- Where no member name is empty or has a point or an opening bracket in it, flattening lists every
scalar below the top of a value once, in document order, under the key of the steps to it, and no two
of these keys are the same. A file with such a value has no duplicates but its repeats, as long as
letter case is told apart. -/
theorem flatten_lists_leaves (hnames : Named IsStepName v) (hdistinct : Distinct v) :
    let leaves := v.leaves.filter (·.place ≠ [])
    (Key.flatten "" v = leaves.map (fun leaf => (keyOf "" leaf.steps, leaf.value)) ∧
      (∀ leaf : LeafAt, leaf ∈ leaves ↔
        leaf.place ≠ [] ∧ v.at? leaf.place = some (leaf.steps, .scalar leaf.value)) ∧
      leaves.Pairwise (fun a b => a.place < b.place) ∧
      ((Key.flatten "" v).map (·.1)).Nodup) ∧
    ∀ (settings : Settings) (file : ResourceFile) (text : List Point),
      settings.caseSensitive = true → file.text = some text → Key.readResource text = .ok v →
      (ofFile settings file).duplicates =
        rawDuplicates file.path (Culture.resolve settings.cultures file.path) (Key.scan text) := by
  intro leaves
  refine ⟨⟨?_, ?_, ?_, ?_⟩, ?_⟩
  · rw [Key.flatten_empty hnames, ← Json.filter_leaves]
    rfl
  · intro leaf
    rw [List.mem_filter, Json.mem_leaves_iff, decide_eq_true_iff, and_comm]
  · exact (Json.pairwise_place_leaves v).filter _
  · exact List.pairwise_map.mpr (Key.pairwise_key_flatten hnames hdistinct "")
  · intro settings file text hcase htext hread
    exact duplicates_of_step_names hcase htext hread hnames

/-- Names with a closing bracket and of digits only, in an array, with a repeat among them. -/
theorem flatten_lists_leaves_bracket :
    let text := (Text.ofString "[\x7b\"a]\":[[1],2],\"a]\":5,\"0\":\x7b\"b\":3\x7d\x7d]").toList
    let file : ResourceFile := { path := "de.json", text := some text }
    let v : Json := .arr [.obj [("a]", .arr [.arr [.scalar (.int 1)], .scalar (.int 2)]),
      ("0", .obj [("b", .scalar (.int 3))])]]
    Named IsStepName v ∧ Distinct v ∧ Key.readResource text = .ok v ∧
      Key.flatten "" v =
        [(Text.ofString "[0].a][0][0]", .int 1), ("[0].a][1]", .int 2), ("[0].0.b", .int 3)] ∧
      (ofFile {} file).duplicates = [⟨"[0].a]", "de", ⟨"de.json", 1, 1, 16⟩⟩] := by
  intro text file v
  have htree : Json.readTree text = .ok (.arr [.obj [
      (⟨"a]", 2⟩, .arr [.arr [.scalar (.int 1)], .scalar (.int 2)]),
      (⟨"a]", 15⟩, .scalar (.int 5)), (⟨"0", 22⟩, .obj [(⟨"b", 27⟩, .scalar (.int 3))])]]) := rfl
  have hread : Key.readResource text = .ok v := Json.read_of_readTree htree .keepFirst
  have hnames : Named IsStepName v := by
    have hlast : Named IsStepName (.obj [("b", .scalar (.int 3))]) :=
      .obj (by decide) (by simpa using .scalar)
    have hfirst : Named IsStepName (.arr [.arr [.scalar (.int 1)], .scalar (.int 2)]) := by
      refine .arr ?_
      simpa using ⟨.arr (by simpa using .scalar), .scalar⟩
    refine .arr (List.forall_mem_singleton.mpr (.obj (by decide) ?_))
    simpa using ⟨hfirst, hlast⟩
  have hdistinct : Distinct v := (Json.readable_of_read hread).distinct
  obtain ⟨⟨hflatten, -⟩, hfile⟩ := flatten_lists_leaves hnames hdistinct
  refine ⟨hnames, hdistinct, hread, hflatten, ?_⟩
  rw [hfile {} file text rfl rfl hread]
  decide

end Contribution
end LocaleKeys
