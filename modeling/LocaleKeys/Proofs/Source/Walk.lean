import LocaleKeys.Source.Node
import Mathlib.Data.List.Basic
import Mathlib.Logic.Function.Iterate
import LocaleKeys.Proofs.Text.Point

/-!
Trees of source text walked layer by layer. A walk comes upon what stands at each place of the tree once:
places nearer to the root first, and those of one layer from left to right.
-/

namespace LocaleKeys.Source.Node

/-- The parts of a node, from left to right. -/
def parts : Node → List Node
  | .name _ | .text .. => []
  | .attribute target _ => [target]
  | .call callee args keywords => callee :: (args ++ keywords)
  | .subscript target index => [target, index]
  | .sequence items => items
  | .starred item => [item]
  | .other parts => parts

/-- What stands in a tree behind a way down, given by the numbers of the parts on it. -/
def at? (n : Node) : List Nat → Option Node
  | [] => some n
  | i :: way => n.parts[i]?.bind (at? · way)

/-! Layers -/

theorem joinLayers_nil (layers : List (List Node)) : joinLayers layers [] = layers := by
  cases layers <;> rfl

theorem joinLayers_assoc (a b c : List (List Node)) :
    joinLayers (joinLayers a b) c = joinLayers a (joinLayers b c) := by
  induction a generalizing b c with
  | nil => rfl
  | cons x a ih =>
      cases b with
      | nil => rfl
      | cons y b =>
          cases c with
          | nil => rfl
          | cons z c => simp only [joinLayers, ih, List.append_assoc]

theorem layersAll_append (ns ms : List Node) :
    layersAll (ns ++ ms) = joinLayers (layersAll ns) (layersAll ms) := by
  induction ns with
  | nil => rfl
  | cons n ns ih => rw [List.cons_append, layersAll, layersAll, ih, joinLayers_assoc]

theorem layers_eq (n : Node) : n.layers = [n] :: layersAll n.parts := by
  cases n with
  | name id => rfl
  | text value span => rfl
  | «attribute» target member => simp only [layers, parts, layersAll, joinLayers_nil]
  | call callee args keywords => simp only [layers, parts, layersAll, layersAll_append]
  | subscript target index => simp only [layers, parts, layersAll, joinLayers_nil]
  | sequence items => rfl
  | starred item => simp only [layers, parts, layersAll, joinLayers_nil]
  | other items => rfl

theorem layersAll_eq {ns : List Node} (h : ns ≠ []) :
    layersAll ns = ns :: layersAll (ns.flatMap parts) := by
  induction ns with
  | nil => exact absurd rfl h
  | cons n rest ih =>
      rw [layersAll, layers_eq]
      cases rest with
      | nil => simp only [layersAll, joinLayers_nil, List.flatMap_cons, List.flatMap_nil, List.append_nil]
      | cons m rest =>
          rw [ih (List.cons_ne_nil _ _), joinLayers, ← layersAll_append, List.flatMap_cons]
          rfl

/-! Ways down a tree -/

theorem at?_concat (n : Node) (way : List Nat) (i : Nat) :
    n.at? (way ++ [i]) = (n.at? way).bind (·.parts[i]?) := by
  induction way generalizing n with
  | nil =>
      show n.parts[i]?.bind some = n.parts[i]?
      exact Option.bind_fun_some _
  | cons j way ih =>
      rw [List.cons_append, at?, at?]
      cases n.parts[j]? with
      | none => rfl
      | some part => exact ih part

/-- The parts of what stands behind a way, with the ways to them. -/
def beneath (a : List Nat × Node) : List (List Nat × Node) :=
  a.2.parts.zipIdx.map fun part => (a.1 ++ [part.2], part.1)

/-- A layer of a tree, with the ways to what stands in it. -/
def reached (tree : Node) : Nat → List (List Nat × Node)
  | 0 => [([], tree)]
  | k + 1 => (reached tree k).flatMap beneath

/-- What the walk of a tree comes upon, with the ways to it. -/
def visits (tree : Node) : List (List Nat × Node) :=
  (List.range tree.layers.length).flatMap (reached tree)

theorem mem_beneath {a b : List Nat × Node} :
    b ∈ beneath a ↔ ∃ i, a.2.parts[i]? = some b.2 ∧ b.1 = a.1 ++ [i] := by
  rw [beneath, List.mem_map]
  constructor
  · rintro ⟨part, hpart, rfl⟩
    exact ⟨part.2, List.mem_zipIdx_iff_getElem?.mp hpart, rfl⟩
  · rintro ⟨i, hpart, hway⟩
    exact ⟨(b.2, i), List.mem_zipIdx_iff_getElem?.mpr hpart, Prod.ext hway.symm rfl⟩

theorem map_snd_beneath (a : List Nat × Node) : (beneath a).map Prod.snd = a.2.parts := by
  rw [beneath, List.map_map]
  exact List.zipIdx_map_fst 0 _

variable (tree : Node)

theorem mem_reached {k : Nat} {way : List Nat} {n : Node} :
    (way, n) ∈ reached tree k ↔ way.length = k ∧ tree.at? way = some n := by
  induction k generalizing way n with
  | zero =>
      rw [reached, List.mem_singleton, Prod.mk.injEq, List.length_eq_zero_iff]
      constructor
      · rintro ⟨rfl, rfl⟩
        exact ⟨rfl, rfl⟩
      · rintro ⟨rfl, hn⟩
        exact ⟨rfl, (Option.some.inj hn).symm⟩
  | succ k ih =>
      rw [reached, List.mem_flatMap]
      constructor
      · rintro ⟨⟨above, m⟩, habove, hbeneath⟩
        obtain ⟨hlength, hm⟩ := ih.mp habove
        obtain ⟨i, hpart, rfl⟩ := mem_beneath.mp hbeneath
        refine ⟨by rw [List.length_append, hlength]; rfl, ?_⟩
        rw [at?_concat, hm]
        exact hpart
      · rintro ⟨hlength, hn⟩
        rcases List.eq_nil_or_concat way with rfl | ⟨above, i, rfl⟩
        · cases hlength
        · rw [List.concat_eq_append] at hlength hn ⊢
          rw [at?_concat] at hn
          obtain ⟨m, hm, hpart⟩ := Option.bind_eq_some_iff.mp hn
          rw [List.length_append] at hlength
          have habove := ih.mpr ⟨Nat.succ.inj hlength, hm⟩
          exact ⟨(above, m), habove, mem_beneath.mpr ⟨i, hpart, rfl⟩⟩

theorem map_snd_reached (k : Nat) :
    (reached tree k).map Prod.snd = (List.flatMap parts)^[k] [tree] := by
  induction k with
  | zero => rfl
  | succ k ih =>
      rw [Function.iterate_succ_apply', ← ih, reached, List.map_flatMap, List.flatMap_map]
      exact congrArg (List.flatMap · _) (funext map_snd_beneath)

theorem getD_layersAll (ns : List Node) (k : Nat) :
    (layersAll ns)[k]?.getD [] = (List.flatMap parts)^[k] ns := by
  induction k generalizing ns with
  | zero =>
      cases ns with
      | nil => rfl
      | cons n rest => rw [layersAll_eq (List.cons_ne_nil _ _)]; rfl
  | succ k ih =>
      rw [Function.iterate_succ_apply, ← ih]
      cases ns with
      | nil => rfl
      | cons n rest => rw [layersAll_eq (List.cons_ne_nil n rest), List.getElem?_cons_succ]

theorem getD_layers (k : Nat) :
    tree.layers[k]?.getD [] = (reached tree k).map Prod.snd := by
  have h := getD_layersAll [tree] k
  rwa [layersAll, layersAll, joinLayers_nil, ← map_snd_reached] at h

theorem map_snd_visits : (visits tree).map Prod.snd = tree.walk := by
  have hlayers : tree.layers = (List.range tree.layers.length).map fun k =>
      (reached tree k).map Prod.snd := by
    apply List.ext_getElem (by rw [List.length_map, List.length_range])
    intro k hk _
    rw [List.getElem_map, List.getElem_range, ← getD_layers, List.getElem?_eq_getElem hk]
    rfl
  rw [visits, List.map_flatMap, walk, hlayers, List.length_map, List.length_range]
  rfl

/-- The walk reaches what stands behind a way, and nothing else. -/
theorem mem_visits {way : List Nat} {n : Node} : (way, n) ∈ visits tree ↔ tree.at? way = some n := by
  rw [visits, List.mem_flatMap]
  constructor
  · rintro ⟨k, -, hreached⟩
    exact ((mem_reached tree).mp hreached).2
  · intro hn
    have hreached := (mem_reached tree).mpr ⟨rfl, hn⟩
    refine ⟨way.length, List.mem_range.mpr ?_, hreached⟩
    by_contra hlength
    have hnone := getD_layers tree way.length
    rw [List.getElem?_eq_none (Nat.le_of_not_lt hlength)] at hnone
    rw [List.map_eq_nil_iff.mp hnone.symm] at hreached
    cases hreached

/-! Order -/

/-- Whether a way leads less far down than another one, or as far and more to the left. -/
def NearerOrLeft (way other : List Nat) : Prop :=
  way.length < other.length ∨ way.length = other.length ∧ way < other

theorem NearerOrLeft.ne {way other : List Nat} (h : NearerOrLeft way other) : way ≠ other := by
  rintro rfl
  rcases h with hlength | ⟨-, hless⟩
  · exact Nat.lt_irrefl _ hlength
  · exact List.lt_irrefl way hless

theorem append_lt_append {way other : List Nat} (hlength : way.length = other.length)
    (h : way < other) (deeper further : List Nat) : way ++ deeper < other ++ further := by
  induction way generalizing other with
  | nil =>
      rw [List.eq_nil_of_length_eq_zero hlength.symm] at h
      cases h
  | cons i way ih =>
      cases other with
      | nil => cases hlength
      | cons j other =>
          rw [List.cons_append, List.cons_append, List.cons_lt_cons_iff]
          rcases List.cons_lt_cons_iff.mp h with hij | ⟨hij, hrest⟩
          · exact .inl hij
          · exact .inr ⟨hij, ih (Nat.succ.inj hlength) hrest⟩

theorem pairwise_beneath (a : List Nat × Node) : (beneath a).Pairwise fun b c => b.1 < c.1 := by
  rw [beneath, List.pairwise_map]
  have hnumbers : (a.2.parts.zipIdx.map Prod.snd).Pairwise (· < ·) := by
    rw [List.zipIdx_map_snd]
    exact List.pairwise_lt_range' _
  refine (List.pairwise_map.mp hnumbers).imp fun hless => ?_
  exact List.append_left_lt (List.cons_lt_cons_iff.mpr (.inl hless))

theorem pairwise_reached (k : Nat) : (reached tree k).Pairwise fun b c => b.1 < c.1 := by
  induction k with
  | zero => exact List.pairwise_singleton _ _
  | succ k ih =>
      rw [reached, List.pairwise_flatMap]
      refine ⟨fun a _ => pairwise_beneath a, ih.imp_of_mem ?_⟩
      intro a b ha hb hless c hc d hd
      obtain ⟨i, -, hi⟩ := mem_beneath.mp hc
      obtain ⟨j, -, hj⟩ := mem_beneath.mp hd
      rw [hi, hj]
      have hlength : a.1.length = b.1.length :=
        ((mem_reached tree).mp ha).1.trans ((mem_reached tree).mp hb).1.symm
      exact append_lt_append hlength hless _ _

/-- The walk goes down layer by layer, and through a layer from left to right. -/
theorem pairwise_visits : (visits tree).Pairwise fun a b => NearerOrLeft a.1 b.1 := by
  rw [visits, List.pairwise_flatMap]
  constructor
  · intro k _
    refine (pairwise_reached tree k).imp_of_mem fun ha hb hless => .inr ⟨?_, hless⟩
    exact ((mem_reached tree).mp ha).1.trans ((mem_reached tree).mp hb).1.symm
  · refine List.pairwise_lt_range.imp fun hkl a ha b hb => .inl ?_
    rwa [((mem_reached tree).mp ha).1, ((mem_reached tree).mp hb).1]

end LocaleKeys.Source.Node
