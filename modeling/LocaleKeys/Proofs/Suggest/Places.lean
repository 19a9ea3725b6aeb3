import LocaleKeys.Proofs.Stable
import LocaleKeys.Proofs.Suggest.Ranking
import Mathlib.Data.List.FinRange

/-!
The ranking by places. A key may be given more than once, so candidates are followed by the places of
the keys in the list: which places are ranked, in which order, and which are cut off.
-/

namespace LocaleKeys.Suggest

/-- The candidate at a place in the list of keys. -/
def candidateAt (unknown : Text) (keys : List Text) (caseSensitive : Bool)
    (place : Fin keys.length) : Candidate :=
  ⟨keys[place], score unknown keys[place] caseSensitive⟩

/-- A place is ranked before another one: its key is closer, or as close and given earlier. -/
def Outranks (unknown : Text) (keys : List Text) (caseSensitive : Bool)
    (i j : Fin keys.length) : Prop :=
  score unknown keys[j] caseSensitive < score unknown keys[i] caseSensitive ∨
    score unknown keys[i] caseSensitive = score unknown keys[j] caseSensitive ∧ i < j

/-- The places of the close keys. -/
def closePlaces (unknown : Text) (keys : List Text) (caseSensitive : Bool) :
    List (Fin keys.length) :=
  (List.finRange keys.length).filter fun i => 0 < score unknown keys[i] caseSensitive

/-- The places of the close keys, best first. -/
def rankedPlaces (unknown : Text) (keys : List Text) (caseSensitive : Bool) :
    List (Fin keys.length) :=
  (closePlaces unknown keys caseSensitive).mergeSort fun i j =>
    score unknown keys[j] caseSensitive ≤ score unknown keys[i] caseSensitive

variable {unknown : Text} {keys : List Text} {caseSensitive : Bool}

theorem mem_closePlaces {i : Fin keys.length} :
    i ∈ closePlaces unknown keys caseSensitive ↔ 0 < score unknown keys[i] caseSensitive := by
  simp [closePlaces]

theorem map_candidateAt_finRange (unknown : Text) (keys : List Text) (caseSensitive : Bool) :
    (List.finRange keys.length).map (candidateAt unknown keys caseSensitive) =
      keys.map fun key => ⟨key, score unknown key caseSensitive⟩ := by
  have hkeys := congrArg (List.map fun key => Candidate.mk key (score unknown key caseSensitive))
    (List.map_get_finRange keys)
  rwa [List.map_map] at hkeys

/-- The ranking is the one of the places. -/
theorem ranked_eq_map (unknown : Text) (keys : List Text) (caseSensitive : Bool) :
    ranked unknown keys caseSensitive =
      (rankedPlaces unknown keys caseSensitive).map (candidateAt unknown keys caseSensitive) := by
  have hsorted := List.map_mergeSort
    (r := fun i j => score unknown keys[j] caseSensitive ≤ score unknown keys[i] caseSensitive)
    (s := fun a b => b.score ≤ a.score) (f := candidateAt unknown keys caseSensitive)
    (l := closePlaces unknown keys caseSensitive) fun _ _ _ _ => rfl
  rw [rankedPlaces, hsorted, ranked, ← map_candidateAt_finRange, List.filter_map]
  rfl

theorem rankedPlaces_perm (unknown : Text) (keys : List Text) (caseSensitive : Bool) :
    (rankedPlaces unknown keys caseSensitive).Perm (closePlaces unknown keys caseSensitive) :=
  List.mergeSort_perm _ _

theorem pairwise_rankedPlaces (unknown : Text) (keys : List Text) (caseSensitive : Bool) :
    (rankedPlaces unknown keys caseSensitive).Pairwise (Outranks unknown keys caseSensitive) := by
  have hplaces : (closePlaces unknown keys caseSensitive).Pairwise (· < ·) :=
    (List.pairwise_lt_finRange _).filter _
  have hsorted : (rankedPlaces unknown keys caseSensitive).Pairwise _ :=
    Stable.pairwise_mergeSort_ties (by intro i j k; simp; omega) (by intro i j; simp; omega) hplaces
  refine hsorted.imp fun {i j} h => ?_
  obtain ⟨hle, hties⟩ := h
  obtain hlt | heq := Int.lt_or_eq_of_le (of_decide_eq_true hle)
  · exact Or.inl hlt
  · exact Or.inr ⟨heq.symm, hties (decide_eq_true heq.ge)⟩

/-- A place that is not among the first ones comes behind them, ranked or not. -/
theorem outranks_of_mem_take {n : Nat} {i j : Fin keys.length}
    (hi : i ∈ (rankedPlaces unknown keys caseSensitive).take n)
    (hj : j ∉ (rankedPlaces unknown keys caseSensitive).take n) :
    Outranks unknown keys caseSensitive i j := by
  have hclose : 0 < score unknown keys[i] caseSensitive := by
    rw [← mem_closePlaces, ← (rankedPlaces_perm unknown keys caseSensitive).mem_iff]
    exact List.mem_of_mem_take hi
  by_cases hranked : j ∈ rankedPlaces unknown keys caseSensitive
  · have hsorted := pairwise_rankedPlaces unknown keys caseSensitive
    rw [← List.take_append_drop n (rankedPlaces unknown keys caseSensitive)] at hranked hsorted
    have hdrop := (List.mem_append.mp hranked).resolve_left hj
    exact (List.pairwise_append.mp hsorted).2.2 i hi j hdrop
  · rw [(rankedPlaces_perm unknown keys caseSensitive).mem_iff, mem_closePlaces] at hranked
    exact Or.inl (by omega)

theorem suggest_of_nonpos {top : Int} (h : top ≤ 0) :
    suggest unknown keys caseSensitive top = ranked unknown keys caseSensitive :=
  if_neg (Int.not_lt.mpr h)

theorem suggest_of_pos {top : Int} (h : 0 < top) :
    suggest unknown keys caseSensitive top = (ranked unknown keys caseSensitive).take top.toNat :=
  if_pos h

/-- The candidates stand at the places of the keys with a positive score, each place once, the closer
ones first and equally close ones in the order given. A positive number cuts off what comes behind so
many places, so more places continue the same list; any other number cuts off nothing. -/
theorem suggest_ranks_places (unknown : Text) (keys : List Text) (caseSensitive : Bool) :
    ∃ order : List (Fin keys.length),
      order.Perm (closePlaces unknown keys caseSensitive) ∧
      order.Pairwise (Outranks unknown keys caseSensitive) ∧
      (∀ top, top ≤ 0 → suggest unknown keys caseSensitive top =
        order.map (candidateAt unknown keys caseSensitive)) ∧
      (∀ top, 0 < top →
        suggest unknown keys caseSensitive top =
            (order.take top.toNat).map (candidateAt unknown keys caseSensitive) ∧
          ∀ i ∈ order.take top.toNat, ∀ j ∉ order.take top.toNat,
            Outranks unknown keys caseSensitive i j) ∧
      (∀ few many, 0 < few → few ≤ many →
        suggest unknown keys caseSensitive few <+: suggest unknown keys caseSensitive many) ∧
      ∀ top, (suggest unknown keys caseSensitive top).Pairwise fun a b => b.score ≤ a.score := by
  refine ⟨rankedPlaces unknown keys caseSensitive, rankedPlaces_perm _ _ _,
    pairwise_rankedPlaces _ _ _, fun top htop => ?_, fun top htop => ⟨?_, ?_⟩,
    fun few many hfew hmany => ?_, fun top => ?_⟩
  · rw [suggest_of_nonpos htop, ranked_eq_map]
  · rw [suggest_of_pos htop, ranked_eq_map, List.map_take]
  · intro i hi j hj
    exact outranks_of_mem_take hi hj
  · rw [suggest_of_pos hfew, suggest_of_pos (by omega)]
    exact List.take_prefix_take_left (by omega)
  · exact (pairwise_ranked unknown keys caseSensitive).sublist (suggest_sublist ..)

end LocaleKeys.Suggest
