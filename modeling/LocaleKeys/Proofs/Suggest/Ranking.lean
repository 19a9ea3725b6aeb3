import LocaleKeys.Proofs.Culture
import LocaleKeys.Proofs.Suggest.Distance
import LocaleKeys.Suggest.Ranking

/-!
The rules behind the scores. The first rule that applies to an unknown key and a candidate sets the
score. Two of the scores move with the texts: a long shared beginning outgrows the rules before it, and
many edits use up all that closeness gives.
-/

namespace LocaleKeys.Suggest

/-- Two texts share a beginning of so many characters. -/
def ShareBeginning (n : Nat) (a b : List Point) : Prop :=
  ∃ front : List Point, front.length = n ∧ front <+: a ∧ front <+: b

theorem shareBeginning_iff {n : Nat} {a b : List Point} :
    ShareBeginning n a b ↔ n ≤ commonLength a b := by
  constructor
  · rintro ⟨front, rfl, ha, hb⟩
    induction front generalizing a b with
    | nil => exact Nat.zero_le _
    | cons x front ih =>
        obtain ⟨a, rfl⟩ := ha
        obtain ⟨b, rfl⟩ := hb
        have hrest := ih (List.prefix_append front a) (List.prefix_append front b)
        simpa [commonLength] using hrest
  · intro h
    induction n generalizing a b with
    | zero => exact ⟨[], rfl, List.nil_prefix, List.nil_prefix⟩
    | succ n ih =>
        match a, b with
        | [], b => simp [commonLength] at h
        | x :: a, [] => simp [commonLength] at h
        | x :: a, y :: b =>
            rw [commonLength] at h
            split at h
            · next heq =>
                subst heq
                obtain ⟨front, hlength, ha, hb⟩ := ih (Nat.le_of_succ_le_succ h)
                exact ⟨x :: front, by simp [hlength], by simpa using ha, by simpa using hb⟩
            · simp at h

instance (n : Nat) (a b : List Point) : Decidable (ShareBeginning n a b) :=
  decidable_of_iff _ shareBeginning_iff.symm

/-- The rules of the ranking. -/
inductive Closeness
  | same
  | containing
  | contained
  | beginning
  | nearby
  deriving DecidableEq, Repr

namespace Closeness

/-- The order in which the rules are tried. -/
def rank : Closeness → Nat
  | .same => 0
  | .containing => 1
  | .contained => 2
  | .beginning => 3
  | .nearby => 4

def Applies (missing candidate : List Point) : Closeness → Prop
  | .same => missing = candidate
  | .containing => missing <:+: candidate
  | .contained => candidate <:+: missing
  | .beginning => ∃ n, 0 < n ∧ ShareBeginning n missing candidate
  | .nearby => editDistance missing candidate ≤ max missing.length candidate.length / 3

def NoneBefore (missing candidate : List Point) (count : Nat) : Prop :=
  ∀ earlier : Closeness, earlier.rank < count → ¬ earlier.Applies missing candidate

/-- A rule is the first one that applies. -/
def Decides (missing candidate : List Point) (rule : Closeness) : Prop :=
  rule.Applies missing candidate ∧ NoneBefore missing candidate rule.rank

def worth (missing candidate : List Point) : Closeness → Int
  | .same => 1000
  | .containing => 800
  | .contained => 700
  | .beginning => 500 + 10 * commonLength missing candidate
  | .nearby => 300 - 10 * editDistance missing candidate

/-- The length at which a shared beginning is worth as much as the rule. -/
def outgrownAt : Closeness → Nat
  | .same => 50
  | .containing => 30
  | .contained => 20
  | .beginning | .nearby => 0

variable {missing candidate : List Point} {rule other : Closeness}

theorem rank_injective (h : rule.rank = other.rank) : rule = other := by
  cases rule <;> cases other <;> first | rfl | cases h

theorem Decides.unique (h : rule.Decides missing candidate) (h' : other.Decides missing candidate) :
    rule = other := by
  apply rank_injective
  apply Nat.le_antisymm
  · exact Nat.le_of_not_lt fun hlt => h.2 other hlt h'.1
  · exact Nat.le_of_not_lt fun hlt => h'.2 rule hlt h.1

theorem noneBefore_zero (missing candidate : List Point) : NoneBefore missing candidate 0 := by
  intro earlier hlt
  cases hlt

theorem NoneBefore.step (rule : Closeness) (h : NoneBefore missing candidate rule.rank)
    (hnot : ¬ rule.Applies missing candidate) : NoneBefore missing candidate (rule.rank + 1) := by
  intro earlier hlt
  by_cases heq : earlier = rule
  · rwa [heq]
  · have hne : earlier.rank ≠ rule.rank := fun hrank => heq (rank_injective hrank)
    exact h earlier (by omega)

theorem applies_beginning_iff :
    beginning.Applies missing candidate ↔ 0 < commonLength missing candidate := by
  rw [Applies]
  constructor
  · rintro ⟨n, hpos, hshare⟩
    exact Nat.lt_of_lt_of_le hpos (shareBeginning_iff.mp hshare)
  · intro hpos
    exact ⟨1, Nat.one_pos, shareBeginning_iff.mpr hpos⟩

theorem applies_nearby_iff :
    nearby.Applies missing candidate ↔
      distance missing candidate ≤ max missing.length candidate.length / 3 := by
  rw [Applies, distance_eq]

def all : List Closeness :=
  [.same, .containing, .contained, .beginning, .nearby]

theorem mem_all (rule : Closeness) : rule ∈ all := by
  cases rule <;> decide

instance (missing candidate : List Point) : DecidablePred (Applies missing candidate)
  | .same => inferInstanceAs (Decidable (missing = candidate))
  | .containing => decidable_of_iff _ Text.contains_iff_infix
  | .contained => decidable_of_iff _ Text.contains_iff_infix
  | .beginning => decidable_of_iff _ applies_beginning_iff.symm
  | .nearby => decidable_of_iff _ applies_nearby_iff.symm

instance (missing candidate : List Point) (count : Nat) :
    Decidable (NoneBefore missing candidate count) :=
  decidable_of_iff (∀ earlier ∈ all, earlier.rank < count → ¬ earlier.Applies missing candidate)
    ⟨fun h earlier => h earlier (mem_all earlier), fun h earlier _ => h earlier⟩

instance (missing candidate : List Point) (rule : Closeness) :
    Decidable (rule.Decides missing candidate) :=
  inferInstanceAs (Decidable (_ ∧ _))

end Closeness

open Closeness

variable {missing candidate : List Point} {rule : Closeness}

/-- Either the first rule that applies sets the score, or none does and it is zero. -/
theorem scoreExact_cases (missing candidate : List Point) :
    (∃ rule : Closeness, rule.Decides missing candidate ∧
        scoreExact missing candidate = rule.worth missing candidate) ∨
      (∀ rule : Closeness, ¬ rule.Applies missing candidate) ∧ scoreExact missing candidate = 0 := by
  -- Each branch that is left adds its rule to those that do not apply, which `hnone` keeps.
  have hnone := noneBefore_zero missing candidate
  unfold scoreExact
  split
  · next h => exact Or.inl ⟨.same, ⟨h, hnone⟩, rfl⟩
  · next h =>
    replace hnone := hnone.step .same h
    split
    · next h => exact Or.inl ⟨.containing, ⟨Text.contains_iff_infix.mp h, hnone⟩, rfl⟩
    · next h =>
      rw [Text.contains_iff_infix] at h
      replace hnone := hnone.step .containing h
      split
      · next h => exact Or.inl ⟨.contained, ⟨Text.contains_iff_infix.mp h, hnone⟩, rfl⟩
      · next h =>
        rw [Text.contains_iff_infix] at h
        replace hnone := hnone.step .contained h
        dsimp only
        split
        · next h =>
          refine Or.inl ⟨.beginning, ⟨applies_beginning_iff.mpr h, hnone⟩, ?_⟩
          rw [worth, Int.mul_comm]
        · next h =>
          rw [← applies_beginning_iff] at h
          replace hnone := hnone.step .beginning h
          split
          · next h =>
            refine Or.inl ⟨.nearby, ⟨applies_nearby_iff.mpr h, hnone⟩, ?_⟩
            rw [worth, distance_eq, Int.mul_comm]
          · next h =>
            rw [← applies_nearby_iff] at h
            replace hnone := hnone.step .nearby h
            refine Or.inr ⟨fun rule => hnone rule ?_, rfl⟩
            cases rule <;> decide

theorem scoreExact_of_decides (h : rule.Decides missing candidate) :
    scoreExact missing candidate = rule.worth missing candidate := by
  obtain ⟨first, hfirst, hscore⟩ | ⟨hnone, -⟩ := scoreExact_cases missing candidate
  · rwa [h.unique hfirst]
  · exact absurd h.1 (hnone rule)

/-- A rule that is tried before another one gives more, unless a shared beginning has outgrown it. -/
theorem worth_lt_worth {x y : List Point} {earlier later : Closeness}
    (hrank : earlier.rank < later.rank)
    (hshort : later = .beginning → ¬ ShareBeginning earlier.outgrownAt missing y) :
    later.worth missing y < earlier.worth missing x := by
  rw [shareBeginning_iff, Nat.not_le] at hshort
  cases earlier <;> cases later <;> simp [rank] at hrank <;>
    simp [worth, outgrownAt] at hshort ⊢ <;> omega

/-- Every rule gives a positive score, but for many edits. -/
theorem worth_pos_iff :
    0 < rule.worth missing candidate ↔ ¬ (rule = .nearby ∧ 30 ≤ editDistance missing candidate) := by
  cases rule <;> simp [worth] <;> omega

theorem scoreExact_pos_iff : 0 < scoreExact missing candidate ↔
    (∃ rule : Closeness, rule.Applies missing candidate) ∧
      ¬ (Closeness.nearby.Decides missing candidate ∧ 30 ≤ editDistance missing candidate) := by
  obtain ⟨first, hfirst, hscore⟩ | ⟨hnone, hscore⟩ := scoreExact_cases missing candidate
  · rw [hscore, worth_pos_iff]
    constructor
    · intro hfew
      exact ⟨⟨first, hfirst.1⟩, fun hmany => hfew ⟨hfirst.unique hmany.1, hmany.2⟩⟩
    · rintro ⟨-, hfew⟩ ⟨rfl, hmany⟩
      exact hfew ⟨hfirst, hmany⟩
  · rw [hscore]
    constructor
    · intro hpos
      cases hpos
    · rintro ⟨⟨rule, happlies⟩, -⟩
      exact absurd happlies (hnone rule)

/-! The list of candidates -/

section

variable {unknown : Text} {keys : List Text} {caseSensitive : Bool} {top : Int}

theorem mem_ranked {c : Candidate} : c ∈ ranked unknown keys caseSensitive ↔
    c.key ∈ keys ∧ c.score = score unknown c.key caseSensitive ∧ 0 < c.score := by
  rw [ranked, List.mem_mergeSort, List.mem_filter, List.mem_map, decide_eq_true_eq]
  constructor
  · rintro ⟨⟨key, hkey, rfl⟩, hpos⟩
    exact ⟨hkey, rfl, hpos⟩
  · rintro ⟨hkey, hscore, hpos⟩
    exact ⟨⟨c.key, hkey, by rw [← hscore]⟩, hpos⟩

theorem pairwise_ranked (unknown : Text) (keys : List Text) (caseSensitive : Bool) :
    (ranked unknown keys caseSensitive).Pairwise fun a b => b.score ≤ a.score := by
  have hsorted := @List.pairwise_mergeSort Candidate (fun a b => b.score ≤ a.score)
    (by intro a b c; simp; omega) (by intro a b; simp; omega)
    ((keys.map fun key => Candidate.mk key (score unknown key caseSensitive)).filter
      fun c => 0 < c.score)
  exact hsorted.imp of_decide_eq_true

theorem suggest_sublist (unknown : Text) (keys : List Text) (caseSensitive : Bool) (top : Int) :
    (suggest unknown keys caseSensitive top).Sublist (ranked unknown keys caseSensitive) := by
  rw [suggest]
  split
  · exact List.take_sublist _ _
  · exact List.Sublist.refl _

/-- Nothing is cut off if nothing is to be cut off or there is room for all keys. -/
theorem suggest_eq_ranked (htop : top ≤ 0 ∨ (keys.length : Int) ≤ top) :
    suggest unknown keys caseSensitive top = ranked unknown keys caseSensitive := by
  rw [suggest]
  split
  · next hpos =>
    apply List.take_of_length_le
    rw [ranked, List.length_mergeSort]
    have hfilter := List.length_filter_le (fun c : Candidate => decide (0 < c.score))
      (keys.map fun key => Candidate.mk key (score unknown key caseSensitive))
    rw [List.length_map] at hfilter
    omega
  · rfl

/-- The better of two keys stands before the other one. -/
theorem pairwise_suggest {x y : Text}
    (h : score unknown y caseSensitive < score unknown x caseSensitive) :
    (suggest unknown keys caseSensitive top).Pairwise fun a b => a.key = y → b.key ≠ x := by
  have hsub := suggest_sublist unknown keys caseSensitive top
  apply ((pairwise_ranked unknown keys caseSensitive).sublist hsub).imp_of_mem
  intro a b ha hb hle hy hx
  obtain ⟨-, hascore, -⟩ := mem_ranked.mp (hsub.mem ha)
  obtain ⟨-, hbscore, -⟩ := mem_ranked.mp (hsub.mem hb)
  rw [hascore, hbscore, hx, hy] at hle
  omega

end

/-- The scores keep to the order of the rules as long as a shared beginning is shorter than the length
at which it outgrows the earlier rule; and the list of candidates keeps to the scores. -/
theorem suggest_in_order_of_rules {unknown x y : Text} {caseSensitive : Bool}
    {earlier later : Closeness}
    (hx : earlier.Decides (comparable caseSensitive unknown) (comparable caseSensitive x))
    (hy : later.Decides (comparable caseSensitive unknown) (comparable caseSensitive y))
    (hrank : earlier.rank < later.rank)
    (hshort : later = .beginning → ¬ ShareBeginning earlier.outgrownAt
      (comparable caseSensitive unknown) (comparable caseSensitive y)) :
    score unknown y caseSensitive < score unknown x caseSensitive ∧
      ∀ keys top,
        (suggest unknown keys caseSensitive top).Pairwise (fun a b => a.key = y → b.key ≠ x) ∧
        (x ∈ keys → top ≤ 0 ∨ (keys.length : Int) ≤ top →
          ⟨x, score unknown x caseSensitive⟩ ∈ suggest unknown keys caseSensitive top) := by
  have hscores : score unknown y caseSensitive < score unknown x caseSensitive := by
    rw [score, score, scoreExact_of_decides hx, scoreExact_of_decides hy]
    exact worth_lt_worth hrank hshort
  refine ⟨hscores, fun keys top => ⟨pairwise_suggest hscores, fun hkey htop => ?_⟩⟩
  rw [suggest_eq_ranked htop, mem_ranked]
  refine ⟨hkey, rfl, ?_⟩
  rw [score, scoreExact_of_decides hx, worth_pos_iff]
  -- Only the last rule can give nothing, and another one comes after this one.
  rintro ⟨rfl, -⟩
  cases later <;> simp [rank] at hrank

/-- A key that is contained comes before one that shares a beginning of five letters. -/
theorem suggest_in_order_home :
    let unknown : Text := "home.title"
    let part : Text := "title"
    let other : Text := "home.name"
    Closeness.contained.Decides unknown.toList part.toList ∧
      Closeness.beginning.Decides unknown.toList other.toList ∧
      ¬ ShareBeginning Closeness.contained.outgrownAt unknown.toList other.toList ∧
      score unknown other true < score unknown part true ∧
      (suggest unknown [other, part]).Pairwise fun a b => a.key = other → b.key ≠ part := by
  intro unknown part other
  have hpart : Closeness.contained.Decides unknown.toList part.toList := by
    decide
  have hother : Closeness.beginning.Decides unknown.toList other.toList := by
    decide
  have hshort : ¬ ShareBeginning Closeness.contained.outgrownAt unknown.toList other.toList := by
    decide
  obtain ⟨hscores, hlist⟩ :=
    @suggest_in_order_of_rules unknown part other true .contained .beginning hpart hother
      (by decide) fun _ => hshort
  exact ⟨hpart, hother, hshort, hscores, (hlist _ _).1⟩

/-- A beginning of 21 letters is worth more than being contained. -/
theorem suggest_prefers_long_beginning :
    let front := Text.ofList (List.replicate 21 (.char 'a'))
    Closeness.contained.Decides (front ++ "b").toList (Text.ofString "b").toList ∧
      Closeness.beginning.Decides (front ++ "b").toList (front ++ "c").toList ∧
      score (front ++ "b") "b" true = 700 ∧ score (front ++ "b") (front ++ "c") true = 710 ∧
      (suggest (front ++ "b") ["b", front ++ "c"] true 0).Pairwise
        fun a b => a.key = Text.ofString "b" → b.key ≠ front ++ "c" := by
  intro front
  have hcontained : score (front ++ "b") "b" true = 700 := by decide
  have hbeginning : score (front ++ "b") (front ++ "c") true = 710 := by decide
  refine ⟨by decide, by decide, hcontained, hbeginning, pairwise_suggest ?_⟩
  rw [hcontained, hbeginning]
  decide

/-- A score is positive if and only if a rule applies and it is not for thirty edits or more; without a
rule it is zero. -/
theorem suggest_keeps_iff (unknown candidate : Text) (caseSensitive : Bool) :
    (0 < score unknown candidate caseSensitive ↔
        (∃ rule : Closeness,
          rule.Applies (comparable caseSensitive unknown) (comparable caseSensitive candidate)) ∧
        ¬ (Closeness.nearby.Decides (comparable caseSensitive unknown)
            (comparable caseSensitive candidate) ∧
          30 ≤ editDistance (comparable caseSensitive unknown)
            (comparable caseSensitive candidate))) ∧
      ((∀ rule : Closeness,
          ¬ rule.Applies (comparable caseSensitive unknown) (comparable caseSensitive candidate)) →
        score unknown candidate caseSensitive = 0) ∧
      (Closeness.nearby.Decides (comparable caseSensitive unknown)
          (comparable caseSensitive candidate) →
        score unknown candidate caseSensitive =
          300 - 10 * editDistance (comparable caseSensitive unknown)
            (comparable caseSensitive candidate)) ∧
      ∀ keys top, candidate ∈ keys → top ≤ 0 ∨ (keys.length : Int) ≤ top →
        (⟨candidate, score unknown candidate caseSensitive⟩ ∈ suggest unknown keys caseSensitive top ↔
          0 < score unknown candidate caseSensitive) := by
  refine ⟨scoreExact_pos_iff, fun hnone => ?_, fun hnearby => scoreExact_of_decides hnearby,
    fun keys top hkey htop => ?_⟩
  · obtain ⟨first, hfirst, -⟩ | ⟨-, hscore⟩ :=
      scoreExact_cases (comparable caseSensitive unknown) (comparable caseSensitive candidate)
    · exact absurd hfirst.1 (hnone first)
    · exact hscore
  · rw [suggest_eq_ranked htop, mem_ranked]
    exact ⟨fun h => h.2.2, fun hpos => ⟨hkey, rfl, hpos⟩⟩

/-- Thirty edits of ninety letters. -/
theorem suggest_drops_long_key :
    let missing := List.replicate 30 (Point.char 'a') ++ List.replicate 60 (Point.char 'c')
    let key := List.replicate 30 (Point.char 'b') ++ List.replicate 60 (Point.char 'c')
    Closeness.nearby.Applies missing key ∧
      score (Text.ofList missing) (Text.ofList key) true = 0 ∧
      suggest (Text.ofList missing) [Text.ofList key] true 0 = [] := by
  intro missing key
  have hdistance : distance missing key = 30 := by decide +kernel
  have happlies : Closeness.nearby.Applies missing key := by
    rw [applies_nearby_iff, hdistance]
    decide
  have hdecides : Closeness.nearby.Decides missing key := ⟨happlies, by decide⟩
  have hscore : score (Text.ofList missing) (Text.ofList key) true = 0 := by
    rw [score, comparable, comparable, if_pos rfl, if_pos rfl, Text.toList_ofList,
      Text.toList_ofList, scoreExact_of_decides hdecides, worth, ← distance_eq, hdistance]
    rfl
  refine ⟨happlies, hscore, ?_⟩
  rw [suggest_eq_ranked (Or.inl (Int.le_refl 0)), List.eq_nil_iff_forall_not_mem]
  intro c hc
  obtain ⟨hkey, hc, hpos⟩ := mem_ranked.mp hc
  rw [hc, List.mem_singleton.mp hkey, hscore] at hpos
  cases hpos

end LocaleKeys.Suggest
