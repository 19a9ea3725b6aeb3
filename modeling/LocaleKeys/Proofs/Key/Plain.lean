import LocaleKeys.Proofs.Key.Anchor

/-!
Texts with plain member names, which are not empty and have no point and no bracket, and of which no
object has one twice. Then the path of a member tells all the steps to it, so no two members share
one, and no member looks like an element of an array: a leaf is located at the innermost member
around it.
-/

namespace LocaleKeys.Key

open Text (Position)

/-- A name that a path tells from the steps before and behind it: there is something of it, and no
sign in it that starts a step. -/
structure IsStepName (name : Text) : Prop where
  ne_empty : name ≠ ""
  no_sign : ∀ c ∈ name.toList, c ≠ '.' ∧ c ≠ '['

def IsPlain (name : Text) : Prop :=
  name ≠ "" ∧ ∀ c ∈ name.toList, c ≠ '.' ∧ c ≠ '[' ∧ c ≠ ']'

theorem IsPlain.isStepName {name : Text} (h : IsPlain name) : IsStepName name :=
  ⟨h.1, fun c hc => ⟨(h.2 c hc).1, (h.2 c hc).2.1⟩⟩

-- A search for the second part may find an instance that goes through all characters there are.
instance (name : Text) : Decidable (IsPlain name) :=
  @instDecidableAnd _ _ _ (List.decidableBAll _ name.toList)

instance (name : Text) : Decidable (IsStepName name) :=
  @decidable_of_iff _ (name ≠ "" ∧ ∀ c ∈ name.toList, c ≠ '.' ∧ c ≠ '[')
    ⟨fun h => ⟨h.1, h.2⟩, fun h => ⟨h.ne_empty, h.no_sign⟩⟩
    (@instDecidableAnd _ _ _ (List.decidableBAll _ name.toList))

/-- A plain name that its object has not had before. -/
def Occurrence.IsPlain (o : Occurrence) : Prop :=
  o.repeated = false ∧ Key.IsPlain o.name

instance (o : Occurrence) : Decidable o.IsPlain :=
  inferInstanceAs (Decidable (_ ∧ _))

/-! One step -/

/-- A text whose first separator is known is taken up to it. -/
theorem takeWhile_append_of_head {p : Point → Bool} {front rest : List Point}
    (hfront : ∀ c ∈ front, p c = true) (hrest : ∀ c ∈ rest.head?, p c = false) :
    (front ++ rest).takeWhile p = front := by
  have hnone : rest.takeWhile p = [] := by
    cases rest with
    | nil => rfl
    | cons c rest => rw [List.takeWhile_cons, hrest c rfl, if_neg Bool.false_ne_true]
  rw [List.takeWhile_append_of_pos hfront, hnone, List.append_nil]

/-- Texts that are one text up to their first separators are the same up to there. -/
theorem eq_of_append_eq {p : Point → Bool} {a b s t : List Point} (ha : ∀ c ∈ a, p c = true)
    (hb : ∀ c ∈ b, p c = true) (hs : ∀ c ∈ s.head?, p c = false) (ht : ∀ c ∈ t.head?, p c = false)
    (h : a ++ s = b ++ t) : a = b := by
  rw [← takeWhile_append_of_head ha hs, h, takeWhile_append_of_head hb ht]

/-- A path behind another. -/
def Beyond (p q : Text) : Prop :=
  (∃ r, q = p ++ "." ++ r) ∨ ∃ r, q = p ++ "[" ++ r

theorem Beyond.below {p q : Text} (h : Beyond p q) : Below p q :=
  Or.inr h

theorem Beyond.ne {p q : Text} (h : Beyond p q) : q ≠ p := by
  rintro rfl
  obtain ⟨r, hr⟩ | ⟨r, hr⟩ := h
  all_goals
    have hlength := congrArg (fun path => path.toList.length) hr
    simp at hlength

/-- A path behind another goes on with a point or a bracket. -/
theorem Below.toList_eq {p q : Text} (h : Below p q) :
    ∃ s, q.toList = p.toList ++ s ∧ ∀ c ∈ s.head?, c = '.' ∨ c = '[' := by
  obtain rfl | ⟨r, rfl⟩ | ⟨r, rfl⟩ := h
  · exact ⟨[], (List.append_nil _).symm, nofun⟩
  · exact ⟨Point.char '.' :: r.toList, by simp [Text.toList_append], by simp⟩
  · exact ⟨Point.char '[' :: r.toList, by simp [Text.toList_append], by simp⟩

theorem exists_toList_join (base : Text) :
    ∃ stem, ∀ name, (join base name).toList = stem ++ name.toList := by
  by_cases hbase : base = ""
  · exact ⟨[], fun name => by rw [join, if_pos hbase, List.nil_append]⟩
  · exact ⟨base.toList ++ [Point.char '.'], fun name => by simp [join_of_ne hbase, Text.toList_append]⟩

variable {base q name other : Text} {i j : Nat}

/-- Members of one object have no path in common, nor have their values. -/
theorem eq_of_below_join (hname : IsStepName name) (hother : IsStepName other)
    (h : Below (join base name) q) (h' : Below (join base other) q) : name = other := by
  obtain ⟨stem, hstem⟩ := exists_toList_join base
  obtain ⟨s, hs, hsHead⟩ := h.toList_eq
  obtain ⟨t, ht, htHead⟩ := h'.toList_eq
  rw [hs, hstem, hstem, List.append_assoc, List.append_assoc] at ht
  have hends : ∀ {r : List Point}, (∀ c ∈ r.head?, c = '.' ∨ c = '[') →
      ∀ c ∈ r.head?, decide (c ≠ '.' ∧ c ≠ '[') = false := by
    intro r hr c hc
    obtain rfl | rfl := hr c hc <;> rfl
  have hinside : ∀ {n : Text}, IsStepName n →
      ∀ c ∈ n.toList, decide (c ≠ '.' ∧ c ≠ '[') = true := by
    intro n hn c hc
    exact decide_eq_true (hn.no_sign c hc)
  exact Text.toList_injective (eq_of_append_eq (hinside hname) (hinside hother) (hends hsHead)
    (hends htHead) (List.append_cancel_left ht))

/-- Elements of one array have no path in common. -/
theorem eq_of_below_index (h : Below (index base i) q) (h' : Below (index base j) q) : i = j := by
  obtain ⟨s, hs, -⟩ := h.toList_eq
  obtain ⟨t, ht, -⟩ := h'.toList_eq
  have hclosed : ∀ {n : Nat}, ∀ c ∈ Text.digits n, decide (c ≠ ']') = true := by
    intro n c hc
    refine decide_eq_true ?_
    rintro rfl
    exact absurd (Number.isDigit_of_mem_toDigits hc) (by decide)
  have hends : ∀ {r : List Point}, ∀ c ∈ (Point.char ']' :: r).head?, decide (c ≠ ']') = false := by
    intro r c hc
    obtain rfl := Option.some.inj hc
    rfl
  rw [hs, toList_index, toList_index] at ht
  simp only [List.append_assoc, List.cons_append, List.nil_append] at ht
  have hrest := List.tail_eq_of_cons_eq (List.append_cancel_left ht)
  have hdigits : Text.digits i = Text.digits j :=
    eq_of_append_eq hclosed hclosed hends hends hrest
  rw [← Number.ofDigits_toDigits i, hdigits, Number.ofDigits_toDigits]

/-! All steps -/

mutual

theorem beyond_of_mem_occurrences {base : Text} (hbase : base ≠ "") :
    (tree : Json.Tree) → (∀ o ∈ occurrences base tree, o.IsPlain) →
      ∀ o ∈ occurrences base tree, Beyond base o.path
  | .scalar _, _, o, ho => by cases ho
  | .arr elements, hplain, o, ho => by
      obtain ⟨j, -, hbelow⟩ := index_of_mem_elementOccurrences 0 elements hplain o ho
      obtain ⟨r, hr⟩ := hbelow.extends
      exact Or.inr ⟨Text.ofNat j ++ "]" ++ r, by rw [hr, index_eq, Text.append_assoc]⟩
  | .obj members, hplain, o, ho => by
      obtain ⟨name, -, -, hbelow⟩ := name_of_mem_memberOccurrences [] members hplain o ho
      obtain ⟨r, hr⟩ := hbelow.extends
      exact Or.inl ⟨name ++ r, by rw [hr, join_of_ne hbase, Text.append_assoc]⟩

theorem index_of_mem_elementOccurrences {base : Text} (i : Nat) :
    (trees : List Json.Tree) → (∀ o ∈ elementOccurrences base i trees, o.IsPlain) →
      ∀ o ∈ elementOccurrences base i trees, ∃ j, i ≤ j ∧ Below (index base j) o.path
  | [], _, o, ho => by cases ho
  | tree :: trees, hplain, o, ho => by
      rw [elementOccurrences] at hplain ho
      obtain ⟨hhere, hlater⟩ := List.forall_mem_append.mp hplain
      cases List.mem_append.mp ho with
      | inl here =>
          have hbeyond := beyond_of_mem_occurrences (index_ne_empty base i) tree hhere o here
          exact ⟨i, le_rfl, hbeyond.below⟩
      | inr later =>
          obtain ⟨j, hj, hbelow⟩ := index_of_mem_elementOccurrences (i + 1) trees hlater o later
          exact ⟨j, Nat.le_of_succ_le hj, hbelow⟩

theorem name_of_mem_memberOccurrences {base : Text} (before : List Text) :
    (members : List (Json.Name × Json.Tree)) →
      (∀ o ∈ memberOccurrences base before members, o.IsPlain) →
      ∀ o ∈ memberOccurrences base before members,
        ∃ name, IsPlain name ∧ name ∉ before ∧ Below (join base name) o.path
  | [], _, o, ho => by cases ho
  | (name, tree) :: members, hplain, o, ho => by
      rw [memberOccurrences] at hplain ho
      obtain ⟨⟨hnew, hname⟩, hinner⟩ := List.forall_mem_cons.mp hplain
      obtain ⟨hhere, hlater⟩ := List.forall_mem_append.mp hinner
      have hbefore : name.text ∉ before := by simpa using hnew
      cases ho with
      | head _ => exact ⟨name.text, hname, hbefore, Or.inl rfl⟩
      | tail _ ho =>
          cases List.mem_append.mp ho with
          | inl here =>
              have hjoin : join base name.text ≠ "" := join_ne_empty (Or.inr hname.1)
              have hbeyond := beyond_of_mem_occurrences hjoin tree hhere o here
              exact ⟨name.text, hname, hbefore, hbeyond.below⟩
          | inr later =>
              obtain ⟨other, hother, habsent, hbelow⟩ :=
                name_of_mem_memberOccurrences (before ++ [name.text]) members hlater o later
              exact ⟨other, hother, fun h => habsent (List.mem_append_left _ h), hbelow⟩

end

mutual

/-- No two plain names share a path. -/
theorem pairwise_path_occurrences (base : Text) :
    (tree : Json.Tree) → (∀ o ∈ occurrences base tree, o.IsPlain) →
      (occurrences base tree).Pairwise fun a b => a.path ≠ b.path
  | .scalar _, _ => List.Pairwise.nil
  | .arr elements, hplain => pairwise_path_elementOccurrences base 0 elements hplain
  | .obj members, hplain => pairwise_path_memberOccurrences base [] members hplain

theorem pairwise_path_elementOccurrences (base : Text) (i : Nat) :
    (trees : List Json.Tree) → (∀ o ∈ elementOccurrences base i trees, o.IsPlain) →
      (elementOccurrences base i trees).Pairwise fun a b => a.path ≠ b.path
  | [], _ => List.Pairwise.nil
  | tree :: trees, hplain => by
      rw [elementOccurrences] at hplain ⊢
      obtain ⟨hhere, hlater⟩ := List.forall_mem_append.mp hplain
      refine List.pairwise_append.mpr ⟨pairwise_path_occurrences _ tree hhere,
        pairwise_path_elementOccurrences base (i + 1) trees hlater, fun a ha b hb hpath => ?_⟩
      have hbelow := (beyond_of_mem_occurrences (index_ne_empty base i) tree hhere a ha).below
      obtain ⟨j, hj, hother⟩ := index_of_mem_elementOccurrences (i + 1) trees hlater b hb
      have hsame : i = j := eq_of_below_index (hpath ▸ hbelow) hother
      omega

theorem pairwise_path_memberOccurrences (base : Text) (before : List Text) :
    (members : List (Json.Name × Json.Tree)) →
      (∀ o ∈ memberOccurrences base before members, o.IsPlain) →
      (memberOccurrences base before members).Pairwise fun a b => a.path ≠ b.path
  | [], _ => List.Pairwise.nil
  | (name, tree) :: members, hplain => by
      rw [memberOccurrences, ← List.cons_append] at hplain ⊢
      obtain ⟨hmember, hlater⟩ := List.forall_mem_append.mp hplain
      obtain ⟨⟨-, hname⟩, hhere⟩ := List.forall_mem_cons.mp hmember
      have hjoin : join base name.text ≠ "" := join_ne_empty (Or.inr hname.1)
      have hbeyond := beyond_of_mem_occurrences hjoin tree hhere
      refine List.pairwise_append.mpr ⟨List.pairwise_cons.mpr
        ⟨fun o ho => (hbeyond o ho).ne.symm, pairwise_path_occurrences _ tree hhere⟩,
        pairwise_path_memberOccurrences base _ members hlater, fun a ha b hb hpath => ?_⟩
      have hbelow : Below (join base name.text) a.path := by
        cases ha with
        | head _ => exact Or.inl rfl
        | tail _ ha => exact (hbeyond a ha).below
      obtain ⟨other, hother, habsent, hbelow'⟩ :=
        name_of_mem_memberOccurrences _ members hlater b hb
      obtain rfl := eq_of_below_join hname.isStepName hother.isStepName (hpath ▸ hbelow) hbelow'
      exact habsent (List.mem_append_right _ List.mem_cons_self)

end

mutual

/-- The path of a member ends with its name. -/
theorem exists_join_of_mem_occurrences (base : Text) :
    (tree : Json.Tree) → ∀ o ∈ occurrences base tree, ∃ outer, o.path = join outer o.name
  | .scalar _, o, ho => by cases ho
  | .arr elements, o, ho => exists_join_of_mem_elementOccurrences base 0 elements o ho
  | .obj members, o, ho => exists_join_of_mem_memberOccurrences base [] members o ho

theorem exists_join_of_mem_elementOccurrences (base : Text) (i : Nat) :
    (trees : List Json.Tree) → ∀ o ∈ elementOccurrences base i trees,
      ∃ outer, o.path = join outer o.name
  | [], o, ho => by cases ho
  | tree :: trees, o, ho =>
      (List.mem_append.mp ho).elim (exists_join_of_mem_occurrences _ tree o)
        (exists_join_of_mem_elementOccurrences base (i + 1) trees o)

theorem exists_join_of_mem_memberOccurrences (base : Text) (before : List Text) :
    (members : List (Json.Name × Json.Tree)) → ∀ o ∈ memberOccurrences base before members,
      ∃ outer, o.path = join outer o.name
  | [], o, ho => by cases ho
  | (name, tree) :: members, o, ho => by
      rw [memberOccurrences] at ho
      cases ho with
      | head _ => exact ⟨base, rfl⟩
      | tail _ ho =>
          exact (List.mem_append.mp ho).elim (exists_join_of_mem_occurrences _ tree o)
            (exists_join_of_mem_memberOccurrences base _ members o)

end

/-! Locating leaves -/

variable {text : List Point} {tree : Json.Tree} {path : Text}

/-- A plain name does not end in a bracket, so no element of an array has the path of a member. -/
theorem join_ne_index (hname : IsPlain name) (outer : Text) : join outer name ≠ index path i := by
  intro h
  obtain ⟨stem, hstem⟩ := exists_toList_join outer
  have hsuffix : name.toList <:+ (path.toList ++ Point.char '[' :: Text.digits i) ++ [Point.char ']'] := by
    rw [List.append_assoc, List.cons_append, ← toList_index, ← h, hstem]
    exact List.suffix_append _ _
  obtain hempty | ⟨front, hfront, -⟩ := List.suffix_concat_iff.mp hsuffix
  · exact hname.1 (by simpa using hempty)
  · have hbracket : Point.char ']' ∈ name.toList := by simp [hfront]
    exact (hname.2 ']' hbracket).2.2 rfl

theorem get?_index_eq_none (h : Json.readTree text = .ok tree)
    (hplain : ∀ o ∈ occurrences "" tree, o.IsPlain) (path : Text) (i : Nat) :
    Assoc.get? (index path i) (scan text).positions = none := by
  by_contra hsome
  obtain ⟨place, hget⟩ := Option.ne_none_iff_exists'.mp hsome
  obtain ⟨o, ho, -, hpath, -⟩ := mem_occurrences_of_get? h hget
  obtain ⟨outer, hjoin⟩ := exists_join_of_mem_occurrences "" tree o ho
  exact join_ne_index (hplain o ho).2 outer (hjoin.symm.trans hpath)

/-- A plain name has the place that the scan has for its path. -/
theorem get?_path (h : Json.readTree text = .ok tree)
    (hplain : ∀ o ∈ occurrences "" tree, o.IsPlain) {o : Occurrence}
    (ho : o ∈ occurrences "" tree) :
    Assoc.get? o.path (scan text).positions = some (o.place text) := by
  obtain ⟨place, hget⟩ := Option.isSome_iff_exists.mp (has_positions h ho (hplain o ho).1)
  obtain ⟨other, hother, -, hpath, rfl⟩ := mem_occurrences_of_get? h hget
  have hnodup : ((occurrences "" tree).map (·.path)).Nodup :=
    List.pairwise_map.mpr (pairwise_path_occurrences "" tree hplain)
  obtain rfl := List.inj_on_of_nodup_map hnodup hother ho hpath
  exact hget

/-- Where names are plain, a leaf is located at the innermost member around it, and nowhere if there
is none. -/
theorem locate_anchored (h : Json.readTree text = .ok tree)
    (hplain : ∀ o ∈ occurrences "" tree, o.IsPlain) {a : Anchored} (ha : a ∈ anchored "" none tree) :
    (scan text).locate a.key = a.anchor.map (·.place text) := by
  have hnone := get?_index_eq_none h hplain
  obtain ⟨hanchor, is, hkey⟩ | ⟨o, ho, -, hanchor, is, hkey⟩ :=
    under_of_mem_anchored "" none tree a ha
  · rw [hanchor, hkey, (scan text).locate_element_of_none hnone, Scan.locate_empty, Option.map_none]
  · obtain ⟨outer, hjoin⟩ := exists_join_of_mem_occurrences "" tree o ho
    have hpath : o.path ≠ "" := hjoin ▸ join_ne_empty (Or.inr (hplain o ho).2.1)
    rw [hanchor, hkey, (scan text).locate_element_of_none hnone,
      (scan text).locate_of_get? hpath (get?_path h hplain ho), Option.map_some]

end LocaleKeys.Key
