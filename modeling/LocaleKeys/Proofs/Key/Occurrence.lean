import LocaleKeys.Key.Path
import LocaleKeys.Proofs.Json.Readable

/-!
The member names of a JSON text in text order, read off its syntax tree: each with its path, the
offset of its opening quote, and whether the same object has had it before. Their offsets grow, and
each name is spelled at its offset. Where no name is repeated, all conversions of the tree agree.
-/

namespace LocaleKeys.Key

open Json (At Cursor Spells Listed Member Leaf Container Reads)
open Text (Position)

/-- A member name where it stands. -/
structure Occurrence where
  name : Text
  path : Text
  offset : Nat
  repeated : Bool
  deriving DecidableEq, Repr

/-- The line and the column of a member name. -/
def Occurrence.place (text : List Point) (o : Occurrence) : Position :=
  Position.ofOffset text o.offset

mutual

/-- The member names in a value that stands at `base`. -/
def occurrences (base : Text) : Json.Tree → List Occurrence
  | .scalar _ => []
  | .arr elements => elementOccurrences base 0 elements
  | .obj members => memberOccurrences base [] members

/-- The member names in the elements from the `i`-th on. -/
def elementOccurrences (base : Text) (i : Nat) : List Json.Tree → List Occurrence
  | [] => []
  | tree :: rest => occurrences (index base i) tree ++ elementOccurrences base (i + 1) rest

/-- The names of members that follow those named in `before`, and the names in their values. -/
def memberOccurrences (base : Text) (before : List Text) :
    List (Json.Name × Json.Tree) → List Occurrence
  | [] => []
  | (name, tree) :: rest =>
    ⟨name.text, join base name.text, name.offset, before.contains name.text⟩ ::
      (occurrences (join base name.text) tree ++
        memberOccurrences base (before ++ [name.text]) rest)

end

/-! Repeats -/

mutual

theorem toJson_eq_of_not_repeated {base : Text} :
    (tree : Json.Tree) → (∀ o ∈ occurrences base tree, o.repeated = false) →
      tree.toJson .keepFirst = tree.toJson .keepLast
  | .scalar _, _ => rfl
  | .arr elements, h => by
      simp only [occurrences] at h
      simp only [Json.Tree.toJson, toJsonList_eq_of_not_repeated elements h]
  | .obj members, h => by
      simp only [occurrences] at h
      simp only [Json.Tree.toJson, toJsonMembers_eq_of_not_repeated [] members h]

theorem toJsonList_eq_of_not_repeated {base : Text} {i : Nat} :
    (trees : List Json.Tree) → (∀ o ∈ elementOccurrences base i trees, o.repeated = false) →
      Json.Tree.toJsonList .keepFirst trees = Json.Tree.toJsonList .keepLast trees
  | [], _ => rfl
  | tree :: trees, h => by
      simp only [elementOccurrences, List.forall_mem_append] at h
      simp only [Json.Tree.toJsonList, toJson_eq_of_not_repeated tree h.1,
        toJsonList_eq_of_not_repeated trees h.2]

/-- A name that is new goes to the end, whichever member is kept. -/
theorem toJsonMembers_eq_of_not_repeated {base : Text} (done : List (Text × Json)) :
    (members : List (Json.Name × Json.Tree)) →
      (∀ o ∈ memberOccurrences base (Assoc.keys done) members, o.repeated = false) →
      Json.Tree.toJsonMembers .keepFirst done members =
        Json.Tree.toJsonMembers .keepLast done members
  | [], _ => rfl
  | (name, tree) :: members, h => by
      simp only [memberOccurrences, List.forall_mem_cons, List.forall_mem_append] at h
      obtain ⟨hnew, htree, hmembers⟩ := h
      have habsent : name.text ∉ Assoc.keys done := by simpa using hnew
      have hvalue := toJson_eq_of_not_repeated tree htree
      have hkeys : Assoc.keys done ++ [name.text] =
          Assoc.keys (done ++ [(name.text, tree.toJson .keepLast)]) := by simp [Assoc.keys]
      rw [hkeys] at hmembers
      simp only [Json.Tree.toJsonMembers, Json.Repeats.add_of_not_mem _ habsent, hvalue]
      exact toJsonMembers_eq_of_not_repeated _ members hmembers

end

/-! Places -/

/-- A name is spelled between quotes at its offset, and a colon follows it. -/
def Occurrence.Stands (text : List Point) (o : Occurrence) : Prop :=
  ∃ raw rest, text.drop o.offset = Point.char '"' :: (raw ++ Point.char '"' :: rest) ∧
    Spells raw o.name.toList ∧
    (rest.dropWhile Json.isSpace).head? = some (Point.char ':')

/-- Names that stand between two offsets of a text, in text order. -/
structure InOrder (text : List Point) (low high : Nat) (os : List Occurrence) : Prop where
  sorted : os.Pairwise fun a b => a.offset < b.offset
  between : ∀ o ∈ os, low ≤ o.offset ∧ o.offset < high
  stands : ∀ o ∈ os, o.Stands text

variable {text : List Point} {low middle high : Nat} {xs ys : List Occurrence}

theorem InOrder.nil (text : List Point) (low high : Nat) : InOrder text low high [] :=
  ⟨List.Pairwise.nil, by simp, by simp⟩

theorem InOrder.mono {low' high' : Nat} (h : InOrder text low high xs) (hlow : low' ≤ low)
    (hhigh : high ≤ high') : InOrder text low' high' xs := by
  refine ⟨h.sorted, ?_, h.stands⟩
  intro o ho
  have := h.between o ho
  omega

theorem InOrder.append (first : InOrder text low middle xs) (second : InOrder text middle high ys)
    (hlow : low ≤ middle) (hhigh : middle ≤ high) : InOrder text low high (xs ++ ys) := by
  refine ⟨List.pairwise_append.mpr ⟨first.sorted, second.sorted, ?_⟩, ?_, ?_⟩
  · intro a ha b hb
    have := first.between a ha
    have := second.between b hb
    omega
  · intro o ho
    cases List.mem_append.mp ho with
    | inl h =>
        have := first.between o h
        omega
    | inr h =>
        have := second.between o h
        omega
  · intro o ho
    cases List.mem_append.mp ho with
    | inl h => exact first.stands o h
    | inr h => exact second.stands o h

/-- The names in a phrase stand in order between its ends. -/
def Places (text : List Point) (item : Cursor → Json.Tree → Cursor → Prop) : Prop :=
  ∀ {start stop : Cursor} {tree : Json.Tree}, item start tree stop → At text start →
    ∀ base, InOrder text start.offset stop.offset (occurrences base tree)

theorem places_leaf : Places text Leaf := by
  intro start stop tree h _ base
  cases h with
  | string h | literal h => exact InOrder.nil text _ _

section Items

variable {item : Cursor → Json.Tree → Cursor → Prop} {start stop : Cursor}
  (hitem : Places text item)
  (forward : ∀ {start tree stop}, item start tree stop → start.Reaches stop)

include hitem forward

theorem places_elements {trees : List Json.Tree} (h : Listed ']' item start trees stop)
    (hat : At text start) (base : Text) (i : Nat) :
    InOrder text start.offset stop.offset (elementOccurrences base i trees) := by
  induction h generalizing i with
  | @last start stop tree after o hfirst hclose =>
      have hend := (Cursor.reaches_token hclose).offset_le
      simp only [elementOccurrences, List.append_nil]
      exact (hitem hfirst hat (index base i)).mono le_rfl hend
  | @more start stop final tree trees after o hfirst hcomma others ih =>
      have hcommaEnd := (Cursor.reaches_token hcomma).trans (Cursor.reaches_skip _)
      have hnext := (hat.reaches (forward hfirst)).reaches hcommaEnd
      have hrest := (ih hnext (i + 1)).mono hcommaEnd.offset_le le_rfl
      have hstop := (hcommaEnd.trans (others.reaches forward)).offset_le
      exact (hitem hfirst hat (index base i)).append hrest (forward hfirst).offset_le hstop

theorem places_member {member : Json.Name × Json.Tree} (h : Member item start member stop)
    (hat : At text start) (base : Text) (repeated : Bool) :
    InOrder text start.offset stop.offset
      (⟨member.1.text, join base member.1.text, member.1.offset, repeated⟩ ::
        occurrences (join base member.1.text) member.2) := by
  cases h with
  | @mk raw cs afterName afterColon offset o tree stop hname colon hvalue =>
      have hhead : (afterName.dropWhile Json.isSpace).head? = some (Point.char ':') :=
        congrArg (fun c : Cursor => c.rest.head?) colon
      have hbehind : Cursor.Reaches ⟨Point.char '"' :: (raw ++ Point.char '"' :: afterName), offset⟩
          (Cursor.skip ⟨afterColon, o + 1⟩) :=
        ((Leaf.string hname).reaches.trans (Cursor.reaches_token colon)).trans
          (Cursor.reaches_skip _)
      have hlow : offset + 1 ≤ (Cursor.skip ⟨afterColon, o + 1⟩).offset := by
        have := ((Cursor.reaches_token colon).trans (Cursor.reaches_skip _)).offset_le
        simp only at this
        omega
      have hhigh := (forward hvalue).offset_le
      have hinner := hitem hvalue (hat.reaches hbehind) (join base (Text.ofList cs))
      have hstands : Occurrence.Stands text ⟨Text.ofList cs, join base (Text.ofList cs), offset,
          repeated⟩ := ⟨raw, afterName, hat, by simpa using hname, hhead⟩
      have hsingle : InOrder text offset (offset + 1) [⟨Text.ofList cs,
          join base (Text.ofList cs), offset, repeated⟩] :=
        ⟨List.pairwise_singleton _ _, by simp, by simpa using hstands⟩
      exact hsingle.append (hinner.mono hlow le_rfl) (Nat.le_succ _) (hlow.trans hhigh)

theorem places_members {members : List (Json.Name × Json.Tree)}
    (h : Listed '}' (Member item) start members stop) (hat : At text start) (base : Text)
    (before : List Text) :
    InOrder text start.offset stop.offset (memberOccurrences base before members) := by
  induction h generalizing before with
  | @last start stop member after o hfirst hclose =>
      have hend := (Cursor.reaches_token hclose).offset_le
      simp only [memberOccurrences, List.append_nil]
      exact (places_member hitem forward hfirst hat base _).mono le_rfl hend
  | @more start stop final member members after o hfirst hcomma others ih =>
      have hforward := Member.reaches forward hfirst
      have hcommaEnd := (Cursor.reaches_token hcomma).trans (Cursor.reaches_skip _)
      have hnext := (hat.reaches hforward).reaches hcommaEnd
      have hrest := (ih hnext (before ++ [member.1.text])).mono hcommaEnd.offset_le le_rfl
      have hstop := (hcommaEnd.trans (others.reaches (Member.reaches forward))).offset_le
      exact (places_member hitem forward hfirst hat base _).append hrest hforward.offset_le hstop

theorem places_container : Places text (Container item) := by
  intro start stop tree h hat base
  have opened := fun c s o => (Cursor.Reaches.next c s o).trans (Cursor.reaches_skip _)
  cases h with
  | emptyArray h | emptyObject h => exact InOrder.nil text _ _
  | array h =>
      exact (places_elements hitem forward h (hat.reaches (opened _ _ _)) base 0).mono
        (opened _ _ _).offset_le le_rfl
  | object h =>
      exact (places_members hitem forward h (hat.reaches (opened _ _ _)) base []).mono
        (opened _ _ _).offset_le le_rfl

end Items

theorem places_reads (depth : Nat) : Places text (Reads depth) := by
  induction depth with
  | zero => exact places_leaf
  | succ depth ih =>
      intro start stop tree h hat base
      cases h with
      | inl leaf => exact places_leaf leaf hat base
      | inr container => exact places_container ih Json.Reads.reaches container hat base

end LocaleKeys.Key
