import LocaleKeys.Proofs.Json.Numeral
import LocaleKeys.Proofs.Json.Readable

/-!
Readable values are read back from what is written for them, in every layout. The text that follows
is part of each statement, so the parts of a container are read one after the other.
-/

namespace LocaleKeys.Json

/-! What stands between the parts -/

/-- What is put before a part. -/
def Layout.pad (layout : Layout) (level : Nat) : List Point :=
  layout.lineStart level []

theorem Layout.lineStart_eq (layout : Layout) (level : Nat) (rest : List Point) :
    layout.lineStart level rest = layout.pad level ++ rest := by
  cases layout with
  | inline => rfl
  | lines step => simp [pad, lineStart]

theorem Layout.isSpace_of_mem_pad (layout : Layout) (level : Nat) :
    ∀ c ∈ layout.pad level, isSpace c = true := by
  intro c hc
  cases layout with
  | inline => cases hc
  | lines step =>
      simp only [pad, lineStart, List.append_nil, List.mem_cons, List.mem_replicate] at hc
      cases hc with
      | inl feed => subst feed; decide
      | inr blank => rw [blank.2]; decide

/-- What is put behind a comma. -/
def Layout.gap (layout : Layout) (level : Nat) : List Point :=
  match layout with
  | .inline => [' ']
  | .lines _ => layout.pad level

theorem Layout.separator_eq (layout : Layout) (level : Nat) (rest : List Point) :
    layout.separator level rest = Point.char ',' :: (layout.gap level ++ rest) := by
  cases layout with
  | inline => rfl
  | lines step => simp [separator, gap, lineStart_eq]

theorem Layout.isSpace_of_mem_gap (layout : Layout) (level : Nat) :
    ∀ c ∈ layout.gap level, isSpace c = true := by
  cases layout with
  | inline => simp [gap, isSpace]
  | lines step => exact isSpace_of_mem_pad _ level

theorem skipSpace_append {spaces rest : List Point} (hspaces : ∀ c ∈ spaces, isSpace c = true)
    (hrest : ∀ c ∈ rest.head?, isSpace c = false) (offset : Nat) :
    skipSpace (spaces ++ rest) offset = ⟨rest, offset + spaces.length⟩ := by
  have hstop : rest.dropWhile isSpace = rest ∧ rest.takeWhile isSpace = [] := by
    cases rest with
    | nil => exact ⟨rfl, rfl⟩
    | cons c rest => simp [hrest c rfl]
  rw [skipSpace, List.dropWhile_append_of_pos hspaces, List.takeWhile_append_of_pos hspaces,
    hstop.1, hstop.2, List.append_nil]

theorem skipSpace_cons {c : Point} (hc : isSpace c = false) (rest : List Point) (offset : Nat) :
    skipSpace (c :: rest) offset = ⟨c :: rest, offset⟩ :=
  skipSpace_append (List.forall_mem_nil _) (by simpa using hc) offset

theorem delimited_of_isSpace {c : Point} (h : isSpace c = true) (rest : List Point) :
    Delimited (c :: rest) := by
  simp only [isSpace, Bool.or_eq_true, beq_iff_eq] at h
  rw [Delimited]
  rcases h with ((rfl | rfl) | rfl) | rfl <;> simp

theorem delimited_append {spaces rest : List Point} (hspaces : ∀ c ∈ spaces, isSpace c = true)
    (hrest : Delimited rest) : Delimited (spaces ++ rest) := by
  cases spaces with
  | nil => exact hrest
  | cons c spaces => exact delimited_of_isSpace (hspaces c List.mem_cons_self) _

/-! How values start -/

theorem isLiteralChar_of_literal {c : Point} {s : List Point} {offset : Nat}
    {r : Scalar × Cursor} (h : literal (c :: s) offset = .ok r) : isLiteralChar c = true := by
  have hdigit : ∀ r, number? false (c :: s) offset = some r → isLiteralChar c = true :=
    fun r hr => isLiteralChar_of_isDigit (isDigit_of_number? hr)
  unfold literal at h
  dsimp only at h
  split at h
  all_goals first
    | (next heq => cases heq; decide)
    | skip
  cases hn : number? false (c :: s) offset with
  | none => rw [hn] at h; cases h
  | some r => exact hdigit r hn

/-- The characters that a value can start with. -/
def startsValue (c : Point) : Bool :=
  isLiteralChar c || c == '"' || c == '[' || c == '{'

theorem startsValue_of_value {budget depth : Nat} {s : List Point} {offset : Nat}
    {r : Tree × Cursor} (h : value budget depth s offset = .ok r) :
    ∃ c rest, s = c :: rest ∧ startsValue c = true := by
  unfold value at h
  split at h
  · exact ⟨_, _, rfl, by decide⟩
  · exact ⟨_, _, rfl, by decide⟩
  · exact ⟨_, _, rfl, by decide⟩
  · cases s with
    | nil => cases h
    | cons c s =>
        split at h
        · next hliteral =>
            exact ⟨c, s, rfl, by simp [startsValue, isLiteralChar_of_literal hliteral]⟩
        · cases h

theorem isSpace_of_startsValue {c : Point} (h : startsValue c = true) : isSpace c = false := by
  by_contra hspace
  simp only [Bool.not_eq_false, isSpace, Bool.or_eq_true, beq_iff_eq] at hspace
  rcases hspace with ((rfl | rfl) | rfl) | rfl <;> exact absurd h (by decide)

theorem length_le_of_value {budget depth : Nat} {s : List Point} {offset : Nat} {tree : Tree}
    {stop : Cursor} (h : value budget depth s offset = .ok (tree, stop)) :
    stop.rest.length ≤ s.length := by
  obtain ⟨taken, hs, -⟩ := (reads_of_value h).reaches
  have := congrArg List.length hs
  rw [List.length_append] at this
  exact this ▸ Nat.le_add_left _ _

/-! Parts of containers -/

/-- What is written for a value is read back, whatever follows that cannot belong to it. -/
def Rereads (layout : Layout) (budget depth : Nat) (v : Json) : Prop :=
  ∀ (level : Nat) (rest : List Point) (offset : Nat), Delimited rest →
    (write layout level v rest).length ≤ budget →
    ∃ tree stop, value budget depth (write layout level v rest) offset = .ok (tree, ⟨rest, stop⟩) ∧
      ∀ policy, tree.toJson policy = v

section Parts

variable {layout : Layout} {budget depth : Nat}

theorem delimited_writeElements (level : Nat) (vs : List Json) (rest : List Point) :
    Delimited (writeElements layout level vs rest) := by
  cases vs with
  | nil =>
      rw [writeElements, Layout.lineStart_eq]
      exact delimited_append (layout.isSpace_of_mem_pad level) (by simp [Delimited])
  | cons v vs =>
      rw [writeElements, Layout.separator_eq]
      simp [Delimited]

theorem delimited_writeMembers (level : Nat) (ms : List (Text × Json)) (rest : List Point) :
    Delimited (writeMembers layout level ms rest) := by
  cases ms with
  | nil =>
      rw [writeMembers, Layout.lineStart_eq]
      exact delimited_append (layout.isSpace_of_mem_pad level) (by simp [Delimited])
  | cons m ms =>
      rw [writeMembers, Layout.separator_eq]
      simp [Delimited]

/-- A part is read back, and the text grows shorter. -/
theorem Rereads.part {v : Json} (hv : Rereads layout budget depth v) {level : Nat}
    {rest : List Point} (hrest : Delimited rest)
    (hbudget : (write layout level v rest).length ≤ budget) (offset : Nat) :
    ∃ tree stop c tail,
      value budget depth (write layout level v rest) offset = .ok (tree, ⟨rest, stop⟩) ∧
      (∀ policy, tree.toJson policy = v) ∧ rest.length ≤ (write layout level v rest).length ∧
      write layout level v rest = c :: tail ∧ startsValue c = true := by
  obtain ⟨tree, stop, hvalue, htree⟩ := hv level rest offset hrest hbudget
  obtain ⟨c, tail, htext, hc⟩ := startsValue_of_value hvalue
  exact ⟨tree, stop, c, tail, hvalue, htree, length_le_of_value hvalue, htext, hc⟩

/-- A part behind spaces. -/
theorem Rereads.skipTo {v : Json} (hv : Rereads layout budget depth v) {level : Nat}
    {rest : List Point} (hrest : Delimited rest)
    (hbudget : (write layout level v rest).length ≤ budget) {spaces : List Point}
    (hspaces : ∀ c ∈ spaces, isSpace c = true) (offset : Nat) :
    skipSpace (spaces ++ write layout level v rest) offset =
      ⟨write layout level v rest, offset + spaces.length⟩ := by
  obtain ⟨-, -, c, tail, -, -, -, htext, hc⟩ := hv.part hrest hbudget offset
  refine skipSpace_append hspaces ?_ offset
  rw [htext]
  simpa using isSpace_of_startsValue hc

/-- The elements of an array are read back one after the other. -/
theorem elements_write {v : Json} {vs : List Json} (level : Nat) (rest : List Point)
    (h : ∀ w ∈ v :: vs, Rereads layout budget depth w) {n : Nat} (offset : Nat)
    (hbudget : (write layout (level + 1) v (writeElements layout level vs rest)).length ≤ budget)
    (hn : (write layout (level + 1) v (writeElements layout level vs rest)).length ≤ n) :
    ∃ trees stop, elements (value budget depth) n
        (write layout (level + 1) v (writeElements layout level vs rest)) offset =
          .ok (trees, ⟨rest, stop⟩) ∧
      ∀ policy, Tree.toJsonList policy trees = v :: vs := by
  induction vs generalizing v n offset with
  | nil =>
      obtain ⟨tree, stop, c, tail, hvalue, htree, -, htext, -⟩ := (h v List.mem_cons_self).part
        (delimited_writeElements level [] rest) hbudget offset
      obtain ⟨k, rfl⟩ : ∃ k, n = k + 1 := ⟨n - 1, by rw [htext, List.length_cons] at hn; omega⟩
      have hskip := skipSpace_append (layout.isSpace_of_mem_pad level)
        (show ∀ c ∈ (Point.char ']' :: rest).head?, isSpace c = false by simp [isSpace]) stop
      refine ⟨[tree], stop + (layout.pad level).length + 1, ?_, ?_⟩
      · rw [elements, hvalue]
        simp only [writeElements, Layout.lineStart_eq, hskip]
      · intro policy
        simp [Tree.toJsonList, htree]
  | cons w ws ih =>
      obtain ⟨tree, stop, c, tail, hvalue, htree, hlater, htext, -⟩ :=
        (h v List.mem_cons_self).part (delimited_writeElements level (w :: ws) rest) hbudget offset
      obtain ⟨k, rfl⟩ : ∃ k, n = k + 1 := ⟨n - 1, by rw [htext, List.length_cons] at hn; omega⟩
      have hothers : ∀ u ∈ w :: ws, Rereads layout budget depth u :=
        fun u hu => h u (List.mem_cons_of_mem _ hu)
      have hdelimited : Delimited (writeElements layout level ws rest) :=
        delimited_writeElements level ws rest
      have hshorter : (write layout (level + 1) w (writeElements layout level ws rest)).length <
          (writeElements layout level (w :: ws) rest).length := by
        rw [writeElements, Layout.separator_eq, List.length_cons, List.length_append]
        omega
      have hfits := hshorter.le.trans (hlater.trans hbudget)
      have hskip := (hothers w List.mem_cons_self).skipTo hdelimited hfits
        (layout.isSpace_of_mem_gap (level + 1)) (stop + 1)
      have hcomma : isSpace ',' = false := by decide
      obtain ⟨trees, final, hmore, htrees⟩ :=
        ih hothers (n := k) (stop + 1 + (layout.gap (level + 1)).length) hfits (by omega)
      refine ⟨tree :: trees, final, ?_, ?_⟩
      · rw [elements, hvalue]
        simp only [writeElements, Layout.separator_eq, skipSpace_cons hcomma, hskip, hmore]
      · intro policy
        simp [Tree.toJsonList, htree, htrees]

theorem writeString_eq (name : Text) (rest : List Point) :
    ∃ raw, Spells raw name.toList ∧
      writeString name rest = Point.char '"' :: (raw ++ Point.char '"' :: rest) := by
  obtain ⟨raw, hraw, htext⟩ := writeBody_eq name.toList rest
  exact ⟨raw, hraw, congrArg _ htext⟩

theorem length_lt_writeString (name : Text) (rest : List Point) :
    rest.length < (writeString name rest).length := by
  obtain ⟨raw, -, htext⟩ := writeString_eq name rest
  simp only [htext, List.length_cons, List.length_append]
  omega

/-- The parts of a member: its name, the blank behind the colon and its value. -/
theorem member_parts (name : Text) {v : Json} (hv : Rereads layout budget depth v) {level : Nat}
    {rest : List Point} (hrest : Delimited rest)
    (hbudget : (writeString name
      (Point.char ':' :: Point.char ' ' :: write layout level v rest)).length ≤ budget)
    (offset : Nat) :
    ∃ body colon tree stop,
      writeString name (Point.char ':' :: Point.char ' ' :: write layout level v rest) =
        Point.char '"' :: body ∧
      stringBody offset 0 body (offset + 1) =
        .ok (name.toList, ⟨Point.char ':' :: Point.char ' ' :: write layout level v rest, colon⟩) ∧
      skipSpace (Point.char ' ' :: write layout level v rest) (colon + 1) =
        ⟨write layout level v rest, colon + 2⟩ ∧
      value budget depth (write layout level v rest) (colon + 2) = .ok (tree, ⟨rest, stop⟩) ∧
      (∀ policy, tree.toJson policy = v) ∧
      rest.length < (writeString name
        (Point.char ':' :: Point.char ' ' :: write layout level v rest)).length := by
  have hlength := length_lt_writeString name (Point.char ':' :: Point.char ' ' :: write layout level v rest)
  simp only [List.length_cons] at hlength
  have hfits : (write layout level v rest).length ≤ budget := by omega
  obtain ⟨raw, hraw, htext⟩ :=
    writeString_eq name (Point.char ':' :: Point.char ' ' :: write layout level v rest)
  have hname := stringBody_of_spells hraw offset
    (Point.char ':' :: Point.char ' ' :: write layout level v rest)
    (offset + 1)
  have hblank : ∀ c ∈ [Point.char ' '], isSpace c = true := by simp [isSpace]
  have hskip := hv.skipTo hrest hfits hblank (offset + 1 + raw.length + 1 + 1)
  obtain ⟨tree, stop, c, tail, hvalue, htree, hlater, -, -⟩ :=
    hv.part hrest hfits (offset + 1 + raw.length + 1 + 2)
  exact ⟨_, _, tree, stop, htext, hname, hskip, hvalue, htree, by omega⟩

/-- The members of an object are read back one after the other; each name is a new one. -/
theorem members_write {name : Text} {v : Json} {ms : List (Text × Json)} (level : Nat)
    (rest : List Point) (h : ∀ m ∈ (name, v) :: ms, Rereads layout budget depth m.2) {n : Nat}
    (offset : Nat)
    (hbudget : (writeString name (Point.char ':' :: Point.char ' ' ::
      write layout (level + 1) v (writeMembers layout level ms rest))).length ≤ budget)
    (hn : (writeString name (Point.char ':' :: Point.char ' ' ::
      write layout (level + 1) v (writeMembers layout level ms rest))).length ≤ n) :
    ∃ found stop, members (value budget depth) n (writeString name (Point.char ':' :: Point.char ' ' ::
        write layout (level + 1) v (writeMembers layout level ms rest))) offset =
          .ok (found, ⟨rest, stop⟩) ∧
      ∀ policy done, (Assoc.keys (done ++ (name, v) :: ms)).Nodup →
        Tree.toJsonMembers policy done found = done ++ (name, v) :: ms := by
  induction ms generalizing name v n offset with
  | nil =>
      have hv : Rereads layout budget depth v := h (name, v) List.mem_cons_self
      obtain ⟨body, colon, tree, stop, htext, hname, hskip, hvalue, htree, hlater⟩ :=
        member_parts name hv (delimited_writeMembers level [] rest) hbudget offset
      obtain ⟨k, rfl⟩ : ∃ k, n = k + 1 := ⟨n - 1, by omega⟩
      have hcolon : isSpace ':' = false := by decide
      have hclose := skipSpace_append (layout.isSpace_of_mem_pad level)
        (show ∀ c ∈ (Point.char '}' :: rest).head?, isSpace c = false by simp [isSpace]) stop
      refine ⟨[(⟨name, offset⟩, tree)], stop + (layout.pad level).length + 1, ?_, ?_⟩
      · rw [htext, members, hname]
        simp only [skipSpace_cons hcolon, hskip, hvalue]
        simp only [writeMembers, Layout.lineStart_eq, hclose, Text.ofList_toList]
      · intro policy done hdistinct
        have hnew := Assoc.not_mem_keys_of_nodup hdistinct
        simp only [Tree.toJsonMembers, htree, Repeats.add_of_not_mem policy hnew]
  | cons m ms ih =>
      have hv : Rereads layout budget depth v := h (name, v) List.mem_cons_self
      -- The budget of the list shrinks by one a member, the text by more.
      have hothers : ∀ u ∈ m :: ms, Rereads layout budget depth u.2 :=
        fun u hu => h u (List.mem_cons_of_mem _ hu)
      obtain ⟨body, colon, tree, stop, htext, hname, hskip, hvalue, htree, hlater⟩ :=
        member_parts name hv (delimited_writeMembers level (m :: ms) rest) hbudget offset
      obtain ⟨k, rfl⟩ : ∃ k, n = k + 1 := ⟨n - 1, by omega⟩
      have hcolon : isSpace ':' = false := by decide
      have hcomma : isSpace ',' = false := by decide
      have hshorter : (writeString m.1 (Point.char ':' :: Point.char ' ' ::
          write layout (level + 1) m.2 (writeMembers layout level ms rest))).length <
            (writeMembers layout level (m :: ms) rest).length := by
        rw [writeMembers, Layout.separator_eq, List.length_cons, List.length_append]
        omega
      obtain ⟨raw, -, hquote⟩ := writeString_eq m.1 (Point.char ':' :: Point.char ' ' ::
        write layout (level + 1) m.2 (writeMembers layout level ms rest))
      have hgap := skipSpace_append (layout.isSpace_of_mem_gap (level + 1))
        (show ∀ c ∈ (writeString m.1 (Point.char ':' :: Point.char ' ' ::
          write layout (level + 1) m.2 (writeMembers layout level ms rest))).head?,
            isSpace c = false by simp [hquote, isSpace]) (stop + 1)
      obtain ⟨found, final, hmore, hfound⟩ := ih hothers (n := k)
        (stop + 1 + (layout.gap (level + 1)).length) (by omega) (by omega)
      refine ⟨(⟨name, offset⟩, tree) :: found, final, ?_, ?_⟩
      · rw [htext, members, hname]
        simp only [skipSpace_cons hcolon, hskip, hvalue]
        simp only [writeMembers, Layout.separator_eq, skipSpace_cons hcomma, hgap, hmore,
          Text.ofList_toList]
      · intro policy done hdistinct
        have hnew := Assoc.not_mem_keys_of_nodup hdistinct
        have hassoc : done ++ (name, v) :: m :: ms = (done ++ [(name, v)]) ++ m :: ms := by simp
        rw [hassoc] at hdistinct ⊢
        simp only [Tree.toJsonMembers, htree, Repeats.add_of_not_mem policy hnew]
        exact hfound policy _ hdistinct

/-! Values -/

theorem value_of_literal {s : List Point} {offset : Nat} {x : Scalar} {stop : Cursor}
    (h : literal s offset = .ok (x, stop)) :
    value budget depth s offset = .ok (.scalar x, stop) := by
  have hstart : ∀ c tail, s = c :: tail → isLiteralChar c = true := by
    rintro c tail rfl
    exact isLiteralChar_of_literal h
  unfold value
  split
  · exact absurd (hstart _ _ rfl) (by decide)
  · exact absurd (hstart _ _ rfl) (by decide)
  · exact absurd (hstart _ _ rfl) (by decide)
  · rw [h]

theorem rereads_scalar {s : Scalar} (h : s.Readable) : Rereads layout budget depth (.scalar s) := by
  intro level rest offset hrest _
  cases s with
  | null => exact ⟨.scalar .null, _, value_of_literal rfl, fun _ => rfl⟩
  | bool b =>
      refine ⟨.scalar (.bool b), ?_⟩
      cases b with
      | false => exact ⟨_, value_of_literal rfl, fun _ => rfl⟩
      | true => exact ⟨_, value_of_literal rfl, fun _ => rfl⟩
  | int n =>
      obtain ⟨stop, hliteral⟩ := literal_intText h hrest offset
      exact ⟨.scalar (.int n), stop, value_of_literal hliteral, fun _ => rfl⟩
  | float x =>
      obtain ⟨stop, hliteral⟩ := literal_floatText h hrest offset
      exact ⟨.scalar (.float x), stop, value_of_literal hliteral, fun _ => rfl⟩
  | str s =>
      obtain ⟨raw, hraw, htext⟩ := writeString_eq s rest
      refine ⟨.scalar (.str s), offset + 1 + raw.length + 1, ?_, fun _ => rfl⟩
      rw [write, writeScalar, htext, value, stringBody_of_spells hraw]

theorem rereads_arr {vs : List Json} (h : ∀ v ∈ vs, Rereads layout budget depth v) :
    Rereads layout budget (depth + 1) (.arr vs) := by
  intro level rest offset _ hbudget
  cases vs with
  | nil =>
      have hclose : isSpace ']' = false := by decide
      refine ⟨.arr [], offset + 2, ?_, fun _ => rfl⟩
      rw [write, value]
      simp only [skipSpace_cons hclose]
  | cons v vs =>
      rw [write, Layout.lineStart_eq] at hbudget ⊢
      simp only [List.length_cons, List.length_append] at hbudget
      have hdelimited : Delimited (writeElements layout level vs rest) :=
        delimited_writeElements level vs rest
      have hfits : (write layout (level + 1) v (writeElements layout level vs rest)).length ≤
          budget := by omega
      obtain ⟨-, -, c, tail, -, -, -, htext, hc⟩ :=
        (h v List.mem_cons_self).part hdelimited hfits offset
      have hskip := (h v List.mem_cons_self).skipTo hdelimited hfits
        (layout.isSpace_of_mem_pad (level + 1)) (offset + 1)
      obtain ⟨trees, stop, hitems, htrees⟩ := elements_write level rest h
        (offset + 1 + (layout.pad (level + 1)).length) hfits hfits
      refine ⟨.arr trees, stop, ?_, fun policy => by rw [Tree.toJson, htrees]⟩
      rw [value]
      simp only [hskip]
      split
      · next heq =>
          rw [htext] at heq
          cases heq
          exact absurd hc (by decide)
      · rw [hitems]

theorem rereads_obj {ms : List (Text × Json)} (distinct : (Assoc.keys ms).Nodup)
    (h : ∀ m ∈ ms, Rereads layout budget depth m.2) :
    Rereads layout budget (depth + 1) (.obj ms) := by
  intro level rest offset _ hbudget
  cases ms with
  | nil =>
      have hclose : isSpace '}' = false := by decide
      refine ⟨.obj [], offset + 2, ?_, fun _ => rfl⟩
      rw [write, value]
      simp only [skipSpace_cons hclose]
  | cons m ms =>
      obtain ⟨name, v⟩ := m
      rw [write, Layout.lineStart_eq] at hbudget ⊢
      simp only [List.length_cons, List.length_append] at hbudget
      obtain ⟨raw, -, htext⟩ := writeString_eq name (Point.char ':' :: Point.char ' ' ::
        write layout (level + 1) v (writeMembers layout level ms rest))
      have hskip := skipSpace_append (layout.isSpace_of_mem_pad (level + 1))
        (show ∀ c ∈ (writeString name (Point.char ':' :: Point.char ' ' ::
          write layout (level + 1) v (writeMembers layout level ms rest))).head?,
            isSpace c = false by simp [htext, isSpace]) (offset + 1)
      obtain ⟨found, stop, hitems, hfound⟩ := members_write level rest h (n := budget)
        (offset + 1 + (layout.pad (level + 1)).length) (by omega) (by omega)
      have htree : ∀ policy, Tree.toJson policy (.obj found) = .obj ((name, v) :: ms) := by
        intro policy
        rw [Tree.toJson, hfound policy [] distinct]
        rfl
      refine ⟨.obj found, stop, ?_, htree⟩
      rw [value]
      simp only [hskip]
      split
      · next heq =>
          rw [htext] at heq
          cases heq
      · rw [hitems]

/-- What is written for a readable value is read back. -/
theorem rereads_of_readable {v : Json} (h : Readable depth v) : Rereads layout budget depth v := by
  induction h with
  | scalar h => exact rereads_scalar h
  | arr _ ih => exact rereads_arr ih
  | obj distinct _ ih => exact rereads_obj distinct ih

end Parts

/-! Whole texts -/

theorem writeBody_append (cs rest more : List Point) :
    writeBody cs rest ++ more = writeBody cs (rest ++ more) := by
  induction cs with
  | nil => rfl
  | cons c cs ih => rw [writeBody, writeBody, List.append_assoc, ih]

theorem writeScalar_append (s : Scalar) (rest more : List Point) :
    writeScalar s rest ++ more = writeScalar s (rest ++ more) := by
  cases s with
  | null => rfl
  | bool b => cases b <;> rfl
  | int n => exact List.append_assoc _ _ _
  | float x => exact List.append_assoc _ _ _
  | str s => exact congrArg _ (writeBody_append _ _ _)

theorem writeString_append (name : Text) (rest more : List Point) :
    writeString name rest ++ more = writeString name (rest ++ more) :=
  congrArg _ (writeBody_append _ _ _)

mutual

theorem write_append (layout : Layout) (level : Nat) (more : List Point) :
    (v : Json) → (rest : List Point) →
      write layout level v rest ++ more = write layout level v (rest ++ more)
  | .scalar s, rest => by simp only [write, writeScalar_append]
  | .arr [], rest => by simp only [write, List.cons_append]
  | .arr (v :: vs), rest => by
      simp only [write, Layout.lineStart_eq, List.cons_append, List.append_assoc,
        write_append layout _ more v, writeElements_append layout level more vs]
  | .obj [], rest => by simp only [write, List.cons_append]
  | .obj ((name, v) :: ms), rest => by
      simp only [write, Layout.lineStart_eq, List.cons_append, List.append_assoc,
        writeString_append, write_append layout _ more v, writeMembers_append layout level more ms]

theorem writeElements_append (layout : Layout) (level : Nat) (more : List Point) :
    (vs : List Json) → (rest : List Point) →
      writeElements layout level vs rest ++ more = writeElements layout level vs (rest ++ more)
  | [], rest => by
      simp only [writeElements, Layout.lineStart_eq, List.cons_append, List.append_assoc]
  | v :: vs, rest => by
      simp only [writeElements, Layout.separator_eq, List.cons_append, List.append_assoc,
        write_append layout _ more v, writeElements_append layout level more vs]

theorem writeMembers_append (layout : Layout) (level : Nat) (more : List Point) :
    (ms : List (Text × Json)) → (rest : List Point) →
      writeMembers layout level ms rest ++ more = writeMembers layout level ms (rest ++ more)
  | [], rest => by
      simp only [writeMembers, Layout.lineStart_eq, List.cons_append, List.append_assoc]
  | (name, v) :: ms, rest => by
      simp only [writeMembers, Layout.separator_eq, List.cons_append, List.append_assoc,
        writeString_append, write_append layout _ more v, writeMembers_append layout level more ms]

end

/-- A readable value is read back from its text, also with spaces behind it, whichever member of a
name is kept. -/
theorem read_render {v : Json} (h : Readable maxDepth v) (layout : Layout) (policy : Repeats)
    {spaces : List Point} (hspaces : ∀ c ∈ spaces, isSpace c = true) :
    read policy (render layout v ++ spaces) = .ok v := by
  rw [render, write_append, List.nil_append]
  have hdelimited : Delimited spaces := by
    have := delimited_append hspaces (show Delimited [] by simp [Delimited])
    rwa [List.append_nil] at this
  have hrereads : Rereads layout ((write layout 0 v spaces).length + 1) maxDepth v :=
    rereads_of_readable h
  obtain ⟨tree, stop, c, tail, hvalue, htree, -, htext, hc⟩ :=
    hrereads.part hdelimited (Nat.le_succ _) 0
  have hstart : skipSpace (write layout 0 v spaces) 0 = ⟨write layout 0 v spaces, 0⟩ := by
    rw [htext]
    exact skipSpace_cons (isSpace_of_startsValue hc) tail 0
  have hend : (skipSpace spaces stop).rest = [] := by
    simpa [skipSpace] using hspaces
  have hmark : ∀ s, write layout 0 v spaces ≠ Point.char '\uFEFF' :: s := by
    intro s heq
    rw [htext] at heq
    cases heq
    exact absurd hc (by decide)
  have hread : readTree (write layout 0 v spaces) = .ok tree := by
    unfold readTree
    split
    · next s heq => exact absurd heq (hmark s)
    · simp only [hstart, hvalue, hend]
  simp only [read, hread, htree]

end LocaleKeys.Json
