import LocaleKeys.Proofs.Json.Literal
import LocaleKeys.Proofs.Json.Spelling

/-!
The grammar of JSON text as relations between the places where a phrase starts and ends. What the
reader accepts has a derivation; what a phrase means for a property is then shown once for leaves,
for lists of items and for members, and by induction on the depth for values.
-/

namespace LocaleKeys.Json

/-- The place behind what may stand between tokens. -/
def Cursor.skip (c : Cursor) : Cursor :=
  skipSpace c.rest c.offset

variable {α : Type}

/-- Items with commas between them, up to a closing bracket; there is at least one. -/
inductive Listed (close : Point) (item : Cursor → α → Cursor → Prop) :
    Cursor → List α → Cursor → Prop
  | last {start stop : Cursor} {a : α} {after : List Point} {o : Nat} (ha : item start a stop)
      (hclose : stop.skip = ⟨close :: after, o⟩) : Listed close item start [a] ⟨after, o + 1⟩
  | more {start stop final : Cursor} {a : α} {as : List α} {after : List Point} {o : Nat}
      (ha : item start a stop) (hcomma : stop.skip = ⟨Point.char ',' :: after, o⟩)
      (others : Listed close item (Cursor.skip ⟨after, o + 1⟩) as final) :
      Listed close item start (a :: as) final

/-- A name in quotes, a colon and a value. The member keeps the offset of the opening quote. -/
inductive Member (item : Cursor → Tree → Cursor → Prop) : Cursor → Name × Tree → Cursor → Prop
  | mk {raw cs afterName afterColon : List Point} {offset o : Nat} {tree : Tree} {stop : Cursor}
      (name : Spells raw cs)
      (colon : Cursor.skip ⟨afterName, offset + raw.length + 2⟩ = ⟨Point.char ':' :: afterColon, o⟩)
      (value : item (Cursor.skip ⟨afterColon, o + 1⟩) tree stop) :
      Member item ⟨Point.char '"' :: (raw ++ Point.char '"' :: afterName), offset⟩
        (⟨Text.ofList cs, offset⟩, tree) stop

/-- Strings and literals. -/
inductive Leaf : Cursor → Tree → Cursor → Prop
  | string {raw cs rest : List Point} {offset : Nat} (h : Spells raw cs) :
      Leaf ⟨Point.char '"' :: (raw ++ Point.char '"' :: rest), offset⟩ (.scalar (.str (Text.ofList cs)))
        ⟨rest, offset + raw.length + 2⟩
  | literal {s : List Point} {offset : Nat} {x : Scalar} {stop : Cursor}
      (h : literal s offset = .ok (x, stop)) : Leaf ⟨s, offset⟩ (.scalar x) stop

/-- Arrays and objects of given items. -/
inductive Container (item : Cursor → Tree → Cursor → Prop) : Cursor → Tree → Cursor → Prop
  | emptyArray {rest after : List Point} {offset o : Nat}
      (h : Cursor.skip ⟨rest, offset + 1⟩ = ⟨Point.char ']' :: after, o⟩) :
      Container item ⟨Point.char '[' :: rest, offset⟩ (.arr []) ⟨after, o + 1⟩
  | array {rest : List Point} {offset : Nat} {trees : List Tree} {stop : Cursor}
      (h : Listed ']' item (Cursor.skip ⟨rest, offset + 1⟩) trees stop) :
      Container item ⟨Point.char '[' :: rest, offset⟩ (.arr trees) stop
  | emptyObject {rest after : List Point} {offset o : Nat}
      (h : Cursor.skip ⟨rest, offset + 1⟩ = ⟨Point.char '}' :: after, o⟩) :
      Container item ⟨Point.char '{' :: rest, offset⟩ (.obj []) ⟨after, o + 1⟩
  | object {rest : List Point} {offset : Nat} {members : List (Name × Tree)} {stop : Cursor}
      (h : Listed '}' (Member item) (Cursor.skip ⟨rest, offset + 1⟩) members stop) :
      Container item ⟨Point.char '{' :: rest, offset⟩ (.obj members) stop

/-- Values with at most `depth` containers open at once. -/
def Reads : (depth : Nat) → Cursor → Tree → Cursor → Prop
  | 0 => Leaf
  | depth + 1 => fun start tree stop =>
    Leaf start tree stop ∨ Container (Reads depth) start tree stop

/-- A whole text: one value with nothing but spaces around it. -/
def ReadsText (text : List Point) (tree : Tree) : Prop :=
  ∃ stop, Reads maxDepth (Cursor.skip ⟨text, 0⟩) tree stop ∧ stop.skip.rest = []

/-! The reader follows the grammar -/

theorem Cursor.eq_of_rest {c : Cursor} {s : List Point} (h : c.rest = s) : c = ⟨s, c.offset⟩ := by
  cases c
  cases h
  rfl

section Soundness

variable {reader : ValueReader} {item : Cursor → Tree → Cursor → Prop}
  (sound : ∀ {s offset tree stop}, reader s offset = .ok (tree, stop) → item ⟨s, offset⟩ tree stop)

include sound

theorem listed_of_elements {budget : Nat} {s : List Point} {offset : Nat} {trees : List Tree}
    {stop : Cursor} (h : elements reader budget s offset = .ok (trees, stop)) :
    Listed ']' item ⟨s, offset⟩ trees stop := by
  induction budget generalizing s offset trees stop with
  | zero => cases h
  | succ budget ih =>
      rw [elements] at h
      dsimp only at h
      split at h
      · cases h
      · next tree cursor hitem =>
          split at h
          · next rest hclose =>
              cases h
              exact .last (sound hitem) (Cursor.eq_of_rest hclose)
          · next rest hcomma =>
              split at h
              · next more final hmore =>
                  cases h
                  exact .more (sound hitem) (Cursor.eq_of_rest hcomma) (ih hmore)
              · cases h
          · cases h

theorem listed_of_members {budget : Nat} {s : List Point} {offset : Nat}
    {found : List (Name × Tree)} {stop : Cursor}
    (h : members reader budget s offset = .ok (found, stop)) :
    Listed '}' (Member item) ⟨s, offset⟩ found stop := by
  induction budget generalizing s offset found stop with
  | zero => cases h
  | succ budget ih =>
      unfold members at h
      split at h
      · next body =>
          split at h
          · cases h
          · next name cursor hname =>
              obtain ⟨raw, hraw, rfl, hstop⟩ := spells_of_stringBody hname
              dsimp only at h
              split at h
              · next rest hcolon =>
                  split at h
                  · cases h
                  · next tree after hitem =>
                      have hat : offset + 1 + raw.length + 1 = offset + raw.length + 2 := by omega
                      have hend : cursor = ⟨cursor.rest, offset + raw.length + 2⟩ := by
                        rw [← hat, ← hstop]
                      have member : Member item
                          ⟨Point.char '"' :: (raw ++ Point.char '"' :: cursor.rest), offset⟩
                          (⟨Text.ofList name, offset⟩, tree) after :=
                        .mk hraw (by rw [← hend]; exact Cursor.eq_of_rest hcolon) (sound hitem)
                      split at h
                      · next rest hclose =>
                          cases h
                          exact .last member (Cursor.eq_of_rest hclose)
                      · next rest hcomma =>
                          split at h
                          · next more final hmore =>
                              cases h
                              exact .more member (Cursor.eq_of_rest hcomma) (ih hmore)
                          · cases h
                      · cases h
              · cases h
      · cases h

end Soundness

/-- Where a value that is read starts, and what it is made of, with the values inside it read at a
smaller depth. -/
theorem value_cases {budget depth : Nat} {s : List Point} {offset : Nat} {tree : Tree}
    {stop : Cursor} (h : value budget depth s offset = .ok (tree, stop)) :
    Leaf ⟨s, offset⟩ tree stop ∨ ∃ inner, depth = inner + 1 ∧
      ∀ {item : Cursor → Tree → Cursor → Prop},
        (∀ {s offset tree stop}, value budget inner s offset = .ok (tree, stop) →
          item ⟨s, offset⟩ tree stop) → Container item ⟨s, offset⟩ tree stop := by
  unfold value at h
  split at h
  · next body =>
      left
      split at h
      · next cs cursor hbody =>
          cases h
          obtain ⟨raw, hraw, rfl, hstop⟩ := spells_of_stringBody hbody
          have hat : offset + 1 + raw.length + 1 = offset + raw.length + 2 := by omega
          rw [Cursor.eq_of_rest (c := stop) rfl, hstop, hat]
          exact .string hraw
      · cases h
  · next rest =>
      right
      split at h
      · cases h
      · next inner =>
          refine ⟨inner, rfl, fun sound => ?_⟩
          dsimp only at h
          split at h
          · next after hclose =>
              cases h
              exact .emptyArray (Cursor.eq_of_rest hclose)
          · split at h
            · next trees cursor hitems =>
                cases h
                exact .array (listed_of_elements sound hitems)
            · cases h
  · next rest =>
      right
      split at h
      · cases h
      · next inner =>
          refine ⟨inner, rfl, fun sound => ?_⟩
          dsimp only at h
          split at h
          · next after hclose =>
              cases h
              exact .emptyObject (Cursor.eq_of_rest hclose)
          · split at h
            · next found cursor hitems =>
                cases h
                exact .object (listed_of_members sound hitems)
            · cases h
  · left
    split at h
    · next x cursor hliteral =>
        cases h
        exact .literal hliteral
    · cases h

theorem reads_of_value {budget depth : Nat} {s : List Point} {offset : Nat} {tree : Tree}
    {stop : Cursor} (h : value budget depth s offset = .ok (tree, stop)) :
    Reads depth ⟨s, offset⟩ tree stop := by
  induction depth generalizing s offset tree stop with
  | zero =>
      cases value_cases h with
      | inl leaf => exact leaf
      | inr container =>
          obtain ⟨inner, hdepth, -⟩ := container
          cases hdepth
  | succ depth ih =>
      cases value_cases h with
      | inl leaf => exact Or.inl leaf
      | inr container =>
          obtain ⟨inner, hdepth, hitems⟩ := container
          cases hdepth
          exact Or.inr (hitems ih)

/-- A text that is accepted has a derivation. -/
theorem readsText_of_readTree {text : List Point} {tree : Tree} (h : readTree text = .ok tree) :
    ReadsText text tree := by
  unfold readTree at h
  split at h
  · cases h
  · dsimp only at h
    split at h
    · cases h
    · next cursor hvalue =>
        split at h
        · next hend =>
            cases h
            exact ⟨cursor, reads_of_value hvalue, hend⟩
        · cases h

/-! Phrases go forward -/

/-- A place further on in the same text. -/
def Cursor.Reaches (start stop : Cursor) : Prop :=
  ∃ taken, start.rest = taken ++ stop.rest ∧ stop.offset = start.offset + taken.length

theorem Cursor.Reaches.trans {a b c : Cursor} (first : a.Reaches b) (second : b.Reaches c) :
    a.Reaches c := by
  obtain ⟨s, hs, hso⟩ := first
  obtain ⟨t, ht, hto⟩ := second
  refine ⟨s ++ t, by rw [hs, ht, List.append_assoc], ?_⟩
  rw [hto, hso, List.length_append, Nat.add_assoc]

theorem Cursor.Reaches.next (c : Point) (s : List Point) (offset : Nat) :
    Cursor.Reaches ⟨c :: s, offset⟩ ⟨s, offset + 1⟩ := ⟨[c], rfl, rfl⟩

theorem Cursor.Reaches.offset_le {a b : Cursor} (h : a.Reaches b) : a.offset ≤ b.offset := by
  obtain ⟨taken, -, hoffset⟩ := h
  exact hoffset ▸ Nat.le_add_right _ _

theorem Cursor.reaches_skip (c : Cursor) : c.Reaches c.skip :=
  ⟨_, List.takeWhile_append_dropWhile.symm, rfl⟩

/-- A token that stands behind spaces, and the place after it. -/
theorem Cursor.reaches_token {c : Cursor} {token : Point} {after : List Point} {o : Nat}
    (h : c.skip = ⟨token :: after, o⟩) : c.Reaches ⟨after, o + 1⟩ :=
  (h ▸ c.reaches_skip).trans (Cursor.Reaches.next token after o)

/-- A place of this text. -/
def At (text : List Point) (c : Cursor) : Prop :=
  text.drop c.offset = c.rest

theorem At.reaches {text : List Point} {start stop : Cursor} (h : At text start)
    (forward : start.Reaches stop) : At text stop := by
  obtain ⟨taken, hrest, hoffset⟩ := forward
  rw [At] at *
  rw [hoffset, ← List.drop_drop, h, hrest, List.drop_left]

theorem drop_add_of_eq (taken : List Point) {text rest : List Point} {offset : Nat}
    (h : text.drop offset = taken ++ rest) : text.drop (offset + taken.length) = rest := by
  rw [← List.drop_drop, h, List.drop_left]

theorem Leaf.reaches {start stop : Cursor} {tree : Tree} (h : Leaf start tree stop) :
    start.Reaches stop := by
  cases h with
  | @string raw cs rest offset h =>
      refine ⟨Point.char '"' :: (raw ++ [Point.char '"']), by simp, ?_⟩
      simp only [List.length_cons, List.length_append, List.length_nil]
      omega
  | literal h =>
      obtain ⟨taken, hs, hstop, -⟩ := (literal_ok h).1
      exact ⟨taken, hs, hstop⟩

section Reaching

variable {close : Point} {item : Cursor → α → Cursor → Prop}

theorem Listed.reaches (hitem : ∀ {start a stop}, item start a stop → start.Reaches stop)
    {start stop : Cursor} {as : List α} (h : Listed close item start as stop) :
    start.Reaches stop := by
  induction h with
  | last ha hclose => exact (hitem ha).trans (Cursor.reaches_token hclose)
  | more ha hcomma _ ih =>
      have hbehind := (hitem ha).trans (Cursor.reaches_token hcomma)
      exact hbehind.trans ((Cursor.reaches_skip _).trans ih)

theorem Member.reaches {item : Cursor → Tree → Cursor → Prop}
    (hitem : ∀ {start tree stop}, item start tree stop → start.Reaches stop)
    {start stop : Cursor} {member : Name × Tree} (h : Member item start member stop) :
    start.Reaches stop := by
  cases h with
  | mk name colon value =>
      exact ((Leaf.string name).reaches.trans (Cursor.reaches_token colon)).trans
        ((Cursor.reaches_skip _).trans (hitem value))

theorem Container.reaches {item : Cursor → Tree → Cursor → Prop}
    (hitem : ∀ {start tree stop}, item start tree stop → start.Reaches stop)
    {start stop : Cursor} {tree : Tree} (h : Container item start tree stop) :
    start.Reaches stop := by
  have opened := fun c s o => (Cursor.Reaches.next c s o).trans (Cursor.reaches_skip _)
  cases h with
  | emptyArray h | emptyObject h =>
      exact (Cursor.Reaches.next _ _ _).trans (Cursor.reaches_token h)
  | array h => exact (opened _ _ _).trans (h.reaches hitem)
  | object h => exact (opened _ _ _).trans (h.reaches (Member.reaches hitem))

end Reaching

theorem Reads.reaches {depth : Nat} {start stop : Cursor} {tree : Tree}
    (h : Reads depth start tree stop) : start.Reaches stop := by
  induction depth generalizing start tree stop with
  | zero => exact Leaf.reaches h
  | succ depth ih =>
      cases h with
      | inl leaf => exact leaf.reaches
      | inr container => exact container.reaches ih

end LocaleKeys.Json
