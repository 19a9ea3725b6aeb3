import LocaleKeys.Proofs.Key.Scan
import LocaleKeys.Proofs.Text.Position
import Mathlib.Tactic.SplitIfs

/-!
The places that a scan records, in text of any kind. The scan counts lines itself and passes over a
line feed that a string escapes, so its places are those of a text in which such line feeds are
spaces; there every one of them is the place of a quote.
-/

namespace LocaleKeys.Key

open Text (Position)

/-- Where a character stands: between strings, in a string, or behind a backslash in a string. -/
inductive Quoting
  | outside
  | inside
  | escaped
  deriving DecidableEq, Repr

def Quoting.after : Quoting → Point → Quoting
  | .outside, c => if c = '"' then .inside else .outside
  | .inside, c => if c = '"' then .outside else if c = '\\' then .escaped else .inside
  | .escaped, _ => .inside

/-- What a character counts for in the lines of a scan. -/
def Quoting.seen (quoting : Quoting) (c : Point) : Point :=
  if quoting = .escaped ∧ c = '\n' then ' ' else c

def splice : Quoting → List Point → List Point
  | _, [] => []
  | quoting, c :: rest => quoting.seen c :: splice (quoting.after c) rest

/-- A text with a space for each line feed that a string escapes. -/
def spliced (text : List Point) : List Point :=
  splice .outside text

/-- A place of a quote, with lines counted as a scan counts them. -/
def SeenAtQuote (text : List Point) (p : Position) : Prop :=
  ∃ offset, text[offset]? = some (Point.char '"') ∧ p = Position.ofOffset (spliced text) offset

/-! Line feeds that are passed over -/

/-- Splicing takes line feeds away, and where it takes none it changes nothing. -/
theorem count_splice (quoting : Quoting) (text : List Point) (n : Nat) :
    ((splice quoting text).take n).count (.char '\n') ≤ (text.take n).count (.char '\n') ∧
      (((splice quoting text).take n).count (.char '\n') = (text.take n).count (.char '\n') →
        (splice quoting text).take n = text.take n) := by
  induction text generalizing quoting n with
  | nil => simp [splice]
  | cons c text ih =>
      cases n with
      | zero => simp
      | succ n =>
          obtain ⟨hle, hsame⟩ := ih (quoting.after c) n
          simp only [splice, List.take_succ_cons, List.count_cons, Quoting.seen]
          split
          · next hescaped =>
              obtain ⟨-, rfl⟩ := hescaped
              have hspace : ((' ' : Point) == '\n') = false := by decide
              simp only [hspace, beq_self_eq_true, if_true, Bool.false_eq_true, if_false]
              exact ⟨by omega, fun hcount => absurd hcount (by omega)⟩
          · exact ⟨by omega, fun hcount => congrArg (c :: ·) (hsame (by omega))⟩

/-- An offset has its true place exactly if no line feed before it is passed over. -/
theorem ofOffset_spliced_iff (text : List Point) (offset : Nat) :
    Position.ofOffset (spliced text) offset = Position.ofOffset text offset ↔
      (spliced text).take offset = text.take offset := by
  refine ⟨fun h => ?_, fun h => congrArg Position.start.afterAll h⟩
  have hline := congrArg Position.line h
  rw [Position.ofOffset, Position.ofOffset, Position.line_afterAll, Position.line_afterAll] at hline
  exact (count_splice .outside text offset).2 (Nat.add_left_cancel hline)

/-! What a step does -/

namespace Scan

/-- The places that a scan has recorded. -/
def places (scan : Scan) : List Position :=
  scan.positions.map (·.2) ++ scan.repeats.map (·.place)

/-- The places that a scan knows of quotes: the recorded ones, and that of the string it is in. -/
def quotes (scan : Scan) : List Position :=
  scan.places ++ (scan.pending.map (·.start)).toList

def quoting (scan : Scan) : Quoting :=
  match scan.pending with
  | none => .outside
  | some string => if string.escaped then .escaped else .inside

variable {scan : Scan} {frame : Frame} {outer : List Frame} {name : Text} {start p : Position}
  {string : Pending} {c : Point} {rest : List Point}

theorem quoting_of_none (h : scan.pending = none) : scan.quoting = .outside := by
  rw [Scan.quoting, h]

theorem quoting_of_some (h : scan.pending = some string) :
    scan.quoting = if string.escaped then .escaped else .inside := by
  rw [Scan.quoting, h]

@[simp]
theorem pending_noteMember : (scan.noteMember frame outer name start).pending = scan.pending := by
  rw [noteMember]
  split <;> rfl

@[simp]
theorem place_noteMember : (scan.noteMember frame outer name start).place = scan.place := by
  rw [noteMember]
  split <;> rfl

theorem mem_places_noteMember (h : p ∈ (scan.noteMember frame outer name start).places) :
    p ∈ scan.places ∨ p = start := by
  rw [noteMember] at h
  split at h
  · simp only [places, List.map_append, List.mem_append, List.map_cons, List.map_nil,
      List.mem_singleton] at h ⊢
    tauto
  · simp only [places, List.mem_append, List.mem_map] at h ⊢
    obtain ⟨entry, hentry, rfl⟩ | hrepeat := h
    · obtain hold | rfl := Assoc.mem_offer hentry
      · exact Or.inl (Or.inl ⟨entry, hold, rfl⟩)
      · exact Or.inr rfl
    · exact Or.inl (Or.inr hrepeat)

/-- A string that closes leaves nothing open, and the scan goes on behind its quote. -/
theorem pending_closeString : (scan.closeString string rest).pending = none := by
  rw [closeString]
  dsimp only
  split
  · split
    · exact pending_noteMember
    · rfl
  · rfl

theorem place_closeString :
    (scan.closeString string rest).place = nextColumn scan.place := by
  rw [closeString]
  dsimp only
  split
  · split
    · exact place_noteMember
    · rfl
  · rfl

theorem mem_places_closeString (h : p ∈ (scan.closeString string rest).places) :
    p ∈ scan.places ∨ p = string.start := by
  rw [closeString] at h
  dsimp only at h
  split at h
  · split at h
    · have found := mem_places_noteMember h
      exact found
    · exact Or.inl h
  · exact Or.inl h

theorem places_stepOutside : (scan.stepOutside c).places = scan.places := by
  rw [stepOutside]
  dsimp only
  split_ifs <;> rfl

theorem place_stepOutside : (scan.stepOutside c).place = scan.place.after c := by
  rw [stepOutside]
  dsimp only
  split_ifs <;> rfl

theorem pending_stepOutside (hpending : scan.pending = none) :
    (scan.stepOutside c).pending = if c = '"' then some { start := scan.place } else none := by
  rw [stepOutside]
  dsimp only
  split_ifs <;> first | rfl | exact hpending

/-- What a character does to a scan: it moves the place by what it counts for, and a new place
becomes known only at a quote. -/
structure Moves (scan : Scan) (c : Point) (next : Scan) : Prop where
  place : next.place = scan.place.after (scan.quoting.seen c)
  quoting : next.quoting = scan.quoting.after c
  quotes : ∀ p ∈ next.quotes, p ∈ scan.quotes ∨ c = '"' ∧ p = scan.place

theorem moves_stepOutside (hpending : scan.pending = none) : scan.Moves c (scan.stepOutside c) := by
  have houtside : scan.quoting = .outside := quoting_of_none hpending
  have hnext : (scan.stepOutside c).pending = _ := pending_stepOutside hpending
  refine ⟨?_, ?_, fun p hp => ?_⟩
  · rw [place_stepOutside, houtside]
    rfl
  · rw [houtside, Quoting.after]
    by_cases hquote : c = '"'
    · rw [if_pos hquote] at hnext ⊢
      exact quoting_of_some hnext
    · rw [if_neg hquote] at hnext ⊢
      exact quoting_of_none hnext
  · rw [quotes, places_stepOutside, hnext] at hp
    by_cases hquote : c = '"'
    · rw [if_pos hquote, List.mem_append] at hp
      exact hp.imp (List.mem_append_left _) fun new => ⟨hquote, List.mem_singleton.mp new⟩
    · rw [if_neg hquote] at hp
      rw [quotes, hpending]
      exact Or.inl hp

theorem moves_stepInside (hpending : scan.pending = some string) :
    scan.Moves c (scan.stepInside string c rest) := by
  rw [stepInside]
  by_cases hescaped : string.escaped = true
  · have hquoting : scan.quoting = .escaped := by rw [quoting_of_some hpending, if_pos hescaped]
    rw [if_pos hescaped]
    refine ⟨?_, ?_, fun p hp => Or.inl ?_⟩
    · simp only [hquoting, Quoting.seen, Position.after, nextColumn]
      split <;> simp_all
    · rw [hquoting, quoting_of_some rfl]
      rfl
    · rw [quotes, hpending]
      exact hp
  · have hquoting : scan.quoting = .inside := by rw [quoting_of_some hpending, if_neg hescaped]
    have hseen : scan.quoting.seen c = c := by simp [hquoting, Quoting.seen]
    rw [if_neg hescaped]
    by_cases hquote : c = '"'
    · rw [if_pos hquote]
      refine ⟨?_, ?_, fun p hp => Or.inl ?_⟩
      · rw [place_closeString, hseen, hquote]
        rfl
      · rw [quoting_of_none pending_closeString, hquoting, hquote]
        rfl
      · rw [quotes, pending_closeString, Option.map_none, Option.toList_none, List.append_nil] at hp
        rw [quotes, hpending, List.mem_append]
        exact (mem_places_closeString hp).imp_right List.mem_singleton.mpr
    · rw [if_neg hquote]
      refine ⟨by rw [hseen], ?_, fun p hp => Or.inl ?_⟩
      · rw [hquoting, Quoting.after, if_neg hquote, quoting_of_some rfl]
        simp only [beq_iff_eq]
      · rw [quotes, hpending]
        exact hp

theorem moves_step (scan : Scan) (c : Point) (rest : List Point) :
    scan.Moves c (scan.step c rest) := by
  cases hpending : scan.pending with
  | none =>
      simp only [step, hpending]
      exact moves_stepOutside hpending
  | some string =>
      simp only [step, hpending]
      exact moves_stepInside hpending

/-- A scan in step with the spliced text stays so to the end of the text. -/
theorem seenAtQuote_run {text : List Point} {offset : Nat} (hat : text.drop offset = rest)
    (hplace : scan.place = Position.ofOffset (spliced text) offset)
    (hseen : (spliced text).drop offset = splice scan.quoting rest)
    (hquotes : ∀ p ∈ scan.quotes, SeenAtQuote text p) :
    ∀ p ∈ (run scan rest).quotes, SeenAtQuote text p := by
  induction rest generalizing scan offset with
  | nil => exact hquotes
  | cons c rest ih =>
      have hmoves : scan.Moves c (scan.step c rest) := moves_step scan c rest
      have hnext : text.drop (offset + 1) = rest := by
        rw [← List.drop_drop, hat, List.drop_one, List.tail_cons]
      refine ih hnext ?_ ?_ fun p hp => ?_
      · rw [hmoves.place, hplace, Position.ofOffset_succ hseen]
      · rw [← List.drop_drop, hseen, splice, List.drop_one, List.tail_cons, hmoves.quoting]
      · obtain hold | ⟨rfl, rfl⟩ := hmoves.quotes p hp
        · exact hquotes p hold
        · have hget : text[offset]? = some (Point.char '"') := by rw [← List.head?_drop, hat, List.head?_cons]
          exact ⟨offset, hget, hplace⟩

end Scan

/-- Every place that a scan records, of the first members on a path and of repeats alike, is the
place of a quote of the text, as lines are counted without the line feeds that strings escape. It is
the true place of that quote exactly if there is no such line feed before it. -/
theorem places_scan (text : List Point) :
    ∀ p ∈ (scan text).places, ∃ offset, text[offset]? = some (Point.char '"') ∧
      p = Position.ofOffset (spliced text) offset ∧
      (p = Position.ofOffset text offset ↔ (spliced text).take offset = text.take offset) := by
  intro p hp
  have hquote : p ∈ (scan text).quotes := List.mem_append_left _ hp
  have hstart : text.drop 0 = text := rfl
  have hnone : ∀ p ∈ ({} : Scan).quotes, SeenAtQuote text p := nofun
  obtain ⟨offset, hget, rfl⟩ := Scan.seenAtQuote_run hstart rfl rfl hnone p hquote
  exact ⟨offset, hget, rfl, ofOffset_spliced_iff text offset⟩

/-- A repeat on the third line of a text that breaks off. -/
theorem places_scan_unclosed :
    let text := (Text.ofString "\x7b\n\"a\": 1,\n\"a\": ").toList
    ⟨3, 1⟩ ∈ (scan text).places ∧ ∃ offset, text[offset]? = some (Point.char '"') ∧
      ⟨3, 1⟩ = Position.ofOffset (spliced text) offset ∧
      (⟨3, 1⟩ = Position.ofOffset text offset ↔ (spliced text).take offset = text.take offset) := by
  intro text
  have hmem : ⟨3, 1⟩ ∈ (scan text).places := by decide
  exact ⟨hmem, places_scan text _ hmem⟩

/-- Behind a line feed that a string escapes a name is recorded in the line before, where no quote
is. -/
theorem places_scan_escaped_break :
    let text := (Text.ofString "\x7b\"a\\\n\": 1, \"b\": 2\x7d").toList
    (Text.ofString "b", ⟨1, 12⟩) ∈ (scan text).positions ∧
      ∀ offset, text[offset]? = some (Point.char '"') → Position.ofOffset text offset ≠ ⟨1, 12⟩ := by
  intro text
  refine ⟨by decide, fun offset hquote => ?_⟩
  have hlength : offset < 18 := (List.getElem?_eq_some_iff.mp hquote).1
  clear hquote
  revert hlength offset
  decide

end LocaleKeys.Key
