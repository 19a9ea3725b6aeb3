import LocaleKeys.Key.Scan
import LocaleKeys.Proofs.Assoc
import LocaleKeys.Proofs.Json.Grammar
import LocaleKeys.Proofs.Key.Occurrence

/-!
Scanning accepted text. The scan carries no grammar, only a stack of open brackets; on a phrase of
the grammar it leaves the stack as it found it and records the member names of the phrase in order.
-/

namespace LocaleKeys

namespace Text.Position

theorem ofOffset_succ {text rest : List Point} {offset : Nat} {c : Point}
    (h : text.drop offset = c :: rest) :
    ofOffset text (offset + 1) = (ofOffset text offset).after c := by
  have hget : text[offset]? = some c := by
    rw [← List.head?_drop, h]
    rfl
  unfold ofOffset afterAll
  rw [List.take_add_one, hget, List.foldl_append]
  rfl

end Text.Position

namespace Key

open Json (At Cursor Spells)
open Text (Position)

namespace Scan

/-- A scan that has come to an offset of a text. -/
def goTo (text : List Point) (offset : Nat) (scan : Scan) : Scan :=
  { scan with place := Position.ofOffset text offset }

/-- A scan with these brackets open. -/
def framed (frames : List Frame) (scan : Scan) : Scan :=
  { scan with frames }

@[simp]
theorem frames_framed (frames : List Frame) (scan : Scan) : (scan.framed frames).frames = frames :=
  rfl

@[simp]
theorem framed_frames (scan : Scan) : scan.framed scan.frames = scan := rfl

@[simp]
theorem framed_framed (first second : List Frame) (scan : Scan) :
    (scan.framed first).framed second = scan.framed second := rfl

/-- What a scan notes for a member name. -/
def record (text : List Point) (scan : Scan) (o : Occurrence) : Scan :=
  if o.repeated then { scan with repeats := scan.repeats ++ [⟨o.name, o.path, o.place text⟩] }
  else { scan with positions := Assoc.offer o.path (o.place text) scan.positions }

section Record

variable (text : List Point) (scan : Scan) (os : List Occurrence)

@[simp]
theorem frames_record (o : Occurrence) : (scan.record text o).frames = scan.frames := by
  rw [record]
  split <;> rfl

@[simp]
theorem pending_record (o : Occurrence) : (scan.record text o).pending = scan.pending := by
  rw [record]
  split <;> rfl

@[simp]
theorem frames_foldl_record : (os.foldl (record text) scan).frames = scan.frames := by
  induction os generalizing scan with
  | nil => rfl
  | cons o os ih => rw [List.foldl_cons, ih, frames_record]

@[simp]
theorem pending_foldl_record : (os.foldl (record text) scan).pending = scan.pending := by
  induction os generalizing scan with
  | nil => rfl
  | cons o os ih => rw [List.foldl_cons, ih, pending_record]

theorem record_framed (frames : List Frame) (o : Occurrence) :
    record text (scan.framed frames) o = (scan.record text o).framed frames := by
  simp only [record]
  split <;> rfl

/-- Recording does not look at the open brackets. -/
theorem foldl_record_framed (frames : List Frame) :
    os.foldl (record text) (scan.framed frames) = (os.foldl (record text) scan).framed frames := by
  induction os generalizing scan with
  | nil => rfl
  | cons o os ih => rw [List.foldl_cons, List.foldl_cons, record_framed, ih]

theorem repeats_foldl_record :
    (os.foldl (record text) scan).repeats =
      scan.repeats ++ (os.filter (·.repeated)).map fun o => ⟨o.name, o.path, o.place text⟩ := by
  induction os generalizing scan with
  | nil => simp
  | cons o os ih =>
      rw [List.foldl_cons, ih, record]
      split
      · next h => simp [h]
      · next h => simp [h]

/-- The first of the names on a path gives it its place. -/
theorem positions_foldl_record (path : Text) :
    Assoc.get? path (os.foldl (record text) scan).positions =
      (Assoc.get? path scan.positions).or
        (((os.filter (!·.repeated)).find? (·.path == path)).map (·.place text)) := by
  induction os generalizing scan with
  | nil => simp
  | cons o os ih =>
      rw [List.foldl_cons, ih, record]
      split
      · next h => simp [h]
      · next h =>
          rw [Assoc.get?_offer, Option.or_assoc, List.filter_cons_of_pos (by simp [h])]
          by_cases hpath : o.path = path <;> simp [hpath]

end Record

/-! Characters outside strings -/

/-- A character that the scan passes over outside strings. -/
def Inert (c : Point) : Prop :=
  c ≠ '"' ∧ c ≠ '{' ∧ c ≠ '[' ∧ c ≠ '}' ∧ c ≠ ']' ∧ c ≠ ','

theorem inert_of_isSpace {c : Point} (h : Json.isSpace c = true) : Inert c := by
  simp only [Json.isSpace, Bool.or_eq_true, beq_iff_eq] at h
  rw [Inert]
  rcases h with ((rfl | rfl) | rfl) | rfl <;> decide

theorem inert_of_isLiteralChar {c : Point} (h : Json.isLiteralChar c = true) : Inert c := by
  refine ⟨?_, ?_, ?_, ?_, ?_, ?_⟩ <;>
    (rintro rfl
     exact absurd h (by decide))

variable {text : List Point}

theorem run_step {scan : Scan} {c : Point} {rest : List Point} {offset : Nat}
    (hpending : scan.pending = none) :
    (scan.goTo text offset).run (c :: rest) = ((scan.goTo text offset).stepOutside c).run rest := by
  simp only [run, step, goTo, hpending]

theorem stepOutside_inert {scan : Scan} {c : Point} {rest : List Point} {offset : Nat} (h : Inert c)
    (hat : At text ⟨c :: rest, offset⟩) :
    (scan.goTo text offset).stepOutside c = scan.goTo text (offset + 1) := by
  obtain ⟨h₁, h₂, h₃, h₄, h₅, h₆⟩ := h
  simp [stepOutside, goTo, h₁, h₂, h₃, h₄, h₅, h₆, Position.ofOffset_succ hat]

theorem run_inert {scan : Scan} (taken rest : List Point) {offset : Nat}
    (hpending : scan.pending = none) (hat : text.drop offset = taken ++ rest)
    (h : ∀ c ∈ taken, Inert c) :
    (scan.goTo text offset).run (taken ++ rest) =
      (scan.goTo text (offset + taken.length)).run rest := by
  induction taken generalizing offset with
  | nil => rfl
  | cons c taken ih =>
      have hnext : text.drop (offset + 1) = taken ++ rest := Json.drop_add_of_eq [c] hat
      have hothers : ∀ d ∈ taken, Inert d := fun d hd => h d (List.mem_cons_of_mem _ hd)
      rw [List.cons_append, run_step hpending, stepOutside_inert (h c List.mem_cons_self) hat,
        ih hnext hothers, List.length_cons, Nat.add_assoc, Nat.add_comm 1]

theorem run_skip {scan : Scan} {c : Cursor} (hpending : scan.pending = none) (hat : At text c) :
    (scan.goTo text c.offset).run c.rest = (scan.goTo text c.skip.offset).run c.skip.rest := by
  have hsplit := List.takeWhile_append_dropWhile (p := Json.isSpace) (l := c.rest)
  have h := run_inert (c.rest.takeWhile Json.isSpace) (c.rest.dropWhile Json.isSpace) hpending
    (hat.trans hsplit.symm)
    fun d hd => inert_of_isSpace (List.mem_takeWhile_imp hd)
  rwa [hsplit] at h

/-! Strings -/

/-- Raw characters that keep a string open: no quote on its own, and no line feed that is escaped.
-/
inductive Quiet : List Point → Prop
  | nil : Quiet []
  | plain {c : Point} {raw : List Point} (hq : c ≠ '"') (hb : c ≠ '\\') (more : Quiet raw) :
      Quiet (c :: raw)
  | escaped {c : Point} {raw : List Point} (hc : c ≠ '\n') (more : Quiet raw) :
      Quiet (Point.char '\\' :: c :: raw)

theorem ordinary_of_hexValue? {c : Point} {n : Nat} (h : Json.hexValue? c = some n) :
    c ≠ '"' ∧ c ≠ '\\' := by
  constructor <;>
    (rintro rfl
     cases h)

theorem ordinary_of_hexValue4? {a b c d : Point} {n : Nat} (h : Json.hexValue4? a b c d = some n) :
    ∀ e ∈ [a, b, c, d], e ≠ '"' ∧ e ≠ '\\' := by
  rw [Json.hexValue4?] at h
  split at h
  · next ha hb hc hd =>
      simp [ordinary_of_hexValue? ha, ordinary_of_hexValue? hb, ordinary_of_hexValue? hc,
        ordinary_of_hexValue? hd]
  · cases h

theorem Quiet.append {taken raw : List Point} (h : ∀ c ∈ taken, c ≠ '"' ∧ c ≠ '\\')
    (more : Quiet raw) : Quiet (taken ++ raw) := by
  induction taken with
  | nil => exact more
  | cons c taken ih =>
      obtain ⟨hq, hb⟩ := h c List.mem_cons_self
      exact .plain hq hb (ih fun d hd => h d (List.mem_cons_of_mem _ hd))

theorem quiet_of_spells {raw cs : List Point} (h : Spells raw cs) : Quiet raw := by
  induction h with
  | nil => exact .nil
  | plain hq hb _ _ ih => exact .plain hq hb ih
  | letter hd _ ih =>
      refine .escaped ?_ ih
      rintro rfl
      cases hd
  | unit hu _ _ ih => exact .escaped (by decide) (Quiet.append (ordinary_of_hexValue4? hu) ih)
  | pair hh _ hl _ _ ih =>
      have low := Quiet.append (ordinary_of_hexValue4? hl) ih
      exact .escaped (by decide) (Quiet.append (ordinary_of_hexValue4? hh)
        (.escaped (by decide) low))

/-- A scan inside a string. -/
def inside (text : List Point) (offset : Nat) (start : Position) (reversed : List Point)
    (scan : Scan) : Scan :=
  { scan.goTo text offset with pending := some { start, reversed } }

theorem run_quiet (scan : Scan) (start : Position) {raw rest : List Point} (h : Quiet raw)
    {offset : Nat} (hat : text.drop offset = raw ++ rest) (reversed : List Point) :
    (scan.inside text offset start reversed).run (raw ++ rest) =
      (scan.inside text (offset + raw.length) start (raw.reverse ++ reversed)).run rest := by
  induction h generalizing offset reversed with
  | nil => rfl
  | @plain c raw hq hb _ ih =>
      have hstep : (scan.inside text offset start reversed).step c (raw ++ rest) =
          scan.inside text (offset + 1) start (c :: reversed) := by
        simp [step, stepInside, inside, goTo, hq, hb, Position.ofOffset_succ hat]
      have hnext : text.drop (offset + 1) = raw ++ rest := Json.drop_add_of_eq [c] hat
      rw [List.cons_append, run, hstep, ih hnext]
      simp [Nat.add_assoc, Nat.add_comm 1]
  | @escaped c raw hc _ ih =>
      have hnext : text.drop (offset + 1) = c :: (raw ++ rest) := Json.drop_add_of_eq ['\\'] hat
      have hstep : ((scan.inside text offset start reversed).step '\\' (c :: (raw ++ rest))).step c
          (raw ++ rest) = scan.inside text (offset + 2) start (c :: Point.char '\\' :: reversed) := by
        simp [step, stepInside, inside, goTo, nextColumn, Position.ofOffset_succ hat,
          Position.ofOffset_succ hnext, Position.after, hc]
      have hthen : text.drop (offset + 2) = raw ++ rest := Json.drop_add_of_eq ['\\', c] hat
      rw [List.cons_append, List.cons_append, run, run, hstep, ih hthen]
      simp [Nat.add_assoc, Nat.add_comm 2]

theorem decodeName_of_spells {raw cs : List Point} (h : Spells raw cs) :
    decodeName raw = Text.ofList cs := by
  rw [decodeName, Json.stringBody_of_spells h 0 [] 1]

/-- A string up to its closing quote. -/
theorem run_string {scan : Scan} {raw cs rest : List Point} {offset : Nat} (h : Spells raw cs)
    (hpending : scan.pending = none)
    (hat : At text ⟨Point.char '"' :: (raw ++ Point.char '"' :: rest), offset⟩) :
    (scan.goTo text offset).run (Point.char '"' :: (raw ++ Point.char '"' :: rest)) =
      ((scan.inside text (offset + raw.length + 1) (Position.ofOffset text offset)
        raw.reverse).closeString ⟨Position.ofOffset text offset, raw.reverse, false⟩ rest).run
          rest := by
  have hopen : (scan.goTo text offset).stepOutside '"' =
      scan.inside text (offset + 1) (Position.ofOffset text offset) [] := by
    simp [stepOutside, inside, goTo, Position.ofOffset_succ hat]
  have hbody : text.drop (offset + 1) = raw ++ Point.char '"' :: rest := Json.drop_add_of_eq ['"'] hat
  have hquiet := run_quiet scan (Position.ofOffset text offset) (quiet_of_spells h) hbody []
  rw [run_step hpending, hopen, hquiet, run, List.append_nil, Nat.add_right_comm]
  rfl

/-- The place of the quote that closes a string lies in the line of the string. -/
theorem closed_inside {scan : Scan} (hpending : scan.pending = none) {rest : List Point}
    {offset : Nat} (hat : At text ⟨Point.char '"' :: rest, offset⟩) (start : Position)
    (reversed : List Point) :
    { scan.inside text offset start reversed with
      pending := none
      place := nextColumn (scan.inside text offset start reversed).place } =
      scan.goTo text (offset + 1) := by
  have hplace := Position.ofOffset_succ (show text.drop offset = Point.char '"' :: rest from hat)
  rw [Position.after, if_neg (by decide)] at hplace
  cases scan
  simp_all [inside, goTo, nextColumn]

/-- A string that no colon follows is passed over. -/
theorem run_value {scan : Scan} {raw cs rest : List Point} {offset : Nat} (h : Spells raw cs)
    (hpending : scan.pending = none)
    (hat : At text ⟨Point.char '"' :: (raw ++ Point.char '"' :: rest), offset⟩)
    (hcolon : (rest.dropWhile Json.isSpace).head? ≠ some (Point.char ':')) :
    (scan.goTo text offset).run (Point.char '"' :: (raw ++ Point.char '"' :: rest)) =
      (scan.goTo text (offset + raw.length + 2)).run rest := by
  have hclose : At text ⟨Point.char '"' :: rest, offset + raw.length + 1⟩ :=
    hat.reaches ⟨Point.char '"' :: raw, by simp, by simp; omega⟩
  rw [run_string h hpending hat, closeString]
  simp only [closed_inside hpending hclose]
  split
  · next heq _ => exact absurd heq hcolon
  · rfl

/-- What an object knows after a member name. -/
def noted (frame : Frame) (name : Text) : Frame :=
  { frame with
    member := join frame.path name
    seen := if frame.seen.contains name then frame.seen else name :: frame.seen }

theorem contains_seen_noted (frame : Frame) (name other : Text) :
    (noted frame name).seen.contains other = (frame.seen ++ [name]).contains other := by
  by_cases h : name ∈ frame.seen
  · by_cases hother : other = name <;> simp [noted, h, hother]
  · simp [noted, h, Bool.or_comm]

theorem noteMember_goTo (scan : Scan) (frame : Frame) (outer : List Frame) (name : Text)
    (offset next : Nat) :
    (scan.goTo text next).noteMember frame outer name (Position.ofOffset text offset) =
      ((scan.record text ⟨name, join frame.path name, offset, frame.seen.contains name⟩).framed
        (noted frame name :: outer)).goTo text next := by
  simp only [noteMember, record, noted]
  split <;> rfl

/-- A string that a colon follows is the name of a member. -/
theorem run_name {scan : Scan} {frame : Frame} {outer : List Frame} {raw cs rest : List Point}
    {offset : Nat} (h : Spells raw cs) (hpending : scan.pending = none)
    (hframes : scan.frames = frame :: outer) (hobject : frame.isObject = true)
    (hat : At text ⟨Point.char '"' :: (raw ++ Point.char '"' :: rest), offset⟩)
    (hcolon : (rest.dropWhile Json.isSpace).head? = some (Point.char ':')) :
    (scan.goTo text offset).run (Point.char '"' :: (raw ++ Point.char '"' :: rest)) =
      (((scan.record text ⟨Text.ofList cs, join frame.path (Text.ofList cs), offset,
        frame.seen.contains (Text.ofList cs)⟩).framed
          (noted frame (Text.ofList cs) :: outer)).goTo text (offset + raw.length + 2)).run
            rest := by
  have hclose : At text ⟨Point.char '"' :: rest, offset + raw.length + 1⟩ :=
    hat.reaches ⟨Point.char '"' :: raw, by simp, by simp; omega⟩
  rw [run_string h hpending hat, closeString]
  have hinside : (scan.inside text (offset + raw.length + 1) (Position.ofOffset text offset)
      raw.reverse).frames = frame :: outer := hframes
  simp only [closed_inside hpending hclose]
  simp only [hcolon, hinside, hobject, if_true, List.reverse_reverse, decodeName_of_spells h,
    noteMember_goTo]

end Scan
end Key
end LocaleKeys
