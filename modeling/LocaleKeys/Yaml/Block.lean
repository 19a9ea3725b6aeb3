import LocaleKeys.Yaml.Scalar

/-!
Block scalars: lines below an indicator, indented further than what is around them. In a literal one
every line end stays; in a folded one a line end between two lines that start with text becomes a
space.
-/

namespace LocaleKeys.Yaml.Block

/-- What becomes of the line ends behind the last line. -/
inductive Chomping
  | clip
  | strip
  | keep
  deriving DecidableEq, Repr

/-- What the indicator says: the chomping, and by how much the lines are indented. -/
structure Header where
  chomping : Chomping := .clip
  increment : Option Nat := none
  deriving DecidableEq, Repr

def chomping? (cursor : Cursor) : Option (Chomping × Cursor) :=
  match cursor.rest with
  | .char '+' :: _ => some (.keep, cursor.next)
  | .char '-' :: _ => some (.strip, cursor.next)
  | _ => none

/-- Reads a digit for the indentation; it is not zero. -/
def increment? (cursor : Cursor) : Except Error (Option Nat × Cursor) :=
  match cursor.rest with
  | [] => .ok (none, cursor)
  | c :: _ =>
    if c = '0' then .error (cursor.error .malformed)
    else if c.isDigit then .ok (some (c.toNat - 0x30), cursor.next)
    else .ok (none, cursor)

/-- Reads the sign and the digit, in either order, up to the end of the line. -/
def header (cursor : Cursor) : Except Error (Header × Cursor) :=
  let read : Except Error (Header × Cursor) :=
    match chomping? cursor with
    | some (chomping, cursor) =>
      (increment? cursor).map fun (increment, cursor) => (⟨chomping, increment⟩, cursor)
    | none =>
      match increment? cursor with
      | .error e => .error e
      | .ok (none, cursor) => .ok ({}, cursor)
      | .ok (increment, cursor) =>
        match chomping? cursor with
        | some (chomping, cursor) => .ok (⟨chomping, increment⟩, cursor)
        | none => .ok (⟨.clip, increment⟩, cursor)
  match read with
  | .error e => .error e
  | .ok (header, cursor) =>
    if !atSpace cursor.rest then .error (cursor.error .malformed)
    else
      let cursor := cursor.skipSpaces.skipComment
      if !atBreak cursor.rest then .error (cursor.error .malformed)
      else .ok (header, ((cursor.takeBreak).map (·.2)).getD cursor)

/-- Takes the blank lines before the text, with the widest indentation among them. -/
def leading : (budget : Nat) → Cursor → (taken : List Point) → (widest : Nat) →
    List Point × Nat × Cursor
  | 0, cursor, taken, widest => (taken.reverse, widest, cursor)
  | budget + 1, cursor, taken, widest =>
    match cursor.takeBreak with
    | some (c, cursor) => leading budget cursor (c :: taken) widest
    | none =>
      if cursor.atChar ' ' then leading budget cursor.next taken (max widest cursor.next.column)
      else (taken.reverse, widest, cursor)

def indentation (indent : Nat) : (budget : Nat) → Cursor → Cursor
  | 0, cursor => cursor
  | budget + 1, cursor =>
    if cursor.column < indent && cursor.atChar ' ' then indentation indent budget cursor.next
    else cursor

/-- Takes blank lines, none of them indented further than the text. -/
def breaks (indent : Nat) : (budget : Nat) → Cursor → (taken : List Point) → List Point × Cursor
  | 0, cursor, taken => (taken.reverse, cursor)
  | budget + 1, cursor, taken =>
    let cursor := indentation indent indent cursor
    match cursor.takeBreak with
    | none => (taken.reverse, cursor)
    | some (c, cursor) => breaks indent budget cursor (c :: taken)

def startsWithText (cursor : Cursor) : Bool :=
  !cursor.atAny [' ', '\t']

/-- The text of the lines, with what stands behind it: the end of the last line, if it has one, and
the blank lines that follow. -/
structure Body where
  text : List Point := []
  lastBreak : List Point := []
  more : List Point
  cursor : Cursor

/-- Reads lines; `body` holds those before, with the blank lines that precede the next one. -/
def lines (folded : Bool) (indent : Nat) : (budget : Nat) → Body → Body
  | 0, body => body
  | budget + 1, body =>
    if body.cursor.column ≠ indent || body.cursor.rest.isEmpty then body
    else
      let withText := startsWithText body.cursor
      let line := body.cursor.run (!isBreak ·)
      let text := body.text ++ body.more ++ line
      let cursor := body.cursor.advance line.length
      let (lastBreak, cursor) : List Point × Cursor :=
        match cursor.takeBreak with
        | some (c, cursor) => ([c], cursor)
        | none => ([], cursor)
      let (more, cursor) := breaks indent (cursor.rest.length + 1) cursor []
      if cursor.column ≠ indent || cursor.rest.isEmpty then ⟨text, lastBreak, more, cursor⟩
      else
        let joint : List Point :=
          if folded && lastBreak = [Point.char '\n'] && withText && startsWithText cursor then
            if more.isEmpty then [' '] else []
          else lastBreak
        lines folded indent budget ⟨text ++ joint, lastBreak, more, cursor⟩

/-- Reads a block scalar from its indicator on. The lines around it are indented by `around`. -/
def read (folded : Bool) (around : Int) (cursor : Cursor) : Except Error Scalar :=
  match header cursor.next with
  | .error e => .error e
  | .ok (header, cursor) =>
    let least := (max 1 (around + 1)).toNat
    let (more, indent, cursor) : List Point × Nat × Cursor :=
      match header.increment with
      | none =>
        let (more, widest, cursor) := leading (cursor.rest.length + 1) cursor [] 0
        (more, max least widest, cursor)
      | some n =>
        let indent := least + n - 1
        let (more, cursor) := breaks indent (cursor.rest.length + 1) cursor []
        (more, indent, cursor)
    let body := lines folded indent (cursor.rest.length + 1) { more, cursor }
    let text := match header.chomping with
      | .strip => body.text
      | .clip => body.text ++ body.lastBreak
      | .keep => body.text ++ body.lastBreak ++ body.more
    .ok ⟨text, body.cursor, true⟩

end LocaleKeys.Yaml.Block
