import LocaleKeys.Yaml.Cursor

/-!
The texts of scalars: plain ones, quoted ones, and blocks of lines. Lines of plain and of quoted
scalars are folded: a single line end becomes a space, of several the first one is dropped.
-/

namespace LocaleKeys.Yaml

/-- A scalar that has been read: its text, the place behind it, and whether that place comes after
the end of a line. -/
structure Scalar where
  text : List Point
  cursor : Cursor
  onNewLine : Bool := false

/-- What a folded line end leaves, with the further line ends behind it. -/
def foldBreak (first : Point) (more : List Point) : List Point :=
  if first ≠ '\n' then first :: more
  else if more.isEmpty then [' '] else more

namespace Plain

def endsAt (inFlow : Bool) : List Point → Bool
  | [] => true
  | c :: rest =>
    c = ' ' || c = '\t' || isBreak c ||
    (c = ':' &&
      (atGap rest || inFlow && (rest.head?.any [Point.char ',', '[', ']', '{', '}'].contains))) ||
    (inFlow && [Point.char ',', '?', '[', ']', '{', '}'].contains c)

/-- The characters of a plain scalar up to the next gap. -/
def word (inFlow : Bool) : List Point → List Point
  | [] => []
  | c :: rest => if endsAt inFlow (c :: rest) then [] else c :: word inFlow rest

/-- Takes line ends and the spaces between them; nothing where a document ends. -/
def breaks : (budget : Nat) → Cursor → List Point → Option (List Point) × Cursor
  | 0, cursor, taken => (some taken.reverse, cursor)
  | budget + 1, cursor, taken =>
    let cursor := cursor.askEdge
    if cursor.atDocumentEdge then (none, cursor)
    else
      let cursor := cursor.skipSpaces
      match cursor.takeBreak with
      | none => (some taken.reverse, cursor)
      | some (c, cursor) => breaks budget cursor (c :: taken)

/-- What stands between two words: spaces, or folded line ends. Nothing where the scalar ends. -/
def gap (cursor : Cursor) : Scalar :=
  let spaces := cursor.run (· = Point.char ' ')
  let cursor := cursor.skipSpaces
  match cursor.takeBreak with
  | none => ⟨spaces, cursor, false⟩
  | some (first, cursor) =>
    match breaks cursor.rest.length cursor [] with
    | (none, cursor) => ⟨[], cursor, true⟩
    | (some more, cursor) => ⟨foldBreak first more, cursor, true⟩

/-- Asks for the characters of a word and for what ends it. A colon takes a further character. -/
def askWord (word : List Point) (cursor : Cursor) : Cursor :=
  let count := word.length
  cursor.ask (if (cursor.rest.drop count).head? == some (Point.char ':') then count + 2 else count + 1)

/-- Reads on with words and gaps, `before` being the gap before the next word and `text` what has been
read, last first. Outside of flow collections, lines have to be indented by `indent`. -/
def words (inFlow : Bool) (indent : Int) :
    (budget : Nat) → Cursor → (before text : List Point) → (onNewLine : Bool) → Scalar
  | 0, cursor, _, text, onNewLine => ⟨text.reverse, cursor, onNewLine⟩
  | budget + 1, cursor, before, text, onNewLine =>
    let found := if cursor.atChar '#' then [] else word inFlow cursor.rest
    let cursor := askWord found cursor
    if found.isEmpty then ⟨text.reverse, cursor, onNewLine⟩
    else
      let text := found.reverse ++ (before.reverse ++ text)
      let after := gap (cursor.advance found.length)
      if after.text.isEmpty || after.cursor.atChar '#' ||
          (!inFlow && (after.cursor.column : Int) < indent) then
        ⟨text.reverse, after.cursor, after.onNewLine⟩
      else words inFlow indent budget after.cursor after.text text after.onNewLine

def read (inFlow : Bool) (indent : Int) (cursor : Cursor) : Scalar :=
  words inFlow indent (cursor.rest.length + 1) cursor [] [] false

end Plain

namespace Quoted

def escapes : List (Point × Point) := [
  ('0', '\x00'), ('a', '\x07'), ('b', '\x08'), ('t', '\t'), ('\t', '\t'), ('n', '\n'),
  ('v', '\x0b'), ('f', '\x0c'), ('r', '\r'), ('e', '\x1b'), (' ', ' '), ('"', '"'), ('\\', '\\'),
  ('/', '/'), ('N', '\x85'), ('_', '\xa0'), ('L', '\u2028'), ('P', '\u2029')]

/-- How many hexadecimal digits follow a character behind a backslash. -/
def codeLength? : Point → Option Nat
  | .char 'x' => some 2
  | .char 'u' => some 4
  | .char 'U' => some 8
  | _ => none

def hexValue? (c : Point) : Option Nat :=
  if '0' ≤ c && c ≤ '9' then some (c.toNat - 0x30)
  else if 'a' ≤ c && c ≤ 'f' then some (c.toNat - 0x57)
  else if 'A' ≤ c && c ≤ 'F' then some (c.toNat - 0x37)
  else none

def hexNumber? (digits : List Point) : Option Nat :=
  digits.foldl (fun n c =>
    match n, hexValue? c with
    | some n, some d => some (16 * n + d)
    | _, _ => none) (some 0)

def codeBound : Nat := 0x80000000

/-- Reads a character that is given by so many hexadecimal digits. -/
def code (count : Nat) (cursor : Cursor) : Except Error (Point × Cursor) :=
  let digits := (cursor.rest.take count).takeWhile fun c => (hexValue? c).isSome
  match hexNumber? digits with
  | none => .error .malformed
  | some code =>
    if digits.length < count then .error ((cursor.ask (digits.length + 1)).error .malformed)
    else if code < 0x110000 then .ok (Point.ofNat code, cursor.advance count)
    else if code < codeBound then .error (.badValue "chr() arg not in range(0x110000)")
    else .error (.tooLarge "Python int too large to convert to C int")

/-- Takes line ends and the blanks around them. No document may end here. -/
def breaks : (budget : Nat) → Cursor → List Point → Except Error (List Point × Cursor)
  | 0, cursor, taken => .ok (taken.reverse, cursor)
  | budget + 1, cursor, taken =>
    let cursor := cursor.askEdge
    if cursor.atDocumentEdge then .error (cursor.error .malformed)
    else
      let cursor := cursor.skip fun c => c = ' ' || c = '\t'
      match cursor.takeBreak with
      | none => .ok (taken.reverse, cursor)
      | some (c, cursor) => breaks budget cursor (c :: taken)

/-- Reads what a backslash starts; the place is behind the backslash. -/
def escape (cursor : Cursor) : Except Error (List Point × Cursor) :=
  match cursor.rest with
  | [] => .error (cursor.error .malformed)
  | c :: _ =>
    match (escapes.find? (·.1 = c)).map (·.2), codeLength? c with
    | some meant, _ => .ok ([meant], cursor.next)
    | none, some count => (code count cursor.next).map fun (meant, cursor) => ([meant], cursor)
    | none, none =>
      match cursor.takeBreak with
      | none => .error (cursor.error .malformed)
      | some (_, cursor) => breaks (cursor.rest.length + 1) cursor []

/-- Reads what stands between two words: blanks, or folded line ends. -/
def gap (cursor : Cursor) : Except Error (List Point × Cursor) :=
  let isBlank (c : Point) : Bool := c = ' ' || c = '\t'
  let blanks := cursor.run isBlank
  let cursor := cursor.skip isBlank
  match cursor.takeBreak with
  | none =>
    if cursor.rest.isEmpty then .error (cursor.error .malformed) else .ok (blanks, cursor)
  | some (first, cursor) =>
    match breaks (cursor.rest.length + 1) cursor [] with
    | .error e => .error e
    | .ok (more, cursor) => .ok (foldBreak first more, cursor)

/-- Reads the inside of a quoted scalar up to the closing quote, which it goes behind; `text` is what
has been read, last first. -/
def inside (double : Bool) : (budget : Nat) → Cursor → (text : List Point) → Except Error Scalar
  | 0, cursor, _ => .error (cursor.error .malformed)
  | budget + 1, cursor, text =>
    match cursor.rest with
    | [] => .error (cursor.error .malformed)
    | c :: rest =>
      if double then
        if c = '"' then .ok ⟨text.reverse, cursor.next, false⟩
        else if c = '\\' then
          match escape cursor.next with
          | .error e => .error e
          | .ok (found, cursor) => inside double budget cursor (found.reverse ++ text)
        else
          piece double budget cursor text c
      else if c = '\'' then
        let cursor := cursor.ask 2
        if rest.head? == some (Point.char '\'') then inside double budget (cursor.advance 2) ('\'' :: text)
        else .ok ⟨text.reverse, cursor.next, false⟩
      else piece double budget cursor text c
where
  /-- Reads a gap or a character that stands for itself, and goes on. -/
  piece (double : Bool) (budget : Nat) (cursor : Cursor) (text : List Point) (c : Point) :
      Except Error Scalar :=
    if c = ' ' || c = '\t' || isBreak c then
      match gap cursor with
      | .error e => .error e
      | .ok (found, cursor) => inside double budget cursor (found.reverse ++ text)
    else inside double budget cursor.next (c :: text)

def read (double : Bool) (cursor : Cursor) : Except Error Scalar :=
  inside double (cursor.rest.length + 1) cursor.next []

end Quoted
end LocaleKeys.Yaml
