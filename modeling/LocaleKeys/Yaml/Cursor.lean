import LocaleKeys.Text.Utf8

/-!
A place in YAML text: the characters from there on, with their index, line and column. Line ends have
been made one before, so a line ends at a line feed or at one of three rarer characters.

Where something is wrong with the text behind a place, that shows as soon as a character there is asked
for. A place therefore knows whether the end of the text has been asked for: going on asks for the
character that is reached, and whoever looks further ahead says how far.
-/

namespace LocaleKeys.Yaml

/-- Why text has no value. -/
inductive Error
  | malformed
  | encoding (f : Text.Utf8.Fault)
  | badValue (message : Text)
  | badName (name : Text)
  | tooLarge (message : Text)
  | noDigits
  | noStamp
  | noText
  | tooDeep
  deriving DecidableEq, Repr

def isBreak (c : Point) : Bool :=
  c = '\n' || c = '\x85' || c = '\u2028' || c = '\u2029'

/-- Whether a text is at its end or at the end of a line. -/
def atBreak : List Point → Bool
  | [] => true
  | c :: _ => isBreak c

/-- Whether a text is at its end, at the end of a line, or at a space. -/
def atSpace : List Point → Bool
  | [] => true
  | c :: _ => c = ' ' || isBreak c

/-- Whether a text is at its end, at the end of a line, at a space or at a tab. -/
def atGap : List Point → Bool
  | [] => true
  | c :: _ => c = ' ' || c = '\t' || isBreak c

/-- A place in a text: whether the end of the text has been asked for, and what is wrong there, if
anything is. -/
structure Cursor where
  rest : List Point
  index : Nat := 0
  line : Nat := 0
  column : Nat := 0
  askedEnd : Bool := rest.isEmpty
  cut : Option Error := none
  deriving Repr

namespace Cursor

def peek (cursor : Cursor) : Option Point :=
  cursor.rest.head?

def atChar (cursor : Cursor) (c : Point) : Bool :=
  cursor.rest.head? == some c

def atAny (cursor : Cursor) (chars : List Point) : Bool :=
  match cursor.rest with
  | [] => false
  | c :: _ => chars.contains c

def ask (count : Nat) (cursor : Cursor) : Cursor :=
  { cursor with askedEnd := cursor.askedEnd || (cursor.rest.drop (count - 1)).isEmpty }

/-- What is wrong with the characters that have been asked for. -/
def fault (cursor : Cursor) : Option Error :=
  if cursor.askedEnd then cursor.cut else none

/-- The error at a place: what is wrong with the characters asked for goes before what they say. -/
def error (cursor : Cursor) (e : Error) : Error :=
  cursor.fault.getD e

/-- The next place. A byte order mark takes no column. -/
def next (cursor : Cursor) : Cursor :=
  match cursor.rest with
  | [] => cursor
  | c :: rest =>
    let moved : Cursor :=
      { cursor with
        rest, index := cursor.index + 1, askedEnd := cursor.askedEnd || rest.isEmpty }
    if isBreak c then { moved with line := cursor.line + 1, column := 0 }
    else if c = '\ufeff' then moved
    else { moved with column := cursor.column + 1 }

def advance : Nat → Cursor → Cursor
  | 0, cursor => cursor
  | n + 1, cursor => advance n cursor.next

/-- The characters that pass a test, up to the first that does not. -/
def run (cursor : Cursor) (test : Point → Bool) : List Point :=
  cursor.rest.takeWhile test

def skip (cursor : Cursor) (test : Point → Bool) : Cursor :=
  advance (cursor.run test).length cursor

/-- The place behind a comment, if there is one, at the end of its line. -/
def skipComment (cursor : Cursor) : Cursor :=
  if cursor.atChar '#' then cursor.skip (!isBreak ·) else cursor

def skipSpaces (cursor : Cursor) : Cursor :=
  cursor.skip (· = Point.char ' ')

/-- Takes the end of a line, if there is one. The rarest two line ends stand for themselves, the
others for a line feed. -/
def takeBreak (cursor : Cursor) : Option (Point × Cursor) :=
  match cursor.rest with
  | [] => none
  | c :: _ =>
    if !isBreak c then none
    else some (if c = '\x85' then '\n' else c, cursor.next)

/-- Asks for what tells whether a line that sets documents apart starts here. -/
def askEdge (cursor : Cursor) : Cursor :=
  let mark := cursor.rest.take 3
  cursor.ask (if mark = [Point.char '-', '-', '-'] || mark = [Point.char '.', '.', '.'] then 4 else 3)

/-- Whether a line that sets documents apart starts here: three hyphens or three dots. -/
def atMarker (cursor : Cursor) (mark : Point) : Bool :=
  [mark, mark, mark].isPrefixOf cursor.rest && atGap (cursor.rest.drop 3)

/-- Whether either of the two kinds of lines that set documents apart starts here. -/
def atDocumentEdge (cursor : Cursor) : Bool :=
  cursor.atMarker '-' || cursor.atMarker '.'

end Cursor
end LocaleKeys.Yaml
