import LocaleKeys.Key.Path
import LocaleKeys.Json.Reader

/-!
Finding member names in raw text. The scan follows strings and brackets and nothing else, so it also
answers for text that is not JSON: it records where each member path first stands, and every name
that its object has had before.
-/

namespace LocaleKeys.Key

open Text (Position)

/-- A name that its object has had before. -/
structure Repeat where
  name : Text
  path : Text
  place : Position
  deriving DecidableEq, Repr

/-- An open bracket. In an object `seen` holds the names so far and `member` the path of the last
one; in an array `index` counts the commas. -/
structure Frame where
  isObject : Bool
  path : Text
  seen : List Text := []
  index : Nat := 0
  member : Text := ""
  deriving Repr

/-- A string that is being read: where it starts, its characters latest first, and whether the next
character is escaped. -/
structure Pending where
  start : Position
  reversed : List Point := []
  escaped : Bool := false
  deriving Repr

/-- The state of a scan: the place of the next character, the open brackets, innermost first, and
what was found. -/
structure Scan where
  place : Position := Position.start
  frames : List Frame := []
  pending : Option Pending := none
  positions : List (Text × Position) := []
  repeats : List Repeat := []
  deriving Repr

/-- The name that the raw characters between two quotes stand for; those that are no proper string
stand for themselves. -/
def decodeName (raw : List Point) : Text :=
  match Json.stringBody 0 0 (raw ++ [Point.char '"']) 1 with
  | .ok (cs, _) => Text.ofList cs
  | .error _ => Text.ofList raw

namespace Scan

/-- The place of the next character when the present one only moves on in its line. -/
def nextColumn (p : Position) : Position :=
  ⟨p.line, p.column + 1⟩

def noteMember (scan : Scan) (frame : Frame) (outer : List Frame) (name : Text)
    (start : Position) : Scan :=
  let path := join frame.path name
  if frame.seen.contains name then
    { scan with
      frames := { frame with member := path } :: outer
      repeats := scan.repeats ++ [⟨name, path, start⟩] }
  else
    { scan with
      frames := { frame with member := path, seen := name :: frame.seen } :: outer
      positions := Assoc.offer path start scan.positions }

/-- Closes a string. It is a member name if a colon follows and an object is open. -/
def closeString (scan : Scan) (string : Pending) (rest : List Point) : Scan :=
  let closed := { scan with pending := none, place := nextColumn scan.place }
  match (rest.dropWhile Json.isSpace).head?, closed.frames with
  | some (.char ':'), frame :: outer =>
    if frame.isObject then
      closed.noteMember frame outer (decodeName string.reversed.reverse) string.start
    else closed
  | _, _ => closed

/-- A character inside a string. An escaped line feed does not start a new line. -/
def stepInside (scan : Scan) (string : Pending) (c : Point) (rest : List Point) : Scan :=
  if string.escaped then
    { scan with
      pending := some { string with reversed := c :: string.reversed, escaped := false }
      place := nextColumn scan.place }
  else if c = '"' then scan.closeString string rest
  else
    { scan with
      pending := some { string with reversed := c :: string.reversed, escaped := c == '\\' }
      place := scan.place.after c }

def openPath (scan : Scan) : Text :=
  match scan.frames with
  | [] => ""
  | frame :: _ =>
    if frame.isObject then (if frame.member = "" then frame.path else frame.member)
    else index frame.path frame.index

def countComma : List Frame → List Frame
  | [] => []
  | frame :: outer =>
    if frame.isObject then frame :: outer else { frame with index := frame.index + 1 } :: outer

def stepOutside (scan : Scan) (c : Point) : Scan :=
  let moved := { scan with place := scan.place.after c }
  if c = '"' then { moved with pending := some { start := scan.place } }
  else if c = '{' then
    { moved with frames := { isObject := true, path := scan.openPath } :: scan.frames }
  else if c = '[' then
    { moved with frames := { isObject := false, path := scan.openPath } :: scan.frames }
  else if c = '}' ∨ c = ']' then { moved with frames := scan.frames.drop 1 }
  else if c = ',' then { moved with frames := countComma scan.frames }
  else moved

def step (scan : Scan) (c : Point) (rest : List Point) : Scan :=
  match scan.pending with
  | some string => scan.stepInside string c rest
  | none => scan.stepOutside c

def run : Scan → List Point → Scan
  | scan, [] => scan
  | scan, c :: rest => run (scan.step c rest) rest

/-- The place of a key or of its nearest ancestor with a place, in at most `steps` steps up. -/
def locateFrom (scan : Scan) : (steps : Nat) → List Point → Option Position
  | 0, _ => none
  | steps + 1, key =>
    if key = [] then none
    else
      match Assoc.get? (Text.ofList key) scan.positions with
      | some place => some place
      | none => locateFrom scan steps (parent key)

/-- The place of a key, or of its nearest ancestor that has one. -/
def locate (scan : Scan) (key : Text) : Option Position :=
  scan.locateFrom (key.toList.length + 1) key.toList

end Scan

def scan (text : List Point) : Scan :=
  Scan.run {} text

end LocaleKeys.Key
