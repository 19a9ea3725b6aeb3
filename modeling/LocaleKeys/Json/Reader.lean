import LocaleKeys.Json.Value
import LocaleKeys.Number.Integer
import LocaleKeys.Text.Lines

/-!
Reading JSON text. The grammar is the standard one with three additions, the numbers `NaN`,
`Infinity` and `-Infinity`; a fault names what was expected and where. Nesting is bounded, and so is
the length of an integer.
-/

namespace LocaleKeys.Json

/-- What is wrong at a place of a text. -/
inductive Cause
  | expectingValue
  | expectingName
  | expectingColon
  | expectingComma
  | extraData
  | unterminatedString
  | controlCharacter
  | invalidEscape
  | invalidCodeEscape
  | byteOrderMark
  deriving DecidableEq, Repr

def Cause.text : Cause → Text
  | .expectingValue => "Expecting value"
  | .expectingName => "Expecting property name enclosed in double quotes"
  | .expectingColon => "Expecting ':' delimiter"
  | .expectingComma => "Expecting ',' delimiter"
  | .extraData => "Extra data"
  | .unterminatedString => "Unterminated string starting at"
  | .controlCharacter => "Invalid control character at"
  | .invalidEscape => "Invalid \\escape"
  | .invalidCodeEscape => "Invalid \\uXXXX escape"
  | .byteOrderMark => "Unexpected UTF-8 BOM (decode using utf-8-sig)"

/-- Why a text has no value. -/
inductive Fault
  | malformed (cause : Cause) (offset : Nat)
  | longInteger (digits : Nat)
  | tooDeep
  deriving DecidableEq, Repr

def maxDepth : Nat := 990

/-- The message for a fault in `text`; nesting that is too deep has none. -/
def Fault.message (text : List Point) : Fault → Option Text
  | .malformed cause offset =>
    let p := Text.Position.ofOffset text offset
    some (cause.text ++ ": line " ++ Text.ofNat p.line ++ " column " ++ Text.ofNat p.column ++
      " (char " ++ Text.ofNat offset ++ ")")
  | .longInteger digits => some (Number.tooLongMessage digits)
  | .tooDeep => none

/-- Where reading stands: the remaining characters and the number of those before them. -/
structure Cursor where
  rest : List Point
  offset : Nat
  deriving DecidableEq, Repr

def isSpace (c : Point) : Bool :=
  c == ' ' || c == '\t' || c == '\n' || c == '\r'

def skipSpace (s : List Point) (offset : Nat) : Cursor :=
  ⟨s.dropWhile isSpace, offset + (s.takeWhile isSpace).length⟩

def hexValue? (c : Point) : Option Nat :=
  if '0' ≤ c ∧ c ≤ '9' then some (c.toNat - 0x30)
  else if 'a' ≤ c ∧ c ≤ 'f' then some (c.toNat - 0x57)
  else if 'A' ≤ c ∧ c ≤ 'F' then some (c.toNat - 0x37)
  else none

def hexValue4? (a b c d : Point) : Option Nat :=
  match hexValue? a, hexValue? b, hexValue? c, hexValue? d with
  | some a, some b, some c, some d => some (((a * 16 + b) * 16 + c) * 16 + d)
  | _, _, _, _ => none

def pairChar (high low : Nat) : Point :=
  Point.ofNat (0x10000 + (high - 0xd800) * 0x400 + (low - 0xdc00))

/-- Reads four digits behind `\u`, and the second half of a pair if one follows. Gives the character
and the number of characters from the `u` on; `offset` is where the `u` stands. Text that ends with
the digits is refused here. -/
def codeEscape (s : List Point) (offset : Nat) : Except Fault (Point × Nat) :=
  match s with
  | a :: b :: c :: d :: e :: more =>
    match hexValue4? a b c d with
    | none => .error (.malformed .invalidCodeEscape offset)
    | some unit =>
      if 0xd800 ≤ unit ∧ unit < 0xdc00 then
        match e :: more with
        | .char '\\' :: .char 'u' :: a :: b :: c :: d :: _ :: _ =>
          match hexValue4? a b c d with
          | none => .error (.malformed .invalidCodeEscape (offset + 6))
          | some low =>
            if 0xdc00 ≤ low ∧ low < 0xe000 then .ok (pairChar unit low, 11)
            else .ok (Point.ofNat unit, 5)
        | _ => .ok (Point.ofNat unit, 5)
      else .ok (Point.ofNat unit, 5)
  | _ => .error (.malformed .invalidCodeEscape offset)

/-- The character that a letter behind a backslash stands for. -/
def letterEscape? : Point → Option Point
  | .char '"' => some '"'
  | .char '\\' => some '\\'
  | .char '/' => some '/'
  | .char 'b' => some '\x08'
  | .char 'f' => some '\x0c'
  | .char 'n' => some '\n'
  | .char 'r' => some '\r'
  | .char 't' => some '\t'
  | _ => none

/-- Reads what follows a backslash that stands at `offset`, in a string opened at `start`. Gives the
character and the number of characters behind the backslash. -/
def escape (start : Nat) (s : List Point) (offset : Nat) : Except Fault (Point × Nat) :=
  match s with
  | [] => .error (.malformed .unterminatedString start)
  | .char 'u' :: rest => codeEscape rest (offset + 1)
  | c :: _ =>
    match letterEscape? c with
    | some d => .ok (d, 1)
    | none => .error (.malformed .invalidEscape offset)

/-- Reads a string opened at `start` up to its closing quote; `skip` characters still belong to the
escape before. -/
def stringBody (start : Nat) : (skip : Nat) → List Point → Nat →
    Except Fault (List Point × Cursor)
  | _, [], _ => .error (.malformed .unterminatedString start)
  | skip + 1, _ :: rest, offset => stringBody start skip rest (offset + 1)
  | 0, c :: rest, offset =>
    if c = '"' then .ok ([], ⟨rest, offset + 1⟩)
    else if c = '\\' then
      match escape start rest offset with
      | .error f => .error f
      | .ok (d, length) =>
        match stringBody start length rest (offset + 1) with
        | .ok (cs, cursor) => .ok (d :: cs, cursor)
        | .error f => .error f
    else if c.toNat < 0x20 then .error (.malformed .controlCharacter offset)
    else
      match stringBody start 0 rest (offset + 1) with
      | .ok (cs, cursor) => .ok (c :: cs, cursor)
      | .error f => .error f

/-- The digits of a number before its point: a zero alone, or a run that starts otherwise. -/
def wholeDigits (s : List Point) : List Point × List Point :=
  match s with
  | .char '0' :: rest => (['0'], rest)
  | _ => Number.spanDigits s

/-- The digits behind a point, if a point with a digit follows. -/
def fractionDigits (s : List Point) : List Point × List Point :=
  match s with
  | .char '.' :: rest => if (Number.spanDigits rest).1 = [] then ([], s) else Number.spanDigits rest
  | _ => ([], s)

def exponentSign (s : List Point) (offset : Nat) : Bool × Cursor :=
  match s with
  | .char '-' :: rest => (true, ⟨rest, offset + 1⟩)
  | .char '+' :: rest => (false, ⟨rest, offset + 1⟩)
  | _ => (false, ⟨s, offset⟩)

/-- The sign and digits of an exponent, if one follows, with what remains. -/
def exponentDigits (s : List Point) (offset : Nat) : Option (Bool × List Point × Cursor) :=
  match s with
  | c :: rest =>
    if c = 'e' ∨ c = 'E' then
      let (negative, cursor) := exponentSign rest (offset + 1)
      let (digits, rest) := Number.spanDigits cursor.rest
      if digits = [] then none else some (negative, digits, ⟨rest, cursor.offset + digits.length⟩)
    else none
  | [] => none

/-- Reads a number behind its sign, with what remains. There is none where no digit stands. -/
def number? (negative : Bool) (s : List Point) (offset : Nat) :
    Option (Except Fault (Scalar × Cursor)) :=
  let (whole, rest) := wholeDigits s
  if whole = [] then none
  else
    let (fraction, rest) := fractionDigits rest
    let offset := offset + whole.length + (if fraction = [] then 0 else fraction.length + 1)
    match exponentDigits rest offset with
    | some (negativeExponent, digits, cursor) =>
      let exponent := Number.signed negativeExponent (Number.ofDigits digits)
      some (.ok (.float (Number.toDouble negative whole fraction exponent), cursor))
    | none =>
      if fraction = [] then
        if Number.maxDigits < whole.length then some (.error (.longInteger whole.length))
        else some (.ok (.int (Number.signed negative (Number.ofDigits whole)), ⟨rest, offset⟩))
      else some (.ok (.float (Number.toDouble negative whole fraction 0), ⟨rest, offset⟩))

/-- Reads a value that is neither a string nor a container. -/
def literal (s : List Point) (offset : Nat) : Except Fault (Scalar × Cursor) :=
  let missing : Except Fault (Scalar × Cursor) := .error (.malformed .expectingValue offset)
  match s with
  | .char 'n' :: .char 'u' :: .char 'l' :: .char 'l' :: rest => .ok (.null, ⟨rest, offset + 4⟩)
  | .char 't' :: .char 'r' :: .char 'u' :: .char 'e' :: rest => .ok (.bool true, ⟨rest, offset + 4⟩)
  | .char 'f' :: .char 'a' :: .char 'l' :: .char 's' :: .char 'e' :: rest =>
    .ok (.bool false, ⟨rest, offset + 5⟩)
  | .char 'N' :: .char 'a' :: .char 'N' :: rest => .ok (.float .nan, ⟨rest, offset + 3⟩)
  | .char 'I' :: .char 'n' :: .char 'f' :: .char 'i' :: .char 'n' :: .char 'i' :: .char 't' ::
    .char 'y' :: rest =>
    .ok (.float (.infinite false), ⟨rest, offset + 8⟩)
  | .char '-' :: .char 'I' :: .char 'n' :: .char 'f' :: .char 'i' :: .char 'n' :: .char 'i' ::
    .char 't' :: .char 'y' :: rest =>
    .ok (.float (.infinite true), ⟨rest, offset + 9⟩)
  | .char '-' :: rest => (number? true rest (offset + 1)).getD missing
  | _ => (number? false s offset).getD missing

abbrev ValueReader := List Point → Nat → Except Fault (Tree × Cursor)

/-- Reads elements up to the closing bracket; at least one must follow. -/
def elements (item : ValueReader) : (budget : Nat) → List Point → Nat →
    Except Fault (List Tree × Cursor)
  | 0, _, offset => .error (.malformed .expectingValue offset)
  | budget + 1, s, offset =>
    match item s offset with
    | .error f => .error f
    | .ok (tree, cursor) =>
      let next := skipSpace cursor.rest cursor.offset
      match next.rest with
      | .char ']' :: rest => .ok ([tree], ⟨rest, next.offset + 1⟩)
      | .char ',' :: rest =>
        let next := skipSpace rest (next.offset + 1)
        match elements item budget next.rest next.offset with
        | .ok (trees, cursor) => .ok (tree :: trees, cursor)
        | .error f => .error f
      | _ => .error (.malformed .expectingComma next.offset)

/-- Reads members up to the closing brace; at least one must follow. -/
def members (item : ValueReader) : (budget : Nat) → List Point → Nat →
    Except Fault (List (Name × Tree) × Cursor)
  | 0, _, offset => .error (.malformed .expectingName offset)
  | budget + 1, s, offset =>
    match s with
    | .char '"' :: body =>
      match stringBody offset 0 body (offset + 1) with
      | .error f => .error f
      | .ok (name, cursor) =>
        let colon := skipSpace cursor.rest cursor.offset
        match colon.rest with
        | .char ':' :: rest =>
          let next := skipSpace rest (colon.offset + 1)
          match item next.rest next.offset with
          | .error f => .error f
          | .ok (tree, cursor) =>
            let member := (⟨Text.ofList name, offset⟩, tree)
            let next := skipSpace cursor.rest cursor.offset
            match next.rest with
            | .char '}' :: rest => .ok ([member], ⟨rest, next.offset + 1⟩)
            | .char ',' :: rest =>
              let next := skipSpace rest (next.offset + 1)
              match members item budget next.rest next.offset with
              | .ok (more, cursor) => .ok (member :: more, cursor)
              | .error f => .error f
            | _ => .error (.malformed .expectingComma next.offset)
        | _ => .error (.malformed .expectingColon colon.offset)
    | _ => .error (.malformed .expectingName offset)

/-- Reads one value with at most `depth` containers open at once, each of no more than `budget`
parts. -/
def value (budget : Nat) : (depth : Nat) → ValueReader
  | depth, s, offset =>
    match s with
    | .char '"' :: body =>
      match stringBody offset 0 body (offset + 1) with
      | .ok (cs, cursor) => .ok (.scalar (.str (Text.ofList cs)), cursor)
      | .error f => .error f
    | .char '[' :: rest =>
      match depth with
      | 0 => .error .tooDeep
      | depth + 1 =>
        let next := skipSpace rest (offset + 1)
        match next.rest with
        | .char ']' :: rest => .ok (.arr [], ⟨rest, next.offset + 1⟩)
        | _ =>
          match elements (value budget depth) budget next.rest next.offset with
          | .ok (trees, cursor) => .ok (.arr trees, cursor)
          | .error f => .error f
    | .char '{' :: rest =>
      match depth with
      | 0 => .error .tooDeep
      | depth + 1 =>
        let next := skipSpace rest (offset + 1)
        match next.rest with
        | .char '}' :: rest => .ok (.obj [], ⟨rest, next.offset + 1⟩)
        | _ =>
          match members (value budget depth) budget next.rest next.offset with
          | .ok (more, cursor) => .ok (.obj more, cursor)
          | .error f => .error f
    | _ =>
      match literal s offset with
      | .ok (x, cursor) => .ok (.scalar x, cursor)
      | .error f => .error f

def readTree (text : List Point) : Except Fault Tree :=
  match text with
  | .char '\uFEFF' :: _ => .error (.malformed .byteOrderMark 0)
  | _ =>
    let start := skipSpace text 0
    match value (text.length + 1) maxDepth start.rest start.offset with
    | .error f => .error f
    | .ok (tree, cursor) =>
      let stop := skipSpace cursor.rest cursor.offset
      match stop.rest with
      | [] => .ok tree
      | _ => .error (.malformed .extraData stop.offset)

def read (policy : Repeats) (text : List Point) : Except Fault Json :=
  match readTree text with
  | .ok tree => .ok (tree.toJson policy)
  | .error f => .error f

end LocaleKeys.Json
