import LocaleKeys.Text.Point

/-!
Lines of a text: ends of all kinds become one, and an offset has a line and a column, both counted
from one.
-/

namespace LocaleKeys.Text

/-- A place in a text, counted from one. -/
structure Position where
  line : Nat
  column : Nat
  deriving DecidableEq, Repr, Inhabited

namespace Position

def start : Position := ⟨1, 1⟩

def after (p : Position) (c : Point) : Position :=
  if c = '\n' then ⟨p.line + 1, 1⟩ else ⟨p.line, p.column + 1⟩

/-- The place after a run of characters that starts at `p`. -/
def afterAll (p : Position) (s : List Point) : Position :=
  s.foldl after p

/-- The place of the character with `offset` characters before it. -/
def ofOffset (s : List Point) (offset : Nat) : Position :=
  start.afterAll (s.take offset)

end Position

/-- Carriage returns, with or without a line feed after them, become line feeds. -/
def unifyLineEnds : List Point → List Point
  | [] => []
  | .char '\r' :: .char '\n' :: rest => '\n' :: unifyLineEnds rest
  | .char '\r' :: rest => '\n' :: unifyLineEnds rest
  | c :: rest => c :: unifyLineEnds rest

/-- A text without the line feed at its end, if it has one. -/
def dropFinalBreak (s : List Point) : List Point :=
  if s.getLast? == some (Point.char '\n') then s.dropLast else s

end LocaleKeys.Text
