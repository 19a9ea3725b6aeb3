import LocaleKeys.Source.Token

/-!
Parsers over tokens. A parser takes tokens from the front or gives up; what a grammar repeats is
bounded by the number of tokens.

Rules that have begun and are not finished lie one inside the other, and only so many levels of them
find room. How many levels further in a part of a rule lies is written as a pair: `⟨a, b⟩` where a text
is read first, and where one that does not follow the grammar is read again with more care.
-/

namespace LocaleKeys.Source

/-- Why all reading ends: there is no room for a further rule, or a token is malformed. -/
inductive Stop
  | noRoom
  | malformed
  deriving DecidableEq, Repr

/-- How many levels further in something lies, at the first reading and when it is read again. -/
structure Levels where
  first : Nat
  again : Nat
  deriving DecidableEq, Repr

instance : Add Levels where
  add a b := ⟨a.first + b.first, a.again + b.again⟩

/-- Where an operand lies: how far in; where places to assign to may stand, by how much less the
brackets of its first part; and whether it opens a statement. -/
structure Position where
  levels : Levels
  lead : Option Levels := none
  opens : Bool := false
  deriving Repr

/-- The room of a parser: how many levels are left, what its position says of the part that comes
first, and whether the text is read again. -/
structure Room where
  left : Nat
  lead : Option Nat := none
  opens : Bool := false
  isAgain : Bool := false
  deriving DecidableEq, Repr

def Room.count (room : Room) (levels : Levels) : Nat :=
  if room.isAgain then levels.again else levels.first

/-- A parser in some room: it may give up, and otherwise gives a result and the remaining tokens. -/
abbrev Parser := ReaderT Room (StateT (List Token) (OptionT (Except Stop)))

/-- The rules that refer to themselves, with the names of characters that quoted texts may use. Inside
its brackets and blocks a rule uses those of one level further down. -/
structure Rules where
  names : CharNames
  expression : Parser Node
  disjunction : Parser Node
  bitwise : Parser Node
  pattern : Parser Node
  block : Parser (List Node)

namespace Parser

variable {α β : Type}

def placed (position : Position) (p : Parser α) : Parser α :=
  fun room =>
    let levels := room.count position.levels
    if room.left < levels then fun _ => .error .noRoom
    else p { room with
      left := room.left - levels
      lead := position.lead.map room.count
      opens := position.opens }

def inside (levels : Levels) (p : Parser α) : Parser α :=
  placed { levels } p

/-- Ends all reading if there is no room for some levels. -/
def needs (levels : Levels) : Parser Unit :=
  inside levels (pure ())

/-- Runs a parser behind marks that stand before it. Each is a level. -/
def behind (marks : List β) (p : Parser α) : Parser α :=
  if marks.isEmpty then p else inside ⟨marks.length, marks.length⟩ p

def apart (p : Parser α) : Parser α :=
  inside ⟨0, 0⟩ p

def inBrackets (p : Parser α) : Parser α :=
  fun room => inside ⟨0, 0⟩ p { room with left := room.left + room.lead.getD 0 }

/-- Runs a parser for an index, which lies less far in where it may be assigned to. -/
def inIndex (p : Parser α) : Parser α :=
  fun room =>
    let less := if room.lead.isSome then room.count ⟨0, 3⟩ else 0
    inBrackets p { room with left := room.left + less }

/-- By how much less far in the first part of a group lies than other parts. -/
def groupLead : Parser (Option Levels) :=
  fun room tokens => .ok (some (if room.opens then some ⟨27, 29⟩ else none, tokens))

/-- The room for rules that are not finished, in levels. -/
def wholeRoom : Nat := 6002

/-- Runs a parser on tokens that it has to take up to some that are the end. Tokens that do not
follow the grammar are read again; that finds nothing, unless there is no room for it. -/
def readAll (p : Parser α) (isEnd : List Token → Bool) (tokens : List Token) :
    Except Stop (Option α) :=
  match p { left := wholeRoom } tokens with
  | .error e => .error e
  | .ok result =>
    match result.filter fun (_, rest) => isEnd rest with
    | some (a, _) => .ok (some a)
    | none =>
      match p { left := wholeRoom, isAgain := true } tokens with
      | .error e => .error e
      | .ok _ => .ok none

/-- Runs a parser on tokens of their own, in a room of its own. It has to take them all up to the
end of a line. -/
def onLine (tokens : List Token) (p : Parser α) : Parser α :=
  fun _ outer =>
    match readAll p (fun rest => rest.map (·.kind) = [.newline]) tokens with
    | .error e => .error e
    | .ok none => .error .malformed
    | .ok (some a) => .ok (some (a, outer))

/-- What a value stands for; without one the token is malformed. -/
def ofOption (a : Option α) : Parser α :=
  fun _ tokens =>
    match a with
    | some a => .ok (some (a, tokens))
    | none => .error .malformed

def kindOf (tokens : List Token) : Except Stop (Option TokenKind) :=
  let kind := tokens.head?.map Token.kind
  if kind = some .malformed then .error .malformed else .ok kind

def peek : Parser (Option TokenKind) :=
  fun _ tokens => (kindOf tokens).map fun kind => some (kind, tokens)

def peekSecond : Parser (Option TokenKind) :=
  fun _ tokens => (kindOf (tokens.drop 1)).map fun kind => some (kind, tokens)

def next : Parser Token :=
  fun _ tokens =>
    match tokens with
    | [] => .ok none
    | t :: rest => if t.kind = .malformed then .error .malformed else .ok (some (t, rest))

def expect (kind : TokenKind) : Parser Unit := do
  if (← next).kind = kind then pure () else failure

def op (s : String) : Parser Unit :=
  expect (.operator s)

def word (s : String) : Parser Unit :=
  expect (.word s)

def sees (kind : TokenKind) : Parser Bool := do
  return (← peek) = some kind

def seesOp (s : String) : Parser Bool :=
  sees (.operator s)

def seesWord (s : String) : Parser Bool :=
  sees (.word s)

/-- Takes a token if it comes next, and tells whether it did. -/
def takes (kind : TokenKind) : Parser Bool := do
  if ← sees kind then
    expect kind
    return true
  else return false

def takesOp (s : String) : Parser Bool :=
  takes (.operator s)

def takesWord (s : String) : Parser Bool :=
  takes (.word s)

/-- Takes one of several keywords if one comes next, and tells whether it did. -/
def takesWordIn (words : List String) : Parser Bool := do
  match ← peek with
  | some (.word s) => if words.contains s then takesWord s else return false
  | _ => return false

def opIn (operators : List String) : Parser String := do
  match (← next).kind with
  | .operator s => if operators.contains s then pure s else failure
  | _ => failure

/-- Repeats a parser until it gives up, at most once for each element of `bound`. The parser is told
how many results came before. -/
def manyFrom (p : Nat → Parser α) (count : Nat) : (bound : List Token) → Parser (List α)
  | [] => pure []
  | _ :: bound => fun room tokens =>
    match p count room tokens with
    | .error e => .error e
    | .ok none => .ok (some ([], tokens))
    | .ok (some (a, tokens)) =>
      match manyFrom p (count + 1) bound room tokens with
      | .error e => .error e
      | .ok none => .ok none
      | .ok (some (more, tokens)) => .ok (some (a :: more, tokens))

/-- Repeats a parser until it gives up. Each time it takes a token. -/
def many (p : Parser α) : Parser (List α) :=
  fun room tokens => manyFrom (fun _ => p) 0 tokens room tokens

/-- Repeats a parser until it gives up, at least once. -/
def many1 (p : Parser α) : Parser (List α) := do
  let a ← p
  let more ← many p
  return a :: more

def attempt (p : Parser α) : Parser (Option α) :=
  fun room tokens =>
    match p room tokens with
    | .error e => .error e
    | .ok none => .ok (some (none, tokens))
    | .ok (some (a, tokens)) => .ok (some (some a, tokens))

def commaItems (first later : Parser α) : Parser (List α) := do
  let a ← first
  let more ← many (do op ","; later)
  return a :: more

/-- An item and perhaps more of them, with commas between and perhaps one behind; tells whether a
comma was there. -/
def commaList (first later : Parser α) : Parser (List α × Bool) := do
  let items ← commaItems first later
  let trailing ← takesOp ","
  return (items, trailing || 1 < items.length)

/-- Items with commas between and perhaps one behind, up to a closing bracket; there may be none. -/
def commaListTo (close : String) (first later : Parser α) : Parser (List α × Bool) := do
  if ← takesOp close then return ([], false)
  let list ← commaList first later
  op close
  return list

def check (b : Bool) : Parser Unit :=
  if b then pure () else failure

end Parser

def keywords : List String := [
  "False", "None", "True", "and", "as", "assert", "async", "await", "break", "class", "continue",
  "def", "del", "elif", "else", "except", "finally", "for", "from", "global", "if", "import", "in",
  "is", "lambda", "nonlocal", "not", "or", "pass", "raise", "return", "try", "while", "with",
  "yield"]

namespace Parser

/-- Takes a name, which is a word that is not reserved. -/
def identifier : Parser String := do
  match (← next).kind with
  | .word s => if keywords.contains s then failure else pure s
  | _ => failure

/-- Whether a name comes next with a given operator behind it. -/
def seesNameThen (s : String) : Parser Bool := do
  match ← peek with
  | some (.word w) =>
    if keywords.contains w then return false
    else return (← peekSecond) = some (.operator s)
  | _ => return false

end Parser
end LocaleKeys.Source
