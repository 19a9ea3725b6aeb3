import LocaleKeys.Source.Token

/-!
Splitting source text into tokens. Lines end statements except inside brackets; the margin of a line
opens and closes blocks.
-/

namespace LocaleKeys.Source

/-- The width of the margin of a line, with tabs reaching to the next multiple of eight, and with
tabs counted as one. Margins are compared by both. -/
structure Margin where
  width : Nat := 0
  plain : Nat := 0
  deriving DecidableEq, Repr, Inhabited

/-- Where splitting stands: the place of the next character, the closing brackets that are still to
come, and the margins of the open blocks, innermost first. -/
structure LexState where
  place : Place := Place.start
  awaited : List Char := []
  margins : List Margin := [{}]
  deriving Repr

/-- The greatest number of margins, that of the outermost level included. -/
def maxMargins : Nat := 100

def maxBrackets : Nat := 200

/-- Measures the margin of a line, and moves the place over it. A line that is continued within its
margin has the margin up to the first continuation, unless that is empty; `fixed` is its width. -/
def marginOf? (margin : Margin) (fixed : Nat) (place : Place) :
    List Char → Option (Margin × Place × List Char)
  | [] => some (if fixed = 0 then margin else ⟨fixed, fixed⟩, place, [])
  | c :: rest =>
    if c = ' ' then marginOf? ⟨margin.width + 1, margin.plain + 1⟩ fixed (place.after c) rest
    else if c = '\t' then
      marginOf? ⟨(margin.width / 8 + 1) * 8, margin.plain + 1⟩ fixed (place.after c) rest
    else if c = '\x0c' then marginOf? {} fixed (place.after c) rest
    else if c = '\\' then
      match rest with
      | '\n' :: d :: more =>
        marginOf? margin (if fixed = 0 then margin.width else fixed)
          ((place.after c).after '\n') (d :: more)
      | _ => none
    else some (if fixed = 0 then margin else ⟨fixed, fixed⟩, place, c :: rest)

/-- The margins after a line with a margin, and the kinds of tokens that tell of the change. -/
def changeMargin? (margin : Margin) (margins : List Margin) :
    Option (List Margin × List TokenKind) :=
  match margins with
  | [] => none
  | inner :: _ =>
    if margin.width = inner.width then
      if margin.plain = inner.plain then some (margins, []) else none
    else if inner.width < margin.width then
      if margins.length < maxMargins && inner.plain < margin.plain then
        some (margin :: margins, [.indent])
      else none
    else
      let outer := margins.dropWhile fun m => margin.width < m.width
      if outer.head? = some margin then
        some (outer, List.replicate (margins.length - outer.length) .dedent)
      else none

def trackBracket? (awaited : List Char) (operator : String) : Option (List Char) :=
  match operator.toList with
  | [c] =>
    match c with
    | '(' => openBracket ')'
    | '[' => openBracket ']'
    | '\x7b' => openBracket '\x7d'
    | ')' | ']' | '\x7d' =>
      match awaited with
      | close :: outer => if c = close then some outer else none
      | [] => none
    | _ => some awaited
  | _ => some awaited
where
  /-- Opens a bracket that `close` closes. -/
  openBracket (close : Char) : Option (List Char) :=
    if awaited.length < maxBrackets then some (close :: awaited) else none

def isLineBlank (c : Char) : Bool :=
  c = ' ' || c = '\t' || c = '\x0c'

/-- The token that a text starts with, and its length. -/
def token? (place : Place) (s : List Char) : Option (TokenKind × Nat) :=
  match s with
  | [] => none
  | c :: _ =>
    if startsWord c then
      let word := s.takeWhile isWordChar
      if quotationMarks.contains (word.map Char.toLower) && startsQuoted (s.drop word.length) then
        (quotation? word place s).map fun (q, n) => (.quotation q, n)
      else if word.all (·.toNat < 0x80) || isIdentifier word then
        some (.word (String.ofList word), word.length)
      else none
    else if startsNumber s then (numberLength? s).map fun (n, imaginary) => (.number imaginary, n)
    else if startsQuoted s then (quotation? [] place s).map fun (q, n) => (.quotation q, n)
    else (operator? s).map fun o => (.operator o, o.length)

def LexState.track? (state : LexState) (kind : TokenKind) : Option (List Char) :=
  match kind with
  | .operator o => trackBracket? state.awaited o
  | _ => some state.awaited

/-- A step of the splitting: the tokens that are found, the state behind them, whether a line starts
there, and the remaining text. -/
structure LexStep where
  tokens : List Token := []
  state : LexState
  atLineStart : Bool := false
  rest : List Char

/-- The state with the place moved over some characters. -/
def LexState.moveOver (state : LexState) (passed : List Char) : LexState :=
  { state with place := state.place.afterAll passed }

def LexState.mark (state : LexState) (kind : TokenKind) : Token :=
  ⟨kind, state.place, state.place.line⟩

def isEmptyLine (s : List Char) : Bool :=
  s.head? = some '#' || s.head? = some '\n'

/-- The start of a line outside brackets. A line with nothing but a comment is passed over. -/
def lineStart? (state : LexState) (s : List Char) : Option LexStep :=
  match marginOf? {} 0 state.place s with
  | none => none
  | some (margin, place, rest) =>
    let moved := { state with place }
    if isEmptyLine rest then
      let comment := rest.takeWhile (· ≠ '\n')
      let behind := rest.drop comment.length
      some {
        state := (moved.moveOver comment).moveOver (behind.take 1)
        atLineStart := true
        rest := behind.drop 1 }
    else
      match changeMargin? margin state.margins with
      | none => none
      | some (margins, kinds) =>
        some {
          tokens := kinds.map moved.mark
          state := { moved with margins }
          rest := rest }

def inLine? (state : LexState) (s : List Char) : Option LexStep :=
  match s with
  | [] => none
  | c :: rest =>
    if isLineBlank c then some { state := state.moveOver [c], rest }
    else if c = '#' then
      some {
        state := state.moveOver (s.takeWhile (· ≠ '\n'))
        rest := s.dropWhile (· ≠ '\n') }
    else if c = '\n' then
      let moved := state.moveOver [c]
      if state.awaited = [] then
        some {
          tokens := [state.mark .newline]
          state := moved, atLineStart := true, rest }
      else some { state := moved, rest }
    else if c = '\\' then
      match rest with
      | '\n' :: d :: more => some { state := state.moveOver [c, '\n'], rest := d :: more }
      | _ => none
    else
      match token? state.place s with
      | none => none
      | some (kind, length) =>
        match state.track? kind with
        | none => none
        | some awaited =>
          let moved := state.moveOver (s.take length)
          some {
            tokens := [⟨kind, state.place, moved.place.line⟩]
            state := { moved with awaited }
            rest := s.drop length }

/-- What ends the tokens of a text: closed blocks. No bracket may be open there. -/
def LexState.ending (state : LexState) : List TokenKind :=
  if state.awaited = [] then List.replicate (state.margins.length - 1) .dedent else [.malformed]

def tokensFrom : (budget : Nat) → LexState → (atLineStart : Bool) → List Char → List Token
  | 0, state, _, _ => [state.mark .malformed]
  | budget + 1, state, atLineStart, s =>
    match s with
    | [] => state.ending.map state.mark
    | _ :: _ =>
      match if atLineStart then lineStart? state s else inLine? state s with
      | none => [state.mark .malformed]
      | some step => step.tokens ++ tokensFrom budget step.state step.atLineStart step.rest

def endLine (s : List Char) : List Char :=
  if s.getLast? = some '\n' then s else s ++ ['\n']

/-- The tokens of a text whose line ends are line feeds. -/
def tokens (s : List Char) : List Token :=
  let s := endLine s
  tokensFrom (2 * s.length + 1) {} true s

/-- The tokens of an expression that stands between brackets at a place. -/
def tokensAt (place : Place) (code : List Char) : List Token :=
  let s := '(' :: (code ++ [')', '\n'])
  tokensFrom (2 * s.length + 1) { place } false s

end LocaleKeys.Source
