import LocaleKeys.Assoc
import LocaleKeys.Yaml.Supply
import LocaleKeys.Yaml.Token

/-!
From text to tokens. Outside of flow collections the indentation tells where block collections start
and end. A token may turn out to be a key when a colon follows it on its line; where that is still
possible is kept for each depth of flow collections. A token counts as read as soon as it can no longer
get a key before it; an error ends the tokens behind those that have been read.
-/

namespace LocaleKeys.Yaml

/-- A token that may turn out to be a key: its number, whether it has to be one, and its place. -/
structure PossibleKey where
  number : Nat
  required : Bool
  index : Nat
  line : Nat
  column : Nat

/-- The state of a scan. The tokens so far are kept last first with their number, and indentations
innermost first. -/
structure Scan where
  cursor : Cursor
  tokens : List Token := []
  count : Nat := 0
  flow : Nat := 0
  indent : Int := -1
  outer : List Int := []
  keyAllowed : Bool := true
  keys : List (Nat × PossibleKey) := []

namespace Scan

def maxKeyLength : Nat := 1024

def push (scan : Scan) (token : Token) : Scan :=
  { scan with tokens := token :: scan.tokens, count := scan.count + 1 }

def pushAt (scan : Scan) (number : Nat) (token : Token) : Scan :=
  let behind := scan.count - number
  { scan with
    tokens := scan.tokens.take behind ++ token :: scan.tokens.drop behind
    count := scan.count + 1 }

def forward (scan : Scan) (n : Nat) : Scan :=
  { scan with cursor := scan.cursor.advance n }

/-- Whether a possible key is too far back to become one. -/
def isStale (scan : Scan) (key : PossibleKey) : Bool :=
  key.line ≠ scan.cursor.line || maxKeyLength < scan.cursor.index - key.index

def dropStale (scan : Scan) : Except Error Scan :=
  if scan.keys.any fun k => scan.isStale k.2 && k.2.required then
    .error (scan.cursor.error .malformed)
  else .ok { scan with keys := scan.keys.filter fun k => !scan.isStale k.2 }

def dropKey (scan : Scan) : Except Error Scan :=
  match Assoc.get? scan.flow scan.keys with
  | some key =>
    if key.required then .error (scan.cursor.error .malformed)
    else .ok { scan with keys := scan.keys.filter fun k => k.1 ≠ scan.flow }
  | none => .ok scan

/-- Notes that the next token may turn out to be a key. -/
def noteKey (scan : Scan) : Except Error Scan :=
  if !scan.keyAllowed then .ok scan
  else
    (scan.dropKey).map fun scan =>
      let cursor := scan.cursor
      let required := scan.flow = 0 && scan.indent = (cursor.column : Int)
      let key : PossibleKey :=
        ⟨scan.count, required, cursor.index, cursor.line, cursor.column⟩
      { scan with keys := Assoc.put scan.flow key scan.keys }

/-- Ends the block collections that are indented further than a column. -/
def unwindTo (column : Int) : (outer : List Int) → Scan → Scan
  | [], scan => scan
  | previous :: outer, scan =>
    if column < scan.indent then
      unwindTo column outer { scan.push .blockEnd with indent := previous, outer }
    else scan

/-- Ends the block collections that are indented further than a column, outside of flow ones. -/
def unwind (scan : Scan) (column : Int) : Scan :=
  if scan.flow = 0 then unwindTo column scan.outer scan else scan

/-- Starts a block collection before the token with a number, if the column is further in. -/
def indentTo (scan : Scan) (column : Nat) (number : Nat) (token : Token) : Scan :=
  if scan.indent < (column : Int) then
    { scan.pushAt number token with indent := column, outer := scan.indent :: scan.outer }
  else scan

/-- Goes over blanks, comments and line ends to the next token. A new line may start with a key. -/
def toNextToken : (budget : Nat) → Scan → Scan
  | 0, scan => scan
  | budget + 1, scan =>
    let cursor := scan.cursor.skipSpaces.skipComment
    match cursor.takeBreak with
    | none => { scan with cursor }
    | some (_, cursor) =>
      toNextToken budget { scan with cursor, keyAllowed := scan.keyAllowed || scan.flow = 0 }

def takeEdge (scan : Scan) (token : Token) (length : Nat) : Except Error Scan :=
  ((scan.unwind (-1)).dropKey).map fun scan =>
    { (scan.forward length).push token with keyAllowed := false }

def takeDirective (scan : Scan) : Except Error Scan :=
  match (scan.unwind (-1)).dropKey with
  | .error e => .error e
  | .ok scan =>
    (Token.readDirective scan.cursor).map fun (token, cursor) =>
      { scan.push token with cursor, keyAllowed := false }

def openFlow (scan : Scan) (token : Token) : Except Error Scan :=
  (scan.noteKey).map fun scan =>
    { (scan.forward 1).push token with flow := scan.flow + 1, keyAllowed := true }

/-- Takes the end of a flow collection, which may not have been started. -/
def closeFlow (scan : Scan) (token : Token) : Except Error Scan :=
  (scan.dropKey).map fun scan =>
    { (scan.forward 1).push token with flow := scan.flow - 1, keyAllowed := false }

def takeComma (scan : Scan) : Except Error Scan :=
  (scan.dropKey).map fun scan => { (scan.forward 1).push .comma with keyAllowed := true }

/-- Takes a sign that starts an item or a key and, outside of flow collections, the block that it
belongs to. -/
def takeSign (scan : Scan) (block token : Token) (keyAllowed : Bool) : Except Error Scan :=
  if scan.flow = 0 && !scan.keyAllowed then .error (scan.cursor.error .malformed)
  else
    let scan :=
      if scan.flow = 0 then scan.indentTo scan.cursor.column scan.count block else scan
    (scan.dropKey).map fun scan => { (scan.forward 1).push token with keyAllowed }

/-- Takes a colon. It makes a key of the token that may be one, or stands for itself. -/
def takeValue (scan : Scan) : Except Error Scan :=
  match Assoc.get? scan.flow scan.keys with
  | some key =>
    let scan := { scan with keys := scan.keys.filter fun k => k.1 ≠ scan.flow }
    let scan := scan.pushAt key.number .key
    let scan := if scan.flow = 0 then scan.indentTo key.column key.number .blockMap else scan
    .ok { (scan.forward 1).push .value with keyAllowed := false }
  | none => scan.takeSign .blockMap .value (scan.flow = 0)

def takeName (scan : Scan) (token : Text → Token) : Except Error Scan :=
  match scan.noteKey with
  | .error e => .error e
  | .ok scan =>
    (Token.readAnchor scan.cursor).map fun (name, cursor) =>
      { scan.push (token name) with cursor, keyAllowed := false }

def takeTag (scan : Scan) : Except Error Scan :=
  match scan.noteKey with
  | .error e => .error e
  | .ok scan =>
    (Token.readTag scan.cursor).map fun (token, cursor) =>
      { scan.push token with cursor, keyAllowed := false }

def takeScalar (scan : Scan) (isPlain : Bool) (scalar : Scalar) : Scan :=
  { scan.push (.scalar (Text.ofList scalar.text) isPlain) with
    cursor := scalar.cursor, keyAllowed := scalar.onNewLine }

def takeBlock (scan : Scan) (folded : Bool) : Except Error Scan :=
  match scan.dropKey with
  | .error e => .error e
  | .ok scan => (Block.read folded scan.indent scan.cursor).map (scan.takeScalar false)

def takeQuoted (scan : Scan) (double : Bool) : Except Error Scan :=
  match scan.noteKey with
  | .error e => .error e
  | .ok scan => (Quoted.read double scan.cursor).map (scan.takeScalar false)

def takePlain (scan : Scan) : Except Error Scan :=
  (scan.noteKey).map fun scan =>
    scan.takeScalar true (Plain.read (scan.flow ≠ 0) (scan.indent + 1) scan.cursor)

/-- The characters with a meaning of their own at the start of a token. -/
def indicators : List Point := [
  '-', '?', ':', ',', '[', ']', '{', '}', '#', '&', '*', '!', '|', '>', '\'', '"', '%', '@', '\x60']

/-- Whether a plain scalar starts with a character before a text. -/
def startsPlain (inFlow : Bool) (c : Point) (rest : List Point) : Bool :=
  !(atGap [c] || indicators.contains c) ||
    (!atGap rest && (c = '-' || (!inFlow && (c = '?' || c = ':'))))

/-- Asks for what tells which token starts with a character. -/
def askKind (scan : Scan) (c : Point) : Scan :=
  let atStart := scan.cursor.column = 0
  let inFlow := scan.flow ≠ 0
  let cursor := if atStart && (c = '-' || c = '.') then scan.cursor.askEdge else scan.cursor
  let isKnown := c = '%' && atStart || inFlow && (c = '?' || c = ':') ||
    [Point.char '[', '{', ']', '}', ',', '*', '&', '!', '\'', '"'].contains c ||
    !inFlow && (c = '|' || c = '>')
  let isSign := atGap [c] || indicators.contains c
  { scan with cursor := if isSign && !isKnown then cursor.ask 2 else cursor }

/-- Takes the token that starts with a character before a text. -/
def takeToken (scan : Scan) (c : Point) (rest : List Point) : Except Error Scan :=
  let scan := scan.askKind c
  let atStart := scan.cursor.column = 0
  let inFlow := scan.flow ≠ 0
  if c = '%' && atStart then scan.takeDirective
  else if atStart && scan.cursor.atMarker '-' then scan.takeEdge .documentStart 3
  else if atStart && scan.cursor.atMarker '.' then scan.takeEdge .documentEnd 3
  else if c = '[' then scan.openFlow .flowList
  else if c = '{' then scan.openFlow .flowMap
  else if c = ']' then scan.closeFlow .flowListEnd
  else if c = '}' then scan.closeFlow .flowMapEnd
  else if c = ',' then scan.takeComma
  else if c = '-' && atGap rest then scan.takeSign .blockList .item true
  else if c = '?' && (inFlow || atGap rest) then scan.takeSign .blockMap .key (!inFlow)
  else if c = ':' && (inFlow || atGap rest) then scan.takeValue
  else if c = '*' then scan.takeName .alias
  else if c = '&' then scan.takeName .anchor
  else if c = '!' then scan.takeTag
  else if c = '|' && !inFlow then scan.takeBlock false
  else if c = '>' && !inFlow then scan.takeBlock true
  else if c = '\'' then scan.takeQuoted false
  else if c = '"' then scan.takeQuoted true
  else if startsPlain inFlow c rest then scan.takePlain
  else .error (scan.cursor.error .malformed)

/-- A scan, unless something is wrong with the characters that it has asked for. -/
def checked (scan : Scan) : Except Error Scan :=
  match scan.cursor.fault with
  | some e => .error e
  | none => .ok scan

/-- Takes what comes next, with the ends of blocks before it; nothing at the end of the text, which
ends all blocks. -/
def step (scan : Scan) : Except Error (Scan × Bool) := do
  let scan ← (scan.toNextToken (scan.cursor.rest.length + 1)).checked
  let scan ← scan.dropStale
  let scan := scan.unwind scan.cursor.column
  match scan.cursor.rest with
  | [] => return (← (scan.unwind (-1)).dropKey, true)
  | c :: rest => return (← (← scan.takeToken c rest).checked, false)

/-- The number of tokens that get no more keys before them. -/
def settledCount (scan : Scan) : Nat :=
  scan.keys.foldl (fun n k => min n k.2.number) scan.count

/-- The first tokens, and an error in the place of the next one. -/
def stopped (scan : Scan) (settled : Nat) (e : Error) : List Token :=
  scan.tokens.reverse.take settled ++ [.stop e]

/-- Takes all tokens, of which `settled` have been read. -/
def run : (budget settled : Nat) → Scan → List Token
  | 0, settled, scan => scan.stopped settled .malformed
  | budget + 1, settled, scan =>
    match scan.step with
    | .error e => scan.stopped settled e
    | .ok (scan, true) => scan.tokens.reverse
    | .ok (scan, false) =>
      match scan.dropStale with
      | .error e => scan.stopped settled e
      | .ok scan => run budget (max settled scan.settledCount) scan

end Scan

/-- The tokens of a text. A byte order mark at its start is passed over. -/
def tokens (supply : Supply) : List Token :=
  let cursor : Cursor := { rest := supply.text, cut := supply.cut }
  let cursor := if cursor.atChar '\ufeff' then cursor.next else cursor
  Scan.run (supply.text.length + 1) 0 { cursor }

end LocaleKeys.Yaml
