import LocaleKeys.Source.Grammar.Parameters
import LocaleKeys.Source.Lexer
import LocaleKeys.Source.Quotation

/-!
Expressions, from atoms to conditionals. Where an expression stands inside another one, the rules of
one level below are used.
-/

namespace LocaleKeys.Source.Grammar

open LocaleKeys.Source.Parser

/-- One node for a list of items: the item itself, or a sequence if there was a comma. -/
def sequenceOr (items : List Node × Bool) : Parser Node :=
  match items with
  | ([item], false) => pure item
  | (items, _) => pure (.sequence items)

/-- Binary operators of one level, grouped to the left. -/
def leftGrouped (operators : List String) (operand : Parser Node) : Parser Node := do
  let first ← operand
  let more ← many (do let _ ← opIn operators; apart operand)
  return more.foldl (fun a b => .other [a, b]) first

/-- A node inside as many others as there are elements in a list. -/
def wrapped {α : Type} (layers : List α) (n : Node) : Node :=
  layers.foldl (fun n _ => .other [n]) n

/-- How far in the forms of an item lie. -/
structure ItemLevels where
  plain : Levels
  named : Levels
  starred : Levels
  deriving Repr

def named (r : Rules) (item : ItemLevels) (lead : Option Levels := none) : Parser Node := do
  if ← seesNameThen ":=" then
    let name ← identifier
    op ":="
    return .other [.name name, ← inside item.named r.expression]
  else placed { levels := item.plain, lead } r.expression

/-! ## Quoted texts -/

def fieldNode (group : Parser Node) (q : Quotation) (field : Field) : Parser Node := do
  let place := q.place.afterAll (q.body.take field.offset)
  onLine (tokensAt place field.code) group

/-- The expressions inside a quoted text that is not of bytes. -/
def quotationParts (names : CharNames) (group : Parser Node) (q : Quotation) : Parser (List Node) := do
  if q.isFormatted then (← ofOption (fields? names q.isRaw q.body)).mapM (fieldNode group q)
  else
    let _ ← ofOption (unescape? names q.isRaw q.body)
    return []

def joinedText? (names : CharNames) (qs : List Quotation) : Option (List Point) :=
  (qs.mapM fun q => unescape? names q.isRaw q.body).map List.flatten

/-- The node of quotations that follow one another. Texts and bytes do not mix. -/
def quotationsNode (names : CharNames) (group : Parser Node) (qs : List Quotation) (span : Span) :
    Parser Node := do
  if qs.any (·.isBytes) then
    ofOption <| if qs.all fun q => q.isBytes && bytesOk q.isRaw q.body then some (.other []) else none
  else if qs.any (·.isFormatted) then
    return .other (← qs.mapM (quotationParts names group)).flatten
  else return .text (.ofList (← ofOption (joinedText? names qs))) span

def quotation : Parser (Quotation × Span) := do
  let t ← next
  match t.kind with
  | .quotation q => pure (q, t.span)
  | _ => failure

/-- Quoted texts that follow one another; `group` reads what is in the brackets of a field. -/
def quotations (names : CharNames) (group : Parser Node) : Parser Node := do
  let all ← many1 quotation
  let span : Span := {
    start := (all.head?.map (·.2.start)).getD Place.start
    lastLine := (all.getLast?.map (·.2.lastLine)).getD 0 }
  quotationsNode names group (all.map (·.1)) span

def starredOr (r : Rules) (position : Position) (p : Parser Node) : Parser Node := do
  if ← takesOp "*" then return .starred (← placed position r.bitwise) else p

/-- An expression, a named value or a starred one, as brackets hold them. -/
def starNamed (r : Rules) (item : ItemLevels) (lead : Option Levels := none) : Parser Node :=
  starredOr r { levels := item.starred } (named r item lead)

/-- Where the items of a sequence lie. -/
structure SequencePositions where
  first : Position
  later : Position
  starred : Position
  starredLater : Position
  deriving Repr

/-- Where the items of a sequence lie that is no place to assign to. -/
def sequenceAt (levels : Levels) : SequencePositions :=
  ⟨{ levels := levels + ⟨5, 6⟩ }, { levels := levels + ⟨7, 8⟩ }, { levels },
    { levels := levels + ⟨2, 2⟩ }⟩

def starExpressions (r : Rules) (positions : SequencePositions) : Parser Node := do
  sequenceOr (← commaList
    (starredOr r positions.starred (placed positions.first r.expression))
    (starredOr r positions.starredLater (placed positions.later r.expression)))

def isStarred : Node → Bool
  | .starred _ => true
  | _ => false

mutual

/-- Whether a node can be assigned to, not being starred. -/
def isPlainTarget : Node → Bool
  | .name _ | .attribute .. | .subscript .. => true
  | .sequence items => areTargets items
  | _ => false

def areTargets : List Node → Bool
  | [] => true
  | .starred item :: rest => isPlainTarget item && areTargets rest
  | n :: rest => isPlainTarget n && areTargets rest

end

def isTarget : Node → Bool
  | .starred item => isPlainTarget item
  | n => isPlainTarget n

def isSingleTarget : Node → Bool
  | .name _ | .attribute .. | .subscript .. => true
  | _ => false

def target (r : Rules) (levels : Levels) : Parser Node := do
  let position : Position := { levels, lead := some ⟨0, 0⟩ }
  let n ← starredOr r position (placed position r.bitwise)
  check (isTarget n)
  return n

def targets (r : Rules) (levels : Levels) : Parser Node := do
  sequenceOr (← commaList (target r levels) (target r (levels + ⟨2, 2⟩)))

/-! ## Brackets -/

def seesComprehension : Parser Bool := do
  return (← seesWord "for") || (← seesWord "async")

def clause (r : Rules) (levels : Levels) : Parser Node := do
  let _ ← takesWord "async"
  word "for"
  let bound ← targets r levels
  word "in"
  let source ← inside (levels + ⟨16, 16⟩) r.disjunction
  let conditions ← many (do word "if"; inside (levels + ⟨18, 18⟩) r.disjunction)
  return .other (bound :: source :: conditions)

def comprehension (r : Rules) (levels : Levels) (elements : List Node) : Parser Node := do
  check (!elements.any isStarred)
  return .other (elements ++ (← many1 (clause r levels)))

def bracketedComprehension (r : Rules) (elements : List Node) : Parser Node :=
  comprehension r ⟨11, 11⟩ elements

/-- The value that a function hands out, or the source of many. -/
def yielded (r : Rules) (source values : Levels) : Parser Node := do
  word "yield"
  if ← takesWord "from" then return .other [← inside source r.expression]
  match ← attempt (starExpressions r (sequenceAt values)) with
  | some n => return .other [n]
  | none => return .other []

def parenthesized (r : Rules) (lead : Option Levels := none) : Parser Node := do
  if ← takesOp ")" then
    needs ⟨30, 30⟩
    return .sequence []
  else if ← seesWord "yield" then
    let n ← yielded r ⟨27, 28⟩ ⟨24, 24⟩
    op ")"
    return n
  else
    let first ← starNamed r ⟨⟨28, 30⟩, ⟨29, 30⟩, ⟨22, 22⟩⟩ lead
    if ← seesComprehension then
      let n ← bracketedComprehension r [first]
      op ")"
      return n
    else if ← takesOp "," then
      let (more, _) ← commaListTo ")" (starNamed r ⟨⟨30, 32⟩, ⟨31, 32⟩, ⟨24, 24⟩⟩)
        (starNamed r ⟨⟨31, 33⟩, ⟨32, 33⟩, ⟨25, 25⟩⟩)
      return .sequence (first :: more)
    else
      op ")"
      check (!isStarred first)
      return first

/-- How far in an item behind others in brackets or braces lies. -/
def laterItem : ItemLevels :=
  ⟨⟨30, 32⟩, ⟨31, 32⟩, ⟨24, 24⟩⟩

def bracketed (r : Rules) : Parser Node := do
  if ← takesOp "]" then
    needs ⟨31, 31⟩
    return .sequence []
  let first ← starNamed r ⟨⟨29, 31⟩, ⟨30, 31⟩, ⟨23, 23⟩⟩
  if ← seesComprehension then
    let n ← bracketedComprehension r [first]
    op "]"
    return n
  else if ← takesOp "," then
    let (more, _) ← commaListTo "]" (starNamed r laterItem) (starNamed r laterItem)
    return .sequence (first :: more)
  else
    op "]"
    return .sequence [first]

def firstInBraces : ItemLevels :=
  ⟨⟨29, 30⟩, ⟨30, 31⟩, ⟨23, 23⟩⟩

/-- An entry of a map: the key and the value, or a map whose entries are taken over. -/
def entry (r : Rules) (item : ItemLevels) : Parser (List Node × List Node) := do
  if ← takesOp "**" then return ([], [← inside item.starred r.bitwise])
  let key ← inside item.plain r.expression
  op ":"
  return ([key], [← inside item.plain r.expression])

def mapRest (r : Rules) (first : List Node × List Node) : Parser Node := do
  if !first.1.isEmpty && (← seesComprehension) then
    let n ← bracketedComprehension r (first.1 ++ first.2)
    op "\x7d"
    return n
  let more ← many (do op ","; entry r ⟨⟨30, 31⟩, ⟨31, 31⟩, ⟨24, 24⟩⟩)
  let _ ← takesOp ","
  op "\x7d"
  let entries := first :: more
  return .other (entries.flatMap (·.1) ++ entries.flatMap (·.2))

def setRest (r : Rules) (first : Node) : Parser Node := do
  if ← seesComprehension then
    let n ← bracketedComprehension r [first]
    op "\x7d"
    return n
  let more ← many (do op ","; starNamed r laterItem)
  let _ ← takesOp ","
  op "\x7d"
  return .other (first :: more)

def braced (r : Rules) : Parser Node := do
  if ← takesOp "\x7d" then
    needs ⟨31, 30⟩
    return .other []
  else if ← seesOp "**" then mapRest r (← entry r firstInBraces)
  else if (← seesOp "*") || (← seesNameThen ":=") then setRest r (← starNamed r firstInBraces)
  else
    let first ← inside firstInBraces.plain r.expression
    if ← takesOp ":" then mapRest r ([first], [← inside firstInBraces.plain r.expression])
    else setRest r first

/-! ## Calls and indices -/

/-- An argument of a call. -/
inductive Argument
  | positional (n : Node)
  | generator (n : Node)
  | starred (n : Node)
  | keyword (n : Node)
  | keywords (n : Node)
  deriving Inhabited

/-- How far in the forms of an argument lie. -/
structure ArgumentLevels where
  item : ItemLevels
  keyword : Levels
  keywords : Levels
  deriving Repr

/-- An argument of a call. A comprehension needs no brackets of its own. -/
def argument (r : Rules) (levels : ArgumentLevels) : Parser Argument := do
  if ← takesOp "*" then
    return .starred (.starred (← inside levels.item.starred r.expression))
  else if ← takesOp "**" then return .keywords (.other [← inside levels.keywords r.expression])
  else if ← seesNameThen "=" then
    let _ ← identifier
    op "="
    return .keyword (.other [← inside levels.keyword r.expression])
  else
    let n ← named r levels.item
    if ← seesComprehension then return .generator (← comprehension r ⟨9, 9⟩ [n])
    else return .positional n

/-- Sorts arguments into those by position and those by name. After an argument by name only starred
ones may come by position, after a starred map none; `named` and `mapped` tell what came before. -/
def arrange? (named mapped : Bool) : List Argument → Option (List Node × List Node)
  | [] => some ([], [])
  | .positional n :: rest =>
    if named || mapped then none
    else (arrange? named mapped rest).map fun (args, keywords) => (n :: args, keywords)
  | .starred n :: rest =>
    if mapped then none
    else (arrange? named mapped rest).map fun (args, keywords) => (n :: args, keywords)
  | .keyword n :: rest =>
    (arrange? true mapped rest).map fun (args, keywords) => (args, n :: keywords)
  | .keywords n :: rest =>
    (arrange? named true rest).map fun (args, keywords) => (args, n :: keywords)
  | .generator _ :: _ => none

/-- The arguments of a call up to the closing parenthesis. A comprehension without brackets must be
the only argument. -/
def arguments (r : Rules) : Parser (List Node × List Node) := do
  if ← seesOp ")" then needs ⟨26, 25⟩
  let first := argument r ⟨⟨⟨24, 25⟩, ⟨25, 26⟩, ⟨27, 26⟩⟩, ⟨27, 29⟩, ⟨27, 28⟩⟩
  let later := argument r ⟨⟨⟨28, 29⟩, ⟨29, 30⟩, ⟨28, 29⟩⟩, ⟨28, 30⟩, ⟨28, 29⟩⟩
  match ← commaListTo ")" first later with
  | ([.generator n], false) => return ([n], [])
  | (args, _) =>
    match arrange? false false args with
    | some arranged => return arranged
    | none => failure

/-- The arguments of a class up to the closing parenthesis. -/
def classArguments (r : Rules) : Parser (List Node × List Node) := do
  let first := argument r ⟨⟨⟨36, 40⟩, ⟨37, 41⟩, ⟨36, 40⟩⟩, ⟨36, 41⟩, ⟨36, 40⟩⟩
  let later := argument r ⟨⟨⟨37, 41⟩, ⟨38, 42⟩, ⟨37, 41⟩⟩, ⟨37, 42⟩, ⟨37, 41⟩⟩
  let (args, _) ← commaListTo ")" first later
  match arrange? false false args with
  | some arranged => return arranged
  | none => failure

/-- How far in the parts of an index lie. -/
structure IndexLevels where
  item : ItemLevels
  upper : Levels
  step : Levels
  deriving Repr

/-- What `p` reads, unless a token comes that ends this part of an index. -/
def sliceBound (p : Parser Node) : Parser (List Node) := do
  if (← seesOp ":") || (← seesOp "]") || (← seesOp ",") then return []
  else return [← p]

def sliceRest (r : Rules) (levels : IndexLevels) (lower : List Node) : Parser Node := do
  op ":"
  let upper ← sliceBound (inside levels.upper r.expression)
  if ← takesOp ":" then
    return .other (lower ++ upper ++ (← sliceBound (inside levels.step r.expression)))
  else return .other (lower ++ upper)

def slice (r : Rules) (levels : IndexLevels) : Parser Node := do
  if ← takesOp "*" then return .starred (← inside levels.item.starred r.expression)
  else if ← seesNameThen ":=" then named r levels.item
  else
    let lower ← sliceBound (inside levels.item.plain r.expression)
    if ← seesOp ":" then sliceRest r levels lower
    else
      match lower with
      | [n] => return n
      | _ => failure

def slices (r : Rules) : Parser Node := do
  let items ← commaList
    (slice r ⟨⟨⟨24, 28⟩, ⟨26, 28⟩, ⟨26, 26⟩⟩, ⟨24, 25⟩, ⟨25, 26⟩⟩)
    (slice r ⟨⟨⟨27, 30⟩, ⟨29, 30⟩, ⟨27, 22⟩⟩, ⟨27, 28⟩, ⟨28, 29⟩⟩)
  op "]"
  match items with
  | ([.starred n], false) => return .sequence [.starred n]
  | items => sequenceOr items

def constantWords : List String := ["None", "True", "False"]

/-- How many levels an atom takes that is no quoted text, and has no brackets. -/
def plainAtomLevels : Levels := ⟨2, 2⟩

def quotationLevels : Levels := ⟨4, 2⟩

def atom (r : Rules) : Parser Node := do
  match ← peek with
  | some (.word s) =>
    if constantWords.contains s then
      word s
      needs plainAtomLevels
      return .other []
    else
      let name ← identifier
      needs plainAtomLevels
      return .name name
  | some (.number imaginary) =>
    expect (.number imaginary)
    needs plainAtomLevels
    return .other []
  | some (.quotation _) =>
    needs quotationLevels
    quotations r.names (inside ⟨26, 29⟩ do op "("; parenthesized r)
  | some (.operator "(") =>
    op "("
    inBrackets (parenthesized r (← groupLead))
  | some (.operator "[") =>
    op "["
    inBrackets (bracketed r)
  | some (.operator "\x7b") =>
    op "\x7b"
    inBrackets (braced r)
  | some (.operator "...") =>
    op "..."
    needs plainAtomLevels
    return .other []
  | _ => failure

/-- What may follow an atom: a member, a call or an index. -/
def trailer (r : Rules) : Parser (Node → Node) := do
  if ← takesOp "." then
    let member ← identifier
    return fun n => .attribute n member
  else if ← takesOp "(" then
    let (args, keywords) ← inBrackets (arguments r)
    return fun n => .call n args keywords
  else if ← takesOp "[" then
    let index ← inIndex (slices r)
    return fun n => .subscript n index
  else failure

/-! ## Operators -/

def primary (r : Rules) : Parser Node := do
  let a ← atom r
  let trailers ← many (trailer r)
  return trailers.foldl (fun n trailer => trailer n) a

def awaited (r : Rules) : Parser Node := do
  if ← takesWord "await" then return .other [← apart (primary r)] else primary r

/-- Signs before a power, whose exponent may have signs again. Each power takes a token. -/
def factorUpTo (r : Rules) : (bound : List Token) → Parser Node
  | [] => failure
  | _ :: bound => do
    let signs ← many (opIn ["+", "-", "~"])
    behind signs do
      let base ← awaited r
      if ← takesOp "**" then
        let exponent ← inside ⟨2, 2⟩ (factorUpTo r bound)
        return wrapped signs (.other [base, exponent])
      else return wrapped signs base

def factor (r : Rules) : Parser Node :=
  fun room tokens => factorUpTo r tokens room tokens

def bitwise (r : Rules) : Parser Node :=
  leftGrouped ["|"] <| leftGrouped ["^"] <| leftGrouped ["&"] <| leftGrouped ["<<", ">>"] <|
    leftGrouped ["+", "-"] <| leftGrouped ["*", "/", "//", "%", "@"] <| factor r

def comparisonOperators : List String := ["==", "!=", "<", "<=", ">", ">="]

def comparisonOperator : Parser Unit := do
  if ← takesWord "in" then return
  else if ← takesWord "not" then word "in"
  else if ← takesWord "is" then
    let _ ← takesWord "not"
  else
    let _ ← opIn comparisonOperators

def comparison (r : Rules) : Parser Node := do
  let first ← bitwise r
  let more ← many (do comparisonOperator; inside ⟨3, 3⟩ (bitwise r))
  return if more.isEmpty then first else .other (first :: more)

def inversion (r : Rules) : Parser Node := do
  let negations ← many (word "not")
  return wrapped negations (← behind negations (comparison r))

def wordList (s : String) (operand : Parser Node) : Parser Node := do
  let first ← operand
  let more ← many (do word s; inside ⟨2, 2⟩ operand)
  return if more.isEmpty then first else .other (first :: more)

def disjunction (r : Rules) : Parser Node :=
  wordList "or" (wordList "and" (inversion r))

/-! ## Whole expressions -/

/-- A function without a name: the defaults of its parameters and its value. -/
def lambda (r : Rules) : Parser Node := do
  word "lambda"
  let params ← parameters r false ":"
  return .other [params, ← inside ⟨2, 2⟩ r.expression]

def conditional (r : Rules) : Parser Node := do
  let value ← disjunction r
  if ← takesWord "if" then
    let condition ← apart (disjunction r)
    word "else"
    return .other [condition, value, ← inside ⟨1, 1⟩ r.expression]
  else return value

def expression (r : Rules) : Parser Node := do
  if ← seesWord "lambda" then lambda r else conditional r

end LocaleKeys.Source.Grammar
