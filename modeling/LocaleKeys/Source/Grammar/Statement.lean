import LocaleKeys.Source.Grammar.Pattern

/-!
Statements, simple ones and those with blocks.
-/

namespace LocaleKeys.Source.Grammar

open LocaleKeys.Source.Parser

/-! ## Simple statements -/

/-- Where the items of a statement lie that has nothing but expressions. -/
def openingPositions : SequencePositions :=
  ⟨⟨⟨31, 37⟩, some ⟨19, 23⟩, true⟩, ⟨⟨33, 40⟩, some ⟨16, 21⟩, false⟩,
    ⟨⟨26, 29⟩, some ⟨9, 10⟩, false⟩, ⟨⟨28, 31⟩, some ⟨9, 10⟩, false⟩⟩

/-- Where the items on the right-hand side of an assignment lie. They may be assigned to as well. -/
def assignedPositions : SequencePositions :=
  ⟨⟨⟨33, 36⟩, some ⟨18, 19⟩, false⟩, ⟨⟨35, 38⟩, some ⟨18, 19⟩, false⟩,
    ⟨⟨28, 30⟩, some ⟨11, 11⟩, false⟩, ⟨⟨30, 32⟩, some ⟨11, 11⟩, false⟩⟩

/-- Expressions between commas, or a value that is handed out. -/
def starOrYielded (r : Rules) (positions : SequencePositions) (source values : Levels) :
    Parser Node := do
  if ← seesWord "yield" then yielded r source values else starExpressions r positions

def assigned (r : Rules) : Parser Node :=
  starOrYielded r assignedPositions ⟨32, 35⟩ ⟨29, 31⟩

def changingOperators : List String := [
  "+=", "-=", "*=", "/=", "//=", "%=", "@=", "&=", "|=", "^=", "<<=", ">>=", "**="]

/-- Whether an operator that changes what it assigns to comes next. -/
def seesChange : Parser Bool := do
  match ← peek with
  | some (.operator s) => return changingOperators.contains s
  | _ => return false

def expressionStatement (r : Rules) : Parser Node := do
  let first ← starOrYielded r openingPositions ⟨31, 35⟩ ⟨28, 31⟩
  if ← takesOp ":" then
    check (isSingleTarget first)
    let note ← inside ⟨30, 33⟩ r.expression
    if ← takesOp "=" then
      return .other [first, note, ← starOrYielded r (sequenceAt ⟨29, 31⟩) ⟨33, 36⟩ ⟨30, 32⟩]
    else return .other [first, note]
  else if ← seesChange then
    check (isSingleTarget first)
    let _ ← opIn changingOperators
    return .other [first, ← starOrYielded r (sequenceAt ⟨28, 30⟩) ⟨32, 35⟩ ⟨29, 31⟩]
  else
    let more ← many (do op "="; assigned r)
    let all := first :: more
    check (all.dropLast.all isTarget)
    return .other all

def dottedName : Parser Unit := do
  let _ ← identifier
  let _ ← many (do op "."; identifier)

def renamed : Parser Unit := do
  if ← takesWord "as" then
    let _ ← identifier

def importModules : Parser Node := do
  dottedName
  renamed
  let _ ← many (do op ","; dottedName; renamed)
  return .other []

/-- A name that is imported, perhaps under another name. -/
def importedName : Parser Unit := do
  let _ ← identifier
  renamed

def importNames : Parser Node := do
  let dots ← many (opIn [".", "..."])
  if dots.isEmpty then dottedName
  else
    let _ ← attempt dottedName
  word "import"
  if ← takesOp "*" then return .other []
  else if ← takesOp "(" then
    let _ ← commaList importedName importedName
    op ")"
    return .other []
  else
    importedName
    let _ ← many (do op ","; importedName)
    return .other []

mutual

def isDeletable : Node → Bool
  | .name _ | .attribute .. | .subscript .. => true
  | .sequence items => areDeletable items
  | _ => false

def areDeletable : List Node → Bool
  | [] => true
  | n :: rest => isDeletable n && areDeletable rest

end

def deleted (r : Rules) (levels : Levels) : Parser Node :=
  placed { levels, lead := some ⟨0, 0⟩ } r.bitwise

def deletion (r : Rules) : Parser Node := do
  let (items, _) ← commaList (deleted r ⟨13, 15⟩) (deleted r ⟨14, 16⟩)
  check (areDeletable items)
  return .other items

def raised (r : Rules) : Parser Node := do
  match ← attempt (inside ⟨30, 33⟩ r.expression) with
  | none => return .other []
  | some error =>
    if ← takesWord "from" then return .other [error, ← inside ⟨31, 34⟩ r.expression]
    else return .other [error]

def assertion (r : Rules) : Parser Node := do
  let claim ← inside ⟨30, 33⟩ r.expression
  if ← takesOp "," then return .other [claim, ← inside ⟨31, 34⟩ r.expression]
  else return .other [claim]

def nameList : Parser Node := do
  let _ ← identifier
  let _ ← many (do op ","; identifier)
  return .other []

def returned (r : Rules) : Parser Node := do
  match ← attempt (starExpressions r (sequenceAt ⟨27, 29⟩)) with
  | some n => return .other [n]
  | none => return .other []

def simpleStatement (r : Rules) : Parser Node := do
  if ← takesWordIn ["pass", "break", "continue"] then return .other []
  else if ← takesWord "return" then returned r
  else if ← takesWord "raise" then raised r
  else if ← takesWordIn ["global", "nonlocal"] then nameList
  else if ← takesWord "del" then deletion r
  else if ← takesWord "assert" then assertion r
  else if ← takesWord "import" then importModules
  else if ← takesWord "from" then importNames
  else expressionStatement r

def simpleLine (r : Rules) : Parser (List Node) := do
  let first ← simpleStatement r
  let more ← many (do op ";"; inside ⟨2, 2⟩ (simpleStatement r))
  let _ ← takesOp ";"
  expect .newline
  return first :: more

/-! ## Statements with blocks -/

def blockOf (r : Rules) (levels : Levels) : Parser (List Node) := do
  op ":"
  inside levels r.block

/-- A block that a word introduces, if the word comes next. -/
def optionalBlock (r : Rules) (s : String) : Parser (List Node) := do
  if ← takesWord s then blockOf r ⟨4, 4⟩ else return []

/-- A condition with its block, behind a number of others. -/
def branch (r : Rules) (count : Nat) : Parser (Node × List Node) :=
  inside ⟨count, count⟩ do
    let condition ← named r ⟨⟨30, 35⟩, ⟨31, 35⟩, ⟨0, 0⟩⟩
    return (condition, ← blockOf r ⟨3, 3⟩)

def moreBranches (r : Rules) : Parser (List (Node × List Node)) :=
  fun room tokens =>
    manyFrom (fun count => do word "elif"; branch r count) 1 tokens room tokens

/-- Branches one inside the other, the last one with the block for all else. -/
def nestBranches (otherwise : List Node) : List (Node × List Node) → List Node
  | [] => otherwise
  | (condition, block) :: rest =>
    [.other (condition :: block ++ nestBranches otherwise rest)]

/-- A choice between blocks. Each branch lies inside the one before it. -/
def choice (r : Rules) : Parser (List Node) := do
  let first ← branch r 0
  let more ← moreBranches r
  let otherwise ← behind more (optionalBlock r "else")
  return nestBranches otherwise (first :: more)

def conditionLoop (r : Rules) : Parser Node := do
  let (condition, block) ← branch r 0
  return .other (condition :: block ++ (← optionalBlock r "else"))

def elementLoop (r : Rules) : Parser Node := do
  let bound ← targets r ⟨12, 15⟩
  word "in"
  let source ← starExpressions r (sequenceAt ⟨26, 29⟩)
  let block ← blockOf r ⟨3, 3⟩
  return .other (bound :: source :: block ++ (← optionalBlock r "else"))

/-- A resource, perhaps with the place that it is assigned to. -/
def resource (r : Rules) (position : Position) : Parser Node := do
  let n ← placed position r.expression
  if ← takesWord "as" then return .other [n, ← target r ⟨13, 17⟩]
  else return .other [n]

def resourcesInParentheses (r : Rules) : Parser (List Node) := do
  op "("
  let (items, _) ← commaList (resource r { levels := ⟨31, 65⟩ }) (resource r { levels := ⟨32, 65⟩ })
  op ")"
  check (← seesOp ":")
  return items

/-- Resources between commas. Parentheses that come first add no levels: what is in them has been
looked at before. -/
def resources (r : Rules) : Parser (List Node) := do
  let lead : Option Levels := if ← seesOp "(" then some ⟨28, 0⟩ else none
  commaItems (resource r { levels := ⟨31, 35⟩, lead }) (resource r { levels := ⟨32, 36⟩ })

def resourceBlock (r : Rules) : Parser Node := do
  let items ← match ← attempt (resourcesInParentheses r) with
    | some items => pure items
    | none => resources r
  return .other (items ++ (← blockOf r ⟨3, 3⟩))

def handler (r : Rules) : Parser (Node × Bool) := do
  word "except"
  let starred ← takesOp "*"
  if !starred && (← seesOp ":") then return (.other (← blockOf r ⟨5, 6⟩), false)
  else
    let type ← inside ⟨31, 36⟩ r.expression
    renamed
    return (.other (type :: (← blockOf r ⟨5, 6⟩)), starred)

/-- A block with handlers of errors, all starred or none, or with a block for the end. -/
def guarded (r : Rules) : Parser Node := do
  let block ← blockOf r ⟨3, 4⟩
  let handlers ← many (handler r)
  let starred := handlers.any (·.2)
  check (!starred || handlers.all (·.2))
  let otherwise ← if handlers.isEmpty then pure [] else optionalBlock r "else"
  check (!handlers.isEmpty || (← seesWord "finally"))
  let final ← optionalBlock r "finally"
  return .other (block ++ handlers.map (·.1) ++ otherwise ++ final)

def function (r : Rules) (decorations : List Node) : Parser Node := do
  let _ ← identifier
  op "("
  let params ← parameters r true ")"
  let result ← if ← takesOp "->" then do pure [← inside ⟨31, 35⟩ r.expression] else pure []
  let block ← blockOf r ⟨4, 4⟩
  return .other (params :: block ++ decorations ++ result)

def classBlock (r : Rules) (decorations : List Node) : Parser Node := do
  let _ ← identifier
  let (bases, keywords) ← if ← takesOp "(" then classArguments r else pure ([], [])
  let block ← blockOf r ⟨4, 4⟩
  return .other (bases ++ keywords ++ block ++ decorations)

def decoration (r : Rules) : Parser Node := do
  op "@"
  let n ← named r ⟨⟨33, 37⟩, ⟨34, 37⟩, ⟨0, 0⟩⟩
  expect .newline
  return n

def decorated (r : Rules) : Parser Node := do
  let decorations ← many1 (decoration r)
  if ← takesWord "class" then classBlock r decorations
  else
    let _ ← takesWord "async"
    word "def"
    function r decorations

def asynchronous (r : Rules) : Parser Node := do
  if ← takesWord "def" then function r []
  else if ← takesWord "for" then elementLoop r
  else
    word "with"
    resourceBlock r

def caseBlock (r : Rules) : Parser Node := do
  word "case"
  let shape ← casePattern r
  let condition ← if ← takesWord "if" then do
    pure [← named r ⟨⟨33, 38⟩, ⟨34, 38⟩, ⟨0, 0⟩⟩] else pure []
  return .other (shape :: condition ++ (← blockOf r ⟨5, 5⟩))

def subject (r : Rules) : Parser Node := do
  match ← commaList (starNamed r ⟨⟨32, 36⟩, ⟨33, 36⟩, ⟨26, 28⟩⟩)
      (starNamed r ⟨⟨34, 38⟩, ⟨35, 38⟩, ⟨28, 30⟩⟩) with
  | ([.starred _], false) => failure
  | items => sequenceOr items

/-- A choice between cases. The word that opens it is a name elsewhere. -/
def matching (r : Rules) : Parser Node := do
  word "match"
  let compared ← subject r
  op ":"
  expect .newline
  expect .indent
  let cases ← many1 (caseBlock r)
  expect .dedent
  return .other (compared :: cases)

def statement (r : Rules) : Parser (List Node) := do
  if ← takesWord "if" then choice r
  else if ← takesWord "while" then return [← conditionLoop r]
  else if ← takesWord "for" then return [← elementLoop r]
  else if ← takesWord "with" then return [← resourceBlock r]
  else if ← takesWord "try" then return [← guarded r]
  else if ← takesWord "def" then return [← function r []]
  else if ← takesWord "class" then return [← classBlock r []]
  else if ← takesWord "async" then return [← asynchronous r]
  else if ← seesOp "@" then return [← decorated r]
  else if ← seesWord "match" then
    match ← attempt (matching r) with
    | some n => return [n]
    | none => simpleLine r
  else simpleLine r

/-- Statements on lines of their own, further in, or simple ones on the same line. -/
def block (r : Rules) : Parser (List Node) := do
  if ← takes .newline then
    expect .indent
    let all ← inside ⟨3, 3⟩ (many1 (statement r))
    expect .dedent
    return all.flatten
  else simpleLine r

end LocaleKeys.Source.Grammar
