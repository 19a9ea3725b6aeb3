import LocaleKeys.Source.Grammar.Expression

/-!
Patterns of cases. Of a pattern only the values that it compares with remain as parts.
-/

namespace LocaleKeys.Source.Grammar

open LocaleKeys.Source.Parser

def wildcard : String := "_"

/-- Whether the next token makes a name more than a name on its own. -/
def seesNameRest : Parser Bool := do
  return (← seesOp ".") || (← seesOp "(") || (← seesOp "=")

def captureName : Parser Unit := do
  let name ← identifier
  check (name ≠ wildcard)
  check (!(← seesNameRest))

def memberChain : Parser (Node × Nat) := do
  let first ← identifier
  let members ← many (do op "."; identifier)
  return (members.foldl .attribute (.name first), members.length)

def numberToken : Parser Bool := do
  match (← next).kind with
  | .number imaginary => pure imaginary
  | _ => failure

/-- A number with a sign, perhaps with an imaginary one added to it. -/
def numberPattern : Parser Node := do
  let _ ← takesOp "-"
  let imaginary ← numberToken
  if (← seesOp "+") || (← seesOp "-") then
    let _ ← opIn ["+", "-"]
    let second ← numberToken
    check (!imaginary && second)
    return .other []
  else return .other []

/-- Whether a number comes next, with or without a sign. -/
def seesNumber : Parser Bool := do
  match ← peek with
  | some (.number _) => return true
  | some (.operator s) => return s = "-"
  | _ => return false

def seesQuotation : Parser Bool := do
  match ← peek with
  | some (.quotation _) => return true
  | _ => return false

/-- Whether a reserved word that is a value comes next. -/
def seesConstant : Parser Bool := do
  match ← peek with
  | some (.word s) => return constantWords.contains s
  | _ => return false

def literalPattern (r : Rules) : Parser Node := do
  if ← seesNumber then numberPattern
  else if ← seesQuotation then atom r
  else
    check (← seesConstant)
    atom r

def seesLiteral : Parser Bool := do
  return (← seesNumber) || (← seesQuotation) || (← seesConstant)

/-- A pattern in a sequence: one for the other elements, starred, or one for an element. -/
def maybeStar (r : Rules) : Parser (Node × Bool) := do
  if ← takesOp "*" then
    let name ← identifier
    check (name = wildcard || !(← seesNameRest))
    return (.other [], true)
  else return (← r.pattern, false)

/-- The patterns between brackets: one alone is itself where brackets only group. -/
def grouped (items : List (Node × Bool) × Bool) : Parser Node :=
  match items with
  | ([(n, starred)], false) => if starred then failure else pure n
  | (items, _) => pure (.other (items.map (·.1)))

/-- An entry of a pattern for maps, or the name for the other entries; tells which it is. -/
def entryPattern (r : Rules) : Parser (Node × Bool) := do
  if ← takesOp "**" then
    captureName
    return (.other [], true)
  else
    let key ← if ← seesLiteral then literalPattern r else do
      let (n, members) ← memberChain
      check (members ≠ 0)
      pure n
    op ":"
    return (.other [key, ← r.pattern], false)

def onlyLast : List (Node × Bool) → Bool
  | [] => true
  | [_] => true
  | (_, marked) :: rest => !marked && onlyLast rest

def mapPattern (r : Rules) : Parser Node := do
  let (items, _) ← commaListTo "\x7d" (entryPattern r) (entryPattern r)
  check (onlyLast items)
  return .other (items.map (·.1))

/-- An argument of a pattern for classes; tells whether it has a name. -/
def argumentPattern (r : Rules) : Parser (Node × Bool) := do
  if ← seesNameThen "=" then
    let _ ← identifier
    op "="
    return (← r.pattern, true)
  else return (← r.pattern, false)

/-- Whether the items with a mark come behind those without. -/
def marksLast : List (Node × Bool) → Bool
  | [] => true
  | (_, marked) :: rest => if marked then rest.all (·.2) else marksLast rest

def namePattern (r : Rules) : Parser Node := do
  let (n, members) ← memberChain
  if ← takesOp "(" then
    let (items, _) ← commaListTo ")" (argumentPattern r) (argumentPattern r)
    check (marksLast items)
    return .other (n :: items.map (·.1))
  else
    check (!(← seesOp "="))
    return if members = 0 then .other [] else n

def closedPattern (r : Rules) : Parser Node := do
  if ← takesOp "(" then
    let items ← commaListTo ")" (maybeStar r) (maybeStar r)
    grouped items
  else if ← takesOp "[" then
    let (items, _) ← commaListTo "]" (maybeStar r) (maybeStar r)
    return .other (items.map (·.1))
  else if ← takesOp "\x7b" then mapPattern r
  else if ← seesLiteral then literalPattern r
  else if ← takesWord wildcard then return .other []
  else namePattern r

/-- Alternatives, perhaps with a name for what is matched. -/
def pattern (r : Rules) : Parser Node := do
  let first ← closedPattern r
  let more ← many (do op "|"; closedPattern r)
  if ← takesWord "as" then captureName
  return if more.isEmpty then first else .other (first :: more)

/-- The pattern of a case; a sequence needs no brackets. -/
def casePattern (r : Rules) : Parser Node := do
  grouped (← commaList (maybeStar r) (maybeStar r))

end LocaleKeys.Source.Grammar
