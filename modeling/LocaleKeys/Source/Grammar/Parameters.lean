import LocaleKeys.Source.Grammar.Basic

/-!
Parameters of functions, with their order: those before a slash come by position only, those behind a
star by name only, and one behind two stars takes what is left.
-/

namespace LocaleKeys.Source.Grammar

open LocaleKeys.Source.Parser

/-- A parameter or a mark between parameters, with the annotations and the defaults. -/
inductive Parameter
  | plain (notes defaults : List Node)
  | slash
  | star
  | rest (notes : List Node)
  | keywords (notes : List Node)
  deriving Inhabited

/-- An annotation behind a colon, where functions have them. -/
def annotation (r : Rules) (annotated : Bool) (levels : Levels) : Parser (List Node) := do
  if !annotated then return []
  else if ← takesOp ":" then return [← inside levels r.expression]
  else return []

/-- An annotation behind a colon, where functions have them. It may be starred. -/
def starAnnotation (r : Rules) (annotated : Bool) : Parser (List Node) := do
  if !annotated then return []
  else if ← takesOp ":" then
    if ← takesOp "*" then return [.starred (← inside ⟨32, 35⟩ r.bitwise)]
    else return [← inside ⟨36, 40⟩ r.expression]
  else return []

/-- How far in a default lies; functions with annotations are statements. -/
def defaultLevels (annotated : Bool) : Levels :=
  if annotated then ⟨36, 41⟩ else ⟨8, 9⟩

def plainParameter (r : Rules) (annotated : Bool) : Parser Parameter := do
  let _ ← identifier
  let notes ← annotation r annotated ⟨37, 40⟩
  if ← takesOp "=" then return .plain notes [← inside (defaultLevels annotated) r.expression]
  else return .plain notes []

def starParameter (r : Rules) (annotated : Bool) : Parser Parameter := do
  match ← attempt identifier with
  | some _ => return .rest (← starAnnotation r annotated)
  | none => return .star

def parameter (r : Rules) (annotated : Bool) : Parser Parameter := do
  if ← takesOp "/" then return .slash
  else if ← takesOp "**" then
    let _ ← identifier
    return .keywords (← annotation r annotated ⟨37, 41⟩)
  else if ← takesOp "*" then starParameter r annotated
  else plainParameter r annotated

/-- What came before a parameter. -/
structure Seen where
  any : Bool := false
  slash : Bool := false
  default : Bool := false
  star : Bool := false
  bare : Bool := false
  deriving Repr

/-- Whether parameters may follow what came before. A bare star needs a parameter with a name behind
it, and before the star a default makes defaults necessary. -/
def orderOk (seen : Seen) : List Parameter → Bool
  | [] => !seen.bare
  | .plain _ defaults :: rest =>
    (seen.star || !seen.default || !defaults.isEmpty) &&
      orderOk { seen with any := true, default := seen.default || !defaults.isEmpty, bare := false }
        rest
  | .slash :: rest =>
    seen.any && !seen.slash && !seen.star && orderOk { seen with slash := true } rest
  | .star :: rest => !seen.star && orderOk { seen with star := true, bare := true } rest
  | .rest _ :: rest => !seen.star && orderOk { seen with star := true } rest
  | .keywords _ :: rest => !seen.bare && rest.isEmpty

def Parameter.notes : Parameter → List Node
  | .plain notes _ | .rest notes | .keywords notes => notes
  | .slash | .star => []

def Parameter.defaults : Parameter → List Node
  | .plain _ defaults => defaults
  | _ => []

/-- Parameters up to a closing operator, as one node of their annotations and defaults. -/
def parameters (r : Rules) (annotated : Bool) (close : String) : Parser Node := do
  let (all, _) ← commaListTo close (parameter r annotated) (parameter r annotated)
  check (orderOk {} all)
  return .other (all.map (fun p => .other p.notes) ++ all.flatMap Parameter.defaults)

end LocaleKeys.Source.Grammar
