import LocaleKeys.Datum
import LocaleKeys.Schema.Basic

/-!
Checking values against schemas. Every violation is found, and the most relevant one is reported: one
near the root, then one at the greatest path, then one that does not come from a value of the type
that its schema asks for.
-/

namespace LocaleKeys.Schema

/-- A step of a path into a value. -/
inductive PathStep
  | name (s : Text)
  | index (i : Nat)
  deriving DecidableEq, Repr

def PathStep.text : PathStep → Text
  | .name s => s
  | .index i => Text.ofNat i

/-- Whether a step is below another one. Steps from one place are of one kind. -/
def PathStep.below : PathStep → PathStep → Bool
  | .name s, .name t => decide (s < t)
  | .index i, .index j => i < j
  | .name _, .index _ => false
  | .index _, .name _ => true

/-- What a value violates. -/
inductive Reason
  | type (t : ValueType)
  | const (text : Text)
  | enum (choices : List Text)
  | required (name : Text)
  | unexpected (found : List Text)
  | minimum (bound : Nat)
  | emptyText
  | emptyArray
  | pattern (p : Pattern)
  deriving DecidableEq, Repr

def Reason.keyword : Reason → Text
  | .type _ => "type"
  | .const _ => "const"
  | .enum _ => "enum"
  | .required _ => "required"
  | .unexpected _ => "additionalProperties"
  | .minimum _ => "minimum"
  | .emptyText => "minLength"
  | .emptyArray => "minItems"
  | .pattern _ => "pattern"

def quotedList (texts : List Text) : Text :=
  Text.intercalate ", " (texts.map Text.quote)

def Reason.message (value : Json) : Reason → Text
  | .type t => (Datum.ofJson value).quoted ++ " is not of type " ++ Text.quote t.name
  | .const text => Text.quote text ++ " was expected"
  | .enum choices => (Datum.ofJson value).quoted ++ " is not one of [" ++ quotedList choices ++ "]"
  | .required name => Text.quote name ++ " is a required property"
  | .unexpected found =>
    let verb := if found.length = 1 then "was" else "were"
    "Additional properties are not allowed (" ++ quotedList found ++ " " ++ verb ++ " unexpected)"
  | .minimum bound => (Datum.ofJson value).quoted ++ " is less than the minimum of " ++ Text.ofInt bound
  | .emptyText | .emptyArray => (Datum.ofJson value).quoted ++ " should be non-empty"
  | .pattern p => (Datum.ofJson value).quoted ++ " does not match " ++ Text.quote p.text

/-- A violation: the value, the path to it, and whether the schema asks for a type that it has. -/
structure Violation where
  reason : Reason
  value : Json
  path : List PathStep := []
  typed : Bool

def Violation.message (v : Violation) : Text :=
  v.reason.message v.value

def Violation.under (step : PathStep) (v : Violation) : Violation :=
  { v with path := step :: v.path }

def declaredType? : List Schema → Option ValueType
  | [] => none
  | .type t :: _ => some t
  | _ :: rest => declaredType? rest

def isBelow (bound : Nat) : Json → Bool
  | .scalar (.int n) => n < bound
  | .scalar (.float x) => x.ltNat bound
  | _ => false

def isText (text : Text) : Json → Bool
  | .scalar (.str s) => s = text
  | _ => false

def unknownNames (known : List Text) (members : List (Text × Json)) : List Text :=
  (members.map (·.1)).filter fun name => !known.contains name

/-- The reasons why a value violates a keyword that looks at nothing inside of it. -/
def ownReasons : Schema → Json → List Reason
  | .type t, v => if t.holds v then [] else [.type t]
  | .const text, v => if isText text v then [] else [.const text]
  | .enum choices, v => if choices.any (isText · v) then [] else [.enum choices]
  | .required wanted, .obj members =>
    (wanted.filter fun name => !Assoc.has name members).map .required
  | .closed known, .obj members =>
    let found := unknownNames known members
    if found.isEmpty then [] else [.unexpected (Text.sorted found)]
  | .minimum bound, v => if isBelow bound v then [.minimum bound] else []
  | .nonEmptyText, .scalar (.str s) => if s = "" then [.emptyText] else []
  | .nonEmptyArray, .arr elements => if elements.isEmpty then [.emptyArray] else []
  | .pattern p, .scalar (.str s) => if p.fits s.toList then [] else [.pattern p]
  | _, _ => []

/-- The violations of a keyword that looks at nothing inside of a value. -/
def ownViolations (declared : Option ValueType) (schema : Schema) (v : Json) : List Violation :=
  (ownReasons schema v).map fun reason =>
    { reason, value := v, typed := declared.any (·.holds v) }

def membersOf : Json → List (Text × Json)
  | .obj members => members
  | _ => []

def elementsOf : Json → List Json
  | .arr elements => elements
  | _ => []

/-- What a check finds in members, each seen from outside. -/
def inMembers (check : Json → List Violation) (members : List (Text × Json)) :
    List Violation :=
  members.flatMap fun (name, v) => (check v).map (·.under (.name name))

/-- What a check finds in elements, each seen from outside; the first one has the index `i`. -/
def inElements (check : Json → List Violation) (i : Nat) : List Json → List Violation
  | [] => []
  | v :: rest => (check v).map (·.under (.index i)) ++ inElements check (i + 1) rest

mutual

/-- The violations of a schema, whose keywords ask for the declared type. -/
def violations (declared : Option ValueType) : Schema → Json → List Violation
  | .properties schemas, v => propertyViolations schemas v
  | .others known schema, v =>
    inMembers (violations none schema)
      ((membersOf v).filter fun member => !known.contains member.1)
  | .names schema, v =>
    (membersOf v).flatMap fun member => violations none schema (.str member.1)
  | .items schema, v => inElements (violations none schema) 0 (elementsOf v)
  | .all keywords, v => allViolations (declaredType? keywords) keywords v
  | schema, v => ownViolations declared schema v

def allViolations (declared : Option ValueType) : List Schema → Json → List Violation
  | [], _ => []
  | keyword :: rest, v => violations declared keyword v ++ allViolations declared rest v

/-- The violations in the members that have schemas of their own. -/
def propertyViolations : List (Text × Schema) → Json → List Violation
  | [], _ => []
  | (name, schema) :: rest, v =>
    let here := match Assoc.get? name (membersOf v) with
      | some member => (violations none schema member).map (·.under (.name name))
      | none => []
    here ++ propertyViolations rest v

end

/-- Whether a path is below another one of the same length. -/
def pathBelow : List PathStep → List PathStep → Bool
  | [], _ => false
  | _ :: _, [] => false
  | a :: as, b :: bs => if a = b then pathBelow as bs else a.below b

/-- Whether a violation is less relevant than another one. -/
def lessRelevant (a b : Violation) : Bool :=
  if a.path.length ≠ b.path.length then b.path.length < a.path.length
  else if a.path ≠ b.path then pathBelow a.path b.path
  else a.typed && !b.typed

/-- The most relevant of some violations, the first of equal ones. -/
def mostRelevant (best : Violation) : List Violation → Violation
  | [] => best
  | v :: rest => mostRelevant (if lessRelevant best v then v else best) rest

/-- Checks a value: the most relevant violation, if there is any. -/
def check (schema : Schema) (v : Json) : Except Violation Unit :=
  match violations none schema v with
  | [] => .ok ()
  | first :: rest => .error (mostRelevant first rest)

end LocaleKeys.Schema
