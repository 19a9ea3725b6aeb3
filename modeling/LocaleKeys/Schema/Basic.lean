import LocaleKeys.Json.Value

/-!
Schemas for JSON values: the keywords that a value has to satisfy, in the order in which they are
looked at.
-/

namespace LocaleKeys

namespace Schema

/-- The types of JSON values that schemas tell apart. -/
inductive ValueType
  | object
  | array
  | string
  | integer
  deriving DecidableEq, Repr

def ValueType.name : ValueType → Text
  | .object => "object"
  | .array => "array"
  | .string => "string"
  | .integer => "integer"

/-- Whether a value is of a type. A float without a fraction is an integer. -/
def ValueType.holds : ValueType → Json → Bool
  | .object, .obj _ => true
  | .array, .arr _ => true
  | .string, .scalar (.str _) => true
  | .integer, .scalar (.int _) => true
  | .integer, .scalar (.float x) => x.isWhole
  | _, _ => false

/-- A piece of a text pattern: a fixed text, or a number of characters from some ranges. -/
inductive Piece
  | words (text : Text)
  | chars (ranges : List (Point × Point)) (count : Nat)
  deriving DecidableEq, Repr

def rangeText (range : Point × Point) : Text :=
  Text.ofList [range.1, '-', range.2]

def Piece.text : Piece → Text
  | .words s => s
  | .chars ranges count =>
    "[" ++ Text.join (ranges.map rangeText) ++ "]\x7b" ++ Text.ofNat count ++ "\x7d"

def Piece.match? (piece : Piece) (s : List Point) : Option (List Point) :=
  match piece with
  | .words text => if text.toList.isPrefixOf s then some (s.drop text.toList.length) else none
  | .chars ranges count =>
    let run := s.take count
    if run.length = count && run.all (fun c => ranges.any fun r => r.1 ≤ c && c ≤ r.2) then
      some (s.drop count)
    else none

abbrev Pattern := List Piece

def Pattern.text (pattern : Pattern) : Text :=
  "^" ++ Text.join (List.map Piece.text pattern) ++ "$"

/-- Whether a text fits a pattern; a line feed may follow. -/
def Pattern.fits : Pattern → List Point → Bool
  | [], s => s = [] || s = [Point.char '\n']
  | piece :: rest, s =>
    match piece.match? s with
    | some s => Pattern.fits rest s
    | none => false

end Schema

/-- A schema: one keyword, or all keywords of a schema together. -/
inductive Schema
  | type (t : Schema.ValueType)
  | const (text : Text)
  | enum (choices : List Text)
  | required (names : List Text)
  | properties (schemas : List (Text × Schema))
  | closed (known : List Text)
  | others (known : List Text) (schema : Schema)
  | names (schema : Schema)
  | items (schema : Schema)
  | minimum (bound : Nat)
  | nonEmptyText
  | nonEmptyArray
  | pattern (pattern : Schema.Pattern)
  | all (keywords : List Schema)
  deriving Inhabited

namespace Schema

mutual

/-- The members of a document for the keywords of a schema. -/
def members : Schema → List (Text × Json)
  | .type t => [("type", .str t.name)]
  | .const text => [("const", .str text)]
  | .enum choices => [("enum", .strings choices)]
  | .required wanted => [("required", .strings wanted)]
  | .properties schemas => [("properties", .obj (memberDocuments schemas))]
  | .closed _ => [("additionalProperties", .bool false)]
  | .others _ schema => [("additionalProperties", .obj (members schema))]
  | .names schema => [("propertyNames", .obj (members schema))]
  | .items schema => [("items", .obj (members schema))]
  | .minimum bound => [("minimum", .int bound)]
  | .nonEmptyText => [("minLength", .int 1)]
  | .nonEmptyArray => [("minItems", .int 1)]
  | .pattern p => [("pattern", .str p.text)]
  | .all keywords => allMembers keywords

def allMembers : List Schema → List (Text × Json)
  | [] => []
  | keyword :: rest => members keyword ++ allMembers rest

/-- The documents of the schemas of members, by name. -/
def memberDocuments : List (Text × Schema) → List (Text × Json)
  | [] => []
  | (name, schema) :: rest => (name, .obj (members schema)) :: memberDocuments rest

end

/-- The document of a schema, in which every reference is replaced by what it leads to. -/
def toJson (schema : Schema) : Json :=
  .obj (members schema)

end Schema
end LocaleKeys
