import LocaleKeys.Datum
import LocaleKeys.Json.Printer

/-!
Canonical text of values: members in the order of their names, one layout, a line feed at the end, and
on demand numbers rounded to four places. Values that JSON lacks are shown in their plain form. An entry
becomes a map together with the records in its value, and a map cannot be the key of another one.
-/

namespace LocaleKeys

namespace Datum

def candidateJson (c : Suggest.Candidate) : Json :=
  .obj [("key", .str c.key), ("score", .int c.score)]

mutual

/-- Whether a key is a record, or a tuple with one in it. -/
def holdsRecord : Datum → Bool
  | .location _ | .candidate _ | .entry .. => true
  | .tuple items => anyHoldsRecord items
  | _ => false

def anyHoldsRecord : List Datum → Bool
  | [] => false
  | d :: rest => holdsRecord d || anyHoldsRecord rest

end

mutual

/-- Whether a value holds a map with a record in a key. Sets are left as they are. -/
def hasRecordKey : Datum → Bool
  | .list items | .tuple items => anyHasRecordKey items
  | .map entries => entriesHaveRecordKey entries
  | .entry _ _ _ value => hasRecordKey value
  | .knot _ value => hasRecordKey value
  | _ => false

/-- Whether one of some values holds a map with a record in a key. -/
def anyHasRecordKey : List Datum → Bool
  | [] => false
  | d :: rest => hasRecordKey d || anyHasRecordKey rest

/-- Whether entries of a map have a record in a key, or in a key further inside. -/
def entriesHaveRecordKey : List (Datum × Datum) → Bool
  | [] => false
  | (k, v) :: rest => holdsRecord k || hasRecordKey v || entriesHaveRecordKey rest

end

mutual

def isMappable : Datum → Bool
  | .entry _ _ _ value => !hasRecordKey value && isMappable value
  | .list items | .tuple items | .set items => allMappable items
  | .map entries => valuesMappable entries
  | .knot _ value => isMappable value
  | _ => true

def allMappable : List Datum → Bool
  | [] => true
  | d :: rest => isMappable d && allMappable rest

/-- Whether all entries in the values of a map can become maps. -/
def valuesMappable : List (Datum × Datum) → Bool
  | [] => true
  | (_, v) :: rest => isMappable v && valuesMappable rest

end

mutual

def toJson : Datum → Json
  | .null => .scalar .null
  | .bool b => .bool b
  | .int n => .int n
  | .float x => .scalar (.float x)
  | .text s => .str s
  | .severity s => .str s.name
  | .kind k => .str k.name
  | .exitCode c => .int c.number
  | .location l => l.toJson
  | .candidate c => candidateJson c
  | .entry key culture place value =>
    .obj [("key", .str key), ("culture", .str culture), ("location", place.toJson),
      ("value", toJson value)]
  | .list items => .arr (toJsonAll items)
  | .tuple items => .arr (toJsonAll items)
  | .set items => .arr (toJsonAll items)
  | .map entries => .obj (toJsonMembers [] entries)
  | .knot _ value => toJson value
  | d => .str d.plain

def toJsonAll : List Datum → List Json
  | [] => []
  | d :: rest => toJson d :: toJsonAll rest

/-- The members of entries, after those in `done`; of keys with one plain form the last counts. -/
def toJsonMembers (done : List (Text × Json)) : List (Datum × Datum) → List (Text × Json)
  | [] => done
  | (k, v) :: rest => toJsonMembers (Assoc.put k.plain (toJson v) done) rest

end

end Datum

namespace Json

mutual

/-- Puts the members of all objects in ascending order of their names. -/
def sortMembers : Json → Json
  | .scalar s => .scalar s
  | .arr elements => .arr (sortElements elements)
  | .obj members => .obj (Text.sortedBy (·.1) (sortEach members))

def sortElements : List Json → List Json
  | [] => []
  | v :: rest => sortMembers v :: sortElements rest

def sortEach : List (Text × Json) → List (Text × Json)
  | [] => []
  | (name, v) :: rest => (name, sortMembers v) :: sortEach rest

end

/-- A scalar with its number rounded to four places; numbers that are not finite become texts. -/
def roundScalar : Scalar → Scalar
  | .float (.finite negative mantissa exponent) =>
    .float (Double.roundTo 4 (.finite negative mantissa exponent))
  | .float x => .str (Text.ofList x.text)
  | s => s

mutual

def roundNumbers : Json → Json
  | .scalar s => .scalar (roundScalar s)
  | .arr elements => .arr (roundElements elements)
  | .obj members => .obj (roundEach members)

def roundElements : List Json → List Json
  | [] => []
  | v :: rest => roundNumbers v :: roundElements rest

def roundEach : List (Text × Json) → List (Text × Json)
  | [] => []
  | (name, v) :: rest => (name, roundNumbers v) :: roundEach rest

end

def canonical (rounded : Bool) (layout : Layout) (value : Json) : List Point :=
  let value := if rounded then roundNumbers value else value
  render layout (sortMembers value) ++ [Point.char '\n']

end Json

/-- Why a dynamic value has no canonical text. -/
inductive Datum.Unwritable
  | mapAsKey
  deriving DecidableEq, Repr

def Datum.Unwritable.message : Datum.Unwritable → Text
  | .mapAsKey => "unhashable type: 'dict'"

def Datum.canonical (rounded : Bool) (layout : Json.Layout) (value : Datum) :
    Except Datum.Unwritable (List Point) :=
  if value.isMappable then .ok (value.toJson.canonical rounded layout) else .error .mapAsKey

end LocaleKeys
