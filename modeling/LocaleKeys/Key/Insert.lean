import LocaleKeys.Datum
import LocaleKeys.Key.Path

/-!
Setting a value under a dotted key: the objects on the way are kept, made, or put in the place of
values of other kinds. Trees of two kinds are edited in this way: JSON objects, and maps of dynamic
values, whose other keys need not be texts.
-/

namespace LocaleKeys

namespace Key

/-- Sets `value` under the given names, where `members` tells what is in a value that may be missing,
and `object` makes a value of members. -/
def insertWith {κ ν : Type} [BEq κ] (members : Option ν → List (κ × ν)) (object : List (κ × ν) → ν)
    (value : ν) : List κ → List (κ × ν) → List (κ × ν)
  | [], tree => tree
  | [name], tree => Assoc.put name value tree
  | name :: next :: names, tree =>
    Assoc.update name
      (fun child => object (insertWith members object value (next :: names) (members child))) tree

def membersOf : Option Json → List (Text × Json)
  | some (.obj members) => members
  | _ => []

def insertAt (value : Json) : List Text → List (Text × Json) → List (Text × Json) :=
  insertWith membersOf .obj value

def insert (key : Text) (value : Json) (members : List (Text × Json)) :
    List (Text × Json) :=
  insertAt value (segments key) members

end Key

namespace Datum

def entriesOf : Option Datum → List (Datum × Datum)
  | some (.map entries) => entries
  | _ => []

def insert (key : Text) (value : Datum) (entries : List (Datum × Datum)) :
    List (Datum × Datum) :=
  Key.insertWith entriesOf .map value ((Key.segments key).map .text) entries

end Datum
end LocaleKeys
