import LocaleKeys.Key.Path
import LocaleKeys.Json.Reader

/-!
Flattening: the scalar leaves of a value in document order, each under its key path.
-/

namespace LocaleKeys.Key

mutual

/-- The leaves of a value that stands at `base`. A scalar at the empty path has no key. -/
def flatten (base : Text) : Json → List (Text × Scalar)
  | .scalar s => if base = "" then [] else [(base, s)]
  | .arr elements => flattenElements base 0 elements
  | .obj members => flattenMembers base members

def flattenElements (base : Text) (i : Nat) : List Json → List (Text × Scalar)
  | [] => []
  | v :: rest => flatten (index base i) v ++ flattenElements base (i + 1) rest

def flattenMembers (base : Text) : List (Text × Json) → List (Text × Scalar)
  | [] => []
  | (name, v) :: rest => flatten (join base name) v ++ flattenMembers base rest

end

/-- The value of resource text: the first of several members of one name counts. -/
def readResource (text : List Point) : Except Json.Fault Json :=
  Json.read .keepFirst text

end LocaleKeys.Key
