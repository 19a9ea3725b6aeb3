import LocaleKeys.Text.Point
import LocaleKeys.Assoc
import LocaleKeys.Number.Double

/-!
JSON values, and the syntax trees that reading a text yields. A tree keeps every member of an object
with the place of its name, repeats included; a value has each name once. Which of several members
of one name counts is a policy of the conversion.
-/

namespace LocaleKeys

/-- A JSON value that holds no other values. -/
inductive Scalar
  | null
  | bool (b : Bool)
  | int (n : Int)
  | float (x : Double)
  | str (s : Text)
  deriving DecidableEq, Repr, Inhabited

/-- A JSON value. Members keep their order. -/
inductive Json
  | scalar (s : Scalar)
  | arr (elements : List Json)
  | obj (members : List (Text × Json))
  deriving Inhabited

namespace Json

abbrev str (s : Text) : Json := .scalar (.str s)

abbrev int (n : Int) : Json := .scalar (.int n)

abbrev bool (b : Bool) : Json := .scalar (.bool b)

def strings (texts : List Text) : Json := .arr (texts.map str)

/-- A member name as it stands in a text: decoded, with the offset of its opening quote. -/
structure Name where
  text : Text
  offset : Nat
  deriving DecidableEq, Repr

/-- A JSON text as a tree. -/
inductive Tree
  | scalar (s : Scalar)
  | arr (elements : List Tree)
  | obj (members : List (Name × Tree))
  deriving Inhabited

/-- Which member counts when an object repeats a name. The place is always that of the first. -/
inductive Repeats
  | keepFirst
  | keepLast
  deriving DecidableEq, Repr

def Repeats.add (policy : Repeats) (members : List (Text × Json)) (name : Text)
    (value : Json) : List (Text × Json) :=
  match policy with
  | .keepFirst => Assoc.offer name value members
  | .keepLast => Assoc.put name value members

mutual

def Tree.toJson (policy : Repeats) : Tree → Json
  | .scalar s => .scalar s
  | .arr elements => .arr (toJsonList policy elements)
  | .obj members => .obj (toJsonMembers policy [] members)

def Tree.toJsonList (policy : Repeats) : List Tree → List Json
  | [] => []
  | t :: rest => t.toJson policy :: toJsonList policy rest

def Tree.toJsonMembers (policy : Repeats) (done : List (Text × Json)) :
    List (Name × Tree) → List (Text × Json)
  | [] => done
  | (name, t) :: rest =>
    toJsonMembers policy (policy.add done name.text (t.toJson policy)) rest

end

end Json
end LocaleKeys
