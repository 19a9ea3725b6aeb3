import LocaleKeys.Text.Point

/-!
Key paths: the dotted and indexed names under which the leaves of a resource are known.
-/

namespace LocaleKeys.Key

def join (base name : Text) : Text :=
  if base = "" then name else base ++ "." ++ name

def index (base : Text) (i : Nat) : Text :=
  base ++ "[" ++ Text.ofNat i ++ "]"

def segments (key : Text) : List Text :=
  (key.toList.splitOn (.char '.')).map Text.ofList

/-- What stands before the last `c`, in a reversed text; nothing where there is none. -/
def beforeLast (c : Point) (reversed : List Point) : List Point :=
  ((reversed.dropWhile (· ≠ c)).drop 1).reverse

/-- The path one step up: without the last index if it ends in a bracket, else without the last
name. A closing bracket that nothing opens is dropped on its own. -/
def parent (key : List Point) : List Point :=
  match key.reverse with
  | .char ']' :: reversed =>
    if reversed.contains '[' then beforeLast '[' reversed else reversed.reverse
  | reversed => beforeLast '.' reversed

end LocaleKeys.Key
