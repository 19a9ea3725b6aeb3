import LocaleKeys.Text.Point

/-!
Paths as texts: names between slashes, with empty names and single dots left out. Two slashes at the
start are kept apart from one.
-/

namespace LocaleKeys

/-- A path: what it starts with, nothing or slashes, and its names. -/
structure Path where
  root : Text
  names : List Text
  deriving DecidableEq, Repr, Inhabited

namespace Path

def namesOf (s : List Point) : List Text :=
  ((s.splitOn (.char '/')).filter fun name => name ≠ [] && name ≠ [Point.char '.']).map Text.ofList

def ofChars (s : List Point) : Path :=
  match s with
  | .char '/' :: .char '/' :: rest =>
    if rest.head? = some (Point.char '/') then ⟨"/", namesOf rest⟩ else ⟨"//", namesOf rest⟩
  | .char '/' :: rest => ⟨"/", namesOf rest⟩
  | _ => ⟨"", namesOf s⟩

def ofString (s : Text) : Path :=
  ofChars s.toList

/-- The text of a path; the path without names is a dot. -/
def text (path : Path) : Text :=
  if path.root = "" && path.names.isEmpty then "."
  else path.root ++ Text.intercalate "/" path.names

def isAbsolute (path : Path) : Bool :=
  path.root ≠ ""

def hasNull (path : Path) : Bool :=
  path.names.any fun name => name.toList.contains '\x00'

def name (path : Path) : Text :=
  path.names.getLast?.getD ""

def parent (path : Path) : Path :=
  { path with names := path.names.dropLast }

/-- A path that goes on from another one. An absolute path starts anew. -/
def join (path further : Path) : Path :=
  if further.isAbsolute then further else { path with names := path.names ++ further.names }

/-- Splits a name before its last dot. A dot at either end does not count. -/
def splitName (name : List Point) : List Point × List Point :=
  let reversed := name.reverse
  let behind := reversed.takeWhile (· ≠ Point.char '.')
  match reversed.dropWhile (· ≠ Point.char '.') with
  | .char '.' :: before =>
    if behind = [] || before = [] then (name, []) else (before.reverse, '.' :: behind.reverse)
  | _ => (name, [])

def stem (path : Path) : Text :=
  Text.ofList (splitName path.name.toList).1

def suffix (path : Path) : Text :=
  Text.ofList (splitName path.name.toList).2

end Path
end LocaleKeys
