import LocaleKeys.Json.Value

/-!
Locations: where a usage, an entry or a diagnostic stands.
-/

namespace LocaleKeys

/-- A stretch of lines in a file, with the column it starts at. -/
structure Location where
  path : Text
  lineStart : Int := 1
  lineEnd : Int := 1
  column : Int := 1
  deriving DecidableEq, Repr, Inhabited

namespace Location

def text (l : Location) : Text :=
  l.path ++ ":" ++ Text.ofInt l.lineStart ++ ":" ++ Text.ofInt l.column

def toJson (l : Location) : Json :=
  .obj [("path", .str l.path), ("line_start", .int l.lineStart), ("line_end", .int l.lineEnd),
    ("column", .int l.column)]

end Location

/-- A place where code passes a literal key to an accessor. -/
structure Usage where
  key : Text
  location : Location
  deriving DecidableEq, Repr, Inhabited

end LocaleKeys
