import LocaleKeys.Datum
import LocaleKeys.Source.Token
import LocaleKeys.Text.Utf8

/-!
What the program stands on: packages that read settings files and look at documents, the names of
characters, and the room for walks through folders and for the making of them.
-/

namespace LocaleKeys

/-- The families of exceptions that are told apart where they are caught. -/
inductive Family
  | system
  | value
  | other
  deriving DecidableEq, Repr

/-- An exception that is raised elsewhere: its family and kind, and what it says. -/
structure Exception where
  family : Family
  kind : Text
  message : Text
  deriving DecidableEq, Repr

/-- Why a settings file has no value: it is no YAML, its bytes are no text, or something else. -/
inductive LoadError
  | malformed
  | encoding (f : Text.Utf8.Fault)
  | raised (e : Exception)
  deriving DecidableEq, Repr

/-- What a value violates: a keyword of the schema, the message, and the way to the place. -/
structure Refusal where
  keyword : Text
  message : Text
  path : List Text
  deriving DecidableEq, Repr

/-- Why a value is not accepted: it violates the schema, or something else. -/
inductive ValidationError
  | refused (r : Refusal)
  | raised (e : Exception)
  deriving DecidableEq, Repr

/-- What the program stands on. -/
class Platform where
  /-- The characters that have names. -/
  charNames : Source.CharNames
  /-- The value of a YAML document, given by its bytes. -/
  loadYaml : List UInt8 → Except LoadError Datum
  /-- The look at a value, the schema coming first. -/
  validate : Json → Json → Except ValidationError Unit
  /-- How many folders may lie one inside the other where a walk comes by. -/
  folderRoom : Nat
  /-- How many missing folders may be made for one path. -/
  makingRoom : Nat

end LocaleKeys
