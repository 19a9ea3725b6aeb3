import LocaleKeys.Json.Printer
import LocaleKeys.Platform
import LocaleKeys.Schema.Check
import LocaleKeys.Schema.Report
import LocaleKeys.Yaml.Value

/-!
A platform to run the program on. Its YAML is the one of `Yaml.read`; it knows the schema of reports,
and lets every value pass by any other one. No character has a name.
-/

namespace LocaleKeys

/-- How an error of the reader shows itself outside. -/
def LoadError.ofYaml : Yaml.Error → LoadError
  | .malformed => .malformed
  | .encoding f => .encoding f
  | .badValue message => .raised ⟨.value, "ValueError", message⟩
  | .badName name => .raised ⟨.other, "KeyError", Text.quote name⟩
  | .tooLarge message => .raised ⟨.other, "OverflowError", message⟩
  | .noDigits => .raised ⟨.other, "IndexError", "string index out of range"⟩
  | .noStamp => .raised ⟨.other, "AttributeError", "'NoneType' object has no attribute 'groupdict'"⟩
  | .noText => .raised ⟨.other, "TypeError", "expected string or bytes-like object, got 'list'"⟩
  | .tooDeep => .raised ⟨.other, "RecursionError", ""⟩

def Schema.Violation.toRefusal (v : Violation) : Refusal where
  keyword := v.reason.keyword
  message := v.message
  path := v.path.map PathStep.text

namespace Platform

/-- The value of a document; a file without a document has none. -/
def readYaml (bytes : List UInt8) : Except LoadError Datum :=
  match Yaml.read bytes with
  | .error e => .error (.ofYaml e)
  | .ok value => .ok (value.getD .null)

/-- The look at a value. A schema is the one of reports if it is so when written. -/
def checkReport (schema value : Json) : Except ValidationError Unit :=
  if Json.write .inline 0 schema [] = Json.write .inline 0 Schema.report.toJson [] then
    match Schema.check Schema.report value with
    | .error v => .error (.refused v.toRefusal)
    | .ok () => .ok ()
  else .ok ()

@[reducible]
def standIn : Platform where
  charNames _ := none
  loadYaml := readYaml
  validate := checkReport
  folderRoom := 960
  makingRoom := 960

end Platform
end LocaleKeys
