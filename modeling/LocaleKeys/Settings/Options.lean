import LocaleKeys.Settings.Basic
import LocaleKeys.Datum
import LocaleKeys.Text.Blank

/-!
Reading settings from options, that is from names with dynamic values. Each setting has a short name,
and most have a long one too; a later option overrides an earlier one of the same setting.
-/

namespace LocaleKeys.Settings

/-- Why options are no settings. -/
inductive OptionError
  | notTexts (typeName : Text)
  | notBool (option : Text) (value : Datum)
  | unknown (option : Datum)
  | unwritable (fault : Datum.WriteFault)

/-- The wording of an error. Too deep a nesting has none. -/
def OptionError.message : OptionError → Text
  | .notTexts typeName => "expected a string or a list, got " ++ typeName
  | .notBool option value => option ++ ": expected a boolean, got " ++ value.quoted
  | .unknown option => "unknown configuration option: " ++ option.quoted
  | .unwritable .longInteger => Number.unwritableMessage
  | .unwritable .tooDeep => ""

def writable (value : Datum) : Except OptionError Unit :=
  match value.writeFault? with
  | some fault => .error (.unwritable fault)
  | none => .ok ()

/-- The parts of a text between separators, trimmed, without empty ones. -/
def splitText (separator : Point) (s : Text) : List Text :=
  (((s.toList.splitOn separator).map Text.trim).filter (· ≠ [])).map Text.ofList

def trimAll (texts : List Text) : List Text :=
  (texts.map Text.trimmed).filter (· ≠ "")

/-- The texts of an option: nothing, a separated text, or one text for each item. -/
def texts (value : Datum) (separator : Point := ',') : Except OptionError (List Text) :=
  match value with
  | .null => .ok []
  | .text s => .ok (splitText separator s)
  | _ =>
    match value.opened.items? with
    | some items => (writable (.list items)).map fun () => trimAll (items.map Datum.plain)
    | none => .error (.notTexts value.typeName)

def boolOfText? (s : Text) : Option Bool :=
  let word := Text.lowercased (Text.trimmed s)
  if [Text.ofString "true", "1", "yes", "on"].contains word then some true
  else if [Text.ofString "false", "0", "no", "off"].contains word then some false
  else none

def bool (option : Text) (value : Datum) : Except OptionError Bool :=
  let found := match value with
    | .bool b => some b
    | .text s => boolOfText? s
    | _ => none
  match found with
  | some b => .ok b
  | none => (writable value).bind fun () => .error (.notBool option value)

/-- The accessor type of a name, blanks and letter case aside. -/
def accessorType? (s : List Point) : Option AccessorType :=
  let word := Text.ofList (Text.lower (Text.trim s))
  [AccessorType.indexer, .method].find? (·.name = word)

/-- The accessor rule of a text such as `Method:a,b`; nothing where there is no colon, no known type
or no name. -/
def accessor? (s : Text) : Option Accessor :=
  match s.toList.dropWhile (· ≠ Point.char ':') with
  | [] => none
  | _ :: names =>
    match accessorType? (s.toList.takeWhile (· ≠ Point.char ':')), splitText ',' (Text.ofList names) with
    | some type, name :: more => some ⟨type, name :: more⟩
    | _, _ => none

def accessorTexts : List (Datum × Datum) → Except OptionError (List Text)
  | [] => .ok []
  | (k, v) :: rest =>
    match (writable k).bind fun () => texts v with
    | .error e => .error e
    | .ok names =>
      match accessorTexts rest with
      | .error e => .error e
      | .ok more => .ok ((k.plain ++ ":" ++ Text.intercalate "," names) :: more)

/-- The accessor rules of an option: a text with semicolons, a list of rules, or a map from types to
names. What is no rule is left out. -/
def accessorRules (value : Datum) : Except OptionError (List Accessor) :=
  let parts := match value.opened with
    | .map entries => accessorTexts entries
    | _ => texts value ';'
  match parts with
  | .ok parts => .ok (parts.filterMap accessor?)
  | .error e => .error e

/-- What an option sets. -/
inductive Field
  | jsonPatterns
  | accessors
  | cultures
  | dynamicPatterns
  | exclude
  | keyCase
  | caseSensitive
  | warnPartial
  deriving DecidableEq, Repr

/-- The names of the options, some of which have a long one besides. -/
def fieldNames : List (Text × Field) := [
  ("json_patterns", .jsonPatterns),
  ("localization_json_patterns", .jsonPatterns),
  ("accessor_kinds", .accessors),
  ("localization_accessor_kinds", .accessors),
  ("cultures", .cultures),
  ("localization_cultures", .cultures),
  ("allowed_dynamic_patterns", .dynamicPatterns),
  ("localization_allowed_dynamic_patterns", .dynamicPatterns),
  ("exclude", .exclude),
  ("key_case", .keyCase),
  ("localization_key_case", .keyCase),
  ("key_case_sensitive", .caseSensitive),
  ("warn_on_partial_missing", .warnPartial),
  ("localization_warn_on_partial_missing", .warnPartial)]

/-- Sets what one option says. No patterns at all mean the usual ones. -/
def setOption (settings : Settings) (option : Text) (value : Datum) :
    Except OptionError Settings :=
  match Assoc.get? option fieldNames with
  | some .jsonPatterns =>
    (texts value).map fun patterns =>
      { settings with
        jsonPatterns := if patterns.isEmpty then ({} : Settings).jsonPatterns else patterns }
  | some .accessors => (accessorRules value).map fun accessors => { settings with accessors }
  | some .cultures => (texts value).map fun cultures => { settings with cultures }
  | some .dynamicPatterns =>
    (texts value).map fun dynamicPatterns => { settings with dynamicPatterns }
  | some .exclude => (texts value).map fun exclude => { settings with exclude }
  | some .keyCase =>
    (writable value).map fun () =>
      let word := Text.lowercased (Text.trimmed value.plain)
      { settings with caseSensitive := word = "sensitive" }
  | some .caseSensitive =>
    (bool option value).map fun caseSensitive => { settings with caseSensitive }
  | some .warnPartial =>
    (bool option value).map fun warnPartial => { settings with warnPartial }
  | none => .error (.unknown (.text option))

def setOptions (settings : Settings) : List (Datum × Datum) → Except OptionError Settings
  | [] => .ok settings
  | (.text option, value) :: rest =>
    match settings.setOption option value with
    | .ok settings => settings.setOptions rest
    | .error e => .error e
  | (other, _) :: _ => (writable other).bind fun () => .error (.unknown other)

def ofOptions (options : List (Datum × Datum)) : Except OptionError Settings :=
  setOptions {} options

end LocaleKeys.Settings
