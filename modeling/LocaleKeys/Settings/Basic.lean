import LocaleKeys.Json.Value

/-!
Settings of a check: where resources are, how code reaches them, which cultures count, and what is
reported.
-/

namespace LocaleKeys

/-- How code reaches a text: by an index, or by a call. -/
inductive AccessorType
  | indexer
  | method
  deriving DecidableEq, Repr

def AccessorType.name : AccessorType → Text
  | .indexer => "indexer"
  | .method => "method"

def AccessorType.title : AccessorType → Text
  | .indexer => "Indexer"
  | .method => "Method"

/-- A rule for accessors: the names of indexed types or of methods. -/
structure Accessor where
  type : AccessorType
  names : List Text
  deriving DecidableEq, Repr

def Accessor.text (a : Accessor) : Text :=
  a.type.title ++ ":" ++ Text.intercalate "," a.names

/-- The settings of a check. Dynamic patterns are kept and shown, and decide nothing. -/
structure Settings where
  jsonPatterns : List Text := ["**/*.json"]
  accessors : List Accessor :=
    [⟨.indexer, ["IStringLocalizer"]⟩, ⟨.method, ["Localizer.Get", "Translate"]⟩]
  cultures : List Text := []
  caseSensitive : Bool := true
  warnPartial : Bool := true
  dynamicPatterns : List Text := []
  exclude : List Text := []
  deriving DecidableEq, Repr, Inhabited

namespace Settings

def accessorNames (settings : Settings) (type : AccessorType) : List Text :=
  (settings.accessors.filter (·.type = type)).flatMap (·.names)

def members (settings : Settings) : List (Text × Json) := [
  ("json_patterns", .strings settings.jsonPatterns),
  ("accessor_kinds", .strings (settings.accessors.map Accessor.text)),
  ("cultures", .strings settings.cultures),
  ("key_case_sensitive", .bool settings.caseSensitive),
  ("warn_on_partial_missing", .bool settings.warnPartial),
  ("allowed_dynamic_patterns", .strings settings.dynamicPatterns),
  ("exclude", .strings settings.exclude)]

/-- A change of one setting. -/
inductive Change
  | jsonPatterns (patterns : List Text)
  | accessors (accessors : List Accessor)
  | cultures (cultures : List Text)
  | caseSensitive (b : Bool)
  | warnPartial (b : Bool)
  | dynamicPatterns (patterns : List Text)
  | exclude (names : List Text)
  deriving DecidableEq, Repr

def change (settings : Settings) : Change → Settings
  | .jsonPatterns patterns => { settings with jsonPatterns := patterns }
  | .accessors accessors => { settings with accessors }
  | .cultures cultures => { settings with cultures }
  | .caseSensitive b => { settings with caseSensitive := b }
  | .warnPartial b => { settings with warnPartial := b }
  | .dynamicPatterns patterns => { settings with dynamicPatterns := patterns }
  | .exclude names => { settings with exclude := names }

def withChanges (settings : Settings) (changes : List Change) : Settings :=
  changes.foldl change settings

end Settings
end LocaleKeys
