import LocaleKeys.Catalog.Build
import LocaleKeys.Datum
import LocaleKeys.Resource.Patch

/-!
Planning the edits that add a key to resource files: to all of them or to those of some cultures. A
file that would not change gets no fix.
-/

namespace LocaleKeys

/-- One edit of a resource file that adds a key. -/
structure Fix where
  target : Path
  path : Text
  culture : Text
  key : Text
  oldText : List Point
  newText : List Point
  ruleId : Text
  value : Json

namespace Fix

def description (fix : Fix) : Text :=
  "Add '" ++ fix.key ++ "' to " ++ fix.culture ++ " resources"

def describe (fix : Fix) : Text :=
  "[" ++ fix.ruleId ++ "] " ++ fix.description ++ "\n  File: " ++ fix.path ++ "\n  + " ++ fix.key
    ++ ": " ++ (Datum.ofJson fix.value).quoted

def toJson (fix : Fix) : Json :=
  .obj [
    ("file_path", .str fix.path),
    ("culture", .str fix.culture),
    ("key", .str fix.key),
    ("value", fix.value),
    ("rule_id", .str fix.ruleId),
    ("description", .str fix.description)]

/-- The target cultures in the form in which they are compared, blank ones left out. -/
def comparableTargets (targets : List Text) : List Text :=
  (targets.filter fun t => Text.trimmed t ≠ "").map Text.lowercased

/-- Whether a file is to get the key. No targets mean every file. -/
def selects (explicit : List Text) (targets : List Text) (path : Text) : Bool :=
  targets.isEmpty || targets.contains (Text.lowercased (Culture.resolve explicit path))

/-- The new texts of the files that get a key, each path once, where `edit` sets it in a text. -/
def patchedBy {ε : Type} (edit : List Point → Except ε (List Point)) (explicit targets : List Text)
    (files : List ResourceFile) : Except ε (List (Text × List Point)) :=
  let targets := comparableTargets targets
  files.foldlM (fun done file =>
    match file.text with
    | some text =>
      if selects explicit targets file.path then
        (edit text).map fun text => Assoc.put file.path text done
      else .ok done
    | none => .ok done) []

def patched (explicit targets : List Text) (key : Text) (value : Json)
    (files : List ResourceFile) : Except Patch.Error (List (Text × List Point)) :=
  patchedBy (Patch.apply · key value) explicit targets files

def fileAt? (files : List ResourceFile) (path : Text) : Option ResourceFile :=
  files.reverse.find? (·.path = path)

def ofPatched (explicit : List Text) (key : Text) (value : Json) (ruleId : Text)
    (files : List ResourceFile) (path : Text) (newText : List Point) : Option Fix :=
  match fileAt? files path with
  | none => none
  | some file =>
    if file.text = some newText then none
    else some {
      target := file.source.getD (Path.ofString path)
      path := path
      culture := Culture.resolve explicit path
      key := key
      oldText := file.text.getD []
      newText := newText
      ruleId := ruleId
      value := value }

def ofTexts (explicit : List Text) (key : Text) (value : Json) (ruleId : Text)
    (files : List ResourceFile) (texts : List (Text × List Point)) : List Fix :=
  texts.filterMap fun (path, newText) =>
    ofPatched explicit key value ruleId files path newText

def plan (explicit targets : List Text) (key : Text) (value : Json)
    (files : List ResourceFile) (ruleId : Text := Kind.missing.rule.id) :
    Except Patch.Error (List Fix) :=
  (patched explicit targets key value files).map (ofTexts explicit key value ruleId files)

/-- The placeholder for a key: it names the first culture that has the key. -/
def placeholderFor (catalog : Catalog) (key : Text) : Text :=
  match catalog.cultures.find? (catalog.containsIn key) with
  | some culture => "TODO: Translate from " ++ culture
  | none => Patch.defaultPlaceholder

def partialTargets (catalog : Catalog) (key : Text) (explicit : List Text) : List Text :=
  catalog.missingCultures key (catalog.effectiveCultures explicit)

end Fix
end LocaleKeys
