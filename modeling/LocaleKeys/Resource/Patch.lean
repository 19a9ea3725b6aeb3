import LocaleKeys.Key.Insert
import LocaleKeys.Json.Reader
import LocaleKeys.Json.Printer
import LocaleKeys.Text.Blank

/-!
Adding one key to resource text. An object is edited as a tree and written anew, which fails where a
key has so many parts that the object would be nested too deep; text that cannot be read gets the
member before its last brace, unless it has one of that name; anything else stays.
-/

namespace LocaleKeys.Patch

def defaultPlaceholder : Text := "TODO: Add translation"

/-- Whether a quoted name stands somewhere in the text with a colon behind it, blanks aside. -/
def hasMember (name : List Point) : List Point → Bool
  | [] => false
  | c :: rest =>
    (name.isPrefixOf (c :: rest) &&
      (((c :: rest).drop name.length).dropWhile Text.isBlank).head? == some (Point.char ':')) ||
    hasMember name rest

/-- The lines that close an edited text: the new member and the brace. -/
def memberLines (name : List Point) (value : Json) : List Point :=
  (Text.ofString "\n  ").toList ++ name ++ (Text.ofString ": ").toList ++
    Json.write .inline 0 value (Text.ofString "\n\x7d\n").toList

/-- Adds a member with a quoted name before the last brace of a text. A comma goes before it, unless
one is there or the object is empty. -/
def insertText (text name : List Point) (value : Json) : List Point :=
  match (Text.trimRight text).reverse with
  | .char '}' :: reversed =>
    let body := Text.trimRight reversed.reverse
    if hasMember name body then text
    else
      match body.getLast? with
      | some (.char '{') | some (.char ',') => body ++ memberLines name value
      | _ => body ++ .char ',' :: memberLines name value
  | _ => text

/-- Why a text cannot be edited. -/
inductive Error
  | tooDeep
  deriving DecidableEq, Repr

def Error.message : Error → Text
  | .tooDeep => "the object would be nested too deep"

/-- The text of an object with a key set. Each part of the key is a level of its own. -/
def renderFile (key : Text) (value : Json) (members : List (Text × Json)) :
    Except Error (List Point) :=
  if Json.maxDepth < (Key.segments key).length then .error .tooDeep
  else .ok (Json.render (.lines 2) (.obj (Key.insert key value members)) ++ [Point.char '\n'])

/-- Sets a key in resource text; blank text counts as an empty object. -/
def apply (text : List Point) (key : Text) (value : Json) : Except Error (List Point) :=
  if (Text.trim text).isEmpty then renderFile key value []
  else
    match Json.read .keepLast text with
    | .error _ => .ok (insertText text (Json.writeString key []) value)
    | .ok (.obj members) => renderFile key value members
    | .ok _ => .ok text

end LocaleKeys.Patch
