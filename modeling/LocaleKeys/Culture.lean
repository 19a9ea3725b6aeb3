import LocaleKeys.Path
import LocaleKeys.Text.Lower
import LocaleKeys.Text.Order
import LocaleKeys.Text.Search

/-!
Cultures of resource files. A configured culture that occurs in the directory or the file name comes
first, then a last part of the file name that looks like a culture, then a well-known culture that
stands alone in the path; other files have the default culture.
-/

namespace LocaleKeys.Culture

def default : Text := "default"

/-- The well-known cultures, in the order in which they are looked for. -/
def wellKnown : List Text := List.map Text.ofString [
  "en", "en-US", "fr", "de", "es", "it", "ja", "zh", "pt", "ru", "th", "ko",
  "ar", "hi", "tr", "pl", "nl", "sv", "da", "no", "fi", "cs", "sk", "hu",
  "ro", "bg", "hr", "sr", "sl", "et", "lv", "lt", "uk", "be", "mk", "sq",
  "az", "ka", "am", "is", "fo", "mt", "cy", "eu", "ca", "gl", "ast", "br",
  "co", "fur", "rm", "sc", "vec", "lij", "pms", "nap", "scn"]

/-- What a path tells about a culture: its directory and its file name without ending, both in
lower case, and the last part of that name as it is. -/
structure Clues where
  directory : List Point
  stem : List Point
  lastPart : List Point

/-- The clues of a path. Backslashes separate names as well. -/
def clues (path : Text) : Clues :=
  let path := Path.ofChars (path.toList.map fun c => if c = Point.char '\\' then Point.char '/' else c)
  let directory := path.parent.text
  let stem := path.stem.toList
  { directory := if directory = "." then [] else Text.lower directory.toList
    stem := Text.lower stem
    lastPart := ((stem.splitOn (.char '.')).getLast?).getD [] }

/-- Whether a text is two letters, or two letters, a hyphen and two to eight letters. -/
def isTag (s : List Point) : Bool :=
  let tail := s.drop 2
  (s.take 2).length == 2 && (s.take 2).all Point.isAlpha &&
    match tail with
    | [] => true
    | .char '-' :: region => 2 ≤ region.length && region.length ≤ 8 && region.all Point.isAlpha
    | _ => false

/-- Whether a part of a file name looks like a culture; a line feed may follow it. -/
def looksLikeTag (s : List Point) : Bool :=
  isTag s || (s.getLast? == some (Point.char '\n') && isTag s.dropLast)

def occurs (clues : Clues) (culture : Text) : Bool :=
  let needle := Text.lower culture.toList
  Text.contains needle clues.directory || Text.contains needle clues.stem

/-- Whether a well-known culture stands alone in a path. -/
def standsAlone (clues : Clues) (culture : Text) : Bool :=
  let needle := Text.lower culture.toList
  Text.containsAlone needle false clues.directory || Text.containsAlone needle false clues.stem

def ofClues (explicit : List Text) (clues : Clues) : Text :=
  match explicit.find? (occurs clues) with
  | some culture => culture
  | none =>
    if looksLikeTag clues.lastPart then Text.ofList (Text.lower clues.lastPart)
    else (wellKnown.find? (standsAlone clues)).getD default

/-- The culture of a resource file, given the configured cultures. -/
def resolve (explicit : List Text) (path : Text) : Text :=
  ofClues explicit (clues path)

/-- The cultures of files, each once, in the order in which they are first seen. -/
def discover (explicit : List Text) (paths : List Text) : List Text :=
  Text.distinct (paths.map (resolve explicit))

/-- The cultures that are compared: the configured ones if there are any, else the discovered ones;
the default culture counts only when it is all there is. -/
def effective (explicit discovered : List Text) : List Text :=
  if explicit.isEmpty then
    let named := discovered.filter (· ≠ default)
    if named.isEmpty then discovered else named
  else explicit

end LocaleKeys.Culture
