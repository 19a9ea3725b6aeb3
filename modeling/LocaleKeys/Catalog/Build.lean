import LocaleKeys.Catalog.Basic
import LocaleKeys.Key.Flatten
import LocaleKeys.Key.Scan
import LocaleKeys.Settings.Basic

/-!
Building the catalog. Each resource file contributes on its own, and the contributions are joined in
file order, so a file that cannot be read changes nothing for the others.
-/

namespace LocaleKeys

/-- The text of a resource file under its path; a file that could not be read has none. The source is
the place of the file where it was read from a disk. -/
structure ResourceFile where
  path : Text
  text : Option (List Point)
  source : Option Path := none
  deriving DecidableEq, Repr, Inhabited

/-- What one file adds to the catalog. -/
structure Contribution where
  path : Text
  culture : Text
  entries : List Entry := []
  duplicates : List Duplicate := []
  parsed : Bool := false
  deriving Repr

namespace Contribution

def rawDuplicates (path culture : Text) (scan : Key.Scan) : List Duplicate :=
  scan.repeats.map fun r =>
    ⟨r.path, culture, ⟨path, r.place.line, r.place.line, r.place.column⟩⟩

/-- Where a leaf is reported: at its member or the nearest one around it, else at the start. -/
def leafLocation (path : Text) (scan : Key.Scan) (key : Text) : Location :=
  let place := (scan.locate key).getD Text.Position.start
  ⟨path, place.line, place.line, place.column⟩

/-- Takes leaves one by one; `seen` holds the compared keys before. A key that compares equal to an
earlier one is a duplicate. -/
def takeLeaves (caseSensitive : Bool) (locate : Text → Location) (culture : Text) :
    (seen : List Text) → List (Text × Scalar) → List Entry × List Duplicate
  | _, [] => ([], [])
  | seen, (key, value) :: rest =>
    let compared := normalizeKey caseSensitive key
    if seen.contains compared then
      let (entries, duplicates) := takeLeaves caseSensitive locate culture seen rest
      (entries, ⟨key, culture, locate key⟩ :: duplicates)
    else
      let (entries, duplicates) := takeLeaves caseSensitive locate culture (compared :: seen) rest
      (⟨key, culture, locate key, value⟩ :: entries, duplicates)

/-- What a file adds. Repeated names count even when the text is not JSON, unless it is nested too
deeply to be looked at. -/
def ofFile (settings : Settings) (file : ResourceFile) : Contribution :=
  let culture := Culture.resolve settings.cultures file.path
  match file.text with
  | none => { path := file.path, culture }
  | some text =>
    let scan := Key.scan text
    let duplicates := rawDuplicates file.path culture scan
    match Key.readResource text with
    | .error .tooDeep => { path := file.path, culture }
    | .error _ => { path := file.path, culture, duplicates }
    | .ok value =>
      let (entries, more) := takeLeaves settings.caseSensitive (leafLocation file.path scan)
        culture [] (Key.flatten "" value)
      { path := file.path, culture, entries, duplicates := duplicates ++ more, parsed := true }

end Contribution

namespace Catalog

def build (settings : Settings) (files : List ResourceFile) : Catalog :=
  let contributions := files.map (Contribution.ofFile settings)
  { entries := contributions.flatMap (·.entries)
    duplicates := contributions.flatMap (·.duplicates)
    discovered := Culture.discover settings.cultures (files.map (·.path))
    caseSensitive := settings.caseSensitive
    parsed := (contributions.filter (·.parsed)).map (·.path)
    skipped := (contributions.filter (!·.parsed)).map (·.path) }

end Catalog
end LocaleKeys
