import LocaleKeys.Culture
import LocaleKeys.Location

/-!
The catalog of known keys over all files and cultures. Look-ups compare keys under the case policy
and are answered from an index, which is a function of the entries.
-/

namespace LocaleKeys

/-- A key that one resource file defines. -/
structure Entry where
  key : Text
  culture : Text
  location : Location
  value : Scalar
  deriving DecidableEq, Repr, Inhabited

/-- A key that one resource file defines again. -/
structure Duplicate where
  key : Text
  culture : Text
  location : Location
  deriving DecidableEq, Repr, Inhabited

def normalizeKey (caseSensitive : Bool) (key : Text) : Text :=
  if caseSensitive then key else Text.lowercased key

namespace Catalog

/-- What look-ups are answered from: the first entry of each compared key, the same within each
culture, and the keys of each culture, as spelt and as compared. -/
structure Index where
  first : List (Text × Entry) := []
  firstIn : List ((Text × Text) × Entry) := []
  keysIn : List (Text × List Text) := []
  comparedIn : List (Text × List Text) := []

def addText (s : Text) (texts : Option (List Text)) : List Text :=
  match texts with
  | none => [s]
  | some texts => if texts.contains s then texts else s :: texts

def Index.add (caseSensitive : Bool) (index : Index) (entry : Entry) : Index :=
  let compared := normalizeKey caseSensitive entry.key
  { first := Assoc.offer compared entry index.first
    firstIn := Assoc.offer (compared, entry.culture) entry index.firstIn
    keysIn := Assoc.update entry.culture (addText entry.key) index.keysIn
    comparedIn := Assoc.update entry.culture (addText compared) index.comparedIn }

def Index.ofEntries (caseSensitive : Bool) (entries : List Entry) : Index :=
  entries.foldl (Index.add caseSensitive) {}

end Catalog

/-- The catalog: entries and duplicates in file order, the cultures of all files, the case policy, and
which files could be read. -/
structure Catalog where
  entries : List Entry := []
  duplicates : List Duplicate := []
  discovered : List Text := []
  caseSensitive : Bool := true
  parsed : List Text := []
  skipped : List Text := []
  index : Catalog.Index := Catalog.Index.ofEntries caseSensitive entries
  index_eq : index = Catalog.Index.ofEntries caseSensitive entries := by rfl

namespace Catalog

/-- A key in the form in which this catalog compares it. -/
def normalize (catalog : Catalog) (key : Text) : Text :=
  normalizeKey catalog.caseSensitive key

/-- All keys, each in its first spelling, in the order of their first entries. -/
def keys (catalog : Catalog) : List Text :=
  catalog.index.first.map (·.2.key)

/-- The cultures that define a key, in the order of their first entries. -/
def cultures (catalog : Catalog) : List Text :=
  catalog.index.keysIn.map (·.1)

def contains (catalog : Catalog) (key : Text) : Bool :=
  Assoc.has (catalog.normalize key) catalog.index.first

def containsIn (catalog : Catalog) (key culture : Text) : Bool :=
  match Assoc.get? culture catalog.index.comparedIn with
  | some compared => compared.contains (catalog.normalize key)
  | none => false

/-- The cultures among `required` that do not define a key, in ascending order. -/
def missingCultures (catalog : Catalog) (key : Text) (required : List Text) : List Text :=
  Text.sorted (required.filter fun culture => !catalog.containsIn key culture)

def culturesWith (catalog : Catalog) (key : Text) : List Text :=
  (catalog.index.comparedIn.map (·.1)).filter (catalog.containsIn key)

/-- The first entry of a key, within a culture if one is given and has the key. -/
def firstEntry (catalog : Catalog) (key : Text) (culture : Option Text := none) :
    Option Entry :=
  let compared := catalog.normalize key
  let anywhere := Assoc.get? compared catalog.index.first
  match culture with
  | none => anywhere
  | some culture =>
    match Assoc.get? (compared, culture) catalog.index.firstIn with
    | some entry => some entry
    | none => anywhere

def firstLocation (catalog : Catalog) (key : Text) (culture : Option Text := none) :
    Option Location :=
  (catalog.firstEntry key culture).map (·.location)

/-- The value of the first entry, null if there is none. -/
def valueOf (catalog : Catalog) (key : Text) (culture : Option Text := none) : Scalar :=
  match catalog.firstEntry key culture with
  | some entry => entry.value
  | none => .null

def effectiveCultures (catalog : Catalog) (explicit : List Text) : List Text :=
  Culture.effective explicit catalog.discovered

/-- Each culture with the number of its keys as spelt, in ascending order of the cultures. -/
def keyCounts (catalog : Catalog) : List (Text × Nat) :=
  Text.sortedBy (·.1) (catalog.index.keysIn.map fun (culture, keys) => (culture, keys.length))

def summary (catalog : Catalog) (explicit : List Text) : Json :=
  .obj [
    ("key_count", .int catalog.keys.length),
    ("cultures", .strings (Text.sorted catalog.discovered)),
    ("effective_cultures", .strings (Text.sorted (catalog.effectiveCultures explicit))),
    ("keys_by_culture", .obj (catalog.keyCounts.map fun (culture, n) => (culture, .int n))),
    ("duplicate_count", .int catalog.duplicates.length),
    ("files_parsed", .strings catalog.parsed),
    ("files_skipped", .strings catalog.skipped)]

end Catalog
end LocaleKeys
