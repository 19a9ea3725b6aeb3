import LocaleKeys.Catalog.Basic
import LocaleKeys.Diagnostic
import LocaleKeys.ExitCode
import LocaleKeys.Number.Integer
import LocaleKeys.Number.Shortest
import LocaleKeys.Path
import LocaleKeys.Suggest.Ranking

/-!
Dynamic values, as option files hold them and reports print them, with two text forms: the quoted
form shows what a value is, the plain form shows a text as it stands. A collection that contains itself,
at any depth, is a knot with a number, by which values inside may refer to it.
-/

namespace LocaleKeys

/-- A calendar date. -/
structure Date where
  year : Nat
  month : Nat
  day : Nat
  deriving DecidableEq, Repr

namespace Date

def isLeap (year : Nat) : Bool :=
  year % 4 = 0 && (year % 100 ≠ 0 || year % 400 = 0)

def daysIn (year month : Nat) : Nat :=
  if month = 2 then if isLeap year then 29 else 28
  else if [4, 6, 9, 11].contains month then 30 else 31

/-- The number of days since the last one before the first year. -/
def dayNumber (d : Date) : Nat :=
  let years := d.year - 1
  let months := (List.range (d.month - 1)).foldl (fun days m => days + daysIn d.year (m + 1)) 0
  365 * years + years / 4 - years / 100 + years / 400 + months + d.day

end Date

/-- A date with a time of day and perhaps an offset from universal time, in minutes. -/
structure Moment where
  date : Date
  hour : Nat
  minute : Nat
  second : Nat
  micros : Nat
  offset : Option Int
  deriving DecidableEq, Repr

namespace Moment

/-- A moment in millionths of a second of universal time, if its offset is known. -/
def instant? (m : Moment) : Option Int :=
  m.offset.map fun offset =>
    let minutes : Int := (m.date.dayNumber * 1440 + m.hour * 60 + m.minute : Nat) - offset
    (minutes * 60 + m.second) * 1000000 + m.micros

/-- Whether two moments are the same, with or without offsets. -/
def isSame (a b : Moment) : Bool :=
  match a.instant?, b.instant? with
  | some s, some t => s = t
  | none, none => a = b
  | _, _ => false

end Moment

/-- A dynamic value. -/
inductive Datum
  | null
  | bool (b : Bool)
  | int (n : Int)
  | float (x : Double)
  | text (s : Text)
  | bytes (data : List UInt8)
  | date (d : Date)
  | moment (m : Moment)
  | list (items : List Datum)
  | tuple (items : List Datum)
  | set (items : List Datum)
  | map (entries : List (Datum × Datum))
  | path (p : Path)
  | severity (s : Severity)
  | kind (k : Kind)
  | exitCode (c : ExitCode)
  | range (n : Int)
  | location (l : Location)
  | candidate (c : Suggest.Candidate)
  | entry (key culture : Text) (location : Location) (value : Datum)
  | knot (number : Nat) (value : Datum)
  | again (number : Nat)
  deriving Inhabited

namespace Datum

def padded (width n : Nat) : Text :=
  let digits := Text.digits n
  Text.ofList (List.replicate (width - digits.length) (.char '0') ++ digits)

def dateText (d : Date) : Text :=
  padded 4 d.year ++ "-" ++ padded 2 d.month ++ "-" ++ padded 2 d.day

def offsetText (minutes : Int) : Text :=
  let sign : Text := if minutes < 0 then "-" else "+"
  sign ++ padded 2 (minutes.natAbs / 60) ++ ":" ++ padded 2 (minutes.natAbs % 60)

def momentText (m : Moment) : Text :=
  let micros : Text := if m.micros = 0 then "" else "." ++ padded 6 m.micros
  let offset : Text := match m.offset with
    | none => ""
    | some minutes => offsetText minutes
  dateText m.date ++ " " ++ padded 2 m.hour ++ ":" ++ padded 2 m.minute ++ ":" ++ padded 2 m.second ++
    micros ++ offset

def offsetQuoted (minutes : Int) : Text :=
  if minutes = 0 then "datetime.timezone.utc"
  else if minutes < 0 then
    "datetime.timezone(datetime.timedelta(days=-1, seconds=" ++ Text.ofInt (86400 + minutes * 60) ++ "))"
  else "datetime.timezone(datetime.timedelta(seconds=" ++ Text.ofInt (minutes * 60) ++ "))"

/-- A moment in quoted form; seconds are left out when they are zero. -/
def momentQuoted (m : Moment) : Text :=
  let figures := [m.date.year, m.date.month, m.date.day, m.hour, m.minute] ++
    (if m.micros ≠ 0 then [m.second, m.micros] else if m.second ≠ 0 then [m.second] else [])
  let offset : Text := match m.offset with
    | none => ""
    | some minutes => ", tzinfo=" ++ offsetQuoted minutes
  "datetime.datetime(" ++ Text.intercalate ", " (figures.map Text.ofNat) ++ offset ++ ")"

def constantName (name : Text) : Text :=
  Text.ofList (name.toList.map Point.toUpper)

def ofScalar : Scalar → Datum
  | .null => .null
  | .bool b => .bool b
  | .int n => .int n
  | .float x => .float x
  | .str s => .text s

mutual

def ofJson : Json → Datum
  | .scalar s => ofScalar s
  | .arr elements => .list (ofJsonAll elements)
  | .obj members => .map (ofJsonMembers members)

def ofJsonAll : List Json → List Datum
  | [] => []
  | v :: rest => ofJson v :: ofJsonAll rest

def ofJsonMembers : List (Text × Json) → List (Datum × Datum)
  | [] => []
  | (name, v) :: rest => (.text name, ofJson v) :: ofJsonMembers rest

end

def quotedScalar : Scalar → Text
  | .null => "None"
  | .bool true => "True"
  | .bool false => "False"
  | .int n => Text.ofInt n
  | .float x => Text.ofList x.text
  | .str s => Text.quote s

def quotedLocation (l : Location) : Text :=
  "Location(path=" ++ Text.quote l.path ++ ", line_start=" ++ Text.ofInt l.lineStart ++
    ", line_end=" ++ Text.ofInt l.lineEnd ++ ", " ++
    "column=" ++ Text.ofInt l.column ++ ")"

def dots : Datum → Text
  | .list _ => "[...]"
  | .tuple _ => "(...)"
  | _ => "\x7b...\x7d"

mutual

/-- The quoted form of a value inside of knots, given with what stands for each of them. -/
def quotedIn (around : List (Nat × Text)) : Datum → Text
  | .null => "None"
  | .bool b => quotedScalar (.bool b)
  | .int n => quotedScalar (.int n)
  | .float x => quotedScalar (.float x)
  | .text s => Text.quote s
  | .bytes data => Text.ofList (Text.quotedBytes data)
  | .date d => "datetime.date(" ++ Text.ofNat d.year ++ ", " ++ Text.ofNat d.month ++ ", " ++
    Text.ofNat d.day ++ ")"
  | .moment m => momentQuoted m
  | .list items => "[" ++ Text.intercalate ", " (quotedAll around items) ++ "]"
  | .tuple [item] => "(" ++ quotedIn around item ++ ",)"
  | .tuple items => "(" ++ Text.intercalate ", " (quotedAll around items) ++ ")"
  | .set [] => "set()"
  | .set items => "\x7b" ++ Text.intercalate ", " (quotedAll around items) ++ "\x7d"
  | .map entries => "\x7b" ++ Text.intercalate ", " (quotedEntries around entries) ++ "\x7d"
  | .path p => "PosixPath(" ++ Text.quote p.text ++ ")"
  | .severity s => "<Severity." ++ constantName s.name ++ ": " ++ Text.quote s.name ++ ">"
  | .kind k => "<DiagnosticKind." ++ constantName k.name ++ ": " ++ Text.quote k.name ++ ">"
  | .exitCode c => "<ExitCode." ++ c.name ++ ": " ++ Text.ofNat c.number ++ ">"
  | .range n => "range(0, " ++ Text.ofInt n ++ ")"
  | .location l => quotedLocation l
  | .candidate c => "SuggestionCandidate(key=" ++ Text.quote c.key ++ ", score=" ++ Text.ofInt c.score ++ ")"
  | .entry key culture place value =>
    "ResourceEntry(key=" ++ Text.quote key ++ ", culture=" ++ Text.quote culture ++ ", " ++
      "location=" ++ quotedLocation place ++ ", value=" ++ quotedIn around value ++ ")"
  | .knot n value =>
    match Assoc.get? n around with
    | some dots => dots
    | none => quotedIn ((n, dots value) :: around) value
  | .again n => (Assoc.get? n around).getD ""

def quotedAll (around : List (Nat × Text)) : List Datum → List Text
  | [] => []
  | d :: rest => quotedIn around d :: quotedAll around rest

def quotedEntries (around : List (Nat × Text)) : List (Datum × Datum) → List Text
  | [] => []
  | (k, v) :: rest =>
    (quotedIn around k ++ ": " ++ quotedIn around v) :: quotedEntries around rest

end

def quoted (d : Datum) : Text :=
  quotedIn [] d

def plain : Datum → Text
  | .text s => s
  | .date d => dateText d
  | .moment m => momentText m
  | .path p => p.text
  | .severity s => "Severity." ++ constantName s.name
  | .kind k => "DiagnosticKind." ++ constantName k.name
  | .exitCode c => Text.ofNat c.number
  | .location l => l.text
  | d => quoted d

def typeName : Datum → Text
  | .null => "NoneType"
  | .bool _ => "bool"
  | .int _ => "int"
  | .float _ => "float"
  | .text _ => "str"
  | .bytes _ => "bytes"
  | .date _ => "date"
  | .moment _ => "datetime"
  | .list _ => "list"
  | .tuple _ => "tuple"
  | .set _ => "set"
  | .map _ => "dict"
  | .path _ => "PosixPath"
  | .severity _ => "Severity"
  | .kind _ => "DiagnosticKind"
  | .exitCode _ => "ExitCode"
  | .range _ => "range"
  | .location _ => "Location"
  | .candidate _ => "SuggestionCandidate"
  | .entry .. => "ResourceEntry"
  | .knot _ value => typeName value
  | .again _ => "list"

mutual

/-- Puts a value in the place of what refers to a knot. -/
def fill (number : Nat) (value : Datum) : Datum → Datum
  | .list items => .list (fillAll number value items)
  | .tuple items => .tuple (fillAll number value items)
  | .map entries => .map (fillEntries number value entries)
  | .knot n d => .knot n (fill number value d)
  | .again n => if n = number then value else .again n
  | d => d

def fillAll (number : Nat) (value : Datum) : List Datum → List Datum
  | [] => []
  | d :: rest => fill number value d :: fillAll number value rest

def fillEntries (number : Nat) (value : Datum) : List (Datum × Datum) → List (Datum × Datum)
  | [] => []
  | (k, v) :: rest => (k, fill number value v) :: fillEntries number value rest

end

/-- The collection that a knot is, whose own items contain the knot. -/
def opened : Datum → Datum
  | .knot n value => fill n (.knot n value) value
  | d => d

/-- Why a value cannot be written: it is nested too deep, or an integer inside takes too many digits. -/
inductive WriteFault
  | tooDeep
  | longInteger
  deriving DecidableEq, Repr

/-- The greatest depth to which a value that is written may be nested. -/
def maxDepth : Nat := 990

mutual

/-- What first keeps a value from being written where there is room for so many levels. -/
def faultIn (room : Nat) : Datum → Option WriteFault
  | .int n => if Number.isUnwritable n then some .longInteger else none
  | .list items => if room = 0 then some .tooDeep else faultInAll (room - 1) items
  | .tuple items => if room = 0 then some .tooDeep else faultInAll (room - 1) items
  | .set items => if room = 0 then some .tooDeep else faultInAll (room - 1) items
  | .map entries => if room = 0 then some .tooDeep else faultInEntries (room - 1) entries
  | .knot _ value => faultIn room value
  | _ => none

def faultInAll (room : Nat) : List Datum → Option WriteFault
  | [] => none
  | d :: rest =>
    match faultIn room d with
    | some fault => some fault
    | none => faultInAll room rest

def faultInEntries (room : Nat) : List (Datum × Datum) → Option WriteFault
  | [] => none
  | (k, v) :: rest =>
    match faultIn room k with
    | some fault => some fault
    | none =>
      match faultIn room v with
      | some fault => some fault
      | none => faultInEntries room rest

end

def writeFault? (d : Datum) : Option WriteFault :=
  faultIn maxDepth d

/-- The values that a value runs through: its items, the keys of a map, the numbers of bytes. -/
def items? : Datum → Option (List Datum)
  | .list items => some items
  | .tuple items => some items
  | .set items => some items
  | .map entries => some (entries.map (·.1))
  | .bytes data => some (data.map fun b => .int b.toNat)
  | .range n => some ((List.range n.toNat).map fun i => .int (i : Nat))
  | _ => none

def whole? : Datum → Option Int
  | .bool b => some (if b then 1 else 0)
  | .int n => some n
  | .exitCode c => some c.number
  | .float (.finite negative m e) =>
    let (n, d) := Double.ratio m e
    if n % d = 0 then some (if negative then -((n / d : Nat) : Int) else (n / d : Nat)) else none
  | _ => none

def word? : Datum → Option Text
  | .text s => some s
  | .severity s => some s.name
  | .kind k => some k.name
  | _ => none

mutual

/-- Whether two keys of a map are equal. Numbers of all types are compared by their values, and so
are texts and the members of named sets of texts. -/
def sameKey : Datum → Datum → Bool
  | .null, .null => true
  | .bytes s, .bytes t => s = t
  | .date s, .date t => s = t
  | .moment s, .moment t => s.isSame t
  | .path s, .path t => s = t
  | .range m, .range n => m.toNat = n.toNat
  | .location s, .location t => s = t
  | .candidate s, .candidate t => s = t
  | .entry k c l v, .entry k' c' l' v' => k = k' && c = c' && l = l' && sameKey v v'
  | .tuple s, .tuple t => sameKeys s t
  | .float .nan, _ => false
  | .float (.infinite s), .float (.infinite t) => s = t
  | .float (.finite s m e), .float (.finite t n f) =>
    m = n && (m = 0 || (s = t && e = f))
  | a, b =>
    match word? a, word? b with
    | some s, some t => s = t
    | _, _ =>
      match whole? a, whole? b with
      | some m, some n => m = n
      | _, _ => false

def sameKeys : List Datum → List Datum → Bool
  | [], [] => true
  | a :: as, b :: bs => sameKey a b && sameKeys as bs
  | _, _ => false

end

/-- Keys of maps count as the same when they are equal as keys. -/
instance : BEq Datum := ⟨sameKey⟩

end Datum
end LocaleKeys
