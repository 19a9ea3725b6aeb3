import LocaleKeys.Datum
import LocaleKeys.Text.Lines
import LocaleKeys.Text.Lower
import LocaleKeys.Yaml.Cursor
import LocaleKeys.Yaml.Tag

/-!
The values of scalars: what the text of a node stands for, given its type. A named type may meet a text
that is no form of it, and each type has its own way to refuse one.
-/

namespace LocaleKeys.Yaml

namespace Value

def intIn (base : Nat) (s : List Point) : Except Error Int :=
  match Number.integerIn base s with
  | .error .malformed => .error (.badValue (Number.malformedMessage base s))
  | .error (.tooLong count) => .error (.badValue (Number.tooLongMessage count))
  | .ok n => .ok n

/-- The number that groups make, each counting sixtieths of the one before; `total` holds the
groups before. -/
def intGroups (total : Int) : List (List Point) → Except Error Int
  | [] => .ok total
  | part :: rest =>
    match intIn 10 part with
    | .error e => .error e
    | .ok n => intGroups (60 * total + n) rest

def int (s : List Point) : Except Error Int :=
  let s := s.filter (· ≠ Point.char '_')
  if s.isEmpty then .error .noDigits
  else
    let (negative, body) := Number.splitSign s
    let value : Except Error Int := match body with
      | [] => .error .noDigits
      | [.char '0'] => .ok 0
      | .char '0' :: .char 'b' :: rest => intIn 2 rest
      | .char '0' :: .char 'x' :: rest => intIn 16 rest
      | .char '0' :: _ => intIn 8 body
      | body => if body.contains ':' then intGroups 0 (body.splitOn (.char ':')) else intIn 10 body
    value.map fun n => if negative then -n else n

def real (s : List Point) : Except Error Double :=
  match Number.real? s with
  | some x => .ok x
  | none => .error (.badValue
      ("could not convert string to float: " ++ Text.quote (Text.ofList s)))

def reals : List (List Point) → Except Error (List Double)
  | [] => .ok []
  | part :: rest =>
    match real part with
    | .error e => .error e
    | .ok x => (reals rest).map (x :: ·)

/-- The number that groups make, the last one first, each of them standing for a multiple of
`factor`. Every step is rounded; the factor has to be in the range of what is multiplied. -/
def addGroups (total : Double) (factor : Nat) : List Double → Except Error Double
  | [] => .ok total
  | x :: rest =>
    match Double.ofNat factor with
    | .infinite _ => .error (.tooLarge "int too large to convert to float")
    | unit => addGroups (total.add (x.mul unit)) (60 * factor) rest

/-- Reads a number with a point. Underscores do not count. -/
def float (s : List Point) : Except Error Double :=
  let s := Text.lower (s.filter (· ≠ Point.char '_'))
  if s.isEmpty then .error .noDigits
  else
    let (negative, body) := Number.splitSign s
    let value : Except Error Double :=
      if body = (Text.ofString ".inf").toList then .ok (.infinite false)
      else if body = (Text.ofString ".nan").toList then .ok .nan
      else if body.contains ':' then
        (reals (body.splitOn (.char ':'))).bind fun xs => addGroups (Double.zero false) 1 xs.reverse
      else real body
    value.map fun x => if negative then x.negated else x

/-- The figures of a duration in minutes that is a day or longer. -/
def durationText (minutes : Int) : Text :=
  let days := minutes / 1440
  let seconds := minutes % 1440 * 60
  let days : List Text := if days = 0 then [] else ["days=" ++ Text.ofInt days]
  let seconds : List Text := if seconds = 0 then [] else ["seconds=" ++ Text.ofInt seconds]
  "datetime.timedelta(" ++ Text.intercalate ", " (days ++ seconds) ++ ")"

def date (stamp : Stamp) : Except Error Date :=
  if stamp.year = 0 then .error (.badValue "year 0 is out of range")
  else if stamp.month = 0 || 12 < stamp.month then .error (.badValue "month must be in 1..12")
  else if stamp.day = 0 || Date.daysIn stamp.year stamp.month < stamp.day then
    .error (.badValue "day is out of range for month")
  else .ok ⟨stamp.year, stamp.month, stamp.day⟩

/-- The number of millionths that a fraction of a second makes. -/
def micros (fraction : List Point) : Nat :=
  let digits := fraction.take 6
  Number.ofDigits (digits ++ List.replicate (6 - digits.length) (.char '0'))

def stamp (stamp : Stamp) : Except Error Datum :=
  if !stamp.hasTime then (date stamp).map .date
  else if (stamp.offset.getD 0).natAbs ≥ 1440 then
    .error (.badValue ("offset must be a timedelta strictly between -timedelta(hours=24) and "
      ++ "timedelta(hours=24), not " ++ durationText (stamp.offset.getD 0) ++ "."))
  else
    match date stamp with
    | .error e => .error e
    | .ok date =>
      if 23 < stamp.hour then .error (.badValue "hour must be in 0..23")
      else if 59 < stamp.minute then .error (.badValue "minute must be in 0..59")
      else if 59 < stamp.second then .error (.badValue "second must be in 0..59")
      else .ok (.moment ⟨date, stamp.hour, stamp.minute, stamp.second, micros stamp.fraction,
        stamp.offset⟩)

def sixBits? (c : Point) : Option Nat :=
  if 'A' ≤ c && c ≤ 'Z' then some (c.toNat - 0x41)
  else if 'a' ≤ c && c ≤ 'z' then some (c.toNat - 0x61 + 26)
  else if c.isDigit then some (c.toNat - 0x30 + 52)
  else if c = '+' then some 62
  else if c = '/' then some 63
  else none

/-- Reads bytes from digits of sixty-four; other characters do not count. `count` digits of a group
of four have been read and make `bits`; `pads` equal signs stand behind them. -/
def bytesFrom (count bits pads : Nat) : List Point → Option (List UInt8)
  | [] => if count = 0 then some [] else none
  | c :: rest =>
    if c = '=' then
      if 2 ≤ count && 4 ≤ count + pads + 1 then some []
      else bytesFrom count bits (if 2 ≤ count then pads + 1 else pads) rest
    else
      match sixBits? c with
      | none => bytesFrom count bits pads rest
      | some n =>
        match count with
        | 0 => bytesFrom 1 n 0 rest
        | 1 => (bytesFrom 2 (n % 16) 0 rest).map ((bits * 4 + n / 16).toUInt8 :: ·)
        | 2 => (bytesFrom 3 (n % 4) 0 rest).map ((bits * 16 + n / 4).toUInt8 :: ·)
        | _ => (bytesFrom 0 0 0 rest).map ((bits * 64 + n).toUInt8 :: ·)

def ofScalar (tag : Tag) (s : Text) : Except Error Datum :=
  match tag with
  | .text => .ok (.text s)
  | .null => .ok .null
  | .bool =>
    let word := Text.ofList (Text.lower s.toList)
    match Tag.boolWords.find? fun entry => entry.1 = word with
    | some (_, b) => .ok (.bool b)
    | none => .error (.badName word)
  | .int => (int s.toList).map .int
  | .float => (float s.toList).map .float
  | .timestamp =>
    match Stamp.read? false (Text.dropFinalBreak s.toList) with
    | some found => stamp found
    | none => .error .noStamp
  | .binary =>
    if s.toList.any fun c => 0x80 ≤ c.toNat then .error .malformed
    else
      match bytesFrom 0 0 0 s.toList with
      | some bytes => .ok (.bytes bytes)
      | none => .error .malformed
  | _ => .error .malformed

end Value
end LocaleKeys.Yaml
