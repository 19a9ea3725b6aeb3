import LocaleKeys.Datum

/-!
The text for a time, as reports carry it, and the text for an id that is drawn.
-/

namespace LocaleKeys.Clock

/-- The date that lies a number of days behind the first day of 1970. Years are counted from March
in cycles of four hundred. -/
def dateOf (days : Int) : Date :=
  let shifted := days + 719468
  let cycle := shifted.fdiv 146097
  let day := (shifted - cycle * 146097).toNat
  let year := (day - day / 1460 + day / 36524 - day / 146096) / 365
  let dayOfYear := day - (365 * year + year / 4 - year / 100)
  let marchMonth := (5 * dayOfYear + 2) / 153
  let month := if marchMonth < 10 then marchMonth + 3 else marchMonth - 9
  { year := (cycle * 400 + year + (if month ≤ 2 then 1 else 0)).toNat
    month
    day := dayOfYear - (153 * marchMonth + 2) / 5 + 1 }

/-- The time that lies a number of millionths of a second behind the start of 1970. -/
def timeText (micros : Int) : Text :=
  let seconds := micros.fdiv 1000000
  let fraction := (micros - seconds * 1000000).toNat
  let days := seconds.fdiv 86400
  let second := (seconds - days * 86400).toNat
  let clock := Text.intercalate ":"
    [Datum.padded 2 (second / 3600), Datum.padded 2 (second / 60 % 60), Datum.padded 2 (second % 60)]
  let tail : Text := if fraction = 0 then "" else "." ++ Datum.padded 6 fraction
  Datum.dateText (dateOf days) ++ "T" ++ clock ++ tail ++ "+00:00"

/-- The text of an id made of sixteen bytes, marked as a random one. -/
def idText (bytes : List UInt8) : Text :=
  let marked := (bytes.zipIdx.take 16).map fun (b, i) =>
    if i = 6 then 0x40 + b.toNat % 16
    else if i = 8 then 0x80 + b.toNat % 64
    else b.toNat
  let digits := marked.flatMap fun n => Text.hexDigits 2 n
  let part (start length : Nat) : Text := Text.ofList ((digits.drop start).take length)
  Text.intercalate "-" [part 0 8, part 8 4, part 12 4, part 16 4, part 20 12]

end LocaleKeys.Clock
