import LocaleKeys.Text.Point

/-!
Reading bytes as UTF-8. Strict reading reports the first fault with the bytes it covers; lenient
reading puts the replacement character in place of each fault. A fault ends before the first byte
that cannot continue the character, so reading resumes there.
-/

namespace LocaleKeys.Text.Utf8

/-- Why bytes are not UTF-8. -/
inductive Cause
  | startByte
  | continuation
  | endOfData
  deriving DecidableEq, Repr

def Cause.text : Cause → Text
  | .startByte => "invalid start byte"
  | .continuation => "invalid continuation byte"
  | .endOfData => "unexpected end of data"

/-- A fault: the offending bytes start at `start` and the first of them is `byte`. -/
structure Fault where
  cause : Cause
  start : Nat
  length : Nat
  byte : UInt8
  deriving DecidableEq, Repr

/-- The message for a fault: one byte is shown, several are only counted. -/
def Fault.message (f : Fault) : Text :=
  let hex := Text.ofString (String.ofList (Nat.toDigits 16 f.byte.toNat))
  let hex := if f.byte < 16 then "0" ++ hex else hex
  if f.length = 1 then
    "'utf-8' codec can't decode byte 0x" ++ hex ++ " in position " ++ Text.ofNat f.start ++ ": " ++
      f.cause.text
  else
    "'utf-8' codec can't decode bytes in position " ++ Text.ofNat f.start ++ "-" ++
      Text.ofNat (f.start + f.length - 1) ++ ": " ++ f.cause.text

def isTail (b : UInt8) : Bool :=
  0x80 ≤ b && b < 0xc0

def tailBits (b : UInt8) : Nat :=
  b.toNat % 64

/-- Bounds for the second byte after a first byte of a longer character; they leave out overlong
forms, surrogates and what lies beyond the last code point. -/
def secondOk (first second : UInt8) : Bool :=
  isTail second &&
    (if first = 0xe0 then 0xa0 ≤ second
     else if first = 0xed then second < 0xa0
     else if first = 0xf0 then 0x90 ≤ second
     else if first = 0xf4 then second < 0x90
     else true)

/-- What stands at the start of the bytes: a character with its length, or a fault with the number
of bytes it covers. -/
inductive Step
  | char (c : Point) (length : Nat)
  | fault (cause : Cause) (length : Nat)

/-- Reads what starts with the byte `a`, the later bytes being `rest`. -/
def step (a : UInt8) (rest : List UInt8) : Step :=
  if a < 0x80 then .char (Point.ofNat a.toNat) 1
  else if a < 0xc2 then .fault .startByte 1
  else if a < 0xe0 then
    match rest with
    | [] => .fault .endOfData 1
    | b :: _ =>
      if isTail b then .char (Point.ofNat ((a.toNat - 0xc0) * 64 + tailBits b)) 2
      else .fault .continuation 1
  else if a < 0xf0 then
    match rest with
    | [] => .fault .endOfData 1
    | [b] => if secondOk a b then .fault .endOfData 2 else .fault .continuation 1
    | b :: c :: _ =>
      if !secondOk a b then .fault .continuation 1
      else if !isTail c then .fault .continuation 2
      else .char (Point.ofNat ((a.toNat - 0xe0) * 4096 + tailBits b * 64 + tailBits c)) 3
  else if a < 0xf5 then
    match rest with
    | [] => .fault .endOfData 1
    | [b] => if secondOk a b then .fault .endOfData 2 else .fault .continuation 1
    | [b, c] =>
      if !secondOk a b then .fault .continuation 1
      else if isTail c then .fault .endOfData 3 else .fault .continuation 2
    | b :: c :: d :: _ =>
      if !secondOk a b then .fault .continuation 1
      else if !isTail c then .fault .continuation 2
      else if !isTail d then .fault .continuation 3
      else .char (Point.ofNat
        ((a.toNat - 0xf0) * 262144 + tailBits b * 4096 + tailBits c * 64 + tailBits d)) 4
  else .fault .startByte 1

/-- Strict reading from byte `offset` on: `skip` bytes still belong to the character just read. -/
def decodeFrom (offset skip : Nat) : List UInt8 → Except Fault (List Point)
  | [] => .ok []
  | a :: rest =>
    match skip with
    | k + 1 => decodeFrom (offset + 1) k rest
    | 0 =>
      match step a rest with
      | .fault cause length => .error ⟨cause, offset, length, a⟩
      | .char c length =>
        match decodeFrom (offset + 1) (length - 1) rest with
        | .ok cs => .ok (c :: cs)
        | .error f => .error f

def decode (bytes : List UInt8) : Except Fault (List Point) :=
  decodeFrom 0 0 bytes

/-- Whether bytes are a proper beginning of the byte order mark. -/
def isPartialMark (bytes : List UInt8) : Bool :=
  bytes = [] || bytes = [0xef] || bytes = [0xef, 0xbb]

/-- Strict reading that drops a byte order mark; faults count from behind the mark, and a mark
that the end cuts off reads as nothing. -/
def decodeMarked (bytes : List UInt8) : Except Fault (List Point) :=
  match bytes with
  | 0xef :: 0xbb :: 0xbf :: rest => decode rest
  | _ => if isPartialMark bytes then .ok [] else decode bytes

/-- Lenient reading: every fault becomes the replacement character. -/
def decodeLenientFrom (skip : Nat) : List UInt8 → List Point
  | [] => []
  | a :: rest =>
    match skip with
    | k + 1 => decodeLenientFrom k rest
    | 0 =>
      match step a rest with
      | .fault _ length => Point.ofNat 0xfffd :: decodeLenientFrom (length - 1) rest
      | .char c length => c :: decodeLenientFrom (length - 1) rest

def decodeLenient (bytes : List UInt8) : List Point :=
  decodeLenientFrom 0 bytes

def encodeChar (c : Point) : List UInt8 :=
  let n := c.toNat
  if n < 0x80 then [n.toUInt8]
  else if n < 0x800 then [(0xc0 + n / 64).toUInt8, (0x80 + n % 64).toUInt8]
  else if n < 0x10000 then
    [(0xe0 + n / 4096).toUInt8, (0x80 + n / 64 % 64).toUInt8, (0x80 + n % 64).toUInt8]
  else
    [(0xf0 + n / 262144).toUInt8, (0x80 + n / 4096 % 64).toUInt8, (0x80 + n / 64 % 64).toUInt8,
      (0x80 + n % 64).toUInt8]

def encode (s : List Point) : List UInt8 :=
  s.flatMap encodeChar

/-- Why a text has no bytes: a run of halves that starts with `first`. -/
structure Unwritable where
  start : Nat
  length : Nat
  first : Point
  deriving DecidableEq, Repr

/-- The message for halves: one is shown, several are only counted. -/
def Unwritable.message (f : Unwritable) : Text :=
  let place :=
    if f.length = 1 then
      " '\\u" ++ Text.ofString (String.ofList (Nat.toDigits 16 f.first.toNat)) ++
        "' in position " ++ Text.ofNat f.start
    else
      "s in position " ++ Text.ofNat f.start ++ "-" ++ Text.ofNat (f.start + f.length - 1)
  "'utf-8' codec can't encode character" ++ place ++ ": surrogates not allowed"

/-- The first half of a text that is not let through, from position `offset` on, and the halves behind
it. -/
def unwritableFrom (passes : Point → Bool) (offset : Nat) : List Point → Option Unwritable
  | [] => none
  | p :: rest =>
    if p.isHalf && !passes p then some ⟨offset, (rest.takeWhile Point.isHalf).length + 1, p⟩
    else unwritableFrom passes (offset + 1) rest

def unwritable? (s : List Point) : Option Unwritable :=
  unwritableFrom (fun _ => false) 0 s

/-- The bytes of a text, if it has any. -/
def write (s : List Point) : Except Unwritable (List UInt8) :=
  match unwritable? s with
  | some f => .error f
  | none => .ok (encode s)

/-- A text with its halves written out, as where errors are shown. -/
def shown (s : Text) : Text :=
  Text.join (s.toList.map fun p =>
    if p.isHalf then
      "\\u" ++ Text.ofString (String.ofList (Nat.toDigits 16 p.toNat))
    else Text.ofList [p])

/-- Why a text is no file name or path. -/
def unnameable? (s : List Point) : Option Unwritable :=
  unwritableFrom Point.isByte 0 s

/-- The number of bytes that a code point takes in a file name. -/
def nameSize : Point → Nat
  | .char c => c.utf8Size
  | .half _ => 1

/-- The number of bytes of a file name. -/
def bytesInName : List Point → Nat
  | [] => 0
  | p :: rest => nameSize p + bytesInName rest

end LocaleKeys.Text.Utf8
