import LocaleKeys.Number.Double
import LocaleKeys.Text.Lines
import LocaleKeys.Text.Utf8

/-!
Text that is read from bytes piece by piece. Bytes are decoded in chunks, of which the next is read
only when more characters are asked for; a character may span two of them, and faults are counted from
the first byte of the chunk or of the character that it completes.
-/

namespace LocaleKeys.Text

/-- Bytes that are still to be read, with what reading has left over: the first bytes of a character, a
carriage return that may belong to a line feed, and characters nobody has asked for. `ratio` is the
number of bytes for a character in the last chunk. -/
structure Stream where
  bytes : List UInt8
  pending : List UInt8 := []
  heldReturn : Bool := false
  ready : List Point := []
  ratio : Double := Double.zero false

namespace Stream

def chunkSize : Nat := 8192

/-- The number of bytes that some characters may take. -/
def bytesFor (ratio : Double) (wanted : Nat) : Nat :=
  let ratio := if ratio.ltNat 1 then Double.ofNat 1 else ratio
  match ratio.mul (Double.ofNat wanted) with
  | .finite _ mantissa exponent =>
    let (n, d) := Double.ratio mantissa exponent
    n / d
  | _ => wanted

/-- Decodes bytes as far as they make characters. What a character lacks at the end may still come,
unless this is the last chunk. -/
def decodePart (isLast : Bool) (bytes : List UInt8) :
    Except Utf8.Fault (List Point × List UInt8) :=
  match Utf8.decode bytes with
  | .ok text => .ok (text, [])
  | .error f =>
    if f.cause = .endOfData && !isLast then
      (Utf8.decode (bytes.take f.start)).map fun text => (text, bytes.drop f.start)
    else .error f

/-- Makes all line ends one. A carriage return at the end is held back until the next chunk. -/
def unifyPart (heldReturn isLast : Bool) (text : List Point) : List Point × Bool :=
  if text.isEmpty && !isLast then ([], heldReturn)
  else
    let text := if heldReturn then .char '\r' :: text else text
    if text.getLast? == some (Point.char '\r') && !isLast then (unifyLineEnds text.dropLast, true)
    else (unifyLineEnds text, false)

/-- Reads the next chunk, where some characters are wanted. -/
def fill (s : Stream) (wanted : Nat) : Except Utf8.Fault Stream :=
  let size := max chunkSize (bytesFor s.ratio wanted)
  let chunk := s.bytes.take size
  match decodePart chunk.isEmpty (s.pending ++ chunk) with
  | .error f => .error f
  | .ok (text, pending) =>
    let (text, heldReturn) := unifyPart s.heldReturn chunk.isEmpty text
    let ratio := if text.isEmpty then Double.zero false
      else Double.ofRatio false chunk.length text.length
    .ok ⟨s.bytes.drop size, pending, heldReturn, text, ratio⟩

def read : (budget : Nat) → (wanted : Nat) → Stream → Except Utf8.Fault (List Point × Stream)
  | 0, _, s => .ok ([], s)
  | budget + 1, wanted, s =>
    let found := s.ready.take wanted
    let missing := wanted - found.length
    let s := { s with ready := s.ready.drop wanted }
    if missing = 0 then .ok (found, s)
    else
      match s.fill missing with
      | .error f => .error f
      | .ok next =>
        if next.ready.isEmpty && s.bytes.isEmpty then .ok (found, next)
        else (read budget missing next).map fun (more, s) => (found ++ more, s)

/-- Reads blocks of characters up to the end or to the first fault. -/
def blocks (size : Nat) : (budget : Nat) → Stream → List (List Point) × Option Utf8.Fault
  | 0, _ => ([], none)
  | budget + 1, s =>
    match s.read (s.bytes.length + 3) size with
    | .error f => ([], some f)
    | .ok (block, s) =>
      if block.isEmpty then ([], none)
      else
        let (rest, fault) := blocks size budget s
        (block :: rest, fault)

end Stream
end LocaleKeys.Text
