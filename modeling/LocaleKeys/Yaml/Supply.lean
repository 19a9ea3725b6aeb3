import LocaleKeys.Text.Stream
import LocaleKeys.Yaml.Cursor

/-!
How YAML text arrives: in blocks of characters, the first of which is read twice as far as the others.
A block that cannot be decoded, or that holds a character which is not allowed, ends the text, and what
is wrong with it shows only where somebody reads on so far.
-/

namespace LocaleKeys.Yaml

def isAllowed (c : Point) : Bool :=
  c = '\t' || c = '\n' || c = '\r' || (' ' ≤ c && c ≤ '~') || c = '\x85' ||
    ('\xa0' ≤ c && c ≤ '\ufffd') || Point.ofNat 0x10000 ≤ c

/-- The text that can be read, and what is wrong behind it, if anything is. -/
structure Supply where
  text : List Point
  cut : Option Error := none

namespace Supply

def blockSize : Nat := 4096

/-- Joins blocks up to the first with a character that is not allowed. -/
def join (fault : Option Text.Utf8.Fault) : List (List Point) → Supply
  | [] => ⟨[], fault.map .encoding⟩
  | block :: rest =>
    if block.all isAllowed then
      let behind := join fault rest
      ⟨block ++ behind.text, behind.cut⟩
    else ⟨[], some .malformed⟩

def ofBytes (bytes : List UInt8) : Supply :=
  match Text.Stream.blocks blockSize (bytes.length + 1) { bytes } with
  | (first :: second :: rest, fault) => join fault ((first ++ second) :: rest)
  | ([first], none) => join none [first]
  | (_, fault) => join fault []

end Supply
end LocaleKeys.Yaml
