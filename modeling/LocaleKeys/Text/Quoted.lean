import LocaleKeys.Text.Printable

/-!
Quoted forms of texts, as messages show them: single quotes unless the text holds a single quote
and no double one; the backslash and the chosen quote are escaped by a backslash, and characters
that do not show as themselves by their code.
-/

namespace LocaleKeys.Text

/-- The lower-case hexadecimal digit of a number below sixteen. -/
def hexDigit (n : Nat) : Point :=
  if n < 10 then Point.ofNat (0x30 + n) else Point.ofNat (0x57 + n)

def hexDigits : (width : Nat) → Nat → List Point
  | 0, _ => []
  | width + 1, n => hexDigits width (n / 16) ++ [hexDigit (n % 16)]

def quoteFor (s : List Point) : Point :=
  if s.contains '\'' && !s.contains '"' then '"' else '\''

/-- The escape of a character by its code: two, four or eight digits. -/
def codeEscape (c : Point) : List Point :=
  if c.toNat < 0x100 then '\\' :: 'x' :: hexDigits 2 c.toNat
  else if c.toNat < 0x10000 then '\\' :: 'u' :: hexDigits 4 c.toNat
  else '\\' :: 'U' :: hexDigits 8 c.toNat

def quotedChar (quote c : Point) : List Point :=
  if c = quote ∨ c = '\\' then ['\\', c]
  else if c = '\t' then ['\\', 't']
  else if c = '\n' then ['\\', 'n']
  else if c = '\r' then ['\\', 'r']
  else if isPrintable c then [c]
  else codeEscape c

def quoted (s : List Point) : List Point :=
  let quote := quoteFor s
  quote :: (s.flatMap (quotedChar quote) ++ [quote])

def quote (s : Text) : Text :=
  Text.ofList (quoted s.toList)

/-- One byte inside quotes: every byte outside the printable ASCII range is escaped. -/
def quotedByte (quote : Point) (b : UInt8) : List Point :=
  let c := Point.ofNat b.toNat
  if c = quote ∨ c = '\\' then ['\\', c]
  else if c = '\t' then ['\\', 't']
  else if c = '\n' then ['\\', 'n']
  else if c = '\r' then ['\\', 'r']
  else if 0x20 ≤ b.toNat ∧ b.toNat < 0x7f then [c]
  else '\\' :: 'x' :: hexDigits 2 b.toNat

def quotedBytes (bytes : List UInt8) : List Point :=
  let quote := quoteFor (bytes.map fun b => Point.ofNat b.toNat)
  'b' :: quote :: (bytes.flatMap (quotedByte quote) ++ [quote])

end LocaleKeys.Text
