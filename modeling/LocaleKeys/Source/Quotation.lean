import LocaleKeys.Source.Token

/-!
What quoted texts stand for: escapes are replaced unless the text is raw, and a formatted text is
split into its literal parts and the fields between braces.
-/

namespace LocaleKeys.Source

def hexValue (c : Char) : Nat :=
  if c.isDigit then c.toNat - 0x30 else c.toLower.toNat - 0x57

/-- The value of exactly `width` hexadecimal digits at the start of a text. -/
def hexNumber? (width : Nat) (s : List Char) : Option Nat :=
  let digits := s.take width
  if digits.length = width && digits.all isHexDigit then
    some (digits.foldl (fun n c => 16 * n + hexValue c) 0)
  else none

def isOctalDigit (c : Char) : Bool :=
  '0' ≤ c && c ≤ '7'

def octalDigits (s : List Char) : List Char :=
  (s.take 3).takeWhile isOctalDigit

/-- The code point of a number, unless it is too great. -/
def codePoint? (n : Nat) : Option Point :=
  if 0x10ffff < n then none else some (Point.ofNat n)

/-- What a letter behind a backslash stands for: nothing at the end of a line, else a character. -/
def letterEscape? : Char → Option (List Point)
  | '\n' => some []
  | '\\' => some ['\\']
  | '\'' => some ['\'']
  | '"' => some ['"']
  | 'a' => some ['\x07']
  | 'b' => some ['\x08']
  | 'f' => some ['\x0c']
  | 'n' => some ['\n']
  | 'r' => some ['\r']
  | 't' => some ['\t']
  | 'v' => some ['\x0b']
  | _ => none

/-- An escape by code, with `width` digits behind the letter. -/
def codeEscape? (width : Nat) (s : List Char) : Option (List Point × Nat) :=
  match hexNumber? width s with
  | none => none
  | some n => (codePoint? n).map fun p => ([p], width + 1)

/-- An escape by name, the name being in braces behind the letter. -/
def nameEscape? (names : CharNames) (s : List Char) : Option (List Point × Nat) :=
  match s with
  | '\x7b' :: rest =>
    let name := rest.takeWhile (· ≠ '\x7d')
    if name.length = rest.length then none
    else (names name).map fun c => ([.char c], name.length + 3)
  | _ => none

/-- What the characters behind a backslash stand for, and the number of them. A backslash before
anything else stands for itself. -/
def escape? (names : CharNames) (s : List Char) : Option (List Point × Nat) :=
  match s with
  | [] => some (['\\'], 0)
  | 'x' :: rest => codeEscape? 2 rest
  | 'u' :: rest => codeEscape? 4 rest
  | 'U' :: rest => codeEscape? 8 rest
  | 'N' :: rest => nameEscape? names rest
  | c :: _ =>
    match letterEscape? c with
    | some text => some (text, 1)
    | none =>
      let octal := octalDigits s
      if octal = [] then some (['\\'], 0)
      else
        let n := octal.foldl (fun n c => 8 * n + hexValue c) 0
        (codePoint? n).map fun p => ([p], octal.length)

/-- Replaces escapes; `skip` characters still belong to the escape before. -/
def unescapeFrom? (names : CharNames) : (skip : Nat) → List Char → Option (List Point)
  | _, [] => some []
  | skip + 1, _ :: rest => unescapeFrom? names skip rest
  | 0, c :: rest =>
    if c = '\\' then
      match escape? names rest with
      | none => none
      | some (text, length) => (unescapeFrom? names length rest).map (text ++ ·)
    else (unescapeFrom? names 0 rest).map (.char c :: ·)

def unescape? (names : CharNames) (isRaw : Bool) (s : List Char) : Option (List Point) :=
  if isRaw then some (s.map .char) else unescapeFrom? names 0 s

/-- Whether the escapes of a byte text can be replaced: only those by code can be wrong. -/
def bytesOkFrom : (skip : Nat) → List Char → Bool
  | _, [] => true
  | skip + 1, _ :: rest => bytesOkFrom skip rest
  | 0, c :: rest =>
    if c = '\\' then
      match rest with
      | 'x' :: digits => (hexNumber? 2 digits).isSome && bytesOkFrom 3 rest
      | _ => bytesOkFrom 1 rest
    else bytesOkFrom 0 rest

/-- Whether a byte text is well formed. Its characters are ASCII. -/
def bytesOk (isRaw : Bool) (s : List Char) : Bool :=
  s.all (·.toNat < 0x80) && (isRaw || bytesOkFrom 0 s)

/-! ## Formatted texts -/

/-- A field of a formatted text: the expression between its braces, and the number of characters
before the opening one. -/
structure Field where
  offset : Nat
  code : List Char
  deriving DecidableEq, Repr

def isBrace (c : Char) : Bool :=
  c = '\x7b' || c = '\x7d'

/-- The number of characters behind `c` that belong to the same piece of literal text; `none` where
the literal text ends before `c`, at a single brace. Braces are doubled to stand for themselves,
unless the text describes a format; an escaped brace is still a brace, but those around the name of a
character are not. -/
def literalPiece? (isRaw doubling : Bool) (c : Char) (rest : List Char) : Option Nat :=
  if c = '\\' then
    match rest with
    | 'N' :: '\x7b' :: name =>
      some (if isRaw then 0 else (name.takeWhile (· ≠ '\x7d')).length + 3)
    | d :: _ => some (if isRaw || isBrace d then 0 else 1)
    | [] => some 0
  else if isBrace c then if doubling && rest.head? = some c then some 1 else none
  else some 0

def spanLiteral (isRaw doubling : Bool) : (skip : Nat) → List Char → List Char × List Char
  | _, [] => ([], [])
  | skip + 1, c :: rest =>
    let (literal, rest) := spanLiteral isRaw doubling skip rest
    (c :: literal, rest)
  | 0, c :: rest =>
    match literalPiece? isRaw doubling c rest with
    | none => ([], c :: rest)
    | some skip =>
      let (literal, rest) := spanLiteral isRaw doubling skip rest
      (c :: literal, rest)

/-- Where the scan of the expression of a field stands: the closing brackets that are still to come,
and the quote of the text it is in, with the number of quotes that opened it. -/
structure CodeState where
  awaited : List Char := []
  inside : Option (Char × Nat) := none
  deriving DecidableEq, Repr

/-- What a character of an expression leads to: the end before it, an error, or a new state some
characters behind it. -/
inductive CodeStep
  | stop
  | fail
  | go (skip : Nat) (state : CodeState)
  deriving DecidableEq, Repr

def closing? : Char → Option Char
  | '(' => some ')'
  | '[' => some ']'
  | '\x7b' => some '\x7d'
  | _ => none

def isClosing (c : Char) : Bool :=
  c = ')' || c = ']' || c = '\x7d'

def startsTwice (quote : Char) (s : List Char) : Bool :=
  s.take 2 = [quote, quote]

/-- A character outside texts and brackets. The expression ends before a brace, a colon, an
exclamation mark or an equals sign that belongs to no comparison. -/
def stepOutside (state : CodeState) (c : Char) (rest : List Char) : CodeStep :=
  let comparing := rest.head? = some '='
  if c = '!' ∨ c = '=' then (if comparing then .go 1 state else .stop)
  else if c = '<' ∨ c = '>' then .go (if comparing then 1 else 0) state
  else if c = ':' ∨ c = '\x7d' then .stop
  else if isClosing c then .fail
  else .go 0 state

/-- A character of an expression, with those that follow it. Backslashes and comments are errors. -/
def codeStep (state : CodeState) (c : Char) (rest : List Char) : CodeStep :=
  if c = '\\' then .fail
  else
    match state.inside with
    | some (quote, 3) =>
      if c = quote ∧ startsTwice quote rest then .go 2 { state with inside := none }
      else .go 0 state
    | some (quote, _) => .go 0 (if c = quote then { state with inside := none } else state)
    | none =>
      if c = '"' ∨ c = '\'' then
        if startsTwice c rest then .go 2 { state with inside := some (c, 3) }
        else .go 0 { state with inside := some (c, 1) }
      else if c = '#' then .fail
      else
        match closing? c, state.awaited with
        | some close, awaited => .go 0 { state with awaited := close :: awaited }
        | none, [] => stepOutside state c rest
        | none, close :: outer =>
          if !isClosing c then .go 0 state
          else if c = close then .go 0 { state with awaited := outer }
          else .fail

/-- The number of characters of the expression of a field; something must end it. -/
def codeLength? : (skip : Nat) → CodeState → List Char → Option Nat
  | _, _, [] => none
  | skip + 1, state, _ :: rest => (codeLength? skip state rest).map (· + 1)
  | 0, state, c :: rest =>
    match codeStep state c rest with
    | .stop => some 0
    | .fail => none
    | .go skip state => (codeLength? skip state rest).map (· + 1)

/-- Whether an expression has something besides blanks. -/
def hasCode (code : List Char) : Bool :=
  code.any fun c => !(c = ' ' || c = '\t' || c = '\n' || c = '\x0c')

/-- Skips an equals sign that asks for the text of the expression, and blanks behind it. -/
def skipEquals (s : List Char) : List Char :=
  match s with
  | '=' :: rest => rest.dropWhile fun c =>
      c = ' ' || c = '\t' || c = '\n' || c = '\r' || c = '\x0b' || c = '\x0c'
  | _ => s

/-- Skips a conversion, which is one of three letters. -/
def skipConversion? (s : List Char) : Option (List Char) :=
  match s with
  | '!' :: c :: rest => if c = 's' ∨ c = 'r' ∨ c = 'a' then some rest else none
  | '!' :: [] => none
  | _ => some s

/-- The deepest level at which fields may stand: a field may have fields in its format. -/
def maxFieldLevel : Nat := 1

/-- The fields of a text, those inside formats included, and what remains: nothing, or a closing
brace where the text describes a format. `offset` characters stand before the text. -/
def fieldsFrom? (names : CharNames) (isRaw : Bool) : (budget level offset : Nat) → List Char →
    Option (List Field × List Char)
  | 0, _, _, _ => none
  | budget + 1, level, offset, s =>
    let (literal, rest) := spanLiteral isRaw (level = 0) 0 s
    match unescape? names isRaw literal, rest with
    | none, _ => none
    | some _, '\x7b' :: body =>
      if maxFieldLevel < level then none
      else
        match codeLength? 0 {} body with
        | none => none
        | some n =>
          let code := body.take n
          let start := offset + (s.length - rest.length)
          match hasCode code, skipConversion? (skipEquals (body.drop n)) with
          | true, some after =>
            let format := match after with
              | ':' :: [] => none
              | ':' :: format =>
                fieldsFrom? names isRaw budget (level + 1) (offset + (s.length - format.length)) format
              | _ => some ([], after)
            match format with
            | some (inner, '\x7d' :: tail) =>
              match fieldsFrom? names isRaw budget level (offset + (s.length - tail.length)) tail with
              | some (fields, rest) => some (⟨start, code⟩ :: (inner ++ fields), rest)
              | none => none
            | _ => none
          | _, _ => none
    | some _, _ => if level = 0 ∧ rest ≠ [] then none else some ([], rest)

def fields? (names : CharNames) (isRaw : Bool) (s : List Char) : Option (List Field) :=
  (fieldsFrom? names isRaw (s.length + 1) 0 0 s).map (·.1)

end LocaleKeys.Source
