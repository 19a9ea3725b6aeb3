import LocaleKeys.Source.Node
import LocaleKeys.Text.Identifier

/-!
Tokens of source text, and the scanning of a single one: names, numbers, quoted texts and operators.
Each scan gives the number of characters that it takes.
-/

namespace LocaleKeys.Source

/-- The characters that have names, by name. -/
abbrev CharNames := List Char → Option Char

/-- A quoted text as it stands: what kind it is, what is between the quotes, and where that starts. -/
structure Quotation where
  isBytes : Bool
  isRaw : Bool
  isFormatted : Bool
  body : List Char
  place : Place
  deriving DecidableEq, Repr

/-- What a token is. Words are names and keywords alike; a malformed token ends a text that cannot be
split any further. -/
inductive TokenKind
  | word (s : String)
  | number (imaginary : Bool)
  | quotation (q : Quotation)
  | operator (s : String)
  | newline
  | indent
  | dedent
  | malformed
  deriving DecidableEq, Repr

/-- A token with its place. -/
structure Token where
  kind : TokenKind
  span : Span
  deriving DecidableEq, Repr

/-- Whether a character belongs to a word as far as the scan can see. -/
def isWordChar (c : Char) : Bool :=
  c.isAlphanum || c == '_' || 0x80 ≤ c.toNat

/-- Whether a character starts a word as far as the scan can see. -/
def startsWord (c : Char) : Bool :=
  isWordChar c && !c.isDigit

def isIdentifier : List Char → Bool
  | [] => false
  | c :: rest => Text.isIdentifierStart c && rest.all Text.isIdentifierPart

/-! ## Numbers -/

/-- The number of characters of a run of digits with single underscores between them; an
underscore in front counts when `inside`. -/
def digitRun (isDigit : Char → Bool) (inside : Bool) : List Char → Nat
  | '_' :: c :: rest => if inside && isDigit c then 2 + digitRun isDigit true rest else 0
  | c :: rest => if isDigit c then 1 + digitRun isDigit true rest else 0
  | [] => 0

def keywordsAfterNumber : List (List Char) :=
  ["and", "else", "for", "if", "in", "is", "or", "not"].map String.toList

def mayEndNumber (s : List Char) : Bool :=
  match s with
  | [] => true
  | c :: _ => !isWordChar c || keywordsAfterNumber.any fun k => k.isPrefixOf s

/-- The number of characters of an exponent. An `e` without digits is none. -/
def exponentLength (s : List Char) : Nat :=
  match s with
  | c :: rest =>
    if c = 'e' ∨ c = 'E' then
      match rest with
      | sign :: digits =>
        if sign = '+' ∨ sign = '-' then
          let n := digitRun Char.isDigit false digits
          if n = 0 then 0 else 2 + n
        else
          let n := digitRun Char.isDigit false rest
          if n = 0 then 0 else 1 + n
      | [] => 0
    else 0
  | [] => 0

/-- The number of characters of a fraction with its point. -/
def fractionLength (s : List Char) : Nat :=
  match s with
  | '.' :: rest => 1 + digitRun Char.isDigit false rest
  | _ => 0

/-- The greatest number of digits of a decimal integer. -/
def maxIntegerDigits : Nat := 4300

/-- Whether the digits of a decimal integer are allowed: only zeros, or not too many with no zero in
front. -/
def integerOk (digits : List Char) : Bool :=
  let digits := digits.filter (· ≠ '_')
  if digits.head? = some '0' then digits.all (· = '0') else digits.length ≤ maxIntegerDigits

/-- The length of a number that starts with a digit or with a point and a digit, and whether it is
imaginary. -/
def decimalLength? (s : List Char) : Option (Nat × Bool) :=
  let whole := digitRun Char.isDigit false s
  let fraction := fractionLength (s.drop whole)
  let exponent := exponentLength (s.drop (whole + fraction))
  let length := whole + fraction + exponent
  match s.drop length with
  | 'j' :: rest | 'J' :: rest => if mayEndNumber rest then some (length + 1, true) else none
  | rest =>
    if !mayEndNumber rest then none
    else if length = whole && !integerOk (s.take whole) then none
    else some (length, false)

/-- The length of digits of another base behind their two leading characters. -/
def basedLength? (isDigit : Char → Bool) (s : List Char) : Option (Nat × Bool) :=
  let n := digitRun isDigit true s
  if n = 0 || !mayEndNumber (s.drop n) then none else some (n + 2, false)

def isHexDigit (c : Char) : Bool :=
  c.isDigit || ('a' ≤ c && c ≤ 'f') || ('A' ≤ c && c ≤ 'F')

/-- The length of a number, and whether it is imaginary. -/
def numberLength? (s : List Char) : Option (Nat × Bool) :=
  match s with
  | '0' :: 'x' :: rest | '0' :: 'X' :: rest => basedLength? isHexDigit rest
  | '0' :: 'o' :: rest | '0' :: 'O' :: rest => basedLength? (fun c => '0' ≤ c && c ≤ '7') rest
  | '0' :: 'b' :: rest | '0' :: 'B' :: rest => basedLength? (fun c => c = '0' || c = '1') rest
  | _ => decimalLength? s

def startsNumber : List Char → Bool
  | '.' :: c :: _ => c.isDigit
  | c :: _ => c.isDigit
  | [] => false

/-! ## Quoted texts -/

/-- The number of characters up to the quote that closes a text on one line. -/
def shortBodyLength? (quote : Char) : List Char → Option Nat
  | [] => none
  | '\\' :: _ :: rest => (shortBodyLength? quote rest).map (· + 2)
  | c :: rest =>
    if c = quote then some 0
    else if c = '\n' then none
    else (shortBodyLength? quote rest).map (· + 1)

/-- The number of characters up to the three quotes that close a text. -/
def longBodyLength? (quote : Char) : List Char → Option Nat
  | [] => none
  | '\\' :: _ :: rest => (longBodyLength? quote rest).map (· + 2)
  | c :: rest =>
    if c = quote && rest.head? = some quote && (rest.drop 1).head? = some quote then some 0
    else (longBodyLength? quote rest).map (· + 1)

/-- The number of quotes that open a text, and the length of what is between the quotes. -/
def quotedLength? (s : List Char) : Option (Nat × Nat) :=
  match s with
  | '"' :: '"' :: '"' :: rest => (longBodyLength? '"' rest).map fun n => (3, n)
  | '\'' :: '\'' :: '\'' :: rest => (longBodyLength? '\'' rest).map fun n => (3, n)
  | quote :: rest => (shortBodyLength? quote rest).map fun n => (1, n)
  | [] => none

def quotationMarks : List (List Char) :=
  ["", "b", "r", "u", "f", "br", "rb", "fr", "rf"].map String.toList

def startsQuoted (s : List Char) : Bool :=
  s.head? = some '"' || s.head? = some '\''

/-- The quoted text at a place, with its length: some letters, the opening quotes, the text and the
closing quotes. -/
def quotation? (letters : List Char) (place : Place) (s : List Char) :
    Option (Quotation × Nat) :=
  match quotedLength? (s.drop letters.length) with
  | none => none
  | some (quotes, n) =>
    let opened := letters.length + quotes
    let small := letters.map Char.toLower
    some ({
      isBytes := small.contains 'b'
      isRaw := small.contains 'r'
      isFormatted := small.contains 'f'
      body := (s.drop opened).take n
      place := place.afterAll (s.take opened) }, opened + n + quotes)

/-! ## Operators -/

/-- The operators, longer ones before those they start with. -/
def operators : List String := [
  "**=", "//=", ">>=", "<<=", "...",
  "!=", "%=", "&=", "**", "*=", "+=", "-=", "->", "//", "/=", ":=", "<<", "<=", "==", ">=", ">>",
  "@=", "^=", "|=",
  "%", "&", "(", ")", "*", "+", ",", "-", ".", "/", ":", ";", "<", "=", ">", "@", "[", "]", "^",
  "\x7b", "|", "\x7d", "~"]

/-- Marks that are tokens of their own, and that no rule takes. -/
def strayMarks : List String := ["!", "$", "?", "\x60"]

def operator? (s : List Char) : Option String :=
  (operators ++ strayMarks).find? fun o => o.toList.isPrefixOf s

end LocaleKeys.Source
