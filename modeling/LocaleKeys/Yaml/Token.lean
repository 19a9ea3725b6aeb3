import LocaleKeys.Number.Integer
import LocaleKeys.Yaml.Block

/-!
The tokens of YAML text. Where a block collection starts and where it ends is told by tokens of its
own, and so is the key of a pair whose colon comes only behind it. Where no further token can be read,
a last one tells why.
-/

namespace LocaleKeys.Yaml

/-- What a directive says. -/
inductive Directive
  | version (major : Nat)
  | tag (handle : Text) (start : Text)
  | unknown
  deriving DecidableEq, Repr

/-- A token. -/
inductive Token
  | directive (d : Directive)
  | documentStart
  | documentEnd
  | blockList
  | blockMap
  | blockEnd
  | flowList
  | flowListEnd
  | flowMap
  | flowMapEnd
  | item
  | comma
  | key
  | value
  | alias (name : Text)
  | anchor (name : Text)
  | tag (handle : Option Text) (suffix : Text)
  | scalar (text : Text) (isPlain : Bool)
  | stop (e : Error)
  deriving DecidableEq, Repr

namespace Token

/-- Whether a character may stand in the names of anchors, directives and tag handles. -/
def isNameChar (c : Point) : Bool :=
  c.isAlphanum || c = '-' || c = '_'

def isTagChar (c : Point) : Bool :=
  c.isAlphanum || (Text.ofString "-;/?:@&=+$,_.!~*'()[]").toList.contains c

def readName (cursor : Cursor) : Except Error (Text × Cursor) :=
  let found := cursor.run isNameChar
  if found.isEmpty then .error (cursor.error .malformed)
  else .ok (Text.ofList found, cursor.advance found.length)

def digits (cursor : Cursor) : Except Error (Nat × Cursor) :=
  let found := cursor.run Point.isDigit
  let behind := cursor.advance found.length
  if found.isEmpty then .error (cursor.error .malformed)
  else if Number.maxDigits < found.length then
    .error (behind.error (.badValue (Number.tooLongMessage found.length)))
  else .ok (Number.ofDigits found, behind)

/-- Reads the handle of a tag: an exclamation mark, or a name between two of them. -/
def readHandle (cursor : Cursor) : Except Error (Text × Cursor) :=
  match cursor.rest with
  | .char '!' :: rest =>
    if rest.head? == some (Point.char ' ') then .ok ("!", cursor.next)
    else
      let found := rest.takeWhile isNameChar
      match rest.drop found.length with
      | .char '!' :: _ =>
        .ok (Text.ofList ('!' :: (found ++ [Point.char '!'])), cursor.advance (found.length + 2))
      | _ => .error ((cursor.advance (found.length + 1)).error .malformed)
  | _ => .error (cursor.error .malformed)

/-- Reads bytes, each given by two hexadecimal digits behind a percent sign. -/
def escapedBytes : (budget : Nat) → Cursor → (taken : List UInt8) →
    Except Error (List UInt8 × Cursor)
  | 0, cursor, taken => .ok (taken.reverse, cursor)
  | budget + 1, cursor, taken =>
    if !cursor.atChar '%' then .ok (taken.reverse, cursor)
    else
      let cursor := cursor.next
      let digits := (cursor.rest.take 2).takeWhile fun c => (Quoted.hexValue? c).isSome
      match Quoted.hexNumber? digits with
      | none => .error .malformed
      | some n =>
        if digits.length < 2 then .error ((cursor.ask (digits.length + 1)).error .malformed)
        else escapedBytes budget (cursor.advance 2) (n.toUInt8 :: taken)

def tagChars : (budget : Nat) → Cursor → (taken : List Point) → Except Error (List Point × Cursor)
  | 0, cursor, taken => .ok (taken, cursor)
  | budget + 1, cursor, taken =>
    if cursor.atChar '%' then
      match escapedBytes (cursor.rest.length + 1) cursor [] with
      | .error e => .error e
      | .ok (bytes, cursor) =>
        match Text.Utf8.decode bytes with
        | .error _ => .error (cursor.error .malformed)
        | .ok found => tagChars budget cursor (taken ++ found)
    else
      let found := cursor.run isTagChar
      if found.isEmpty then .ok (taken, cursor)
      else tagChars budget (cursor.advance found.length) (taken ++ found)

/-- Reads a tag or the end of one. It is not empty, apart from escapes of nothing. -/
def tagText (cursor : Cursor) : Except Error (Text × Cursor) :=
  match tagChars (cursor.rest.length + 1) cursor [] with
  | .error e => .error e
  | .ok (found, after) =>
    if after.index = cursor.index then .error (cursor.error .malformed)
    else .ok (Text.ofList found, after)

def versionDirective (cursor : Cursor) : Except Error (Directive × Cursor) :=
  match digits cursor.skipSpaces with
  | .error e => .error e
  | .ok (major, cursor) =>
    if !cursor.atChar '.' then .error (cursor.error .malformed)
    else
      match digits cursor.next with
      | .error e => .error e
      | .ok (_, cursor) =>
        if atSpace cursor.rest then .ok (.version major, cursor)
        else .error (cursor.error .malformed)

def tagDirective (cursor : Cursor) : Except Error (Directive × Cursor) :=
  match readHandle cursor.skipSpaces with
  | .error e => .error e
  | .ok (handle, cursor) =>
    if !cursor.atChar ' ' then .error (cursor.error .malformed)
    else
      match tagText cursor.skipSpaces with
      | .error e => .error e
      | .ok (start, cursor) =>
        if atSpace cursor.rest then .ok (.tag handle start, cursor)
        else .error (cursor.error .malformed)

def readDirective (cursor : Cursor) : Except Error (Token × Cursor) :=
  match readName cursor.next with
  | .error e => .error e
  | .ok (word, cursor) =>
    if !atSpace cursor.rest then .error (cursor.error .malformed)
    else
      let said : Except Error (Directive × Cursor) :=
        if word = "YAML" then versionDirective cursor
        else if word = "TAG" then tagDirective cursor
        else .ok (.unknown, cursor.skip (!isBreak ·))
      match said with
      | .error e => .error e
      | .ok (said, cursor) =>
        let cursor := cursor.skipSpaces.skipComment
        if atBreak cursor.rest then .ok (.directive said, ((cursor.takeBreak).map (·.2)).getD cursor)
        else .error (cursor.error .malformed)

/-- Reads the name behind the sign of an anchor or of an alias. -/
def readAnchor (cursor : Cursor) : Except Error (Text × Cursor) :=
  match readName cursor.next with
  | .error e => .error e
  | .ok (found, cursor) =>
    if atGap cursor.rest || cursor.atAny ['?', ':', ',', ']', '}', '%', '@', '\x60'] then
      .ok (found, cursor)
    else .error (cursor.error .malformed)

/-- How many characters stand before the next space or exclamation mark. -/
def handleLength (rest : List Point) : Nat :=
  (rest.takeWhile fun c : Point => !(c = ' ' || c = '!' || isBreak c)).length

/-- Reads a tag: between angle brackets, a lone exclamation mark, or one with a handle or without. -/
def readTag (cursor : Cursor) : Except Error (Token × Cursor) :=
  let rest := cursor.rest.drop 1
  let cursor := cursor.ask 2
  let found : Except Error (Token × Cursor) :=
    if rest.head? == some (Point.char '<') then
      match tagText (cursor.advance 2) with
      | .error e => .error e
      | .ok (suffix, cursor) =>
        if cursor.atChar '>' then .ok (.tag none suffix, cursor.next)
        else .error (cursor.error .malformed)
    else if atGap rest then .ok (.tag none "!", cursor.next)
    else
      let length := handleLength rest
      let cursor := cursor.ask (length + 2)
      let handle :=
        if (rest.drop length).head? == some (Point.char '!') then readHandle cursor
        else .ok ("!", cursor.next)
      match handle with
      | .error e => .error e
      | .ok (handle, cursor) =>
        (tagText cursor).map fun (suffix, cursor) => (.tag (some handle) suffix, cursor)
  match found with
  | .error e => .error e
  | .ok (token, cursor) =>
    if atSpace cursor.rest then .ok (token, cursor) else .error (cursor.error .malformed)

end Token
end LocaleKeys.Yaml
