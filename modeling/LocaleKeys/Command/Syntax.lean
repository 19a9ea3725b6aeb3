import LocaleKeys.Number.Integer
import LocaleKeys.Text.Digit
import LocaleKeys.Text.Lines

/-!
Command lines: words, and options that may stand between them. A long option may be cut short as long
as it is clear which one is meant; short ones may be joined. Behind two hyphens all is words.
-/

namespace LocaleKeys.Command

/-- Why reading a command line ends early. -/
inductive Stop
  | misuse
  | help
  | version
  deriving DecidableEq, Repr

/-- What an option does: it ends the reading, or it sets something to nothing, a text or an
integer. -/
inductive Effect
  | stop (s : Stop)
  | flag
  | text
  | integer
  deriving DecidableEq, Repr

/-- An option with its spellings and the name of what it sets. -/
structure Switch where
  spellings : List Text
  name : Text
  effect : Effect
  deriving DecidableEq, Repr

def Switch.takesValue (switch : Switch) : Bool :=
  switch.effect = .text || switch.effect = .integer

/-- A word with a place of its own: one that has to be there, one that may be, or the first of all
that remain. -/
inductive Slot
  | required (name : Text)
  | optional (name : Text)
  | remainder (name : Text)
  deriving DecidableEq, Repr

/-- The form of a command line. -/
structure Form where
  switches : List Switch
  slots : List Slot

/-- An argument as it looks before anything is set: a word, two hyphens that end the options, or an
option with the value that is joined to it. An option that is not known has no rule. -/
inductive Argument
  | word (s : Text)
  | dashes
  | switch (s : Text) (rule : Option Switch) (spelling : Text) (joined : Option (List Point))
  deriving DecidableEq, Repr

namespace Form

/-- The options of a form with each of their spellings. -/
def spelt (form : Form) : List (Text × Switch) :=
  form.switches.flatMap fun switch => switch.spellings.map fun s => (s, switch)

def named? (form : Form) (spelling : Text) : Option Switch :=
  (form.spelt.find? (·.1 = spelling)).map (·.2)

/-- The options that a shortened spelling may stand for. -/
def candidates (form : Form) (s : List Point) : List (Text × Switch × Option (List Point)) :=
  match s with
  | .char '-' :: .char '-' :: _ =>
    let start := s.takeWhile (· ≠ Point.char '=')
    let joined := match s.dropWhile (· ≠ Point.char '=') with
      | [] => none
      | _ :: value => some value
    (form.spelt.filter fun (spelling, _) => start.isPrefixOf spelling.toList).map
      fun (spelling, switch) => (spelling, switch, joined)
  | a :: b :: value =>
    (form.spelt.filter fun (spelling, _) => spelling.toList = [a, b]).map
      fun (spelling, switch) => (spelling, switch, some value)
  | _ => []

/-- Whether a text is a number with a minus sign: digits, or digits behind a point and perhaps
before it. A line feed may follow. -/
def isNegativeNumber (s : List Point) : Bool :=
  let isDigit (c : Point) : Bool := (Text.digitValue? c).isSome
  match Text.dropFinalBreak s with
  | .char '-' :: body =>
    let fraction := (body.dropWhile isDigit).drop 1
    (!body.isEmpty && body.all isDigit) ||
      ((body.dropWhile isDigit).head? == some (Point.char '.') && !fraction.isEmpty && fraction.all isDigit)
  | _ => false

/-- Looks at one argument. It is an error if a shortened option may stand for several. -/
def classify (form : Form) (s : Text) : Except Stop Argument :=
  let chars := s.toList
  let isOption := chars.head? == some (Point.char '-')
  let start := Text.ofList (chars.takeWhile (· ≠ Point.char '='))
  let value := (chars.dropWhile (· ≠ Point.char '=')).drop 1
  if !isOption then .ok (.word s)
  else
    match form.named? s with
    | some switch => .ok (.switch s (some switch) s none)
    | none =>
      if chars.length = 1 then .ok (.word s)
      else
        match if chars.contains '=' then form.named? start else none with
        | some switch => .ok (.switch s (some switch) start (some value))
        | none =>
          match form.candidates chars with
          | _ :: _ :: _ => .error .misuse
          | [(spelling, switch, joined)] => .ok (.switch s (some switch) spelling joined)
          | [] =>
            if isNegativeNumber chars || chars.contains ' ' then .ok (.word s)
            else .ok (.switch s none s none)

/-- Looks at all arguments; behind two hyphens there are only words. -/
def classifyAll (form : Form) : List Text → Except Stop (List Argument)
  | [] => .ok []
  | s :: rest =>
    if s = "--" then .ok (.dashes :: rest.map .word)
    else
      match form.classify s with
      | .error e => .error e
      | .ok argument => (classifyAll form rest).map (argument :: ·)

end Form

/-- What is given for a word or for an option: a text, or nothing where two hyphens stand in its
place. -/
abbrev Given := Option Text

/-- What has been set so far, last first, and whether anything is left that has no place. -/
structure Settled where
  values : List (Text × Given) := []
  rest : List Text := []
  leftOver : Bool := false

namespace Settled

def set (settled : Settled) (name : Text) (value : Given) : Settled :=
  { settled with values := (name, value) :: settled.values }

def get? (settled : Settled) (name : Text) : Option Given :=
  (settled.values.find? (·.1 = name)).map (·.2)

def has (settled : Settled) (name : Text) : Bool :=
  (settled.get? name).isSome

def all (settled : Settled) (name : Text) : List Given :=
  ((settled.values.filter (·.1 = name)).map (·.2)).reverse

/-- What is given by a text that has a place of its own. -/
def given (s : Text) : Given :=
  if s = "--" then none else some s

def act (settled : Settled) (switch : Switch) (value : Text) : Except Stop Settled :=
  match switch.effect with
  | .stop s => .error s
  | .flag | .text => .ok (settled.set switch.name (given value))
  | .integer =>
    match given value, Number.integer value.toList with
    | some _, .error _ => .error .misuse
    | value, _ => .ok (settled.set switch.name value)

end Settled

def Argument.text : Argument → Text
  | .word s => s
  | .dashes => "--"
  | .switch s _ _ _ => s

def Argument.isSwitch : Argument → Bool
  | .switch .. => true
  | _ => false

/-- Whether the arguments start with the two hyphens that end the options. -/
def atDashes (arguments : List Argument) : Bool :=
  arguments.head? == some .dashes

def dropDashes : List Argument → List Argument
  | .dashes :: rest => rest
  | rest => rest

/-- Sets the word of a slot with the hyphens around it. Of several pairs of hyphens only the first
stands for nothing. -/
def Settled.setWord (settled : Settled) (name s : Text) (dashes : Bool) : Settled :=
  settled.set name (if dashes then some s else Settled.given s)

/-- Fills one slot from the start of the arguments, if what it needs is there. An optional one may
stay as it is. -/
def fillSlot (settled : Settled) (arguments : List Argument) :
    Slot → Option (Settled × List Argument)
  | .required name =>
    match dropDashes arguments with
    | .word s :: rest =>
      some (settled.setWord name s (atDashes arguments || atDashes rest), dropDashes rest)
    | _ => none
  | .optional name =>
    match dropDashes arguments with
    | .word s :: rest =>
      let around := atDashes arguments || atDashes rest
      if !around && s = "--" then some (settled, rest)
      else some (settled.set name s, dropDashes rest)
    | rest => some (settled, dropDashes rest)
  | .remainder name =>
    match arguments with
    | .word s :: rest =>
      some ({ settled.set name (some s) with rest := rest.map Argument.text }, [])
    | .dashes :: rest =>
      some ({ settled.set name (some "--") with rest := rest.map Argument.text }, [])
    | _ => none

/-- Fills as many slots as the arguments at the start allow. -/
def fillSlots (settled : Settled) (arguments : List Argument) :
    List Slot → Settled × List Argument × List Slot
  | [] => (settled, arguments, [])
  | slot :: slots =>
    match fillSlot settled arguments slot with
    | none => (settled, arguments, slot :: slots)
    | some (settled, arguments) => fillSlots settled arguments slots

/-- Options that have been taken, each with its value, and the arguments behind them. -/
abbrev Taken := List (Switch × Text) × List Argument

/-- Takes an option without a value of its own; it may need the next word. -/
def takePlain (switch : Switch) (rest : List Argument) : Except Stop Taken :=
  if switch.takesValue then
    match rest with
    | .word s :: rest => .ok ([(switch, s)], rest)
    | _ => .error .misuse
  else .ok ([(switch, "")], rest)

/-- Takes a short option with what is joined to it: a value, or further options. -/
def takeJoined (form : Form) (rest : List Argument) : Switch → List Point → Except Stop Taken
  | switch, [] => takePlain switch rest
  | switch, c :: more =>
    if switch.takesValue then .ok ([(switch, Text.ofList (c :: more))], rest)
    else
      match form.named? (Text.ofList ['-', c]) with
      | none => .error .misuse
      | some next =>
        (takeJoined form rest next more).map fun (taken, rest) => ((switch, "") :: taken, rest)

/-- Takes an option with what is joined to it, if anything is. -/
def takeSwitch (form : Form) (switch : Switch) (spelling : Text) (joined : Option (List Point))
    (rest : List Argument) : Except Stop Taken :=
  match joined with
  | none => takePlain switch rest
  | some value =>
    if switch.takesValue then .ok ([(switch, Text.ofList value)], rest)
    else if value.isEmpty || (Text.ofString "--").toList.isPrefixOf spelling.toList then .error .misuse
    else takeJoined form rest switch value

def actAll (settled : Settled) : List (Switch × Text) → Except Stop Settled
  | [] => .ok settled
  | (switch, value) :: rest =>
    match settled.act switch value with
    | .error e => .error e
    | .ok settled => actAll settled rest

def Slot.isRequired : Slot → Bool
  | .required _ => true
  | _ => false

/-- Takes arguments until none is left: options where they stand, and words for the slots. -/
def settle (form : Form) : (budget : Nat) → Settled → List Slot → List Argument →
    Except Stop Settled
  | 0, _, _, _ => .error .misuse
  | budget + 1, settled, slots, arguments =>
    match arguments with
    | .switch _ none _ _ :: rest => settle form budget { settled with leftOver := true } slots rest
    | .switch _ (some switch) spelling joined :: rest =>
      match takeSwitch form switch spelling joined rest with
      | .error e => .error e
      | .ok (taken, rest) =>
        match actAll settled taken with
        | .error e => .error e
        | .ok settled => settle form budget settled slots rest
    | arguments =>
      let (settled, rest, slots) := fillSlots settled arguments slots
      if !rest.any Argument.isSwitch then
        if slots.any Slot.isRequired then .error .misuse
        else .ok { settled with leftOver := settled.leftOver || !rest.isEmpty }
      else if rest.length < arguments.length then settle form budget settled slots rest
      else
        settle form budget { settled with leftOver := true } slots
          (rest.dropWhile fun a => !a.isSwitch)

def Form.read (form : Form) (arguments : List Text) : Except Stop Settled :=
  match form.classifyAll arguments with
  | .error e => .error e
  | .ok arguments => settle form (2 * arguments.length + 2) {} form.slots arguments

end LocaleKeys.Command
