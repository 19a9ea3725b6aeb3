import LocaleKeys.Yaml.Scan
import LocaleKeys.Yaml.Tag

/-!
From tokens to nodes. The nodes of a document are numbered, and collections hold the numbers of their
items. An alias stands for the node that its anchor names; the anchor has to come first, but its node
may still be open, so a collection may contain itself.
-/

namespace LocaleKeys.Yaml

/-- A node: a scalar with its text, a list, or pairs, each with its type. -/
inductive Node
  | scalar (tag : Tag) (text : Text)
  | list (tag : Tag) (items : List Nat)
  | map (tag : Tag) (entries : List (Nat × Nat))
  deriving DecidableEq, Repr

namespace Node

def empty : Node :=
  .scalar (Tag.ofPlain "") ""

def tag : Node → Tag
  | .scalar tag _ => tag
  | .list tag _ => tag
  | .map tag _ => tag

end Node

/-- The nodes of a document by their numbers, and the number of the outermost one. -/
structure Graph where
  nodes : Array Node
  root : Nat

def Graph.node (graph : Graph) (number : Nat) : Node :=
  graph.nodes[number]?.getD Node.empty

/-- What has been read and what is left to read: the tokens, the anchors so far with the numbers of
their nodes, and the nodes. -/
structure Reading where
  tokens : List Token
  anchors : List (Text × Nat) := []
  nodes : Array Node := #[]

namespace Reading

abbrev Result (α : Type) := Except Error (α × Reading)

def startsWith (tokens : List Token) (any : List Token) : Bool :=
  match tokens with
  | [] => false
  | token :: _ => any.contains token

/-- The error where the next token is not the right one. -/
def unexpected : List Token → Error
  | .stop e :: _ => e
  | _ => .malformed

def add (reading : Reading) (anchor : Option Text) (node : Node) : Nat × Reading :=
  let number := reading.nodes.size
  let anchors := match anchor with
    | some name => Assoc.put name number reading.anchors
    | none => reading.anchors
  (number, { reading with anchors, nodes := reading.nodes.push node })

def addScalar (reading : Reading) (anchor : Option Text) (node : Node) : Result Nat :=
  .ok (reading.add anchor node)

def setNode (reading : Reading) (number : Nat) (node : Node) : Reading :=
  { reading with nodes := reading.nodes.setIfInBounds number node }

def addList (reading : Reading) (anchor : Option Text) (tag : Tag)
    (items : Reading → Result (List Nat)) : Result Nat :=
  let (number, reading) := reading.add anchor (.list tag [])
  (items reading).map fun (items, reading) => (number, reading.setNode number (.list tag items))

def addMap (reading : Reading) (anchor : Option Text) (tag : Tag)
    (entries : Reading → Result (List (Nat × Nat))) : Result Nat :=
  let (number, reading) := reading.add anchor (.map tag [])
  (entries reading).map fun (entries, reading) =>
    (number, reading.setNode number (.map tag entries))

/-- The properties that may come before a node. -/
structure Properties where
  anchor : Option Text := none
  tag : Option (Option Text × Text) := none

def properties (tokens : List Token) : Except Error (Properties × List Token) :=
  let (found, rest) : Properties × List Token :=
    match tokens with
    | .anchor name :: .tag handle suffix :: rest => (⟨some name, some (handle, suffix)⟩, rest)
    | .tag handle suffix :: .anchor name :: rest => (⟨some name, some (handle, suffix)⟩, rest)
    | .anchor name :: rest => (⟨some name, none⟩, rest)
    | .tag handle suffix :: rest => (⟨none, some (handle, suffix)⟩, rest)
    | rest => ({}, rest)
  match found.anchor.isSome && found.tag.isSome, rest with
  | false, .stop e :: _ => .error e
  | _, rest => .ok (found, rest)

/-- The name of a type: the handle stands for what a directive says. -/
def tagName (handles : List (Text × Text)) :
    Option (Option Text × Text) → Except Error (Option Text)
  | none => .ok none
  | some (none, suffix) => .ok (some suffix)
  | some (some handle, suffix) =>
    match Assoc.get? handle handles with
    | some start => .ok (some (start ++ suffix))
    | none => .error .malformed

/-- The type of a scalar: the named one, else the one of its text if it is plain. A lone exclamation
mark counts as plain. -/
def scalarTag (name : Option Text) (isPlain : Bool) (text : Text) : Tag :=
  match name with
  | none => if isPlain then Tag.ofPlain text else .text
  | some name => if name = "!" then Tag.ofPlain text else Tag.ofName name

/-- The type of a collection, the named one if there is one. -/
def collectionTag (name : Option Text) (usual : Tag) : Tag :=
  match name with
  | none => usual
  | some name => if name = "!" then usual else Tag.ofName name

def maxDepth : Nat := 490

/-- Where a node stands: in a flow collection, in a block, or in a block that may start with an item
at the same indentation. -/
inductive Setting
  | flow
  | block
  | indentless
  deriving DecidableEq, Repr

mutual

def node (handles : List (Text × Text)) (setting : Setting) (depth : Nat) :
    (budget : Nat) → Reading → Result Nat
  | 0, _ => .error .malformed
  | budget + 1, reading =>
    match reading.tokens with
    | .alias name :: rest =>
      match Assoc.get? name reading.anchors with
      | some number => .ok (number, { reading with tokens := rest })
      | none => .error .malformed
    | tokens =>
      if maxDepth < depth then .error .tooDeep
      else
        match properties tokens with
        | .error e => .error e
        | .ok (properties, tokens) =>
          if properties.anchor.any fun name => Assoc.has name reading.anchors then
            .error .malformed
          else
            match tagName handles properties.tag with
            | .error e => .error e
            | .ok name =>
              content handles setting depth name properties.anchor budget { reading with tokens }
termination_by structural budget => budget

def content (handles : List (Text × Text)) (setting : Setting) (depth : Nat)
    (name anchor : Option Text) : (budget : Nat) → Reading → Result Nat
  | 0, _ => .error .malformed
  | budget + 1, reading =>
    let inBlock := setting ≠ .flow
    match reading.tokens with
    | .stop e :: _ => .error e
    | .scalar text isPlain :: tokens =>
      addScalar { reading with tokens } anchor (.scalar (scalarTag name isPlain text) text)
    | .flowList :: tokens =>
      addList { reading with tokens } anchor (collectionTag name .list)
        (flowItems handles (depth + 1) true budget)
    | .flowMap :: tokens =>
      addMap { reading with tokens } anchor (collectionTag name .map)
        (flowEntries handles (depth + 1) true budget)
    | tokens =>
      if setting = .indentless && startsWith tokens [.item] then
        addList reading anchor (collectionTag name .list)
          (blockItems handles (depth + 1) true budget)
      else if inBlock && startsWith tokens [.blockList] then
        addList { reading with tokens := tokens.drop 1 } anchor (collectionTag name .list)
          (blockItems handles (depth + 1) false budget)
      else if inBlock && startsWith tokens [.blockMap] then
        addMap { reading with tokens := tokens.drop 1 } anchor (collectionTag name .map)
          (blockEntries handles (depth + 1) budget)
      else if anchor.isSome || name.isSome then
        addScalar reading anchor (.scalar (scalarTag name true "") "")
      else .error .malformed
termination_by structural budget => budget

def nodeOr (handles : List (Text × Text)) (setting : Setting) (depth : Nat)
    (stops : List Token) : (budget : Nat) → Reading → Result Nat
  | 0, _ => .error .malformed
  | budget + 1, reading =>
    if startsWith reading.tokens stops then addScalar reading none Node.empty
    else node handles setting depth budget reading
termination_by structural budget => budget

/-- Reads the items of a block list. One without an indentation of its own has no end token. -/
def blockItems (handles : List (Text × Text)) (depth : Nat) (indentless : Bool) :
    (budget : Nat) → Reading → Result (List Nat)
  | 0, _ => .error .malformed
  | budget + 1, reading =>
    match reading.tokens with
    | .item :: tokens =>
      let stops : List Token :=
        if indentless then [.item, .key, .value, .blockEnd] else [.item, .blockEnd]
      match nodeOr handles .block depth stops budget { reading with tokens } with
      | .error e => .error e
      | .ok (item, reading) =>
        (blockItems handles depth indentless budget reading).map
          fun (items, reading) => (item :: items, reading)
    | .stop e :: _ => .error e
    | .blockEnd :: tokens =>
      if indentless then .ok ([], reading) else .ok ([], { reading with tokens })
    | _ => if indentless then .ok ([], reading) else .error .malformed
termination_by structural budget => budget

def blockEntries (handles : List (Text × Text)) (depth : Nat) :
    (budget : Nat) → Reading → Result (List (Nat × Nat))
  | 0, _ => .error .malformed
  | budget + 1, reading =>
    match reading.tokens with
    | .key :: tokens =>
      match nodeOr handles .indentless depth [.key, .value, .blockEnd] budget
          { reading with tokens } with
      | .error e => .error e
      | .ok (key, reading) =>
        match valueOr handles .indentless depth [.key, .value, .blockEnd] budget reading with
        | .error e => .error e
        | .ok (value, reading) =>
          (blockEntries handles depth budget reading).map
            fun (entries, reading) => ((key, value) :: entries, reading)
    | .blockEnd :: tokens => .ok ([], { reading with tokens })
    | tokens => .error (unexpected tokens)
termination_by structural budget => budget

/-- Reads the value of a pair; there is none without a colon. -/
def valueOr (handles : List (Text × Text)) (setting : Setting) (depth : Nat)
    (stops : List Token) : (budget : Nat) → Reading → Result Nat
  | 0, _ => .error .malformed
  | budget + 1, reading =>
    match reading.tokens with
    | .value :: tokens => nodeOr handles setting depth stops budget { reading with tokens }
    | .stop e :: _ => .error e
    | _ => addScalar reading none Node.empty
termination_by structural budget => budget

/-- Reads the items of a flow list. An item may be a single pair. -/
def flowItems (handles : List (Text × Text)) (depth : Nat) (first : Bool) :
    (budget : Nat) → Reading → Result (List Nat)
  | 0, _ => .error .malformed
  | budget + 1, reading =>
    let pair (reading : Reading) : Result (List (Nat × Nat)) :=
      match nodeOr handles .flow (depth + 1) [.value, .comma, .flowListEnd] budget reading with
      | .error e => .error e
      | .ok (key, reading) =>
        (valueOr handles .flow (depth + 1) [.comma, .flowListEnd] budget reading).map
          fun (value, reading) => ([(key, value)], reading)
    let item (tokens : List Token) : Result Nat :=
      match tokens with
      | .key :: tokens => addMap { reading with tokens } none .map pair
      | tokens => node handles .flow depth budget { reading with tokens }
    let go (tokens : List Token) : Result (List Nat) :=
      match tokens with
      | .flowListEnd :: tokens => .ok ([], { reading with tokens })
      | tokens =>
        match item tokens with
        | .error e => .error e
        | .ok (item, reading) =>
          (flowItems handles depth false budget reading).map
            fun (items, reading) => (item :: items, reading)
    match reading.tokens, first with
    | .flowListEnd :: tokens, false => .ok ([], { reading with tokens })
    | .comma :: tokens, false => go tokens
    | tokens, false => .error (unexpected tokens)
    | tokens, true => go tokens
termination_by structural budget => budget

def flowEntries (handles : List (Text × Text)) (depth : Nat) (first : Bool) :
    (budget : Nat) → Reading → Result (List (Nat × Nat))
  | 0, _ => .error .malformed
  | budget + 1, reading =>
    let entry (tokens : List Token) : Result (Nat × Nat) :=
      match tokens with
      | .key :: tokens =>
        match nodeOr handles .flow depth [.value, .comma, .flowMapEnd] budget
            { reading with tokens } with
        | .error e => .error e
        | .ok (key, reading) =>
          (valueOr handles .flow depth [.comma, .flowMapEnd] budget reading).map
            fun (value, reading) => ((key, value), reading)
      | tokens =>
        match node handles .flow depth budget { reading with tokens } with
        | .error e => .error e
        | .ok (key, reading) =>
          (addScalar reading none Node.empty).map fun (value, reading) => ((key, value), reading)
    let go (tokens : List Token) : Result (List (Nat × Nat)) :=
      match tokens with
      | .flowMapEnd :: tokens => .ok ([], { reading with tokens })
      | tokens =>
        match entry tokens with
        | .error e => .error e
        | .ok (entry, reading) =>
          (flowEntries handles depth false budget reading).map
            fun (entries, reading) => (entry :: entries, reading)
    match reading.tokens, first with
    | .flowMapEnd :: tokens, false => .ok ([], { reading with tokens })
    | .comma :: tokens, false => go tokens
    | tokens, false => .error (unexpected tokens)
    | tokens, true => go tokens
termination_by structural budget => budget

end

end Reading

namespace Graph

def defaultHandles : List (Text × Text) :=
  [("!", "!"), ("!!", Tag.knownStart)]

/-- Takes the directives before a document: one version at most, of the first generation, and each
handle once. -/
def directives (versioned : Bool) (handles : List (Text × Text)) :
    List Token → Except Error (List (Text × Text) × List Token)
  | .directive (.version major) :: rest =>
    if versioned || major ≠ 1 then .error .malformed else directives true handles rest
  | .directive (.tag handle start) :: rest =>
    if Assoc.has handle handles then .error .malformed
    else directives versioned (Assoc.put handle start handles) rest
  | .directive .unknown :: rest => directives versioned handles rest
  | rest => .ok (handles ++ defaultHandles, rest)

def dropEnds : List Token → List Token
  | .documentEnd :: rest => dropEnds rest
  | rest => rest

/-- A document, if no further tokens follow it. The start of another one is read before that is
an error. -/
def onlyDocument (graph : Graph) (behind : List Token) : Except Error Graph :=
  match dropEnds behind with
  | [] => .ok graph
  | tokens =>
    match directives false [] tokens with
    | .error e => .error e
    | .ok (_, tokens) => .error (Reading.unexpected tokens)

/-- Reads the node of a document, behind which nothing may come. -/
def document (handles : List (Text × Text)) (tokens : List Token) : Except Error Graph :=
  match Reading.node handles .block 0 (8 * tokens.length + 8) { tokens } with
  | .error e => .error e
  | .ok (root, reading) => onlyDocument ⟨reading.nodes, root⟩ reading.tokens

def isEdge : Token → Bool
  | .directive _ | .documentStart | .documentEnd => true
  | _ => false

/-- Reads a document from its start mark on. Nothing may be in it. -/
def markedDocument (tokens : List Token) : Except Error (Option Graph) :=
  let tokens := dropEnds tokens
  if tokens.isEmpty then .ok none
  else
    match directives false [] tokens with
    | .error e => .error e
    | .ok (handles, .documentStart :: rest) =>
      if rest.isEmpty || rest.head?.any isEdge then
        (onlyDocument ⟨#[Node.empty], 0⟩ rest).map some
      else (document handles rest).map some
    | .ok (_, rest) => .error (Reading.unexpected rest)

def ofTokens (tokens : List Token) : Except Error (Option Graph) :=
  match tokens with
  | [] => .ok none
  | .directive _ :: _ | .documentStart :: _ => markedDocument tokens
  | _ => (document defaultHandles tokens).map some

end Graph
end LocaleKeys.Yaml
