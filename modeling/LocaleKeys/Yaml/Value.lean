import LocaleKeys.Yaml.Merge
import LocaleKeys.Yaml.ScalarValue

/-!
From nodes to dynamic values. Nodes are evaluated breadth first: a collection is empty to begin with,
and its contents follow when those of all collections before it are there. The keys of a map are values
that hold no others; of equal keys the first one stays, with the last value. A node that several
aliases name is evaluated once.
-/

namespace LocaleKeys.Yaml

/-- What has become of a node: nothing yet, a collection that is still empty, a value that holds no
others, or a collection of values given by the numbers of their nodes. -/
inductive Part
  | unseen
  | waiting
  | leaf (d : Datum)
  | list (items : List Nat)
  | pairs (entries : List (Nat × Nat))
  | set (items : List Datum)
  | map (entries : List (Datum × Nat))

/-- An evaluation: the nodes, what has become of them, and the collections whose contents are still to
come, the last one first. -/
structure Evaluation where
  graph : Graph
  parts : Array Part
  queue : List Nat := []

/-- Whether two keys are equal. Numbers that are none are all the same one. -/
def isSameKey (a b : Datum) : Bool :=
  match a, b with
  | .float .nan, .float .nan => true
  | a, b => a == b

def putKey (key : Datum) (value : Nat) : List (Datum × Nat) → List (Datum × Nat)
  | [] => [(key, value)]
  | (k, v) :: rest =>
    if isSameKey k key then (k, value) :: rest else (k, v) :: putKey key value rest

/-- The text of a scalar, or what a map stands for where a scalar is asked for: the value of its key
that is an equal sign. -/
def Graph.text (graph : Graph) : (budget : Nat) → Nat → Except Error Text
  | 0, _ => .error .tooDeep
  | budget + 1, number =>
    match graph.node number with
    | .scalar _ s => .ok s
    | .list .. => .error .malformed
    | .map _ entries =>
      match entries.find? fun entry => (graph.node entry.1).tag = .value with
      | some (_, value) => graph.text budget value
      | none => .error .malformed

namespace Evaluation

def part (e : Evaluation) (number : Nat) : Part :=
  e.parts[number]?.getD .unseen

def setPart (e : Evaluation) (number : Nat) (part : Part) : Evaluation :=
  { e with parts := e.parts.setIfInBounds number part }

/-- Starts on a node: a scalar has its value at once, a collection gets its contents later. -/
def start (e : Evaluation) (number : Nat) : Except Error Evaluation :=
  match e.part number with
  | .unseen =>
    let node := e.graph.node number
    if node.tag.isCollection then
      .ok { e.setPart number .waiting with queue := number :: e.queue }
    else if !node.tag.isScalar then .error .malformed
    else
      match e.graph.text Graph.maxChain number with
      | .error fault => .error fault
      | .ok s =>
        match node, node.tag with
        | .map .., .timestamp => .error .noText
        | _, tag => (Value.ofScalar tag s).map fun d => e.setPart number (.leaf d)
  | _ => .ok e

def startAll (e : Evaluation) : List Nat → Except Error Evaluation
  | [] => .ok e
  | number :: rest =>
    match e.start number with
    | .error fault => .error fault
    | .ok e => e.startAll rest

def gather (e : Evaluation) (done : List (Datum × Nat)) :
    List (Nat × Nat) → Except Error (List (Datum × Nat) × Evaluation)
  | [] => .ok (done, e)
  | (key, value) :: rest =>
    match e.start key with
    | .error fault => .error fault
    | .ok e =>
      match e.part key with
      | .leaf d =>
        match e.start value with
        | .error fault => .error fault
        | .ok e => e.gather (putKey d value done) rest
      | _ => .error .malformed

/-- Starts on pairs that are given by maps of one pair each. -/
def gatherPairs (e : Evaluation) :
    List Nat → Except Error (List (Nat × Nat) × Evaluation)
  | [] => .ok ([], e)
  | number :: rest =>
    match e.graph.node number with
    | .map _ [(key, value)] =>
      match e.startAll [key, value] with
      | .error fault => .error fault
      | .ok e => (e.gatherPairs rest).map fun (pairs, e) => ((key, value) :: pairs, e)
    | _ => .error .malformed

def gatherMerged (e : Evaluation) (number : Nat) :
    Except Error (List (Datum × Nat) × Evaluation) :=
  match e.graph.merge number with
  | .error fault => .error fault
  | .ok graph => { e with graph }.gather [] (graph.entries number)

def fill (e : Evaluation) (number : Nat) : Except Error Evaluation :=
  match e.graph.node number with
  | .list .list items => (e.startAll items).map (·.setPart number (.list items))
  | .list .orderedMap items | .list .pairs items =>
    (e.gatherPairs items).map fun (pairs, e) => e.setPart number (.pairs pairs)
  | .map .map _ =>
    (e.gatherMerged number).map fun (entries, e) => e.setPart number (.map entries)
  | .map .set _ =>
    (e.gatherMerged number).map fun (entries, e) => e.setPart number (.set (entries.map (·.1)))
  | _ => .error .malformed

/-- Gives collections their contents, those that they contain in their turn. -/
def fillAll : (budget : Nat) → List Nat → Evaluation → Except Error Evaluation
  | 0, _, e => .ok e
  | budget + 1, numbers, e =>
    match numbers, e.queue with
    | number :: rest, _ =>
      match e.fill number with
      | .error fault => .error fault
      | .ok e => fillAll budget rest e
    | [], [] => .ok e
    | [], queue => fillAll budget queue.reverse { e with queue := [] }

end Evaluation

/-- The values of nodes that contain no collection which contains itself. -/
abbrev Known := Array (Option Datum)

/-- Values that stand for nodes, the numbers of the collections around them to which they refer, whether
they hold knots, and what is known from then on. -/
structure Unfolded (α : Type) where
  value : α
  refs : List Nat := []
  isTied : Bool := false
  known : Known

namespace Unfolded

def map {α β : Type} (f : α → β) (u : Unfolded α) : Unfolded β :=
  { u with value := f u.value }

/-- Closes a collection. It is a knot if something inside refers to it or to what is around it, for then
it contains itself. -/
def close (number : Nat) (u : Unfolded Datum) : Unfolded Datum :=
  if !u.refs.isEmpty then
    { u with value := .knot number u.value, refs := u.refs.filter (· ≠ number) }
  else if u.isTied then u
  else { u with known := u.known.setIfInBounds number (some u.value) }

/-- Puts a value in front of others, which may use what is known by then. -/
def followedBy (here : Unfolded Datum) (others : Known → Unfolded (List Datum)) :
    Unfolded (List Datum) :=
  let behind := others here.known
  { value := here.value :: behind.value
    refs := here.refs ++ behind.refs.filter (!here.refs.contains ·)
    isTied := here.isTied || behind.isTied
    known := behind.known }

end Unfolded

def unfoldAll (one : Nat → Known → Unfolded Datum) : List Nat → Known → Unfolded (List Datum)
  | [], known => { value := [], known }
  | number :: rest, known => (one number known).followedBy (unfoldAll one rest)

/-- Unfolds pairs. They have numbers of their own, which follow those of the nodes in steps of
`size`. -/
def unfoldPairs (size : Nat) (one : Nat → Known → Unfolded Datum) :
    (number : Nat) → List (Nat × Nat) → Known → Unfolded (List Datum)
  | _, [], known => { value := [], known }
  | number, (key, value) :: rest, known =>
    let here := ((unfoldAll one [key, value] known).map .tuple).close (number + size)
    here.followedBy (unfoldPairs size one (number + size) rest)

/-- The value of a node inside of some collections. A collection that is around stands for itself. -/
def unfold (parts : Array Part) :
    (budget : Nat) → (around : List Nat) → (number : Nat) → Known → Unfolded Datum
  | 0, _, number, known => { value := .again number, known }
  | budget + 1, around, number, known =>
    let inside := unfold parts budget (number :: around)
    if around.contains number then
      { value := .again number, refs := [number], isTied := true, known }
    else
      match known[number]?.join, parts[number]?.getD .unseen with
      | some d, _ => { value := d, known }
      | none, .leaf d => { value := d, known }
      | none, .set items => { value := .set items, known }
      | none, .list items => ((unfoldAll inside items known).map .list).close number
      | none, .pairs entries =>
        ((unfoldPairs parts.size inside number entries known).map .list).close number
      | none, .map entries =>
        ((unfoldAll inside (entries.map (·.2)) known).map fun values =>
          .map ((entries.map (·.1)).zip values)).close number
      | none, _ => { value := .null, known }

def Graph.value (graph : Graph) : Except Error Datum :=
  let size := graph.nodes.size
  let e : Evaluation := { graph, parts := Array.replicate size .unseen }
  match e.start graph.root with
  | .error fault => .error fault
  | .ok e =>
    (e.fillAll (2 * size + 2) []).map fun e =>
      (unfold e.parts (size + 1) [] graph.root (Array.replicate size none)).value

/-- The value of the document in a file, if there is a document. -/
def read (bytes : List UInt8) : Except Error (Option Datum) :=
  match Graph.ofTokens (tokens (Supply.ofBytes bytes)) with
  | .error e => .error e
  | .ok none => .ok none
  | .ok (some graph) => graph.value.map some

end LocaleKeys.Yaml
