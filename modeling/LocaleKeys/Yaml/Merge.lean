import LocaleKeys.Yaml.Node

/-!
Merge keys. The value of such a key is a map or a list of maps, whose pairs are put in front of those
that are written out; of a list, the last map comes first. Maps may merge each other, even themselves:
each merge key is taken away before its value is looked at, so the work comes to an end.
-/

namespace LocaleKeys.Yaml

namespace Node

def entries : Node → List (Nat × Nat)
  | .map _ entries => entries
  | _ => []

def withTag (tag : Tag) : Node → Node
  | .scalar _ text => .scalar tag text
  | .list _ items => .list tag items
  | .map _ entries => .map tag entries

def withEntries (entries : List (Nat × Nat)) : Node → Node
  | .map tag _ => .map tag entries
  | node => node

end Node

namespace Graph

/-- The most maps that may lead from one into the other, by merge keys or by equal signs. -/
def maxChain : Nat := 970

def modify (graph : Graph) (number : Nat) (change : Node → Node) : Graph :=
  { graph with nodes := graph.nodes.modify number change }

def entries (graph : Graph) (number : Nat) : List (Nat × Nat) :=
  (graph.node number).entries

def entryCount (graph : Graph) : Nat :=
  graph.nodes.foldl (fun n node => n + node.entries.length) 0

def isMerge (graph : Graph) (entry : Nat × Nat) : Bool :=
  (graph.node entry.1).tag = .merge

/-- Takes the first merge key of a map away; gives the number of its value. -/
def takeMerge? (graph : Graph) (number : Nat) : Option (Nat × Graph) :=
  let entries := graph.entries number
  match entries.find? graph.isMerge with
  | none => none
  | some entry =>
    let before := entries.takeWhile (!graph.isMerge ·)
    let after := entries.drop (before.length + 1)
    some (entry.2, graph.modify number (Node.withEntries (before ++ after)))

def nameKey (graph : Graph) (entry : Nat × Nat) : Graph :=
  if (graph.node entry.1).tag = .value then graph.modify entry.1 (Node.withTag .text) else graph

/-- Ends the merging into a map: the pairs that are taken in come first, and equal signs among the
keys of the others become texts. -/
def endMerge (graph : Graph) (number : Nat) (taken : List (Nat × Nat)) : Graph :=
  let own := graph.entries number
  (own.foldl nameKey graph).modify number (Node.withEntries (taken ++ own))

/-- The pairs of the maps in a list, those of the last map first; `mergeInto` carries out the merge
keys of a map. -/
def mergedFrom (mergeInto : Nat → Graph → Except Error Graph) :
    List Nat → Graph → Except Error (List (Nat × Nat) × Graph)
  | [], graph => .ok ([], graph)
  | number :: rest, graph =>
    match mergeInto number graph with
    | .error e => .error e
    | .ok graph =>
      let here := graph.entries number
      (mergedFrom mergeInto rest graph).map fun (behind, graph) => (behind ++ here, graph)

/-- Carries out the merge keys of a map, with room for so many maps inside each other; `taken` holds
the pairs of those that are done. -/
def mergeFor : (budget room : Nat) → (taken : List (Nat × Nat)) → Nat → Graph → Except Error Graph
  | 0, _, _, _, _ => .error .tooDeep
  | _, 0, _, _, _ => .error .tooDeep
  | budget + 1, room + 1, taken, number, graph =>
    match graph.node number with
    | .map .. =>
      match graph.takeMerge? number with
      | none => .ok (graph.endMerge number taken)
      | some (value, graph) =>
        let found : Except Error (List (Nat × Nat) × Graph) :=
          match graph.node value with
          | .list _ items => mergedFrom (mergeFor budget room []) items graph
          | _ => mergedFrom (mergeFor budget room []) [value] graph
        match found with
        | .error e => .error e
        | .ok (found, graph) => mergeFor budget (room + 1) (taken ++ found) number graph
    | _ => .error .malformed

/-- Carries out the merge keys of a map. Nothing but maps can be merged. -/
def merge (graph : Graph) (number : Nat) : Except Error Graph :=
  mergeFor (graph.entryCount + 2) maxChain [] number graph

end Graph
end LocaleKeys.Yaml
