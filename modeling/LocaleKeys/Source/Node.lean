import LocaleKeys.Text.Point

/-!
Trees of source text. They keep apart what usages are found in, calls, subscripts and literal texts;
of everything else only the parts remain. A tree is walked layer by layer.
-/

namespace LocaleKeys.Source

/-- A place in source text: the line, and one more than the number of bytes before it in the line. -/
structure Place where
  line : Nat
  column : Nat
  deriving DecidableEq, Repr, Inhabited

namespace Place

def start : Place := ⟨1, 1⟩

def after (p : Place) (c : Char) : Place :=
  if c = '\n' then ⟨p.line + 1, 1⟩ else ⟨p.line, p.column + c.utf8Size⟩

/-- The place after a run of characters that starts at `p`. -/
def afterAll (p : Place) (s : List Char) : Place :=
  s.foldl after p

end Place

/-- A stretch of source text: where it starts, and the line it ends in. -/
structure Span where
  start : Place
  lastLine : Nat
  deriving DecidableEq, Repr, Inhabited

/-- A tree of source text. -/
inductive Node
  | name (id : String)
  | attribute (target : Node) (member : String)
  | call (callee : Node) (args keywords : List Node)
  | subscript (target index : Node)
  | text (value : Text) (span : Span)
  | sequence (items : List Node)
  | starred (item : Node)
  | other (parts : List Node)
  deriving Inhabited

namespace Node

/-- Joins layers of two neighbouring trees, those of the first one before those of the second. -/
def joinLayers : List (List Node) → List (List Node) → List (List Node)
  | [], later => later
  | first, [] => first
  | a :: as, b :: bs => (a ++ b) :: joinLayers as bs

mutual

/-- The nodes of a tree by their distance from the root. -/
def layers : Node → List (List Node)
  | .name id => [[.name id]]
  | .text value span => [[.text value span]]
  | .attribute target member => [.attribute target member] :: layers target
  | .call callee args keywords =>
    [.call callee args keywords] ::
      joinLayers (layers callee) (joinLayers (layersAll args) (layersAll keywords))
  | .subscript target index =>
    [.subscript target index] :: joinLayers (layers target) (layers index)
  | .sequence items => [.sequence items] :: layersAll items
  | .starred item => [.starred item] :: layers item
  | .other parts => [.other parts] :: layersAll parts

/-- The nodes of several trees by their distance from the roots. -/
def layersAll : List Node → List (List Node)
  | [] => []
  | n :: rest => joinLayers (layers n) (layersAll rest)

end

mutual

def depth : Node → Nat
  | .name _ | .text .. => 1
  | .attribute target _ => target.depth + 1
  | .call callee args keywords =>
    max callee.depth (max (depthOfAll args) (depthOfAll keywords)) + 1
  | .subscript target index => max target.depth index.depth + 1
  | .sequence items => depthOfAll items + 1
  | .starred item => item.depth + 1
  | .other parts => depthOfAll parts + 1

/-- How many nodes of several trees lie one inside the other. -/
def depthOfAll : List Node → Nat
  | [] => 0
  | n :: rest => max n.depth (depthOfAll rest)

end

def maxDepth : Nat := 2970

/-- All nodes of a tree, those nearer to the root first. -/
def walk (n : Node) : List Node :=
  n.layers.flatten

end Node
end LocaleKeys.Source
