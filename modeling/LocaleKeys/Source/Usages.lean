import LocaleKeys.Location
import LocaleKeys.Settings.Basic
import LocaleKeys.Source.Node
import LocaleKeys.Text.Lower
import LocaleKeys.Text.Normal

/-!
Usages in a tree of source text: calls of configured methods whose first argument is a literal text,
and subscripts of things named like a configured type whose index is one.
-/

namespace LocaleKeys.Source

/-- A name in the form in which it is compared: without underscores, in lower case. -/
def comparable (name : Text) : List Point :=
  Text.lower (name.toList.filter (· ≠ Point.char '_'))

def normalName (name : String) : Text :=
  String.ofList (Text.normal name.toList)

/-- The names of a dotted expression in their normal forms, outermost last; what is no name at its
start is left out. -/
def dotted : Node → List Text
  | .name id => [normalName id]
  | .attribute target member => dotted target ++ [normalName member]
  | _ => []

/-- Whether a character continues a word inside a type name. -/
def isWordPart (c : Point) : Bool :=
  c.isLower || c.isDigit

/-- The last word of a type name, where capitals start words; `word` is what has been read of the
present one and `last` the one before, both latest first. -/
def lastWordFrom (word last : List Point) : List Point → List Point
  | [] => if word = [] then last else word
  | c :: rest =>
    if isWordPart c then lastWordFrom (c :: word) last rest
    else
      let last := if word = [] then last else word
      if c.isUpper then lastWordFrom [c] last rest else lastWordFrom [] last rest

/-- The last word of a type name in lower case, empty if there is none. -/
def lastWord (name : Text) : List Point :=
  (lastWordFrom [] [] name.toList).reverse.map Point.toLower

/-- What names of things of a type end in: the type name or its last word. -/
def typeEndings (type : Text) : List (List Point) :=
  [comparable type, lastWord type].filter (· ≠ [])

/-- What usages look like: the names of methods part by part, and the endings of indexed things. -/
structure Patterns where
  methods : List (List (List Point))
  endings : List (List Point)
  deriving DecidableEq, Repr

def Patterns.ofSettings (settings : Settings) : Patterns where
  methods := (settings.accessorNames .method).map fun name =>
    ((name.toList.splitOn (.char '.')).filter (· ≠ [])).map fun part => comparable (Text.ofList part)
  endings := (settings.accessorNames .indexer).flatMap typeEndings

namespace Patterns

/-- Whether a callee is a configured method: its last names are those of the method. -/
def isMethod (patterns : Patterns) (callee : Node) : Bool :=
  let names := (dotted callee).map comparable
  patterns.methods.any fun wanted => !wanted.isEmpty && wanted.isSuffixOf names

def isIndexed (patterns : Patterns) (target : Node) : Bool :=
  match (dotted target).getLast? with
  | some name => patterns.endings.any fun ending => ending.isSuffixOf (comparable name)
  | none => false

/-- The node that holds the key, if a node is a usage of some kind. -/
def keyNode? (patterns : Patterns) : Node → Option Node
  | .call callee (arg :: _) _ => if patterns.isMethod callee then some arg else none
  | .subscript target index => if patterns.isIndexed target then some index else none
  | _ => none

def usage? (patterns : Patterns) (path : Text) (n : Node) : Option Usage :=
  match patterns.keyNode? n with
  | some (.text key span) =>
    some ⟨key, path, span.start.line, span.lastLine, span.start.column⟩
  | _ => none

end Patterns

/-- Whether a usage stands before another one, or at the same place. -/
def notAfter (a b : Usage) : Bool :=
  a.location.lineStart < b.location.lineStart ||
    (a.location.lineStart = b.location.lineStart && a.location.column ≤ b.location.column)

def usages (patterns : Patterns) (path : Text) (tree : Node) : List Usage :=
  (tree.walk.filterMap (patterns.usage? path)).mergeSort notAfter

end LocaleKeys.Source
