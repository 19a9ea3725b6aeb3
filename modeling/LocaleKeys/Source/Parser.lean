import LocaleKeys.Source.Grammar.Statement
import LocaleKeys.Source.Usages
import LocaleKeys.Text.Lines
import LocaleKeys.Text.Utf8

/-!
Reading source text as a tree. Text that does not follow the grammar has no tree, and then no usages.
-/

namespace LocaleKeys.Source

/-- The rules whose nesting goes at most `depth` levels deep. -/
def rules (names : CharNames) : (depth : Nat) → Rules
  | 0 => ⟨names, failure, failure, failure, failure, failure⟩
  | depth + 1 => {
      names
      expression := fun room tokens => Grammar.expression (rules names depth) room tokens
      disjunction := fun room tokens => Grammar.disjunction (rules names depth) room tokens
      bitwise := fun room tokens => Grammar.bitwise (rules names depth) room tokens
      pattern := fun room tokens => Grammar.pattern (rules names depth) room tokens
      block := fun room tokens => Grammar.block (rules names depth) room tokens }

/-- Why source text cannot be looked at: a character that may not be in it, or nesting that there is
no room for, either while it is read or in its tree. -/
inductive Fault
  | noBytes (f : Text.Utf8.Unwritable)
  | nullCharacter
  | noRoom
  | tooDeep
  deriving DecidableEq, Repr

def Fault.message : Fault → Text
  | .noBytes f => f.message
  | .nullCharacter => "source code string cannot contain null bytes"
  | .noRoom => "source code is nested too deep to be read"
  | .tooDeep => "source code is nested too deep"

/-- The tree of tokens, or nothing if they do not follow the grammar. -/
def treeOf (names : CharNames) (depth : Nat) (tokens : List Token) : Except Fault (Option Node) :=
  match Parser.readAll (Parser.many (Grammar.statement (rules names depth))) List.isEmpty tokens with
  | .error .noRoom => .error .noRoom
  | .ok (some all) =>
    let tree : Node := .other all.flatten
    if Node.maxDepth < tree.depth then .error .tooDeep else .ok (some tree)
  | .error .malformed | .ok none => .ok none

/-- The tree of source text, or nothing if it does not follow the grammar. Each level of nesting
takes a character. -/
def parse (names : CharNames) (text : List Char) : Except Fault (Option Node) :=
  treeOf names (2 * text.length + 4) (tokens text)

def scan (names : CharNames) (settings : Settings) (path : Text) (text : List Point) :
    Except Fault (List Usage) :=
  match Text.Utf8.unwritable? text with
  | some f => .error (.noBytes f)
  | none =>
    if text.contains '\x00' then .error .nullCharacter
    else
      (parse names ((Text.unifyLineEnds text).filterMap Point.char?)).map fun tree =>
        match tree with
        | some tree => usages (Patterns.ofSettings settings) path tree
        | none => []

end LocaleKeys.Source
