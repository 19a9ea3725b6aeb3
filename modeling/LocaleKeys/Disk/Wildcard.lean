import LocaleKeys.Text.Point

/-!
Patterns for names: a star stands for any run of characters, a question mark for one, and brackets
for one out of a set. A pattern describes a whole name, and letter case counts.
-/

namespace LocaleKeys

namespace Wildcard

/-- A set of characters between brackets: single ones and ranges, or what is not among them. -/
structure Bracket where
  negated : Bool := false
  singles : List Point := []
  ranges : List (Point × Point) := []
  deriving DecidableEq, Repr

def Bracket.holds (b : Bracket) (c : Point) : Bool :=
  (b.singles.contains c || b.ranges.any fun r => r.1 ≤ c && c ≤ r.2) != b.negated

/-- A piece of a pattern. -/
inductive Piece
  | char (c : Point)
  | anyOne
  | anyRun
  | oneOf (b : Bracket)
  deriving DecidableEq, Repr

/-- Cuts the text between brackets at the hyphens that make ranges. No hyphen counts within the
first `skip` characters, nor within the two that follow a counted one. `current` holds the chunk so
far, last character first. -/
def cutAtHyphens (current : List Point) : (skip : Nat) → List Point → List (List Point)
  | _, [] => [current.reverse]
  | 0, .char '-' :: rest => current.reverse :: cutAtHyphens [] 2 rest
  | skip, c :: rest => cutAtHyphens (c :: current) (skip - 1) rest

/-- The chunks between the hyphens that make ranges; a last hyphen is part of the last chunk. -/
def chunksOf (text : List Point) : List (List Point) :=
  let chunks := cutAtHyphens [] (if text.head? = some (Point.char '!') then 2 else 1) text
  match chunks.reverse with
  | [] :: last :: before => ((last ++ [Point.char '-']) :: before).reverse
  | _ => chunks

/-- Joins chunks around ranges that run backwards, from the right; such a range holds nothing. -/
def joinBackward : List (List Point) → List (List Point)
  | [] => []
  | chunk :: rest =>
    match chunk.getLast?, joinBackward rest with
    | some last, (first :: more) :: others =>
      if first < last then (chunk.dropLast ++ more) :: others
      else chunk :: (first :: more) :: others
    | _, others => chunk :: others

/-- The set that chunks describe: each hyphen between them makes a range of its neighbours, and stands
for itself where the chunk before it is empty. -/
def Bracket.ofChunks : List (List Point) → Bracket
  | [] => {}
  | chunk :: rest =>
    let b := Bracket.ofChunks rest
    match chunk.getLast?, rest with
    | some last, (first :: _) :: _ =>
      { b with singles := chunk ++ b.singles, ranges := (last, first) :: b.ranges }
    | none, _ :: _ => { b with singles := '-' :: b.singles }
    | _, _ => { b with singles := chunk ++ b.singles }

/-- The set that the text between brackets describes. An exclamation mark in front negates. -/
def Bracket.ofText (text : List Point) : Bracket :=
  match joinBackward (chunksOf text) with
  | (.char '!' :: chunk) :: rest => { Bracket.ofChunks (chunk :: rest) with negated := true }
  | chunks => Bracket.ofChunks chunks

/-- The number of characters up to the closing bracket. A closing bracket at the start, behind an
exclamation mark or not, does not close. -/
def bracketLength? (s : List Point) : Option Nat :=
  let lead := match s with
    | .char '!' :: .char ']' :: _ => 2
    | .char '!' :: _ => 1
    | .char ']' :: _ => 1
    | _ => 0
  ((s.drop lead).findIdx? (· = Point.char ']')).map (lead + ·)

/-- Reads a pattern; `skip` characters still belong to the piece before. A bracket that is never
closed stands for itself. -/
def piecesFrom (skip : Nat) : List Point → List Piece
  | [] => []
  | c :: rest =>
    match skip with
    | k + 1 => piecesFrom k rest
    | 0 =>
      match c with
      | .char '*' => .anyRun :: piecesFrom 0 rest
      | .char '?' => .anyOne :: piecesFrom 0 rest
      | .char '[' =>
        match bracketLength? rest with
        | some n => .oneOf (Bracket.ofText (rest.take n)) :: piecesFrom (n + 1) rest
        | none => .char '[' :: piecesFrom 0 rest
      | c => .char c :: piecesFrom 0 rest

/-- Whether a piece other than a run takes a character. -/
def Piece.takes : Piece → Point → Bool
  | .char a, c => a = c
  | .anyOne, _ => true
  | .oneOf b, c => b.holds c
  | .anyRun, _ => false

/-- Whether some end of a text, the whole of it included, passes a test. -/
def someEnd (test : List Point → Bool) : List Point → Bool
  | [] => test []
  | c :: rest => test (c :: rest) || someEnd test rest

def describes : List Piece → List Point → Bool
  | [], s => s.isEmpty
  | .anyRun :: pieces, s => someEnd (describes pieces) s
  | _ :: _, [] => false
  | piece :: pieces, c :: rest => piece.takes c && describes pieces rest

def fits (pattern name : Text) : Bool :=
  describes (piecesFrom 0 pattern.toList) name.toList

def isPattern (name : Text) : Bool :=
  name.toList.any fun c => c = '*' || c = '?' || c = '['

end Wildcard
end LocaleKeys
