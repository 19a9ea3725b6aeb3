import LocaleKeys.Text.Point

/-!
Edit distance, computed row by row, and the length of a shared beginning.
-/

namespace LocaleKeys.Suggest

/-- The entries of a row behind `left`, for the letter `c`; `diagonal` and the list hold the row
before. -/
def rowTail (c : Point) : (left diagonal : Nat) → List Point → List Nat → List Nat
  | left, diagonal, d :: ds, up :: ups =>
    let entry := min (min (up + 1) (left + 1)) (diagonal + if c = d then 0 else 1)
    entry :: rowTail c entry up ds ups
  | _, _, _, _ => []

/-- The row of the `i`-th letter, from the row before. -/
def nextRow (b : List Point) (i : Nat) (c : Point) (previous : List Nat) : List Nat :=
  match previous with
  | diagonal :: ups => i :: rowTail c i diagonal b ups
  | [] => []

/-- The last row, from the row of the first `i` letters. -/
def lastRow (b : List Point) (i : Nat) (row : List Nat) : List Point → List Nat
  | [] => row
  | c :: rest => lastRow b (i + 1) (nextRow b (i + 1) c row) rest

/-- The edit distance, with rows as long as the second text. -/
def distanceRows (a b : List Point) : Nat :=
  ((lastRow b 0 (List.range (b.length + 1)) a).getLast?).getD 0

/-- The least number of insertions, deletions and substitutions that turn one text into the other.
The rows run along the shorter text. -/
def distance (a b : List Point) : Nat :=
  if a.length < b.length then distanceRows b a else distanceRows a b

def commonLength : List Point → List Point → Nat
  | a :: as, b :: bs => if a = b then commonLength as bs + 1 else 0
  | _, _ => 0

end LocaleKeys.Suggest
