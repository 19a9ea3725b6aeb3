/-!
Tables of characters with the texts that they stand for, written as runs of code points.
-/

namespace LocaleKeys.Text

/-- A run of code points from `first` on. Each has its form among the words of `lines`; a full stop
stands for a code point without one. -/
structure FormRun where
  first : Nat
  lines : List String

def FormRun.words (run : FormRun) : List (List Char) :=
  run.lines.flatMap fun line => line.toList.splitOn ' '

/-- Numbers words from a code point on, and leaves full stops out. -/
def numbered (code : Nat) : List (List Char) → List (Char × List Char)
  | [] => []
  | word :: rest =>
    if word = ['.'] then numbered (code + 1) rest
    else (Char.ofNat code, word) :: numbered (code + 1) rest

def FormRun.forms (run : FormRun) : List (Char × List Char) :=
  numbered run.first run.words

def formIn? (runs : List FormRun) (c : Char) : Option (List Char) :=
  ((runs.reverse.find? fun run => run.first ≤ c.toNat).bind fun run =>
    run.words[c.toNat - run.first]?).filter (· ≠ ['.'])

end LocaleKeys.Text
