import LocaleKeys.Suggest.Distance
import LocaleKeys.Text.Lower
import LocaleKeys.Text.Search

/-!
Ranking known keys by closeness to an unknown one. The first rule that applies sets the score: equal,
contains it, is contained in it, shares a beginning, is few edits away.
-/

namespace LocaleKeys.Suggest

/-- A known key with its score. -/
structure Candidate where
  key : Text
  score : Int
  deriving DecidableEq, Repr

def defaultTop : Int := 5

/-- The number of keys that are shown when no key is close. -/
def defaultFallback : Int := 3

/-- The score of a candidate, letter case counting; zero if it is not close. Few edits of a very long
key can cost more than closeness gives. -/
def scoreExact (missing candidate : List Point) : Int :=
  if missing = candidate then 1000
  else if Text.contains missing candidate then 800
  else if Text.contains candidate missing then 700
  else
    let shared := commonLength missing candidate
    if 0 < shared then 500 + shared * 10
    else
      let edits := distance missing candidate
      if edits ≤ max missing.length candidate.length / 3 then 300 - edits * 10 else 0

def comparable (caseSensitive : Bool) (key : Text) : List Point :=
  if caseSensitive then key.toList else Text.lower key.toList

/-- The score of a candidate; zero if it is not close. -/
def score (missing candidate : Text) (caseSensitive : Bool) : Int :=
  scoreExact (comparable caseSensitive missing) (comparable caseSensitive candidate)

/-- The close keys, best first, equally close ones in the order given. -/
def ranked (missing : Text) (keys : List Text) (caseSensitive : Bool) : List Candidate :=
  let scored := keys.map fun key => Candidate.mk key (score missing key caseSensitive)
  (scored.filter fun c => 0 < c.score).mergeSort fun a b => b.score ≤ a.score

/-- The best candidates; all of them unless `top` is positive. -/
def suggest (missing : Text) (keys : List Text) (caseSensitive : Bool := true)
    (top : Int := defaultTop) : List Candidate :=
  let all := ranked missing keys caseSensitive
  if 0 < top then all.take top.toNat else all

/-- The first keys; a negative number leaves out as many at the end. -/
def fallback (keys : List Text) (n : Int := defaultFallback) : List Text :=
  if 0 ≤ n then keys.take n.toNat else keys.take (keys.length - n.natAbs)

end LocaleKeys.Suggest
