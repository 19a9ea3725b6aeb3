import LocaleKeys.Suggest.Distance
import Mathlib.Order.Bounds.Defs

/-!
The rows give the edit distance: the least number of edits of one character that turn a text into
another one. The distance is first defined by its recursion, which is shown to be least among the
edits; the rows are then compared with the recursion, read from the end of the texts.
-/

namespace LocaleKeys.Suggest

/-- An edit of one character. -/
inductive Edit : List Point → List Point → Prop
  | insert (front : List Point) (c : Point) (back : List Point) :
      Edit (front ++ back) (front ++ c :: back)
  | delete (front : List Point) (c : Point) (back : List Point) :
      Edit (front ++ c :: back) (front ++ back)
  | substitute (front : List Point) (c d : Point) (back : List Point) :
      Edit (front ++ c :: back) (front ++ d :: back)

/-- So many edits turn one text into another one. -/
inductive Edits : Nat → List Point → List Point → Prop
  | nil (a : List Point) : Edits 0 a a
  | cons {n : Nat} {a b c : List Point} (first : Edit a b) (rest : Edits n b c) : Edits (n + 1) a c

/-- The edit distance by recursion on both texts. -/
def editDistance : List Point → List Point → Nat
  | [], b => b.length
  | a, [] => a.length
  | c :: a, d :: b =>
    min (min (editDistance a (d :: b) + 1) (editDistance (c :: a) b + 1))
      (editDistance a b + if c = d then 0 else 1)
termination_by a b => a.length + b.length

variable {a b c : List Point} {m n : Nat}

/-! Edits -/

namespace Edit

theorem symm (h : Edit a b) : Edit b a := by
  cases h with
  | insert front x back => exact .delete front x back
  | delete front x back => exact .insert front x back
  | substitute front x y back => exact .substitute front y x back

theorem lift (x : Point) (h : Edit a b) : Edit (x :: a) (x :: b) := by
  cases h with
  | insert front y back => exact .insert (x :: front) y back
  | delete front y back => exact .delete (x :: front) y back
  | substitute front y z back => exact .substitute (x :: front) y z back

theorem reverse (h : Edit a b) : Edit a.reverse b.reverse := by
  cases h with
  | insert front x back => simpa using Edit.insert back.reverse x front.reverse
  | delete front x back => simpa using Edit.delete back.reverse x front.reverse
  | substitute front x y back => simpa using Edit.substitute back.reverse x y front.reverse

theorem length_le (h : Edit a b) : b.length ≤ a.length + 1 := by
  cases h <;> simp <;> omega

end Edit

namespace Edits

theorem trans (h : Edits m a b) (h' : Edits n b c) : Edits (m + n) a c := by
  induction h with
  | nil a => rwa [Nat.zero_add]
  | @cons m a middle b first rest ih =>
      rw [Nat.add_right_comm]
      exact .cons first (ih h')

theorem single (h : Edit a b) : Edits 1 a b :=
  .cons h (.nil b)

theorem symm (h : Edits n a b) : Edits n b a := by
  induction h with
  | nil a => exact .nil a
  | cons first rest ih => exact ih.trans (single first.symm)

theorem lift (x : Point) (h : Edits n a b) : Edits n (x :: a) (x :: b) := by
  induction h with
  | nil a => exact .nil (x :: a)
  | cons first rest ih => exact .cons (first.lift x) ih

theorem reverse (h : Edits n a b) : Edits n a.reverse b.reverse := by
  induction h with
  | nil a => exact .nil a.reverse
  | cons first rest ih => exact .cons first.reverse ih

theorem length_le (h : Edits n a b) : b.length ≤ a.length + n := by
  induction h with
  | nil a => exact Nat.le_refl _
  | cons first rest ih =>
      have hfirst := first.length_le
      omega

theorem insertAll (b : List Point) : Edits b.length [] b := by
  induction b with
  | nil => exact .nil []
  | cons d b ih => exact .cons (.insert [] d []) (ih.lift d)

theorem deleteAll (a : List Point) : Edits a.length a [] :=
  (insertAll a).symm

theorem least (h : Edits m a b) (h' : Edits n a b) : Edits (min m n) a b := by
  by_cases hle : m ≤ n
  · rwa [Nat.min_eq_left hle]
  · rwa [Nat.min_eq_right (Nat.le_of_not_le hle)]

theorem zero_iff : Edits 0 a b ↔ a = b := by
  constructor
  · intro h
    cases h
    rfl
  · rintro rfl
    exact .nil a

end Edits

/-! The recursion -/

@[simp]
theorem editDistance_nil_left (b : List Point) : editDistance [] b = b.length := by
  rw [editDistance]

@[simp]
theorem editDistance_nil_right (a : List Point) : editDistance a [] = a.length := by
  cases a <;> simp [editDistance]

theorem editDistance_cons (x y : Point) (a b : List Point) :
    editDistance (x :: a) (y :: b) =
      min (min (editDistance a (y :: b) + 1) (editDistance (x :: a) b + 1))
        (editDistance a b + if x = y then 0 else 1) := by
  rw [editDistance]

theorem edits_editDistance (a b : List Point) : Edits (editDistance a b) a b := by
  induction a, b using editDistance.induct with
  | case1 b => simpa using Edits.insertAll b
  | case2 a => simpa using Edits.deleteAll a
  | case3 x a y b ihDelete ihInsert ihBoth =>
      have hdelete : Edits (editDistance a (y :: b) + 1) (x :: a) (y :: b) :=
        .cons (.delete [] x a) ihDelete
      have hinsert : Edits (editDistance (x :: a) b + 1) (x :: a) (y :: b) :=
        .cons (.insert [] y (x :: a)) (ihInsert.lift y)
      have hboth : Edits (editDistance a b + if x = y then 0 else 1) (x :: a) (y :: b) := by
        split
        · next heq => exact heq ▸ ihBoth.lift x
        · exact .cons (.substitute [] x y a) (ihBoth.lift y)
      rw [editDistance_cons]
      exact (hdelete.least hinsert).least hboth

theorem editDistance_self (a : List Point) : editDistance a a = 0 := by
  induction a with
  | nil => simp
  | cons x a ih => simp [editDistance_cons, ih]

theorem editDistance_cons_left_le (x : Point) (a b : List Point) :
    editDistance (x :: a) b ≤ editDistance a b + 1 := by
  cases b with
  | nil => simp
  | cons y b =>
      rw [editDistance_cons]
      omega

theorem editDistance_cons_right_le (a : List Point) (y : Point) (b : List Point) :
    editDistance a (y :: b) ≤ editDistance a b + 1 := by
  cases a with
  | nil => simp
  | cons x a =>
      rw [editDistance_cons]
      omega

theorem editDistance_le_cons (x : Point) (a b : List Point) :
    editDistance a b ≤ editDistance (x :: a) b + 1 := by
  induction b with
  | nil =>
      simp
      omega
  | cons y b ih =>
      have hright := editDistance_cons_right_le a y b
      rw [editDistance_cons]
      omega

theorem editDistance_substitute_le (x y : Point) (a b : List Point) :
    editDistance (x :: a) b ≤ editDistance (y :: a) b + 1 := by
  induction b with
  | nil => simp
  | cons z b ih =>
      rw [editDistance_cons, editDistance_cons]
      split <;> split <;> omega

/-- What an edit can spare stays the same behind one more character. -/
theorem editDistance_lift_le (x : Point) (h : ∀ z, editDistance a z ≤ editDistance b z + 1)
    (z : List Point) : editDistance (x :: a) z ≤ editDistance (x :: b) z + 1 := by
  induction z with
  | nil =>
      have hnil := h []
      simp at hnil ⊢
      omega
  | cons y z ih =>
      have hleft := h (y :: z)
      have hboth := h z
      rw [editDistance_cons, editDistance_cons]
      omega

theorem editDistance_le_of_edit (h : Edit a b) (z : List Point) :
    editDistance a z ≤ editDistance b z + 1 := by
  -- Induction on what stands before the edit. A step compares with ends of `z` too, so `z` is general.
  cases h with
  | insert front x back =>
      induction front generalizing z with
      | nil => exact editDistance_le_cons x back z
      | cons y front ih => exact editDistance_lift_le y ih z
  | delete front x back =>
      induction front generalizing z with
      | nil => exact editDistance_cons_left_le x back z
      | cons y front ih => exact editDistance_lift_le y ih z
  | substitute front x x' back =>
      induction front generalizing z with
      | nil => exact editDistance_substitute_le x x' back z
      | cons y front ih => exact editDistance_lift_le y ih z

theorem editDistance_le_of_edits (h : Edits n a b) : editDistance a b ≤ n := by
  induction h with
  | nil a => exact Nat.le_of_eq (editDistance_self a)
  | @cons n a middle b first rest ih =>
      have hfirst := editDistance_le_of_edit first b
      omega

theorem editDistance_comm (a b : List Point) : editDistance a b = editDistance b a :=
  Nat.le_antisymm (editDistance_le_of_edits (edits_editDistance b a).symm)
    (editDistance_le_of_edits (edits_editDistance a b).symm)

theorem editDistance_reverse (a b : List Point) :
    editDistance a.reverse b.reverse = editDistance a b := by
  apply Nat.le_antisymm
  · exact editDistance_le_of_edits (edits_editDistance a b).reverse
  · simpa using editDistance_le_of_edits (edits_editDistance a.reverse b.reverse).reverse

theorem editDistance_triangle (a b c : List Point) :
    editDistance a c ≤ editDistance a b + editDistance b c :=
  editDistance_le_of_edits ((edits_editDistance a b).trans (edits_editDistance b c))

theorem editDistance_eq_zero_iff : editDistance a b = 0 ↔ a = b := by
  constructor
  · intro h
    have hedits := edits_editDistance a b
    rw [h] at hedits
    exact Edits.zero_iff.mp hedits
  · rintro rfl
    exact editDistance_self a

theorem editDistance_le_max (a b : List Point) : editDistance a b ≤ max a.length b.length := by
  induction a, b using editDistance.induct with
  | case1 b => simp
  | case2 a => simp
  | case3 x a y b _ _ ihBoth =>
      rw [editDistance_cons, List.length_cons, List.length_cons]
      split <;> omega

/-! The rows -/

/-- The entries of a row behind the beginning `seen` of the second text. Beginnings are kept last
character first, so that a row is worked out by the recursion as it stands. -/
def entriesBehind (a seen : List Point) : List Point → List Nat
  | [] => []
  | y :: rest => editDistance a (y :: seen) :: entriesBehind a (y :: seen) rest

/-- The row of the beginning `a` of the first text. -/
def rowOf (a b : List Point) : List Nat :=
  a.length :: entriesBehind a [] b

theorem rowTail_eq (x : Point) (a seen b : List Point) :
    rowTail x (editDistance (x :: a) seen) (editDistance a seen) b (entriesBehind a seen b) =
      entriesBehind (x :: a) seen b := by
  induction b generalizing seen with
  | nil => rfl
  | cons y b ih =>
      rw [entriesBehind, entriesBehind, rowTail, ← editDistance_cons, ih]

theorem nextRow_eq (x : Point) (a b : List Point) :
    nextRow b (a.length + 1) x (rowOf a b) = rowOf (x :: a) b := by
  have htail := rowTail_eq x a [] b
  rw [editDistance_nil_right, editDistance_nil_right] at htail
  rw [rowOf, nextRow, rowOf, ← htail]
  rfl

theorem lastRow_eq (rest a b : List Point) :
    lastRow b a.length (rowOf a b) rest = rowOf (rest.reverse ++ a) b := by
  -- The invariant of the loop: the row is that of the letters read so far, the last one first.
  induction rest generalizing a with
  | nil => rfl
  | cons x rest ih =>
      rw [lastRow, nextRow_eq]
      have hrest := ih (x :: a)
      simpa using hrest

theorem entriesBehind_nil (seen b : List Point) :
    entriesBehind [] seen b = List.range' (seen.length + 1) b.length := by
  induction b generalizing seen with
  | nil => rfl
  | cons y b ih =>
      rw [entriesBehind, ih, editDistance_nil_left, List.length_cons, List.length_cons,
        List.range'_succ]

theorem rowOf_nil (b : List Point) : rowOf [] b = List.range (b.length + 1) := by
  rw [rowOf, entriesBehind_nil, List.range_eq_range', List.range'_succ]
  rfl

theorem getLast?_entriesBehind (a seen b : List Point) :
    (editDistance a seen :: entriesBehind a seen b).getLast? =
      some (editDistance a (b.reverse ++ seen)) := by
  induction b generalizing seen with
  | nil => rfl
  | cons y b ih =>
      rw [entriesBehind, List.getLast?_cons_cons, ih]
      simp

theorem distanceRows_eq (a b : List Point) : distanceRows a b = editDistance a b := by
  have hrow : lastRow b 0 (List.range (b.length + 1)) a = rowOf a.reverse b := by
    rw [← rowOf_nil]
    simpa using lastRow_eq a [] b
  have hlast := getLast?_entriesBehind a.reverse [] b
  rw [editDistance_nil_right, List.append_nil, editDistance_reverse] at hlast
  rw [distanceRows, hrow, rowOf, hlast, Option.getD_some]

theorem distance_eq (a b : List Point) : distance a b = editDistance a b := by
  rw [distance]
  split
  · rw [distanceRows_eq, editDistance_comm]
  · rw [distanceRows_eq]

/-- The distance is the one of the recursion and the least number of edits, so it is a metric that
lies between the difference of the lengths and the greater length. -/
theorem distance_isLeast_edits (a b : List Point) :
    distance a b = editDistance a b ∧ IsLeast {n | Edits n a b} (distance a b) ∧
      distance a b = distance b a ∧ (distance a b = 0 ↔ a = b) ∧
      (∀ c, distance a c ≤ distance a b + distance b c) ∧
      max a.length b.length - min a.length b.length ≤ distance a b ∧
      distance a b ≤ max a.length b.length := by
  rw [distance_eq, distance_eq]
  have hedits := edits_editDistance a b
  have hto := hedits.length_le
  have hfrom := hedits.symm.length_le
  refine ⟨rfl, ⟨hedits, fun n hn => editDistance_le_of_edits hn⟩, editDistance_comm a b,
    editDistance_eq_zero_iff, fun c => ?_, ?_, editDistance_le_max a b⟩
  · rw [distance_eq, distance_eq]
    exact editDistance_triangle a b c
  · omega

end LocaleKeys.Suggest
