import LocaleKeys.Key.Scan
import LocaleKeys.Proofs.Key.Frame
import LocaleKeys.Proofs.Number.Digits
import Mathlib.Data.List.Induction

/-!
Where a scan locates a key: at the key itself, or else where it locates the path one step up. A step
up from an element of an array leads to the array, so the elements of nested arrays are located at
the innermost path with a place among their arrays and what holds these.
-/

namespace LocaleKeys.Key

open Text (Position)

/-! Elements of nested arrays -/

/-- The path of an element of nested arrays, the outermost of which stands at `base`. -/
def element (base : Text) (is : List Nat) : Text :=
  is.foldl index base

@[simp]
theorem element_nil (base : Text) : element base [] = base := rfl

@[simp]
theorem element_cons (base : Text) (i : Nat) (is : List Nat) :
    element base (i :: is) = element (index base i) is := rfl

theorem element_concat (base : Text) (is : List Nat) (i : Nat) :
    element base (is ++ [i]) = index (element base is) i :=
  List.foldl_concat index base i is

theorem index_append (front back : Text) (i : Nat) :
    index (front ++ back) i = front ++ index back i := by
  simp only [index, Text.append_assoc]

theorem element_append (front back : Text) (is : List Nat) :
    element (front ++ back) is = front ++ element back is := by
  induction is generalizing back with
  | nil => rfl
  | cons i is ih => rw [element_cons, index_append, ih, element_cons]

theorem element_eq (base : Text) (is : List Nat) : element base is = base ++ element "" is := by
  rw [← element_append, Text.append_empty]

theorem toList_index (base : Text) (i : Nat) :
    (index base i).toList = base.toList ++ Point.char '[' :: (Text.digits i ++ [Point.char ']']) := by
  simp [index, Text.toList_append]

/-! One step up -/

theorem bracket_not_mem_toDigits (i : Nat) : Point.char '[' ∉ Text.digits i := by
  intro h
  exact absurd (Number.isDigit_of_mem_toDigits h) (by decide)

theorem beforeLast_append {c : Point} {front : List Point} (hfront : c ∉ front) (back : List Point) :
    beforeLast c (front ++ c :: back) = back.reverse := by
  have hkept : ∀ d ∈ front, decide (d ≠ c) = true := by
    intro d hd
    exact decide_eq_true fun heq => hfront (heq ▸ hd)
  rw [beforeLast, List.dropWhile_append_of_pos hkept, List.dropWhile_cons_of_neg (by simp),
    List.drop_one, List.tail_cons]

/-- One step up from an element stands its array. -/
theorem parent_index (base : Text) (i : Nat) : parent (index base i).toList = base.toList := by
  have hreverse : (index base i).toList.reverse =
      Point.char ']' :: ((Text.digits i).reverse ++ Point.char '[' :: base.toList.reverse) := by
    simp [toList_index]
  have hdigits : Point.char '[' ∉ (Text.digits i).reverse := by
    simpa using bracket_not_mem_toDigits i
  rw [parent, hreverse]
  simp only [List.contains_append, List.contains_cons, beq_self_eq_true, Bool.true_or, Bool.or_true,
    if_true]
  rw [beforeLast_append hdigits, List.reverse_reverse]

theorem length_beforeLast_le (c : Point) (reversed : List Point) :
    (beforeLast c reversed).length ≤ reversed.length - 1 := by
  have h := (List.dropWhile_suffix (· ≠ c) (l := reversed)).length_le
  rw [beforeLast, List.length_reverse, List.length_drop]
  exact Nat.sub_le_sub_right h 1

theorem length_parent_lt {key : List Point} (hkey : key ≠ []) : (parent key).length < key.length := by
  have hpos : 0 < key.length := List.length_pos_iff.mpr hkey
  have hlength : key.reverse.length = key.length := List.length_reverse
  rw [parent]
  split
  · next reversed hreverse =>
      rw [hreverse, List.length_cons] at hlength
      split
      · have := length_beforeLast_le '[' reversed
        omega
      · rw [List.length_reverse]
        omega
  · have := length_beforeLast_le '.' key.reverse
    omega

/-! Steps up to a place -/

namespace Scan

variable (scan : Scan)

/-- More steps than characters change nothing. -/
theorem locateFrom_eq {steps more : Nat} {key : List Point} (hsteps : key.length < steps)
    (hmore : key.length < more) : scan.locateFrom steps key = scan.locateFrom more key := by
  induction steps generalizing more key with
  | zero => omega
  | succ steps ih =>
      obtain ⟨more, rfl⟩ := Nat.exists_eq_succ_of_ne_zero (Nat.ne_zero_of_lt hmore)
      rw [locateFrom, locateFrom]
      by_cases hkey : key = []
      · rw [if_pos hkey, if_pos hkey]
      · have hshorter := length_parent_lt hkey
        have habove : scan.locateFrom steps (parent key) = scan.locateFrom more (parent key) :=
          ih (by omega) (by omega)
        rw [if_neg hkey, if_neg hkey, habove]

@[simp]
theorem locate_empty : scan.locate "" = none := rfl

/-- A key that has a place is located there, and any other one where its path one step up is. -/
theorem locate_eq {key : Text} (hkey : key ≠ "") :
    scan.locate key = (Assoc.get? key scan.positions).or
      (scan.locate (Text.ofList (parent key.toList))) := by
  have hchars : key.toList ≠ [] := by simpa using hkey
  have hsteps : scan.locateFrom key.toList.length (parent key.toList) =
      scan.locate (Text.ofList (parent key.toList)) := by
    rw [locate, Text.toList_ofList]
    exact scan.locateFrom_eq (length_parent_lt hchars) (Nat.lt_succ_self _)
  rw [locate, locateFrom, if_neg hchars, Text.ofList_toList, hsteps]
  cases Assoc.get? key scan.positions <;> rfl

theorem locate_of_get? {key : Text} {place : Position} (hkey : key ≠ "")
    (h : Assoc.get? key scan.positions = some place) : scan.locate key = some place := by
  rw [locate_eq scan hkey, h, Option.some_or]

theorem locate_index (base : Text) (i : Nat) :
    scan.locate (index base i) =
      (Assoc.get? (index base i) scan.positions).or (scan.locate base) := by
  rw [locate_eq scan (index_ne_empty base i), parent_index, Text.ofList_toList]

/-- An element of nested arrays is located where one of the paths on the way to it has its place;
only elements of arrays that stand at no path may have none. -/
theorem locate_element {base : Text} (hbase : base = "" ∨ Assoc.has base scan.positions = true)
    (is : List Nat) :
    ∃ path js, element base is = element path js ∧
      (path = "" ∧ scan.locate (element base is) = none ∨
        ∃ place, Assoc.get? path scan.positions = some place ∧
          scan.locate (element base is) = some place) := by
  induction is using List.reverseRecOn with
  | nil =>
      refine ⟨base, [], rfl, ?_⟩
      by_cases hempty : base = ""
      · exact Or.inl ⟨hempty, by rw [hempty, element_nil, locate_empty]⟩
      · obtain ⟨place, hplace⟩ := Option.isSome_iff_exists.mp (hbase.resolve_left hempty)
        exact Or.inr ⟨place, hplace, scan.locate_of_get? hempty hplace⟩
  | append_singleton is i ih =>
      rw [element_concat, locate_index]
      cases hplace : Assoc.get? (index (element base is) i) scan.positions with
      | some place => exact ⟨_, [], rfl, Or.inr ⟨place, hplace, rfl⟩⟩
      | none =>
          obtain ⟨path, js, heq, hlocated⟩ := ih
          refine ⟨path, js ++ [i], by rw [element_concat, heq], ?_⟩
          rw [Option.none_or]
          exact hlocated

/-- Where no element of an array has a place of its own, elements of nested arrays are located where
the outermost array is. -/
theorem locate_element_of_none {base : Text} {is : List Nat}
    (h : ∀ path i, Assoc.get? (index path i) scan.positions = none) :
    scan.locate (element base is) = scan.locate base := by
  induction is using List.reverseRecOn with
  | nil => rfl
  | append_singleton is i ih => rw [element_concat, locate_index, h, Option.none_or, ih]

end Scan
end LocaleKeys.Key
