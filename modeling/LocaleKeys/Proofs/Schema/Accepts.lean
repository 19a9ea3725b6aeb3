import LocaleKeys.Schema.Check
import Mathlib.Data.List.Basic

/-!
What schemas accept. Each keyword has its condition on a value, and a pattern is fitted piece by
piece; how violations are ranked does not matter here.
-/

namespace LocaleKeys.Schema

/-- A value violates nothing in a schema. -/
def Accepts (schema : Schema) (v : Json) : Prop :=
  violations none schema v = []

theorem check_eq_ok_iff (schema : Schema) (v : Json) :
    check schema v = .ok () ↔ Accepts schema v := by
  rw [check, Accepts]
  cases violations none schema v <;> simp

/-! Keywords that look inside of a value -/

theorem ownViolations_eq_nil_iff (declared : Option ValueType) (schema : Schema) (v : Json) :
    ownViolations declared schema v = [] ↔ ownReasons schema v = [] :=
  List.map_eq_nil_iff

/-- The type that the keywords around ask for is kept in the violations and makes none. -/
theorem violations_eq_nil_iff (declared : Option ValueType) (schema : Schema) (v : Json) :
    violations declared schema v = [] ↔ Accepts schema v := by
  cases schema with
  | properties | others | names | items | all => exact Iff.rfl
  | _ =>
      exact (ownViolations_eq_nil_iff declared _ v).trans (ownViolations_eq_nil_iff none _ v).symm

theorem accepts_all (keywords : List Schema) (v : Json) :
    Accepts (.all keywords) v ↔ ∀ keyword ∈ keywords, Accepts keyword v := by
  have hall : ∀ declared, allViolations declared keywords v = [] ↔
      ∀ keyword ∈ keywords, Accepts keyword v := by
    intro declared
    induction keywords with
    | nil => simp [allViolations]
    | cons keyword rest ih =>
        rw [allViolations, List.append_eq_nil_iff, violations_eq_nil_iff, ih,
          List.forall_mem_cons]
  exact hall (declaredType? keywords)

theorem accepts_properties (schemas : List (Text × Schema)) (v : Json) :
    Accepts (.properties schemas) v ↔ ∀ named ∈ schemas, ∀ member,
      Assoc.get? named.1 (membersOf v) = some member → Accepts named.2 member := by
  change propertyViolations schemas v = [] ↔ _
  induction schemas with
  | nil => simp [propertyViolations]
  | cons named rest ih =>
      rw [propertyViolations, List.append_eq_nil_iff, ih, List.forall_mem_cons]
      cases Assoc.get? named.1 (membersOf v) with
      | none => simp
      | some member => simp [Accepts]

theorem accepts_others (known : List Text) (schema : Schema) (v : Json) :
    Accepts (.others known schema) v ↔
      ∀ member ∈ membersOf v, member.1 ∉ known → Accepts schema member.2 := by
  change inMembers (violations none schema)
    ((membersOf v).filter fun member => !known.contains member.1) = [] ↔ _
  simp [inMembers, Accepts]

theorem accepts_names (schema : Schema) (v : Json) :
    Accepts (.names schema) v ↔ ∀ member ∈ membersOf v, Accepts schema (.str member.1) :=
  List.flatMap_eq_nil_iff

theorem accepts_items (schema : Schema) (elements : List Json) :
    Accepts (.items schema) (.arr elements) ↔ ∀ v ∈ elements, Accepts schema v := by
  have hitems : ∀ i, inElements (violations none schema) i elements = [] ↔
      ∀ v ∈ elements, Accepts schema v := by
    intro i
    induction elements generalizing i with
    | nil => simp [inElements]
    | cons v rest ih =>
        rw [inElements, List.append_eq_nil_iff, List.map_eq_nil_iff, ih, List.forall_mem_cons]
        exact Iff.rfl
  exact hitems 0

/-! Keywords that look at a value as a whole -/

theorem accepts_iff_ownReasons {schema : Schema} {v : Json}
    (h : violations none schema v = ownViolations none schema v) :
    Accepts schema v ↔ ownReasons schema v = [] := by
  rw [Accepts, h, ownViolations_eq_nil_iff]

theorem accepts_iff_of_reason {schema : Schema} {v : Json} {fine : Prop} [Decidable fine]
    {reason : Reason} (h : violations none schema v = ownViolations none schema v)
    (hown : ownReasons schema v = if fine then [] else [reason]) : Accepts schema v ↔ fine := by
  rw [accepts_iff_ownReasons h, hown]
  split <;> simp [*]

theorem accepts_iff_not_of_reason {schema : Schema} {v : Json} {bad : Prop} [Decidable bad]
    {reason : Reason} (h : violations none schema v = ownViolations none schema v)
    (hown : ownReasons schema v = if bad then [reason] else []) : Accepts schema v ↔ ¬ bad := by
  rw [accepts_iff_ownReasons h, hown]
  split <;> simp [*]

theorem accepts_type (t : ValueType) (v : Json) : Accepts (.type t) v ↔ t.holds v = true :=
  accepts_iff_of_reason rfl rfl

theorem accepts_const (text : Text) (v : Json) :
    Accepts (.const text) v ↔ isText text v = true :=
  accepts_iff_of_reason rfl rfl

theorem accepts_enum (choices : List Text) (s : Text) :
    Accepts (.enum choices) (.str s) ↔ s ∈ choices := by
  have hany : choices.any (isText · (.str s)) = true ↔ s ∈ choices := by simp [isText]
  exact (accepts_iff_of_reason rfl rfl).trans hany

theorem accepts_required (wanted : List Text) (members : List (Text × Json)) :
    Accepts (.required wanted) (.obj members) ↔
      ∀ name ∈ wanted, Assoc.has name members = true := by
  rw [accepts_iff_ownReasons rfl]
  change (wanted.filter fun name => !Assoc.has name members).map Reason.required = [] ↔ _
  simp

theorem accepts_closed (known : List Text) (members : List (Text × Json)) :
    Accepts (.closed known) (.obj members) ↔ ∀ member ∈ members, member.1 ∈ known := by
  have hnone : (unknownNames known members).isEmpty = true ↔
      ∀ member ∈ members, member.1 ∈ known := by
    simp [unknownNames]
  exact (accepts_iff_of_reason rfl rfl).trans hnone

theorem accepts_minimum (bound : Nat) (n : Int) :
    Accepts (.minimum bound) (.int n) ↔ bound ≤ n := by
  have hbelow : ¬ isBelow bound (.int n) = true ↔ bound ≤ n := by simp [isBelow]
  exact (accepts_iff_not_of_reason rfl rfl).trans hbelow

theorem accepts_nonEmptyText (s : Text) : Accepts .nonEmptyText (.str s) ↔ s ≠ "" :=
  accepts_iff_not_of_reason rfl rfl

theorem accepts_nonEmptyArray (elements : List Json) :
    Accepts .nonEmptyArray (.arr elements) ↔ elements ≠ [] := by
  have hempty : ¬ elements.isEmpty = true ↔ elements ≠ [] := by simp
  exact (accepts_iff_not_of_reason rfl rfl).trans hempty

theorem accepts_pattern (p : Pattern) (s : Text) :
    Accepts (.pattern p) (.str s) ↔ p.fits s.toList = true :=
  accepts_iff_of_reason rfl rfl

/-! Patterns -/

theorem fits_words (text : Text) (rest : Pattern) (s : List Point) :
    Pattern.fits (.words text :: rest) (text.toList ++ s) = Pattern.fits rest s := by
  simp [Pattern.fits, Piece.match?]

/-- Characters from some ranges. -/
def InRanges (ranges : List (Point × Point)) (s : List Point) : Prop :=
  ∀ c ∈ s, ranges.any (fun r => r.1 ≤ c && c ≤ r.2) = true

theorem fits_chars {ranges : List (Point × Point)} {run : List Point} (h : InRanges ranges run)
    (rest : Pattern) (s : List Point) :
    Pattern.fits (.chars ranges run.length :: rest) (run ++ s) = Pattern.fits rest s := by
  have hall : run.all (fun c => ranges.any fun r => r.1 ≤ c && c ≤ r.2) = true :=
    List.all_eq_true.mpr h
  simp only [Pattern.fits, Piece.match?, List.take_left, List.drop_left, hall]
  simp

end LocaleKeys.Schema
