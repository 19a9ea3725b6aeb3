import LocaleKeys.Canonical
import LocaleKeys.Proofs.Number.Digits
import LocaleKeys.Proofs.Text.Utf8

/-!
Values whose text has bytes. A writer puts the halves of names and texts into what it writes, and no others:
neither order nor rounding nor layout has any.
-/

namespace LocaleKeys

open Text.Utf8 (IsWritable isWritable_append isWritable_cons)

/-! Numbers -/

theorem isWritable_of_isDigit {s : List Point} (h : ∀ c ∈ s, c.isDigit = true) : IsWritable s := by
  intro c hc
  cases c with
  | char c => rfl
  | half n => cases h _ hc

theorem Text.Utf8.isWritable_digits (n : Nat) : IsWritable (Text.digits n) :=
  isWritable_of_isDigit fun _ hc => Number.isDigit_of_mem_toDigits hc

theorem Number.isWritable_intText (n : Int) : IsWritable (Number.intText n) := by
  intro c hc
  obtain hdigit | rfl := Number.mem_intText hc
  · exact isWritable_of_isDigit (List.forall_mem_singleton.mpr hdigit) c (List.mem_singleton_self c)
  · rfl

theorem Text.Utf8.isWritable_hexDigits (width n : Nat) : IsWritable (Text.hexDigits width n) := by
  have hdigit : ∀ k : Fin 16, (Text.hexDigit k).isHalf = false := by decide
  induction width generalizing n with
  | zero => exact List.forall_mem_nil _
  | succ width ih =>
      rw [Text.hexDigits, isWritable_append]
      exact ⟨ih _, List.forall_mem_singleton.mpr (hdigit ⟨n % 16, Nat.mod_lt n (by decide)⟩)⟩

namespace Double

theorem isWritable_exponentText (exponent : Int) : IsWritable (exponentText exponent) := by
  have hdigits := Text.Utf8.isWritable_digits exponent.natAbs
  rw [exponentText, isWritable_cons]
  constructor
  · split <;> rfl
  · split
    · exact isWritable_cons.mpr ⟨rfl, hdigits⟩
    · exact hdigits

theorem isWritable_layout {digits : List Point} (h : IsWritable digits) (point : Int) :
    IsWritable (layout digits point) := by
  have hzeros : ∀ k, IsWritable (List.replicate k (Point.char '0')) := by
    intro k c hc
    rw [List.eq_of_mem_replicate hc]
    rfl
  have hpoint : (Point.char '.').isHalf = false := rfl
  rw [layout.eq_def]
  split
  · split
    · exact isWritable_cons.mpr ⟨rfl, isWritable_cons.mpr ⟨hpoint, isWritable_append.mpr ⟨hzeros _, h⟩⟩⟩
    · dsimp only
      split
      · exact isWritable_append.mpr ⟨isWritable_append.mpr ⟨h, hzeros _⟩, by decide⟩
      · refine isWritable_append.mpr ⟨fun c hc => h c (List.mem_of_mem_take hc), ?_⟩
        exact isWritable_cons.mpr ⟨hpoint, fun c hc => h c (List.mem_of_mem_drop hc)⟩
  · split
    · exact List.forall_mem_nil _
    · next first others =>
        obtain ⟨hfirst, hothers⟩ := isWritable_cons.mp h
        refine isWritable_append.mpr
          ⟨?_, isWritable_cons.mpr ⟨rfl, isWritable_exponentText _⟩⟩
        split
        · exact List.forall_mem_singleton.mpr hfirst
        · exact isWritable_cons.mpr ⟨hfirst, isWritable_cons.mpr ⟨hpoint, hothers⟩⟩

theorem isWritable_significant (decimal : Decimal) : IsWritable decimal.significant.1 := by
  intro c hc
  have hdropped : c ∈ dropZeros (Text.digits decimal.digits).reverse := List.mem_reverse.mp hc
  have hdigits : c ∈ (Text.digits decimal.digits).reverse :=
    (List.dropWhile_sublist _).subset hdropped
  exact Text.Utf8.isWritable_digits _ c (List.mem_reverse.mp hdigits)

theorem isWritable_textWith {nanText infinityText : List Point} (hnan : IsWritable nanText)
    (hinfinity : IsWritable infinityText) (x : Double) :
    IsWritable (x.textWith nanText infinityText) := by
  have hsigned : ∀ (negative : Bool) {s : List Point}, IsWritable s →
      IsWritable (if negative then Point.char '-' :: s else s) := by
    intro negative s hs
    split
    · exact isWritable_cons.mpr ⟨rfl, hs⟩
    · exact hs
  cases x with
  | nan => exact hnan
  | infinite negative => exact hsigned negative hinfinity
  | finite negative mantissa exponent =>
      refine hsigned negative ?_
      split
      · decide
      · exact isWritable_layout (isWritable_significant _) _

end Double

namespace Json

/-! Values -/

mutual

/-- The names and texts of a value. -/
def texts : Json → List Text
  | .scalar (.str s) => [s]
  | .scalar _ => []
  | .arr elements => textsOfElements elements
  | .obj members => textsOfMembers members

def textsOfElements : List Json → List Text
  | [] => []
  | v :: rest => texts v ++ textsOfElements rest

def textsOfMembers : List (Text × Json) → List Text
  | [] => []
  | (name, v) :: rest => name :: texts v ++ textsOfMembers rest

end

/-- Whether a value can be written: its names and texts have bytes. -/
def HasBytes (v : Json) : Prop :=
  ∀ s ∈ v.texts, IsWritable s.toList

instance (v : Json) : Decidable v.HasBytes :=
  List.decidableBAll (fun s : Text => IsWritable s.toList) v.texts

theorem mem_textsOfElements {vs : List Json} {s : Text} :
    s ∈ textsOfElements vs ↔ ∃ v ∈ vs, s ∈ v.texts := by
  induction vs with
  | nil => simp [textsOfElements]
  | cons v vs ih => simp [textsOfElements, ih]

theorem mem_textsOfMembers {ms : List (Text × Json)} {s : Text} :
    s ∈ textsOfMembers ms ↔ ∃ m ∈ ms, s = m.1 ∨ s ∈ m.2.texts := by
  induction ms with
  | nil => simp [textsOfMembers]
  | cons m ms ih => simp [textsOfMembers, ih, or_assoc]

/-! Writers -/

theorem isWritable_lineStart (layout : Layout) (level : Nat) (rest : List Point) :
    IsWritable (layout.lineStart level rest) ↔ IsWritable rest := by
  have hblanks : ∀ k, IsWritable (List.replicate k (Point.char ' ')) := by
    intro k c hc
    rw [List.eq_of_mem_replicate hc]
    rfl
  have hline : (Point.char '\n').isHalf = false := rfl
  cases layout with
  | inline => rfl
  | lines step =>
      rw [Layout.lineStart, isWritable_cons, isWritable_append, and_iff_right hline,
        and_iff_right (hblanks _)]

theorem isWritable_separator (layout : Layout) (level : Nat) (rest : List Point) :
    IsWritable (layout.separator level rest) ↔ IsWritable rest := by
  have hcomma : (Point.char ',').isHalf = false := rfl
  have hblank : (Point.char ' ').isHalf = false := rfl
  cases layout with
  | inline => simp [Layout.separator, isWritable_cons, hcomma, hblank]
  | lines step =>
      rw [Layout.separator, isWritable_cons, isWritable_lineStart, and_iff_right hcomma]

theorem isWritable_writeChar (c : Point) : IsWritable (writeChar c) ↔ c.isHalf = false := by
  have hshort : ∀ {d : Point}, c = d → d.isHalf = false → ∀ {s}, IsWritable s →
      (IsWritable s ↔ c.isHalf = false) := by
    rintro d rfl hd s hs
    exact iff_of_true hs hd
  rw [writeChar]
  split
  · next h =>
      obtain rfl | rfl := h
      · decide
      · decide
  split
  · next h => exact hshort h rfl (by decide)
  split
  · next h => exact hshort h rfl (by decide)
  split
  · next h => exact hshort h rfl (by decide)
  split
  · next h => exact hshort h rfl (by decide)
  split
  · next h => exact hshort h rfl (by decide)
  split
  · next h =>
      have hhex : IsWritable ('\\' :: 'u' :: Text.hexDigits 4 c.toNat) :=
        isWritable_cons.mpr ⟨rfl, isWritable_cons.mpr ⟨rfl, Text.Utf8.isWritable_hexDigits 4 _⟩⟩
      refine iff_of_true hhex ?_
      -- The halves are far above the controls.
      cases c with
      | char c => rfl
      | half n => exact absurd h (by simp [Point.toNat]; omega)
  · exact List.forall_mem_singleton

theorem isWritable_writeBody (cs rest : List Point) :
    IsWritable (writeBody cs rest) ↔ IsWritable cs ∧ IsWritable rest := by
  have hquote : (Point.char '"').isHalf = false := rfl
  induction cs with
  | nil => simp [writeBody, hquote, IsWritable]
  | cons c cs ih =>
      rw [writeBody, isWritable_append, isWritable_writeChar, isWritable_cons, and_assoc]
      exact and_congr_right' ih

theorem isWritable_writeString (s : Text) (rest : List Point) :
    IsWritable (writeString s rest) ↔ IsWritable s.toList ∧ IsWritable rest := by
  have hquote : (Point.char '"').isHalf = false := rfl
  rw [writeString, isWritable_cons, isWritable_writeBody, and_iff_right hquote]

theorem isWritable_writeScalar (s : Scalar) (rest : List Point) :
    IsWritable (writeScalar s rest) ↔ HasBytes (.scalar s) ∧ IsWritable rest := by
  have hplain : ∀ {t : List Point} {s : Scalar}, texts (.scalar s) = [] → IsWritable t →
      (IsWritable (t ++ rest) ↔ HasBytes (.scalar s) ∧ IsWritable rest) := by
    intro t s hs ht
    rw [isWritable_append, HasBytes, hs, and_iff_right ht, and_iff_right (List.forall_mem_nil _)]
  cases s with
  | null => exact hplain (t := (Text.ofString "null").toList) rfl (by decide)
  | bool b =>
      cases b with
      | false => exact hplain (t := (Text.ofString "false").toList) rfl (by decide)
      | true => exact hplain (t := (Text.ofString "true").toList) rfl (by decide)
  | int n => exact hplain rfl (Number.isWritable_intText n)
  | float x => exact hplain rfl (Double.isWritable_textWith (by decide) (by decide) x)
  | str s =>
      have hs : HasBytes (.str s) ↔ IsWritable s.toList := List.forall_mem_singleton
      rw [writeScalar, isWritable_writeString, hs]

/-! Text -/

theorem hasBytes_arr {vs : List Json} : HasBytes (.arr vs) ↔ ∀ v ∈ vs, v.HasBytes := by
  simp only [HasBytes, texts, mem_textsOfElements]
  exact ⟨fun h v hv s hs => h s ⟨v, hv, hs⟩, fun h s ⟨v, hv, hs⟩ => h v hv s hs⟩

theorem hasBytes_obj {ms : List (Text × Json)} :
    HasBytes (.obj ms) ↔ ∀ m ∈ ms, IsWritable m.1.toList ∧ m.2.HasBytes := by
  simp only [HasBytes, texts, mem_textsOfMembers]
  constructor
  · exact fun h m hm => ⟨h m.1 ⟨m, hm, Or.inl rfl⟩, fun s hs => h s ⟨m, hm, Or.inr hs⟩⟩
  · rintro h s ⟨m, hm, rfl | hs⟩
    · exact (h m hm).1
    · exact (h m hm).2 s hs

mutual

theorem isWritable_write (layout : Layout) (level : Nat) (v : Json) (rest : List Point) :
    IsWritable (write layout level v rest) ↔ v.HasBytes ∧ IsWritable rest := by
  match v with
  | .scalar s => exact isWritable_writeScalar s rest
  | .arr [] =>
      rw [write, isWritable_cons, isWritable_cons, hasBytes_arr]
      exact ⟨fun h => ⟨List.forall_mem_nil _, h.2.2⟩, fun h => ⟨rfl, rfl, h.2⟩⟩
  | .arr (v :: vs) =>
      have hopen : (Point.char '[').isHalf = false := rfl
      rw [write, isWritable_cons, isWritable_lineStart, isWritable_write layout (level + 1) v,
        isWritable_writeElements layout level vs, hasBytes_arr, List.forall_mem_cons,
        and_iff_right hopen, and_assoc]
  | .obj [] =>
      rw [write, isWritable_cons, isWritable_cons, hasBytes_obj]
      exact ⟨fun h => ⟨List.forall_mem_nil _, h.2.2⟩, fun h => ⟨rfl, rfl, h.2⟩⟩
  | .obj ((name, v) :: ms) =>
      have hopen : (Point.char '\x7b').isHalf = false := rfl
      have hcolon : (Point.char ':').isHalf = false := rfl
      have hblank : (Point.char ' ').isHalf = false := rfl
      rw [write, isWritable_cons, isWritable_lineStart, isWritable_writeString, isWritable_cons,
        isWritable_cons, isWritable_write layout (level + 1) v,
        isWritable_writeMembers layout level ms, hasBytes_obj, List.forall_mem_cons,
        and_iff_right hopen, and_iff_right hcolon, and_iff_right hblank, and_assoc, and_assoc]

theorem isWritable_writeElements (layout : Layout) (level : Nat) (vs : List Json)
    (rest : List Point) :
    IsWritable (writeElements layout level vs rest) ↔
      (∀ v ∈ vs, v.HasBytes) ∧ IsWritable rest := by
  match vs with
  | [] =>
      have hclose : (Point.char ']').isHalf = false := rfl
      rw [writeElements, isWritable_lineStart, isWritable_cons, and_iff_right hclose,
        and_iff_right (List.forall_mem_nil _)]
  | v :: vs =>
      rw [writeElements, isWritable_separator, isWritable_write layout (level + 1) v,
        isWritable_writeElements layout level vs, List.forall_mem_cons, and_assoc]

theorem isWritable_writeMembers (layout : Layout) (level : Nat) (ms : List (Text × Json))
    (rest : List Point) :
    IsWritable (writeMembers layout level ms rest) ↔
      (∀ m ∈ ms, IsWritable m.1.toList ∧ m.2.HasBytes) ∧ IsWritable rest := by
  match ms with
  | [] =>
      have hclose : (Point.char '\x7d').isHalf = false := rfl
      rw [writeMembers, isWritable_lineStart, isWritable_cons, and_iff_right hclose,
        and_iff_right (List.forall_mem_nil _)]
  | (name, v) :: ms =>
      have hcolon : (Point.char ':').isHalf = false := rfl
      have hblank : (Point.char ' ').isHalf = false := rfl
      rw [writeMembers, isWritable_separator, isWritable_writeString, isWritable_cons,
        isWritable_cons, isWritable_write layout (level + 1) v,
        isWritable_writeMembers layout level ms, List.forall_mem_cons, and_iff_right hcolon,
        and_iff_right hblank, and_assoc, and_assoc]

end

/-! Canonical text -/

mutual

theorem hasBytes_sortMembers (v : Json) : (sortMembers v).HasBytes ↔ v.HasBytes := by
  match v with
  | .scalar _ => rfl
  | .arr vs => rw [sortMembers, hasBytes_arr, hasBytes_arr, hasBytes_sortElements vs]
  | .obj ms =>
      have hperm : (Text.sortedBy (·.1) (sortEach ms)).Perm (sortEach ms) := List.mergeSort_perm _ _
      rw [sortMembers, hasBytes_obj, hasBytes_obj, ← hasBytes_sortEach ms]
      exact forall_congr' fun m => imp_congr_left hperm.mem_iff

theorem hasBytes_sortElements (vs : List Json) :
    (∀ v ∈ sortElements vs, v.HasBytes) ↔ ∀ v ∈ vs, v.HasBytes := by
  match vs with
  | [] => rfl
  | v :: vs =>
      rw [sortElements, List.forall_mem_cons, List.forall_mem_cons, hasBytes_sortMembers v,
        hasBytes_sortElements vs]

theorem hasBytes_sortEach (ms : List (Text × Json)) :
    (∀ m ∈ sortEach ms, IsWritable m.1.toList ∧ m.2.HasBytes) ↔
      ∀ m ∈ ms, IsWritable m.1.toList ∧ m.2.HasBytes := by
  match ms with
  | [] => rfl
  | (name, v) :: ms =>
      rw [sortEach, List.forall_mem_cons, List.forall_mem_cons, hasBytes_sortMembers v,
        hasBytes_sortEach ms]

end

theorem hasBytes_roundScalar (s : Scalar) :
    HasBytes (.scalar (roundScalar s)) ↔ HasBytes (.scalar s) := by
  have hplain : ∀ x, HasBytes (.scalar (.float x)) := fun _ => List.forall_mem_nil _
  have hnumber : ∀ x : Double, HasBytes (.str (Text.ofList x.text)) := by
    refine fun x => List.forall_mem_singleton.mpr ?_
    rw [Text.toList_ofList]
    exact Double.isWritable_textWith (by decide) (by decide) x
  cases s with
  | float x =>
      cases x with
      | nan => exact iff_of_true (hnumber _) (hplain _)
      | infinite _ => exact iff_of_true (hnumber _) (hplain _)
      | finite _ _ _ => exact iff_of_true (hplain _) (hplain _)
  | _ => rfl

mutual

theorem hasBytes_roundNumbers (v : Json) : (roundNumbers v).HasBytes ↔ v.HasBytes := by
  match v with
  | .scalar s => exact hasBytes_roundScalar s
  | .arr vs => rw [roundNumbers, hasBytes_arr, hasBytes_arr, hasBytes_roundElements vs]
  | .obj ms => rw [roundNumbers, hasBytes_obj, hasBytes_obj, hasBytes_roundEach ms]

theorem hasBytes_roundElements (vs : List Json) :
    (∀ v ∈ roundElements vs, v.HasBytes) ↔ ∀ v ∈ vs, v.HasBytes := by
  match vs with
  | [] => rfl
  | v :: vs =>
      rw [roundElements, List.forall_mem_cons, List.forall_mem_cons, hasBytes_roundNumbers v,
        hasBytes_roundElements vs]

theorem hasBytes_roundEach (ms : List (Text × Json)) :
    (∀ m ∈ roundEach ms, IsWritable m.1.toList ∧ m.2.HasBytes) ↔
      ∀ m ∈ ms, IsWritable m.1.toList ∧ m.2.HasBytes := by
  match ms with
  | [] => rfl
  | (name, v) :: ms =>
      rw [roundEach, List.forall_mem_cons, List.forall_mem_cons, hasBytes_roundNumbers v,
        hasBytes_roundEach ms]

end

/-- The canonical text of a value has bytes if the value's names and texts have. -/
theorem isWritable_canonical_iff (rounded : Bool) (layout : Layout) (v : Json) :
    IsWritable (v.canonical rounded layout) ↔ v.HasBytes := by
  have hend : IsWritable [Point.char '\n'] := by decide
  have hnone : IsWritable [] := List.forall_mem_nil _
  have hrounded : (if rounded then roundNumbers v else v).HasBytes ↔ v.HasBytes := by
    split
    · exact hasBytes_roundNumbers v
    · rfl
  rw [canonical, isWritable_append, and_iff_left hend, render, isWritable_write,
    and_iff_left hnone, hasBytes_sortMembers, hrounded]

end Json
end LocaleKeys
