import LocaleKeys.Text.Point
import Mathlib.Data.List.Infix

/-!
Code points and texts. A code point is known by its number, so both are in a linear order, and a text is
known by its list of code points.
-/

namespace LocaleKeys

namespace Point

theorem toNat_injective : Function.Injective toNat := by
  intro a b h
  cases a with
  | char c =>
      cases b with
      | char d => exact congrArg char (Char.toNat_inj.mp h)
      | half n =>
          have hvalid := c.valid
          have hn := n.isLt
          simp only [toNat, Char.toNat, UInt32.isValidChar, Nat.isValidChar] at h hvalid
          omega
  | half n =>
      cases b with
      | char d =>
          have hvalid := d.valid
          have hn := n.isLt
          simp only [toNat, Char.toNat, UInt32.isValidChar, Nat.isValidChar] at h hvalid
          omega
      | half m =>
          have hval : n.val = m.val := Nat.add_left_cancel h
          exact congrArg half (Fin.ext hval)

@[simp] theorem toNat_inj {a b : Point} : a.toNat = b.toNat ↔ a = b :=
  toNat_injective.eq_iff

theorem toNat_lt (p : Point) : p.toNat < 0x110000 := by
  cases p with
  | char c =>
      have hvalid := c.valid
      simp only [UInt32.isValidChar, Nat.isValidChar] at hvalid
      simp only [toNat, Char.toNat]
      omega
  | half n =>
      have := n.isLt
      simp only [toNat]
      omega

@[simp] theorem ofNat_toNat (p : Point) : ofNat p.toNat = p := by
  cases p with
  | char c =>
      have hvalid := c.valid
      simp only [UInt32.isValidChar, Nat.isValidChar] at hvalid
      have outside : ¬ (0xd800 ≤ (char c).toNat ∧ (char c).toNat < 0xe000) := by
        simp only [toNat, Char.toNat]
        omega
      rw [ofNat, dif_neg outside]
      exact congrArg char (Char.ofNat_toNat c)
  | half n =>
      have inside : 0xd800 ≤ (half n).toNat ∧ (half n).toNat < 0xe000 := by
        have := n.isLt
        simp only [toNat]
        omega
      rw [ofNat, dif_pos inside]
      exact congrArg half (Fin.ext (Nat.add_sub_cancel_left ..))

@[simp] theorem isDigit_char (c : Char) : (char c).isDigit = c.isDigit := rfl

@[simp] theorem isAlphanum_char (c : Char) : (char c).isAlphanum = c.isAlphanum := rfl

instance : Std.IsLinearOrder Point :=
  Std.IsLinearOrder.of_le
    ⟨fun _ _ hab hba => toNat_injective (Nat.le_antisymm hab hba)⟩
    ⟨fun hab hbc => Nat.le_trans hab hbc⟩ ⟨fun a b => Nat.le_total a.toNat b.toNat⟩

instance : Std.LawfulOrderLT Point :=
  ⟨fun a b => Nat.lt_iff_le_and_not_ge (m := a.toNat) (n := b.toNat)⟩

instance : Std.TransOrd Point :=
  inferInstanceAs (Std.TransCmp (compareOn toNat))

instance : Std.LawfulEqOrd Point where
  eq_of_compare h := toNat_injective (Std.LawfulEqOrd.eq_of_compare h)

end Point

namespace Text

theorem ofString_injective : Function.Injective ofString :=
  fun _ _ h => String.toList_injective
    (List.map_injective_iff.mpr (fun _ _ => Point.char.inj) (ofList.inj h))

@[simp] theorem ofString_inj {s t : String} : ofString s = ofString t ↔ s = t :=
  ofString_injective.eq_iff

@[simp] theorem toList_ofList (s : List Point) : (ofList s).toList = s := rfl

@[simp] theorem ofList_toList (s : Text) : ofList s.toList = s := rfl

@[simp] theorem toList_ofString (s : String) : (ofString s).toList = s.toList.map .char := rfl

@[simp] theorem toList_ofNat (n : Nat) : (ofNat n).toList = digits n := rfl

@[simp] theorem toList_map (f : Point → Point) (s : Text) : (s.map f).toList = s.toList.map f := rfl

theorem toList_injective : Function.Injective toList := by
  rintro ⟨_⟩ ⟨_⟩ rfl
  rfl

@[simp] theorem ofList_nil : ofList [] = ofString "" := rfl

@[simp] theorem toList_eq_nil_iff {s : Text} : s.toList = [] ↔ s = ofString "" := by
  cases s
  exact ofList.injEq _ _ ▸ Iff.rfl

theorem ofList_injective : Function.Injective ofList := by
  rintro _ _ h
  exact ofList.inj h

theorem toList_inj {s t : Text} : s.toList = t.toList ↔ s = t :=
  toList_injective.eq_iff

@[simp] theorem toList_append (s t : Text) : (s ++ t).toList = s.toList ++ t.toList := rfl

theorem append_assoc {s t u : Text} : s ++ t ++ u = s ++ (t ++ u) :=
  toList_injective (List.append_assoc ..)

@[simp] theorem append_empty {s : Text} : s ++ ofString "" = s :=
  toList_injective (List.append_nil _)

@[simp] theorem append_eq_empty_iff {s t : Text} :
    s ++ t = ofString "" ↔ s = ofString "" ∧ t = ofString "" := by
  simp only [← toList_inj, toList_append]
  exact List.append_eq_nil_iff

@[simp] theorem length_append (s t : Text) : (s ++ t).length = s.length + t.length :=
  List.length_append

@[simp] theorem toList_intercalate (separator : Text) (texts : List Text) :
    (intercalate separator texts).toList = separator.toList.intercalate (texts.map toList) := rfl

instance : Std.TransOrd Text :=
  inferInstanceAs (Std.TransCmp (compareOn toList))

instance : Std.LawfulEqOrd Text where
  eq_of_compare h := toList_injective (Std.LawfulEqOrd.eq_of_compare h)

theorem le_trans {s t u : Text} (hst : s ≤ t) (htu : t ≤ u) : s ≤ u :=
  List.le_trans (α := Point) hst htu

theorem le_total (s t : Text) : s ≤ t ∨ t ≤ s :=
  List.le_total s.toList t.toList

theorem le_antisymm {s t : Text} (hst : s ≤ t) (hts : t ≤ s) : s = t :=
  toList_injective (List.le_antisymm hst hts)

theorem lt_irrefl (s : Text) : ¬ s < s :=
  List.lt_irrefl s.toList

instance : Std.IsLinearOrder Text :=
  Std.IsLinearOrder.of_le ⟨fun _ _ => le_antisymm⟩ ⟨fun hst htu => le_trans hst htu⟩ ⟨le_total⟩

instance : Std.LawfulOrderLT Text :=
  ⟨fun s t => Std.LawfulOrderLT.lt_iff s.toList t.toList⟩

end Text
end LocaleKeys
