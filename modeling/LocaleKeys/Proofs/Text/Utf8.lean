import LocaleKeys.Text.Utf8
import LocaleKeys.Proofs.Text.Point

/-!
Bytes that are UTF-8, and texts that have bytes. Bytes are read exactly if they are characters one after
the other, and a text is written exactly if none of its code points is a half.
-/

namespace LocaleKeys.Text.Utf8

/-- Bytes that are characters, one after the other. -/
inductive IsUtf8 : List UInt8 → Prop
  | nil : IsUtf8 []
  | char {a : UInt8} {tail rest : List UInt8} {c : Point}
      (hstep : step a tail = .char c (tail.length + 1)) (hrest : IsUtf8 rest) :
      IsUtf8 (a :: (tail ++ rest))

/-! What stands at the start -/

theorem length_of_step {a : UInt8} {rest : List UInt8} {c : Point} {length : Nat}
    (h : step a rest = .char c length) :
    (length = 1 ∨ length = 2 ∨ length = 3 ∨ length = 4) ∧ length ≤ rest.length + 1 := by
  unfold step at h
  rcases rest with _ | ⟨b, _ | ⟨d, _ | ⟨e, rest⟩⟩⟩ <;> grind

/-- What follows the bytes of a character does not matter for it. -/
theorem step_take {a : UInt8} {rest : List UInt8} {c : Point} {length : Nat}
    (h : step a rest = .char c length) (more : List UInt8) :
    step a (rest.take (length - 1) ++ more) = .char c length := by
  obtain ⟨rfl | rfl | rfl | rfl, -⟩ := length_of_step h <;> unfold step at h ⊢ <;>
    rcases rest with _ | ⟨b, _ | ⟨d, _ | ⟨e, rest⟩⟩⟩ <;>
    simp only [List.take, List.nil_append, List.cons_append, Nat.reduceSub] at h ⊢ <;> grind

/-- The bytes of a character are all there. -/
theorem step_char {a : UInt8} {rest : List UInt8} {c : Point} {length : Nat}
    (h : step a rest = .char c length) :
    ∃ tail behind, rest = tail ++ behind ∧ length = tail.length + 1 ∧
      ∀ more, step a (tail ++ more) = .char c length := by
  obtain ⟨hlength, hle⟩ := length_of_step h
  refine ⟨rest.take (length - 1), rest.drop (length - 1), (List.take_append_drop _ _).symm, ?_,
    step_take h⟩
  rw [List.length_take, Nat.min_eq_left (by omega)]
  omega

theorem step_append {a : UInt8} {tail : List UInt8} {c : Point}
    (h : step a tail = .char c (tail.length + 1)) (rest : List UInt8) :
    step a (tail ++ rest) = .char c (tail.length + 1) := by
  obtain ⟨taken, behind, htail, hlength, hmore⟩ := step_char h
  rw [htail, List.append_assoc, hmore, ← htail]

/-! Reading -/

theorem decodeFrom_skip (bytes : List UInt8) (offset skip : Nat) :
    decodeFrom offset skip bytes = decodeFrom (offset + skip) 0 (bytes.drop skip) := by
  induction bytes generalizing offset skip with
  | nil => simp [decodeFrom]
  | cons a rest ih =>
      cases skip with
      | zero => rfl
      | succ k =>
          rw [decodeFrom, ih, List.drop_succ_cons]
          congr 1
          omega

theorem decodeFrom_char {a : UInt8} {tail rest : List UInt8} {c : Point}
    (h : step a (tail ++ rest) = .char c (tail.length + 1)) (offset : Nat) :
    decodeFrom offset 0 (a :: (tail ++ rest)) =
      (decodeFrom (offset + tail.length + 1) 0 rest).map (c :: ·) := by
  rw [decodeFrom, h]
  dsimp only
  rw [decodeFrom_skip, Nat.add_sub_cancel, List.drop_left,
    show offset + 1 + tail.length = offset + tail.length + 1 by omega]
  cases decodeFrom (offset + tail.length + 1) 0 rest <;> rfl

/-- Bytes are read exactly if they are UTF-8, wherever the count of faults starts. -/
theorem isUtf8_iff {bytes : List UInt8} (offset : Nat) :
    IsUtf8 bytes ↔ ∃ text, decodeFrom offset 0 bytes = .ok text := by
  constructor
  · intro h
    induction h generalizing offset with
    | nil => exact ⟨[], rfl⟩
    | @char _ tail _ c hstep _ ih =>
        obtain ⟨text, htext⟩ := ih (offset + tail.length + 1)
        refine ⟨c :: text, ?_⟩
        rw [decodeFrom_char (step_append hstep _), htext]
        rfl
  · intro h
    obtain ⟨text, htext⟩ := h
    induction hn : bytes.length using Nat.strongRecOn generalizing bytes offset text with
    | _ n ih =>
        cases bytes with
        | nil => exact .nil
        | cons a rest =>
            cases hstep : step a rest with
            | fault cause length =>
                rw [decodeFrom, hstep] at htext
                cases htext
            | char c length =>
                obtain ⟨tail, behind, rfl, rfl, hmore⟩ := step_char hstep
                rw [decodeFrom_char hstep] at htext
                cases hrest : decodeFrom (offset + tail.length + 1) 0 behind with
                | error f =>
                    rw [hrest] at htext
                    cases htext
                | ok more =>
                    have htail := hmore []
                    rw [List.append_nil] at htail
                    refine .char htail (ih behind.length ?_ _ more hrest rfl)
                    rw [← hn, List.length_cons, List.length_append]
                    omega

/-! Writing -/

/-- The number of bytes of a code point goes by its size. -/
theorem encodeChar_cases (c : Point) : let n := c.toNat
    (n < 0x80 ∧ encodeChar c = [n.toUInt8]) ∨
    (0x80 ≤ n ∧ n < 0x800 ∧
      encodeChar c = [(0xc0 + n / 64).toUInt8, (0x80 + n % 64).toUInt8]) ∨
    (0x800 ≤ n ∧ n < 0x10000 ∧
      encodeChar c = [(0xe0 + n / 4096).toUInt8, (0x80 + n / 64 % 64).toUInt8,
        (0x80 + n % 64).toUInt8]) ∨
    (0x10000 ≤ n ∧ n < 0x110000 ∧
      encodeChar c = [(0xf0 + n / 262144).toUInt8, (0x80 + n / 4096 % 64).toUInt8,
        (0x80 + n / 64 % 64).toUInt8, (0x80 + n % 64).toUInt8]) := by
  intro n
  rw [encodeChar]
  split
  · next hone => exact .inl ⟨hone, rfl⟩
  split
  · next hone htwo => exact .inr (.inl ⟨Nat.not_lt.mp hone, htwo, rfl⟩)
  split
  · next htwo hthree => exact .inr (.inr (.inl ⟨Nat.not_lt.mp htwo, hthree, rfl⟩))
  · next hthree => exact .inr (.inr (.inr ⟨Nat.not_lt.mp hthree, c.toNat_lt, rfl⟩))

theorem encodeChar_ne_nil (c : Point) : encodeChar c ≠ [] := by
  obtain ⟨-, ec⟩ | ⟨-, -, ec⟩ | ⟨-, -, ec⟩ | ⟨-, -, ec⟩ := encodeChar_cases c <;>
    exact ec ▸ List.cons_ne_nil _ _

/-- The first byte tells how many there are, so texts with the same bytes start alike. -/
theorem encodeChar_append_inj {c d : Point} {s t : List UInt8}
    (h : encodeChar c ++ s = encodeChar d ++ t) : c = d ∧ s = t := by
  rw [← Point.toNat_inj]
  obtain ⟨hc, ec⟩ | ⟨hc, hc', ec⟩ | ⟨hc, hc', ec⟩ | ⟨hc, hc', ec⟩ := encodeChar_cases c <;>
    obtain ⟨hd, ed⟩ | ⟨hd, hd', ed⟩ | ⟨hd, hd', ed⟩ | ⟨hd, hd', ed⟩ := encodeChar_cases d <;>
    rw [ec, ed] at h <;>
    simp only [List.cons_append, List.nil_append, List.cons.injEq, ← UInt8.toNat_inj,
      Nat.toUInt8_eq, UInt8.toNat_ofNat'] at h
  -- Two code points of different sizes differ in the first byte.
  all_goals first
    | exfalso; omega
    | exact ⟨by omega, by simp only [h]⟩

theorem encode_append (s t : List Point) : encode (s ++ t) = encode s ++ encode t :=
  List.flatMap_append

/-- A text is known by its bytes. -/
theorem encode_injective : Function.Injective encode := by
  intro s t h
  induction s generalizing t with
  | nil =>
      cases t with
      | nil => rfl
      | cons d t => exact absurd (List.append_eq_nil_iff.mp h.symm).1 (encodeChar_ne_nil d)
  | cons c s ih =>
      cases t with
      | nil => exact absurd (List.append_eq_nil_iff.mp h).1 (encodeChar_ne_nil c)
      | cons d t =>
          obtain ⟨rfl, hrest⟩ := encodeChar_append_inj h
          rw [ih hrest]

/-- Whether a text has bytes: all of its code points are characters. -/
def IsWritable (s : List Point) : Prop :=
  ∀ p ∈ s, p.isHalf = false

instance (s : List Point) : Decidable (IsWritable s) :=
  List.decidableBAll (fun p : Point => p.isHalf = false) s

theorem isWritable_append {s t : List Point} :
    IsWritable (s ++ t) ↔ IsWritable s ∧ IsWritable t :=
  List.forall_mem_append

theorem isWritable_cons {p : Point} {s : List Point} :
    IsWritable (p :: s) ↔ p.isHalf = false ∧ IsWritable s :=
  List.forall_mem_cons

theorem unwritableFrom_eq_none_iff {passes : Point → Bool} {offset : Nat} {s : List Point} :
    unwritableFrom passes offset s = none ↔ ∀ p ∈ s, p.isHalf = true → passes p = true := by
  induction s generalizing offset with
  | nil => simp [unwritableFrom]
  | cons p rest ih =>
      rw [unwritableFrom, List.forall_mem_cons]
      split
      · next h => simp_all
      · next h =>
          rw [ih]
          simp_all

/-- Whether a text is a file name as far as bytes go: all of its halves stand for bytes. -/
def IsNameable (s : List Point) : Prop :=
  ∀ p ∈ s, p.isHalf = true → p.isByte = true

instance (s : List Point) : Decidable (IsNameable s) :=
  List.decidableBAll (fun p : Point => p.isHalf = true → p.isByte = true) s

theorem unnameable?_eq_none_iff {s : List Point} : unnameable? s = none ↔ IsNameable s :=
  unwritableFrom_eq_none_iff

theorem bytesInName_append (s t : List Point) :
    bytesInName (s ++ t) = bytesInName s + bytesInName t := by
  induction s with
  | nil => exact (Nat.zero_add _).symm
  | cons p s ih => rw [List.cons_append, bytesInName, bytesInName, ih, Nat.add_assoc]

theorem unwritable?_eq_none_iff {s : List Point} : unwritable? s = none ↔ IsWritable s := by
  rw [unwritable?, unwritableFrom_eq_none_iff]
  simp [IsWritable]

/-- A text that can be written is written as its bytes. -/
theorem write_eq_ok_iff {s : List Point} {bytes : List UInt8} :
    write s = .ok bytes ↔ IsWritable s ∧ encode s = bytes := by
  rw [write, ← unwritable?_eq_none_iff]
  cases unwritable? s <;> simp

theorem write_of_isWritable {s : List Point} (h : IsWritable s) : write s = .ok (encode s) :=
  write_eq_ok_iff.mpr ⟨h, rfl⟩

end LocaleKeys.Text.Utf8
