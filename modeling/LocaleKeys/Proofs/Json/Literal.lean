import LocaleKeys.Json.Reader
import LocaleKeys.Proofs.Number.Digits
import LocaleKeys.Proofs.Number.Shortest

/-!
Literals: numbers and the words for the other scalars. What the reader takes for one consists of
letters, digits, signs and points, and the scalar it gives is one that can be written. Numbers that
are written are read back, floating-point numbers by the law of their shortest form.
-/

namespace LocaleKeys

/-- A scalar that reading gives: integers keep to the length that is read, doubles are rounded. -/
def Scalar.Readable : Scalar → Prop
  | .int n => n.natAbs < 10 ^ Number.maxDigits
  | .float x => x.Canonical
  | _ => True

namespace Json

open Number

/-- The characters of literals. -/
def isLiteralChar (c : Point) : Bool :=
  c.isAlphanum || c == '-' || c == '+' || c == '.'

theorem isLiteralChar_of_isDigit {c : Point} (h : c.isDigit = true) : isLiteralChar c = true := by
  cases c with
  | char c => simp_all [isLiteralChar, Char.isAlphanum]
  | half n => exact absurd h Bool.false_ne_true

/-- A text up to a cursor, made of characters of literals. -/
def Takes (s : List Point) (offset : Nat) (stop : Cursor) : Prop :=
  ∃ taken, s = taken ++ stop.rest ∧ stop.offset = offset + taken.length ∧
    ∀ c ∈ taken, isLiteralChar c = true

theorem Takes.refl (s : List Point) (offset : Nat) : Takes s offset ⟨s, offset⟩ :=
  ⟨[], rfl, rfl, by simp⟩

theorem Takes.trans {s : List Point} {offset : Nat} {middle stop : Cursor}
    (first : Takes s offset middle) (second : Takes middle.rest middle.offset stop) :
    Takes s offset stop := by
  obtain ⟨a, hs, ha, hac⟩ := first
  obtain ⟨b, hm, hb, hbc⟩ := second
  refine ⟨a ++ b, by rw [hs, hm, List.append_assoc], ?_, ?_⟩
  · rw [hb, ha, List.length_append, Nat.add_assoc]
  · intro c hc
    cases List.mem_append.mp hc with
    | inl h => exact hac c h
    | inr h => exact hbc c h

theorem Takes.cons {c : Point} {s : List Point} {offset : Nat} {stop : Cursor}
    (hc : isLiteralChar c = true) (h : Takes s (offset + 1) stop) : Takes (c :: s) offset stop := by
  have first : Takes (c :: s) offset ⟨s, offset + 1⟩ := ⟨[c], rfl, rfl, by simpa using hc⟩
  exact first.trans h

theorem takes_word (word rest : List Point) (offset : Nat) (h : word.all isLiteralChar = true) :
    Takes (word ++ rest) offset ⟨rest, offset + word.length⟩ :=
  ⟨word, rfl, rfl, List.all_eq_true.mp h⟩

theorem takes_digits {digits : List Point} (h : ∀ c ∈ digits, c.isDigit = true) (rest : List Point)
    (offset : Nat) : Takes (digits ++ rest) offset ⟨rest, offset + digits.length⟩ :=
  ⟨digits, rfl, rfl, fun c hc => isLiteralChar_of_isDigit (h c hc)⟩

/-! What the parts of a number take -/

theorem wholeDigits_spec (s : List Point) :
    s = (wholeDigits s).1 ++ (wholeDigits s).2 ∧ ∀ c ∈ (wholeDigits s).1, c.isDigit = true := by
  simp only [wholeDigits]
  split
  · exact ⟨rfl, by simp⟩
  · exact spanDigits_spec s

theorem fractionDigits_spec (s : List Point) :
    (∀ c ∈ (fractionDigits s).1, c.isDigit = true) ∧
      (s = (fractionDigits s).2 ∧ (fractionDigits s).1 = [] ∨
        s = Point.char '.' :: ((fractionDigits s).1 ++ (fractionDigits s).2) ∧
          (fractionDigits s).1 ≠ []) := by
  simp only [fractionDigits]
  split
  · next rest =>
      obtain ⟨heq, hd⟩ := spanDigits_spec rest
      split
      · exact ⟨by simp, Or.inl ⟨rfl, rfl⟩⟩
      · next hne => exact ⟨hd, Or.inr ⟨by rw [← heq], hne⟩⟩
  · exact ⟨by simp, Or.inl ⟨rfl, rfl⟩⟩

theorem takes_exponentSign (s : List Point) (offset : Nat) :
    Takes s offset (exponentSign s offset).2 := by
  simp only [exponentSign]
  split
  · exact Takes.cons (by decide) (Takes.refl _ _)
  · exact Takes.cons (by decide) (Takes.refl _ _)
  · exact Takes.refl _ _

theorem takes_exponentDigits {s digits : List Point} {offset : Nat} {negative : Bool}
    {cursor : Cursor} (h : exponentDigits s offset = some (negative, digits, cursor)) :
    Takes s offset cursor := by
  unfold exponentDigits at h
  split at h
  · next c rest =>
      split at h
      · next he =>
          have hc : isLiteralChar c = true := by
            cases he <;> (subst c; decide)
          have hsign := takes_exponentSign rest (offset + 1)
          generalize exponentSign rest (offset + 1) = sign at *
          obtain ⟨heq, hd⟩ := spanDigits_spec sign.2.rest
          dsimp only at h
          split at h
          · cases h
          · cases h
            refine Takes.cons hc (hsign.trans ?_)
            have := takes_digits hd (spanDigits sign.2.rest).2 sign.2.offset
            rwa [← heq] at this
      · cases h
  · cases h

/-- What the reader takes for a number. -/
theorem number?_ok {negative : Bool} {s : List Point} {offset : Nat} {x : Scalar} {stop : Cursor}
    (h : number? negative s offset = some (.ok (x, stop))) :
    Takes s offset stop ∧ x.Readable := by
  obtain ⟨hs, hw⟩ := wholeDigits_spec s
  have hwhole := takes_digits hw (wholeDigits s).2 offset
  rw [← hs] at hwhole
  obtain ⟨hf, hparts⟩ := fractionDigits_spec (wholeDigits s).2
  rw [number?] at h
  dsimp only at h
  generalize (wholeDigits s).1 = whole at *
  generalize (wholeDigits s).2 = rest at *
  generalize (fractionDigits rest).1 = fraction at *
  generalize (fractionDigits rest).2 = rest' at *
  have hfraction : Takes rest (offset + whole.length)
      ⟨rest', offset + whole.length + if fraction = [] then 0 else fraction.length + 1⟩ := by
    cases hparts with
    | inl none =>
        rw [none.1, none.2, if_pos rfl]
        exact Takes.refl _ _
    | inr some =>
        rw [some.1, if_neg some.2]
        have := takes_digits hf rest' (offset + whole.length + 1)
        rw [show offset + whole.length + (fraction.length + 1) =
          offset + whole.length + 1 + fraction.length by omega]
        exact Takes.cons (by decide) this
  have htaken := hwhole.trans hfraction
  split at h
  · cases h
  · split at h
    · next negativeExponent digits cursor hexp =>
        simp only [Option.some.injEq, Except.ok.injEq, Prod.mk.injEq] at h
        obtain ⟨rfl, rfl⟩ := h
        exact ⟨htaken.trans (takes_exponentDigits hexp), Double.canonical_ofDecimal _ _ _⟩
    · split at h
      · next hnil =>
        rw [if_pos hnil] at htaken
        split at h
        · cases h
        · next hlen =>
            simp only [Option.some.injEq, Except.ok.injEq, Prod.mk.injEq] at h
            obtain ⟨rfl, rfl⟩ := h
            refine ⟨htaken, ?_⟩
            have hlt := ofDigits_lt hw
            have habs : (signed negative (ofDigits whole)).natAbs = ofDigits whole := by
              rw [signed]
              split <;> simp
            show (signed negative (ofDigits whole)).natAbs < _
            rw [habs]
            exact Nat.lt_of_lt_of_le hlt (Nat.pow_le_pow_right (by decide) (Nat.not_lt.mp hlen))
      · next hnil =>
          rw [if_neg hnil] at htaken
          simp only [Option.some.injEq, Except.ok.injEq, Prod.mk.injEq] at h
          obtain ⟨rfl, rfl⟩ := h
          exact ⟨htaken, Double.canonical_ofDecimal _ _ _⟩

/-- What the reader takes for a literal. -/
theorem literal_ok {s : List Point} {offset : Nat} {x : Scalar} {stop : Cursor}
    (h : literal s offset = .ok (x, stop)) : Takes s offset stop ∧ x.Readable := by
  unfold literal at h
  dsimp only at h
  split at h
  · cases h
    exact ⟨takes_word ['n', 'u', 'l', 'l'] _ _ (by decide), trivial⟩
  · cases h
    exact ⟨takes_word ['t', 'r', 'u', 'e'] _ _ (by decide), trivial⟩
  · cases h
    exact ⟨takes_word ['f', 'a', 'l', 's', 'e'] _ _ (by decide), trivial⟩
  · cases h
    exact ⟨takes_word ['N', 'a', 'N'] _ _ (by decide), trivial⟩
  · cases h
    exact ⟨takes_word (Text.ofString "Infinity").toList _ _ (by decide), trivial⟩
  · cases h
    exact ⟨takes_word (Text.ofString "-Infinity").toList _ _ (by decide), trivial⟩
  · next rest _ =>
      cases hn : number? true rest (offset + 1) with
      | none => rw [hn] at h; cases h
      | some result =>
          rw [hn] at h
          change result = _ at h
          subst h
          obtain ⟨htaken, hread⟩ := number?_ok hn
          exact ⟨Takes.cons (by decide) htaken, hread⟩
  · cases hn : number? false s offset with
    | none => rw [hn] at h; cases h
    | some result =>
        rw [hn] at h
        change result = _ at h
        subst h
        exact number?_ok hn

end Json
end LocaleKeys
