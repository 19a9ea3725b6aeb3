import LocaleKeys.Json.Printer
import LocaleKeys.Proofs.Json.Literal

/-!
Written numbers are read back. A number ends where the text goes on with something that cannot
belong to it; the layouts of a double all denote the decimal number of their digits.
-/

namespace LocaleKeys.Json

open Number Double

/-- A text that cannot go on a number. -/
def Delimited (rest : List Point) : Prop :=
  ∀ c ∈ rest.head?, c.isDigit = false ∧ c ≠ '.' ∧ c ≠ 'e' ∧ c ≠ 'E'

theorem wholeDigits_append {digits rest : List Point} (hd : ∀ c ∈ digits, c.isDigit = true)
    (hzero : digits = [Point.char '0'] ∨ digits.head? ≠ some (Point.char '0')) (hne : digits ≠ [])
    (stop : ∀ c ∈ rest.head?, c.isDigit = false) :
    wholeDigits (digits ++ rest) = (digits, rest) := by
  cases hzero with
  | inl zero =>
      subst zero
      rfl
  | inr other =>
      simp only [wholeDigits]
      split
      · next tail heq =>
          have hhead : (digits ++ rest).head? = digits.head? :=
            List.head?_append_of_ne_nil digits hne
          rw [heq] at hhead
          exact absurd hhead.symm other
      · exact spanDigits_append hd stop

theorem fractionDigits_append {digits rest : List Point} (hd : ∀ c ∈ digits, c.isDigit = true)
    (hne : digits ≠ []) (stop : ∀ c ∈ rest.head?, c.isDigit = false) :
    fractionDigits (Point.char '.' :: (digits ++ rest)) = (digits, rest) := by
  simp only [fractionDigits, spanDigits_append hd stop, hne, if_false]

theorem fractionDigits_none {rest : List Point} (h : rest.head? ≠ some (Point.char '.')) :
    fractionDigits rest = ([], rest) := by
  simp only [fractionDigits]
  split
  · exact absurd rfl h
  · rfl

theorem exponentDigits_none {rest : List Point} (h : ∀ c ∈ rest.head?, c ≠ 'e' ∧ c ≠ 'E')
    (offset : Nat) : exponentDigits rest offset = none := by
  cases rest with
  | nil => rfl
  | cons c rest => simp [exponentDigits, h c rfl]

theorem exponentDigits_append {digits rest : List Point} (hd : ∀ c ∈ digits, c.isDigit = true)
    (hne : digits ≠ []) (stop : ∀ c ∈ rest.head?, c.isDigit = false) (negative : Bool)
    (offset : Nat) :
    ∃ stop, exponentDigits (Point.char 'e' :: (if negative then '-' else '+') :: (digits ++ rest)) offset =
      some (negative, digits, ⟨rest, stop⟩) := by
  cases negative <;>
    simp [exponentDigits, exponentSign, spanDigits_append hd stop, hne]

/-- Digits without a point or an exponent make an integer. -/
theorem number?_integer {digits rest : List Point} (hd : ∀ c ∈ digits, c.isDigit = true)
    (hzero : digits = [Point.char '0'] ∨ digits.head? ≠ some (Point.char '0')) (hne : digits ≠ [])
    (hlen : digits.length ≤ maxDigits) (hrest : Delimited rest) (negative : Bool) (offset : Nat) :
    ∃ stop, number? negative (digits ++ rest) offset =
      some (.ok (.int (signed negative (ofDigits digits)), ⟨rest, stop⟩)) := by
  have hwhole := wholeDigits_append hd hzero hne fun c hc => (hrest c hc).1
  have hfraction : fractionDigits rest = ([], rest) :=
    fractionDigits_none fun h => (hrest '.' h).2.1 rfl
  have hexp := exponentDigits_none fun c hc => (hrest c hc).2.2
  simp [number?, hwhole, hfraction, hexp, hne, Nat.not_lt.mpr hlen]

/-- Digits on both sides of a point make a double. -/
theorem number?_decimal (whole fraction : List Point) {rest : List Point}
    (hw : ∀ c ∈ whole, c.isDigit = true)
    (hzero : whole = [Point.char '0'] ∨ whole.head? ≠ some (Point.char '0')) (hne : whole ≠ [])
    (hf : ∀ c ∈ fraction, c.isDigit = true) (hfne : fraction ≠ []) (hrest : Delimited rest)
    (negative : Bool) (offset : Nat) :
    ∃ stop, number? negative (whole ++ Point.char '.' :: (fraction ++ rest)) offset =
      some (.ok (.float (toDouble negative whole fraction 0), ⟨rest, stop⟩)) := by
  have hwhole : wholeDigits (whole ++ Point.char '.' :: (fraction ++ rest)) = _ :=
    wholeDigits_append hw hzero hne (by simp)
  have hfraction := fractionDigits_append hf hfne fun c hc => (hrest c hc).1
  have hexp := exponentDigits_none fun c hc => (hrest c hc).2.2
  simp [number?, hwhole, hfraction, hexp, hne, hfne]

/-- One digit, perhaps more behind a point, and an exponent make a double. -/
theorem number?_scientific {first : Point} {others digits rest : List Point}
    (hfirst : first.isDigit = true) (hzero : first ≠ '0')
    (hothers : ∀ c ∈ others, c.isDigit = true) (hd : ∀ c ∈ digits, c.isDigit = true)
    (hne : digits ≠ []) (hrest : Delimited rest) (negative negativeExponent : Bool)
    (offset : Nat) :
    ∃ stop, number? negative ((if others = [] then [first] else first :: Point.char '.' :: others) ++
        Point.char 'e' :: (if negativeExponent then '-' else '+') :: (digits ++ rest)) offset =
      some (.ok (.float (toDouble negative [first] others
        (signed negativeExponent (ofDigits digits))), ⟨rest, stop⟩)) := by
  have htail : ∀ c ∈ (('e' : Point) :: (if negativeExponent then '-' else '+') ::
      (digits ++ rest)).head?, c.isDigit = false := by simp
  have hw : ∀ c ∈ [first], c.isDigit = true := by simpa using hfirst
  have hz : [first] = [Point.char '0'] ∨ [first].head? ≠ some (Point.char '0') :=
      Or.inr (by simpa using hzero)
  by_cases hnone : others = []
  · have hwhole := wholeDigits_append hw hz (by simp) htail
    have hfraction : fractionDigits (Point.char 'e' :: (if negativeExponent then '-' else '+') ::
        (digits ++ rest)) = _ := fractionDigits_none (by simp)
    obtain ⟨stop, hexp⟩ := exponentDigits_append hd hne (fun c hc => (hrest c hc).1)
      negativeExponent (offset + 1)
    simp only [List.cons_append, List.nil_append] at hwhole
    refine ⟨stop, ?_⟩
    simp [number?, hnone, hwhole, hfraction, hexp]
  · have hwhole : wholeDigits ([first] ++ Point.char '.' :: (others ++ Point.char 'e' ::
        (if negativeExponent then '-' else '+') :: (digits ++ rest))) = _ :=
      wholeDigits_append hw hz (by simp) (by simp)
    have hfraction := fractionDigits_append hothers hnone htail
    obtain ⟨stop, hexp⟩ := exponentDigits_append hd hne (fun c hc => (hrest c hc).1)
      negativeExponent (offset + 1 + (others.length + 1))
    simp only [List.cons_append, List.nil_append] at hwhole
    refine ⟨stop, ?_⟩
    simp [number?, hnone, hwhole, hfraction, hexp]

/-! Doubles -/

theorem exponentText_spec (exponent : Int) :
    ∃ (negative : Bool) (digits : List Point),
      exponentText exponent = (if negative then Point.char '-' else '+') :: digits ∧
      (∀ c ∈ digits, c.isDigit = true) ∧ digits ≠ [] ∧
      signed negative (ofDigits digits) = exponent := by
  let plain := Text.digits exponent.natAbs
  let padded := if plain.length < 2 then Point.char '0' :: plain else plain
  have hdigit : ∀ c ∈ plain, c.isDigit = true := fun c hc => isDigit_of_mem_toDigits hc
  have hpadded : (∀ c ∈ padded, c.isDigit = true) ∧ padded ≠ [] ∧
      ofDigits padded = exponent.natAbs := by
    by_cases short : plain.length < 2
    · have hp : padded = List.replicate 1 (Point.char '0') ++ plain := if_pos short
      rw [hp, ofDigits_zeros_append]
      refine ⟨?_, by simp, ofDigits_toDigits _⟩
      intro c hc
      cases List.mem_append.mp hc with
      | inl zero =>
          rw [(List.mem_replicate.mp zero).2]
          rfl
      | inr digit => exact hdigit c digit
    · have hp : padded = plain := if_neg short
      rw [hp]
      exact ⟨hdigit, digits_ne_nil, ofDigits_toDigits _⟩
  refine ⟨decide (exponent < 0), padded, ?_, hpadded.1, hpadded.2.1, ?_⟩
  · by_cases h : exponent < 0 <;> simp only [exponentText, h] <;> rfl
  · rw [hpadded.2.2]
    rw [signed]
    split
    · next h =>
        have := of_decide_eq_true h
        omega
    · next h =>
        have := of_decide_eq_false (Bool.not_eq_true _ ▸ h)
        omega

theorem isDigit_of_mem_zeros (k : Nat) : ∀ c ∈ List.replicate k (Point.char '0'), c.isDigit = true := by
  intro c hc
  rw [(List.mem_replicate.mp hc).2]
  rfl

section Layout

variable {digits rest : List Point} (hd : ∀ c ∈ digits, c.isDigit = true) (hne : digits ≠ [])
  (hhead : digits.head? ≠ some (Point.char '0')) (hrest : Delimited rest) (negative : Bool) (offset : Nat)

include hd hne hrest

/-- All digits behind the point, after some zeros. -/
theorem number?_behindPoint (zeros : Nat) :
    ∃ stop, number? negative (Point.char '0' :: Point.char '.' ::
        (List.replicate zeros (.char '0') ++ (digits ++ rest))) offset =
      some (.ok (.float (ofDecimal negative (ofDigits digits) (-(zeros : Int) - digits.length)),
        ⟨rest, stop⟩)) := by
  obtain ⟨stop, h⟩ := number?_decimal [Point.char '0'] (List.replicate zeros (.char '0') ++ digits) (by simp)
    (Or.inl rfl) (by simp)
    (fun c hc => (List.mem_append.mp hc).elim (isDigit_of_mem_zeros zeros c) (hd c))
    (by simp [hne]) hrest negative offset
  refine ⟨stop, ?_⟩
  simp only [List.cons_append, List.nil_append, List.append_assoc] at h
  rw [h, toDouble, List.singleton_append, ← List.cons_append, ← List.replicate_succ,
    ofDigits_zeros_append, List.length_append, List.length_replicate]
  congr 5
  omega

include hhead

/-- All digits before the point, with some zeros after them. -/
theorem number?_beforePoint (zeros : Nat) :
    ∃ stop, number? negative
        (digits ++ (List.replicate zeros (.char '0') ++ Point.char '.' :: Point.char '0' :: rest)) offset =
      some (.ok (.float (ofDecimal negative (ofDigits digits) zeros), ⟨rest, stop⟩)) := by
  obtain ⟨stop, h⟩ := number?_decimal (digits ++ List.replicate zeros (.char '0')) ['0']
    (fun c hc => (List.mem_append.mp hc).elim (hd c) (isDigit_of_mem_zeros zeros c))
    (Or.inr (by rwa [List.head?_append_of_ne_nil _ hne])) (by simp [hne]) (by simp) (by simp)
    hrest negative offset
  refine ⟨stop, ?_⟩
  simp only [List.cons_append, List.nil_append, List.append_assoc] at h
  have hpad : List.replicate zeros (.char '0') ++ [Point.char '0'] = List.replicate (zeros + 1) (.char '0') :=
    List.replicate_succ'.symm
  rw [h, toDouble, List.append_assoc, hpad, ofDigits_append_zeros]
  congr 4
  -- One zero more in the digits stands for one place less in the scale.
  apply ofDecimal_congr
  push_cast
  rw [pow_succ, zpow_natCast, List.length_singleton]
  norm_num
  ring

/-- The point between the digits. -/
theorem number?_amidst (whole : Nat) (hpos : whole ≠ 0) (hlen : whole < digits.length) :
    ∃ stop, number? negative (digits.take whole ++ Point.char '.' :: (digits.drop whole ++ rest)) offset =
      some (.ok (.float (ofDecimal negative (ofDigits digits) ((whole : Int) - digits.length)),
        ⟨rest, stop⟩)) := by
  obtain ⟨stop, h⟩ := number?_decimal (digits.take whole) (digits.drop whole)
    (fun c hc => hd c (List.mem_of_mem_take hc))
    (Or.inr (by rwa [List.head?_take, if_neg hpos])) (by simp [hne, hpos])
    (fun c hc => hd c (List.mem_of_mem_drop hc)) (by simpa using hlen) hrest negative offset
  refine ⟨stop, ?_⟩
  rw [h, toDouble, List.take_append_drop, List.length_drop]
  congr 5
  omega

/-- A double that is read from a layout has the value of the digits with the point in its place. -/
theorem number?_layout (point : Int) :
    ∃ stop, number? negative (layout digits point ++ rest) offset =
      some (.ok (.float (ofDecimal negative (ofDigits digits) (point - digits.length)),
        ⟨rest, stop⟩)) := by
  simp only [layout]
  split
  · split
    · next below =>
        have h := number?_behindPoint hd hne hrest negative offset (-point).toNat
        rw [show -((-point).toNat : Int) = point by omega] at h
        simpa only [List.cons_append, List.append_assoc] using h
    · next above =>
        obtain ⟨whole, rfl⟩ : ∃ whole : Nat, point = whole := ⟨point.toNat, by omega⟩
        simp only [Int.toNat_natCast]
        split
        · next padded =>
            have h := number?_beforePoint hd hne hhead hrest negative offset
              (whole - digits.length)
            rw [Nat.cast_sub padded] at h
            simpa only [List.cons_append, List.nil_append, List.append_assoc] using h
        · next inside =>
            have h := number?_amidst hd hne hhead hrest negative offset whole (by omega)
              (not_le.mp inside)
            simpa only [List.cons_append, List.append_assoc] using h
  · obtain ⟨negativeExponent, shown, htext, hshown, hshownNe, hvalue⟩ :=
      exponentText_spec (point - 1)
    cases digits with
    | nil => exact absurd rfl hne
    | cons first others =>
        have hfirst : first ≠ '0' := by simpa using hhead
        obtain ⟨stop, h⟩ := number?_scientific (hd first List.mem_cons_self) hfirst
          (fun c hc => hd c (List.mem_cons_of_mem _ hc)) hshown hshownNe hrest negative
          negativeExponent offset
        refine ⟨stop, ?_⟩
        simp only [htext, List.cons_append, List.append_assoc] at h ⊢
        rw [h, hvalue, toDouble, List.singleton_append, List.length_cons]
        congr 5
        omega

end Layout

/-- The text of a finite double without its sign. -/
def magnitudeText (m : Nat) (e : Int) : List Point :=
  if m = 0 then ['0', '.', '0']
  else layout (shortest m e).significant.1 (shortest m e).significant.2

theorem floatText_finite (negative : Bool) (m : Nat) (e : Int) :
    floatText (.finite negative m e) =
      if negative then Point.char '-' :: magnitudeText m e else magnitudeText m e := rfl

theorem number?_magnitudeText {m : Nat} {e : Int} (canonical : Canonical (.finite false m e))
    {rest : List Point} (hrest : Delimited rest) (negative : Bool) (offset : Nat) :
    ∃ stop, number? negative (magnitudeText m e ++ rest) offset =
      some (.ok (.float (.finite negative m e), ⟨rest, stop⟩)) := by
  rw [magnitudeText]
  split
  · next hm =>
      have he : e = minExponent := by
        cases canonical.2.2.2 with
        | inl h => exact h
        | inr h =>
            rw [hm] at h
            exact absurd h (by decide)
      obtain ⟨stop, h⟩ := number?_decimal [Point.char '0'] ['0'] (by simp)
        (Or.inl rfl) (by simp) (by simp) (by simp) hrest negative offset
      refine ⟨stop, ?_⟩
      subst hm he
      exact h
  · next hm =>
      have hreads := reads_shortest hm canonical
      have hdigits : (shortest m e).digits ≠ 0 := by
        intro zero
        rw [zero, ofDecimal, if_pos rfl] at hreads
        cases hreads
        exact hm rfl
      obtain ⟨digits, zeros, hsig, hvalue, hd, hne, hhead⟩ :=
        significant_spec (shortest m e) hdigits
      rw [hsig]
      obtain ⟨stop, h⟩ := number?_layout hd hne hhead hrest negative offset
        ((digits.length + zeros : Nat) + (shortest m e).scale)
      refine ⟨stop, ?_⟩
      rw [h]
      congr 4
      rw [← ofDecimal_sign negative hreads]
      apply ofDecimal_congr
      rw [hvalue, show
        ((digits.length + zeros : Nat) : Int) + (shortest m e).scale - digits.length =
        (zeros : Int) + (shortest m e).scale by push_cast; omega, zpow_add₀ (by norm_num),
        zpow_natCast]
      push_cast
      ring

/-! Literals -/

theorem isDigit_of_number? {negative : Bool} {c : Point} {s : List Point} {offset : Nat}
    {r : Except Fault (Scalar × Cursor)} (h : number? negative (c :: s) offset = some r) :
    c.isDigit = true := by
  obtain ⟨heq, hd⟩ := wholeDigits_spec (c :: s)
  cases hw : (wholeDigits (c :: s)).1 with
  | nil => simp [number?, hw] at h
  | cons d digits =>
      rw [hw] at heq hd
      rw [(List.cons.inj heq).1]
      exact hd d List.mem_cons_self

theorem literal_of_number? {s : List Point} {offset : Nat} {r : Except Fault (Scalar × Cursor)}
    (h : number? false s offset = some r) : literal s offset = r := by
  cases s with
  | nil => cases h
  | cons c s =>
      have hd := isDigit_of_number? h
      unfold literal
      dsimp only
      split
      all_goals first
        | (next heq => cases heq; exact absurd hd (by decide))
        | rw [h]; rfl

theorem literal_minus_of_number? {s : List Point} {offset : Nat}
    {r : Except Fault (Scalar × Cursor)} (h : number? true s (offset + 1) = some r) :
    literal (Point.char '-' :: s) offset = r := by
  cases s with
  | nil => cases h
  | cons c s =>
      have hd := isDigit_of_number? h
      unfold literal
      dsimp only
      split
      · next heq => cases heq
      · next heq => cases heq
      · next heq => cases heq
      · next heq => cases heq
      · next heq => cases heq
      · next heq =>
          cases heq
          exact absurd hd (by decide)
      · next heq =>
          cases heq
          rw [h]
          rfl
      · next other => exact absurd rfl (other (c :: s))

/-- An integer that is not too long is read back. -/
theorem literal_intText {n : Int} (hn : n.natAbs < 10 ^ maxDigits) {rest : List Point}
    (hrest : Delimited rest) (offset : Nat) :
    ∃ stop, literal (intText n ++ rest) offset = .ok (.int n, ⟨rest, stop⟩) := by
  have natural : ∀ k < 10 ^ maxDigits, ∀ negative offset, ∃ stop,
      number? negative (Text.digits k ++ rest) offset =
        some (.ok (.int (signed negative k), ⟨rest, stop⟩)) := by
    intro k hk negative offset
    have hzero : Text.digits k = [Point.char '0'] ∨ (Text.digits k).head? ≠ some (Point.char '0') := by
      by_cases h : k = 0
      · exact Or.inl (by rw [h]; rfl)
      · exact Or.inr (head?_toDigits h)
    have hlen := (length_digits_le (by decide)).mpr hk
    have h := number?_integer (fun _ => isDigit_of_mem_toDigits) hzero digits_ne_nil hlen
      hrest negative offset
    rwa [ofDigits_toDigits] at h
  cases n with
  | ofNat k =>
      obtain ⟨stop, h⟩ := natural k hn false offset
      exact ⟨stop, literal_of_number? h⟩
  | negSucc k =>
      obtain ⟨stop, h⟩ := natural (k + 1) hn true (offset + 1)
      exact ⟨stop, literal_minus_of_number? h⟩

/-- A double is read back. -/
theorem literal_floatText {x : Double} (canonical : x.Canonical) {rest : List Point}
    (hrest : Delimited rest) (offset : Nat) :
    ∃ stop, literal (floatText x ++ rest) offset = .ok (.float x, ⟨rest, stop⟩) := by
  cases x with
  | nan => exact ⟨_, rfl⟩
  | infinite negative => cases negative <;> exact ⟨_, rfl⟩
  | finite negative m e =>
      rw [floatText_finite]
      cases negative with
      | false =>
          obtain ⟨stop, h⟩ := number?_magnitudeText canonical hrest false offset
          exact ⟨stop, literal_of_number? h⟩
      | true =>
          obtain ⟨stop, h⟩ := number?_magnitudeText canonical hrest true (offset + 1)
          exact ⟨stop, literal_minus_of_number? h⟩

end LocaleKeys.Json
