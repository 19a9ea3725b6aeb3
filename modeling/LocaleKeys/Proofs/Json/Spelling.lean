import LocaleKeys.Json.Printer
import LocaleKeys.Json.Reader
import LocaleKeys.Proofs.Text.Point

/-!
The spellings of a string between its quotes, as a grammar without places or lookahead beyond the
text itself. The reader accepts exactly these spellings, and the writer produces one of them.
-/

namespace LocaleKeys.Json

/-- The escape of the second half of a pair stands at the start of a text. -/
def LowFollows (raw : List Point) : Prop :=
  ∃ a b c d more low, raw = Point.char '\\' :: Point.char 'u' :: a :: b :: c :: d :: more ∧
    hexValue4? a b c d = some low ∧ 0xdc00 ≤ low ∧ low < 0xe000

/-- The characters between two quotes, and the string that they spell. -/
inductive Spells : List Point → List Point → Prop
  | nil : Spells [] []
  | plain {c : Point} {raw cs : List Point} (hq : c ≠ '"') (hb : c ≠ '\\') (hc : 0x20 ≤ c.toNat)
      (more : Spells raw cs) : Spells (c :: raw) (c :: cs)
  | letter {c d : Point} {raw cs : List Point} (hd : letterEscape? c = some d)
      (more : Spells raw cs) : Spells (Point.char '\\' :: c :: raw) (d :: cs)
  | unit {a b c d : Point} {u : Nat} {raw cs : List Point} (hu : hexValue4? a b c d = some u)
      (alone : 0xd800 ≤ u → u < 0xdc00 → ¬ LowFollows raw) (more : Spells raw cs) :
      Spells (Point.char '\\' :: Point.char 'u' :: a :: b :: c :: d :: raw) (Point.ofNat u :: cs)
  | pair {a b c d e f g h : Point} {high low : Nat} {raw cs : List Point}
      (hh : hexValue4? a b c d = some high) (highBounds : 0xd800 ≤ high ∧ high < 0xdc00)
      (hl : hexValue4? e f g h = some low) (lowBounds : 0xdc00 ≤ low ∧ low < 0xe000)
      (more : Spells raw cs) :
      Spells (Point.char '\\' :: Point.char 'u' :: a :: b :: c :: d :: Point.char '\\' ::
        Point.char 'u' :: e :: f :: g :: h :: raw)
        (pairChar high low :: cs)

theorem stringBody_skip (start : Nat) (taken rest : List Point) (offset : Nat) :
    stringBody start taken.length (taken ++ rest) offset =
      stringBody start 0 rest (offset + taken.length) := by
  induction taken generalizing offset with
  | nil => rfl
  | cons c taken ih =>
      simp only [List.length_cons, List.cons_append, stringBody, ih]
      congr 1
      omega

/-- What an accepted escape looks like behind its backslash. -/
inductive Escaped : List Point → Point → Nat → Prop
  | letter {c d : Point} {rest : List Point} (hd : letterEscape? c = some d) :
      Escaped (c :: rest) d 1
  | unit {a b c d e : Point} {u : Nat} {rest : List Point} (hu : hexValue4? a b c d = some u)
      (alone : 0xd800 ≤ u → u < 0xdc00 → ∀ a b c d tail low, tail ≠ [] →
        e :: rest = Point.char '\\' :: Point.char 'u' :: a :: b :: c :: d :: tail →
        hexValue4? a b c d = some low → ¬ (0xdc00 ≤ low ∧ low < 0xe000)) :
      Escaped (Point.char 'u' :: a :: b :: c :: d :: e :: rest) (.ofNat u) 5
  | pair {a b c d e f g h i : Point} {high low : Nat} {rest : List Point}
      (hh : hexValue4? a b c d = some high) (highBounds : 0xd800 ≤ high ∧ high < 0xdc00)
      (hl : hexValue4? e f g h = some low) (lowBounds : 0xdc00 ≤ low ∧ low < 0xe000) :
      Escaped (Point.char 'u' :: a :: b :: c :: d :: Point.char '\\' :: Point.char 'u' :: e :: f ::
        g :: h :: i :: rest)
        (pairChar high low) 11

theorem escaped_of_codeEscape {s : List Point} {offset : Nat} {d : Point} {length : Nat}
    (h : codeEscape s offset = .ok (d, length)) : Escaped (Point.char 'u' :: s) d length := by
  simp only [codeEscape] at h
  split at h
  · next a b c d e more =>
      split at h
      · cases h
      · next u hu =>
          split at h
          · next surrogate =>
              split at h
              · next heq =>
                  split at h
                  · cases h
                  · next low hl =>
                      split at h
                      · next bounds =>
                          simp only [Except.ok.injEq, Prod.mk.injEq] at h
                          obtain ⟨rfl, rfl⟩ := h
                          rw [heq]
                          exact .pair hu surrogate hl bounds
                      · next outside =>
                          cases h
                          refine .unit hu fun _ _ a b c d tail low' _ same hl' => ?_
                          rw [heq] at same
                          cases same
                          rw [hl] at hl'
                          cases hl'
                          exact outside
              · next none =>
                  cases h
                  refine .unit hu fun _ _ a b c d tail low hne same _ => ?_
                  cases tail with
                  | nil => exact absurd rfl hne
                  | cons f more => exact absurd same (none a b c d f more)
          · next plain =>
              cases h
              exact .unit hu fun low high => absurd ⟨low, high⟩ plain
  · cases h

theorem escaped_of_escape {start : Nat} {s : List Point} {offset : Nat} {d : Point} {length : Nat}
    (h : escape start s offset = .ok (d, length)) : Escaped s d length := by
  simp only [escape] at h
  split at h
  · cases h
  · exact escaped_of_codeEscape h
  · split at h
    · next hd => cases h; exact .letter hd
    · cases h

/-- A spelling goes on behind an escape, when what follows it is read as a string. -/
theorem spells_escape {start : Nat} {s : List Point} {offset : Nat} {d : Point} {length : Nat}
    {cs : List Point} {stop : Cursor} (hesc : Escaped s d length)
    (hbody : stringBody start length s (offset + 1) = .ok (cs, stop))
    (ih : ∀ more offset cs stop, more.length < (Point.char '\\' :: s).length →
      stringBody start 0 more offset = .ok (cs, stop) →
      ∃ raw, Spells raw cs ∧ more = raw ++ Point.char '"' :: stop.rest ∧
        stop.offset = offset + raw.length + 1) :
    ∃ raw, Spells raw (d :: cs) ∧ Point.char '\\' :: s = raw ++ Point.char '"' :: stop.rest ∧
      stop.offset = offset + raw.length + 1 := by
  cases hesc with
  | @letter c _ rest hd =>
      have hskip := stringBody_skip start [c] rest (offset + 1)
      rw [show stringBody start 1 (c :: rest) (offset + 1) = _ from hskip] at hbody
      obtain ⟨raw, hraw, rfl, hstop⟩ := ih rest _ _ _ (by simp only [List.length_cons]; omega) hbody
      refine ⟨Point.char '\\' :: c :: raw, .letter hd hraw, rfl, ?_⟩
      simp only [hstop, List.length_cons, List.length_nil]
      omega
  | @unit a b c e f u rest hu alone =>
      have hskip := stringBody_skip start [Point.char 'u', a, b, c, e] (f :: rest) (offset + 1)
      rw [show stringBody start 5 (Point.char 'u' :: a :: b :: c :: e :: f :: rest) (offset + 1) = _
        from hskip] at hbody
      obtain ⟨raw, hraw, hmore, hstop⟩ := ih (f :: rest) _ _ _ (by simp) hbody
      refine ⟨Point.char '\\' :: Point.char 'u' :: a :: b :: c :: e :: raw, .unit hu ?_ hraw,
        by simp [hmore], ?_⟩
      · rintro low high ⟨a', b', c', e', more, v, rfl, hv, bounds⟩
        exact alone low high a' b' c' e' (more ++ Point.char '"' :: stop.rest) v (by simp) hmore hv bounds
      · simp only [hstop, List.length_cons, List.length_nil]
        omega
  | @pair a b c e f g i j k high low rest hh highBounds hl lowBounds =>
      have hskip := stringBody_skip start [Point.char 'u', a, b, c, e, '\\', 'u', f, g, i, j] (k :: rest)
        (offset + 1)
      rw [show stringBody start 11 (Point.char 'u' :: a :: b :: c :: e :: Point.char '\\' ::
        Point.char 'u' :: f :: g :: i :: j ::
        k :: rest) (offset + 1) = _ from hskip] at hbody
      obtain ⟨raw, hraw, hmore, hstop⟩ := ih (k :: rest) _ _ _ (by simp) hbody
      refine ⟨Point.char '\\' :: Point.char 'u' :: a :: b :: c :: e :: Point.char '\\' ::
        Point.char 'u' :: f :: g :: i :: j :: raw,
        .pair hh highBounds hl lowBounds hraw, by simp [hmore], ?_⟩
      simp only [hstop, List.length_cons, List.length_nil]
      omega

/-- What follows the opening quote of an accepted string is a spelling and the closing quote. -/
theorem spells_of_stringBody {start : Nat} {s : List Point} {offset : Nat} {cs : List Point}
    {stop : Cursor} (h : stringBody start 0 s offset = .ok (cs, stop)) :
    ∃ raw, Spells raw cs ∧ s = raw ++ Point.char '"' :: stop.rest ∧
      stop.offset = offset + raw.length + 1 := by
  -- On the length, as an escape takes several characters at once.
  induction n : s.length using Nat.strongRecOn generalizing s offset cs stop with
  | ind n ih =>
      subst n
      cases s with
      | nil => simp [stringBody] at h
      | cons c rest =>
          rw [stringBody] at h
          split at h
          · next hq =>
              cases h
              exact ⟨[], .nil, by simp [hq], rfl⟩
          · next hq =>
              split at h
              · next hb =>
                  subst hb
                  split at h
                  · cases h
                  · next d length hesc =>
                      split at h
                      · next cs' stop' hbody =>
                          cases h
                          exact spells_escape (escaped_of_escape hesc) hbody
                            fun more offset cs' stop' hlt hmore => ih more.length hlt hmore rfl
                      · cases h
              · next hb =>
                  split at h
                  · cases h
                  · next hc =>
                      split at h
                      · next cs' stop' hbody =>
                          cases h
                          obtain ⟨raw, hraw, rfl, hstop⟩ := ih rest.length (by simp) hbody rfl
                          refine ⟨c :: raw, .plain hq hb (by omega) hraw, rfl, ?_⟩
                          simp only [hstop, List.length_cons]
                          omega
                      · cases h

/-- A text that starts like the escape of a code unit, and spells something, has its digits. -/
theorem Spells.digits_of_escape {raw cs tail more : List Point} {a b c d : Point}
    (h : Spells raw cs) (same : raw ++ Point.char '"' :: tail =
      Point.char '\\' :: Point.char 'u' :: a :: b :: c :: d :: more) :
    ∃ rest u, raw = Point.char '\\' :: Point.char 'u' :: a :: b :: c :: d :: rest ∧
      hexValue4? a b c d = some u := by
  cases h with
  | nil => simp at same
  | plain hq hb hc _ =>
      simp only [List.cons_append, List.cons.injEq] at same
      exact absurd same.1 hb
  | letter hd _ =>
      simp only [List.cons_append, List.cons.injEq, true_and] at same
      rw [same.1] at hd
      simp [letterEscape?] at hd
  | unit hu alone _ =>
      simp only [List.cons_append, List.cons.injEq, true_and] at same
      obtain ⟨rfl, rfl, rfl, rfl, -⟩ := same
      exact ⟨_, _, rfl, hu⟩
  | pair hh highBounds hl lowBounds _ =>
      simp only [List.cons_append, List.cons.injEq, true_and] at same
      obtain ⟨rfl, rfl, rfl, rfl, -⟩ := same
      exact ⟨_, _, rfl, hh⟩

theorem codeEscape_unit {a b c d : Point} {u : Nat} {raw cs : List Point}
    (hu : hexValue4? a b c d = some u)
    (alone : 0xd800 ≤ u → u < 0xdc00 → ¬ LowFollows raw) (h : Spells raw cs)
    (rest : List Point) (offset : Nat) :
    codeEscape (a :: b :: c :: d :: (raw ++ Point.char '"' :: rest)) offset = .ok (.ofNat u, 5) := by
  obtain ⟨e, more, heq⟩ : ∃ e more, raw ++ Point.char '"' :: rest = e :: more := by
    cases raw with
    | nil => exact ⟨_, _, rfl⟩
    | cons e more => exact ⟨e, more ++ Point.char '"' :: rest, rfl⟩
  rw [heq]
  simp only [codeEscape, hu]
  split
  · next surrogate =>
      split
      · next a' b' c' d' f more' same =>
          obtain ⟨tail, low, hraw, hlow⟩ := h.digits_of_escape (heq.trans same)
          simp only [hlow]
          split
          · next bounds =>
              exact absurd ⟨_, _, _, _, _, _, hraw, hlow, bounds⟩ (alone surrogate.1 surrogate.2)
          · rfl
      · rfl
  · rfl

theorem stringBody_escape {start offset : Nat} (taken : List Point) {rest cs : List Point} {d : Point}
    {stop : Cursor} (hesc : escape start (taken ++ rest) offset = .ok (d, taken.length))
    (hbody : stringBody start 0 rest (offset + 1 + taken.length) = .ok (cs, stop)) :
    stringBody start 0 (Point.char '\\' :: (taken ++ rest)) offset = .ok (d :: cs, stop) := by
  have hskip := stringBody_skip start taken rest (offset + 1)
  rw [hbody] at hskip
  rw [stringBody, if_neg (by decide), if_pos rfl, hesc]
  simp only [hskip]

/-- The reader accepts every spelling up to the closing quote, whatever follows. -/
theorem stringBody_of_spells {raw cs : List Point} (h : Spells raw cs) (start : Nat)
    (rest : List Point) (offset : Nat) :
    stringBody start 0 (raw ++ Point.char '"' :: rest) offset =
      .ok (cs, ⟨rest, offset + raw.length + 1⟩) := by
  induction h generalizing offset with
  | nil => simp [stringBody]
  | plain hq hb hc _ ih =>
      simp [stringBody, hq, hb, Nat.not_lt.mpr hc, ih, Nat.add_assoc, Nat.add_comm 1]
  | @letter c d raw cs hd _ ih =>
      have hu : c ≠ 'u' := by
        rintro rfl
        simp [letterEscape?] at hd
      have hesc : escape start ([c] ++ (raw ++ Point.char '"' :: rest)) offset = .ok (d, 1) := by
        simp only [List.singleton_append]
        unfold escape
        split
        · next heq => cases heq
        · next heq => cases heq; exact absurd rfl hu
        · next heq => cases heq; rw [hd]
      rw [show offset + (Point.char '\\' :: c :: raw).length + 1 = offset + 1 + [c].length + raw.length + 1
        by simp only [List.length_cons, List.length_nil]; omega]
      exact stringBody_escape [c] hesc (ih _)
  | @unit a b c d u raw cs hu alone more ih =>
      have hesc : escape start ([Point.char 'u', a, b, c, d] ++ (raw ++ Point.char '"' :: rest)) offset =
          .ok (.ofNat u, 5) := codeEscape_unit hu alone more rest (offset + 1)
      rw [show offset + (Point.char '\\' :: Point.char 'u' :: a :: b :: c :: d :: raw).length + 1 =
        offset + 1 + [Point.char 'u', a, b, c, d].length + raw.length + 1
        by simp only [List.length_cons, List.length_nil]; omega]
      exact stringBody_escape [Point.char 'u', a, b, c, d] hesc (ih _)
  | @pair a b c d e f g h high low raw cs hh highBounds hl lowBounds _ ih =>
      have hesc : escape start ([Point.char 'u', a, b, c, d, '\\', 'u', e, f, g, h] ++
          (raw ++ Point.char '"' :: rest))
          offset = .ok (pairChar high low, 11) := by
        cases raw <;> simp [escape, codeEscape, hh, hl, highBounds, lowBounds]
      rw [show offset + (Point.char '\\' :: Point.char 'u' :: a :: b :: c :: d :: Point.char '\\' ::
        Point.char 'u' :: e :: f :: g :: h ::
        raw).length + 1 = offset + 1 + [Point.char 'u', a, b, c, d, '\\', 'u', e, f, g, h].length +
        raw.length + 1 by simp only [List.length_cons, List.length_nil]; omega]
      exact stringBody_escape [Point.char 'u', a, b, c, d, '\\', 'u', e, f, g, h] hesc (ih _)

theorem hexDigits_four (n : Nat) :
    Text.hexDigits 4 n = [Text.hexDigit (n / 16 / 16 / 16 % 16), Text.hexDigit (n / 16 / 16 % 16),
      Text.hexDigit (n / 16 % 16), Text.hexDigit (n % 16)] := rfl

/-- The digits of a control character are read back. -/
theorem hexValue4?_control : ∀ n < 0x20,
    hexValue4? (Text.hexDigit (n / 16 / 16 / 16 % 16)) (Text.hexDigit (n / 16 / 16 % 16))
      (Text.hexDigit (n / 16 % 16)) (Text.hexDigit (n % 16)) = some n := by
  decide

theorem spells_writeChar (c : Point) {raw cs : List Point} (h : Spells raw cs) :
    Spells (writeChar c ++ raw) (c :: cs) := by
  rw [writeChar]
  split
  · next hc => cases hc <;> (subst c; exact .letter rfl h)
  split
  · next hc => subst hc; exact .letter rfl h
  split
  · next hc => subst hc; exact .letter rfl h
  split
  · next hc => subst hc; exact .letter rfl h
  split
  · next hc => subst hc; exact .letter rfl h
  split
  · next hc => subst hc; exact .letter rfl h
  split
  · next hc =>
      have hu := Spells.unit (hexValue4?_control c.toNat hc) (fun low => by omega) h
      rw [Point.ofNat_toNat] at hu
      rw [hexDigits_four]
      exact hu
  · next hq _ _ _ _ _ hc =>
      simp only [not_or] at hq
      exact .plain hq.1 hq.2 (Nat.not_lt.mp hc) h

/-- What is written for a string is a spelling of it and a quote. -/
theorem writeBody_eq (cs rest : List Point) :
    ∃ raw, Spells raw cs ∧ writeBody cs rest = raw ++ Point.char '"' :: rest := by
  induction cs with
  | nil => exact ⟨[], .nil, rfl⟩
  | cons c cs ih =>
      obtain ⟨raw, hraw, heq⟩ := ih
      exact ⟨writeChar c ++ raw, spells_writeChar c hraw, by simp [writeBody, heq]⟩

end LocaleKeys.Json
