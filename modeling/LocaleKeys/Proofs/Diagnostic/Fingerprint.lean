import LocaleKeys.Diagnostic
import LocaleKeys.Proofs.Number.Digits
import LocaleKeys.Proofs.Text.Split

/-!
What fingerprints tell apart. The rule and the line stand at the two ends of the text that is hashed and
can be read off it. Between them stand the path and the key with a bar in the middle; a bar inside of
either of them may be taken for that one, and this is all that may be mistaken.
-/

namespace LocaleKeys

/-- The ids that rules have: three letters and three digits. -/
def Rule.IsId (id : Text) : Prop :=
  ∃ a b c : Point, (a.isDigit && b.isDigit && c.isDigit) = true ∧
    id = Text.ofList ['L', 'O', 'C', a, b, c]

theorem Kind.isId_rule (kind : Kind) : Rule.IsId kind.rule.id := by
  cases kind with
  | missing => exact ⟨'0', '0', '1', rfl, rfl⟩
  | unused => exact ⟨'0', '0', '2', rfl, rfl⟩
  | partialMissing => exact ⟨'0', '0', '3', rfl, rfl⟩
  | duplicate => exact ⟨'0', '0', '4', rfl, rfl⟩

theorem Rule.IsId.no_bar {id : Text} (h : Rule.IsId id) : Point.char '|' ∉ id.toList := by
  obtain ⟨a, b, c, hdigits, rfl⟩ := h
  simp only [Bool.and_eq_true] at hdigits
  obtain ⟨⟨ha, hb⟩, hc⟩ := hdigits
  have hne : ∀ d : Point, d.isDigit = true → Point.char '|' ≠ d := by
    rintro d hd rfl
    exact absurd hd (by decide)
  simp [hne a ha, hne b hb, hne c hc]

/-- A path as a fingerprint takes it. -/
def slashed (path : Text) : Text :=
  path.map fun c => if c = Point.char '\\' then Point.char '/' else c

/-- What stands in a payload between the rule and the line. -/
def barred (path key : Text) : List Point :=
  (slashed path).toList ++ Point.char '|' :: key.toList

variable {rule rule' path path' key key' : Text} {line line' : Int}

theorem toList_fingerprintPayload (rule path key : Text) (line : Int) :
    (fingerprintPayload rule path key line).toList =
      rule.toList ++ Point.char '|' :: (barred path key ++ Point.char '|' :: Number.intText line) := by
  rw [fingerprintPayload, Text.toList_intercalate]
  simp [barred, slashed, Number.toList_ofInt]

theorem no_bar_intText (line : Int) : Point.char '|' ∉ Number.intText line := by
  intro h
  obtain digit | sign := Number.mem_intText h
  · exact absurd digit (by decide)
  · exact absurd sign (by decide)

/-- The rule is read off the front of a payload and the line off its back. -/
theorem fingerprintPayload_ends (hrule : Point.char '|' ∉ rule.toList)
    (hrule' : Point.char '|' ∉ rule'.toList) :
    fingerprintPayload rule path key line = fingerprintPayload rule' path' key' line' ↔
      rule = rule' ∧ line = line' ∧ barred path key = barred path' key' := by
  rw [← Text.toList_inj, toList_fingerprintPayload, toList_fingerprintPayload]
  constructor
  · intro h
    obtain ⟨hfront, hrest⟩ := Text.append_separator_inj hrule hrule' h
    have hback : ∀ line : Int, Point.char '|' ∉ (Number.intText line).reverse := fun line hbar =>
      no_bar_intText line (List.mem_reverse.mp hbar)
    have hreversed := congrArg List.reverse hrest
    simp only [List.reverse_append, List.reverse_cons, List.append_assoc,
      List.singleton_append] at hreversed
    obtain ⟨hline, hmiddle⟩ := Text.append_separator_inj (hback line) (hback line') hreversed
    exact ⟨Text.toList_injective hfront, Number.intText_injective (List.reverse_injective hline),
      List.reverse_injective hmiddle⟩
  · rintro ⟨rfl, rfl, hmiddle⟩
    rw [hmiddle]

/-- Part of a key, up to a bar in it, counts to the path, and the bar before it too. -/
def Shifted (path key path' key' : Text) : Prop :=
  ∃ part, path' = path ++ "|" ++ part ∧ key = part ++ "|" ++ key'

theorem barred_of_shifted (h : Shifted (slashed path) key (slashed path') key') :
    barred path key = barred path' key' := by
  obtain ⟨part, hpath, hkey⟩ := h
  simp [barred, hpath, hkey]

theorem shifted_of_append {s : List Point}
    (hpath : (slashed path').toList = (slashed path).toList ++ s)
    (hkey : Point.char '|' :: key.toList = s ++ Point.char '|' :: key'.toList) :
    slashed path = slashed path' ∧ key = key' ∨ Shifted (slashed path) key (slashed path') key' := by
  cases s with
  | nil =>
      rw [List.append_nil] at hpath
      exact Or.inl ⟨Text.toList_injective hpath.symm, Text.toList_injective (List.cons.inj hkey).2⟩
  | cons c part =>
      obtain ⟨rfl, hrest⟩ := List.cons.inj hkey
      refine Or.inr ⟨Text.ofList part, ?_, ?_⟩
      · rw [← Text.toList_inj, hpath]
        simp
      · rw [← Text.toList_inj, hrest]
        simp

theorem barred_eq_iff :
    barred path key = barred path' key' ↔
      slashed path = slashed path' ∧ key = key' ∨
        Shifted (slashed path) key (slashed path') key' ∨
        Shifted (slashed path') key' (slashed path) key := by
  constructor
  · intro h
    rw [barred, barred, List.append_eq_append_iff] at h
    obtain ⟨s, hpath, hkey⟩ | ⟨s, hpath, hkey⟩ := h
    · obtain same | shifted := shifted_of_append hpath hkey
      · exact Or.inl same
      · exact Or.inr (Or.inl shifted)
    · obtain ⟨hpath, hkey⟩ | shifted := shifted_of_append hpath hkey
      · exact Or.inl ⟨hpath.symm, hkey.symm⟩
      · exact Or.inr (Or.inr shifted)
  · rintro (⟨hpath, rfl⟩ | shifted | shifted)
    · rw [barred, barred, hpath]
    · exact barred_of_shifted shifted
    · exact (barred_of_shifted shifted).symm

/-- Fingerprints of rules are taken of the same text exactly if the rules and the lines are the same,
and the paths and the keys too, but for a bar in a key: what stands before it may count to the path. -/
theorem fingerprintPayload_eq_iff (hrule : Rule.IsId rule) (hrule' : Rule.IsId rule') :
    fingerprintPayload rule path key line = fingerprintPayload rule' path' key' line' ↔
      rule = rule' ∧ line = line' ∧
        (slashed path = slashed path' ∧ key = key' ∨
          Shifted (slashed path) key (slashed path') key' ∨
          Shifted (slashed path') key' (slashed path) key) := by
  rw [fingerprintPayload_ends hrule.no_bar hrule'.no_bar, barred_eq_iff]

/-- Two spellings of one path, and a key with bars in it. -/
theorem fingerprintPayload_eq_iff_spellings :
    Rule.IsId "LOC001" ∧
      (fingerprintPayload "LOC001" "x\\a" "b|c" 7 = fingerprintPayload "LOC001" "x/a" "b|c" 7 ↔
        Text.ofString "LOC001" = "LOC001" ∧ (7 : Int) = 7 ∧
          (slashed "x\\a" = slashed "x/a" ∧ Text.ofString "b|c" = "b|c" ∨
            Shifted (slashed "x\\a") "b|c" (slashed "x/a") "b|c" ∨
            Shifted (slashed "x/a") "b|c" (slashed "x\\a") "b|c")) := by
  have hrule : Rule.IsId "LOC001" := Kind.isId_rule .missing
  exact ⟨hrule, fingerprintPayload_eq_iff hrule hrule⟩

/-- A bar in a key that goes for the one in front of it. -/
theorem fingerprintPayload_shifted :
    Rule.IsId "LOC001" ∧
      fingerprintPayload "LOC001" "a" "b|c" 1 = fingerprintPayload "LOC001" "a|b" "c" 1 ∧
        Text.ofString "b|c" ≠ "c" ∧ slashed "a" ≠ slashed "a|b" := by
  refine ⟨Kind.isId_rule .missing, ?_⟩
  decide

end LocaleKeys
