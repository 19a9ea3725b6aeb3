import LocaleKeys.Culture
import LocaleKeys.Proofs.Text.Blank
import LocaleKeys.Proofs.Text.Lower
import LocaleKeys.Proofs.Text.Split

/-!
Which cultures a file can have. A configured culture that agrees, letter case aside, with what the path
says is found in the path, so a file has another culture than a configured one that it agrees with only
if the configured cultures agree among themselves or with the default culture.
-/

namespace LocaleKeys

/-! Looking for texts -/

namespace Text

variable {needle s : List Point}

theorem contains_iff_infix : contains needle s = true ↔ needle <:+: s := by
  induction s with
  | nil => simp [contains]
  | cons c rest ih =>
      rw [contains, Bool.or_eq_true, ih, List.isPrefixOf_iff_prefix, List.infix_cons_iff]

theorem prefix_of_standsAt (h : standsAt needle s = true) : needle <+: s := by
  rw [standsAt, Bool.and_eq_true, List.isPrefixOf_iff_prefix] at h
  exact h.1

theorem contains_of_containsAlone {joined : Bool} (h : containsAlone needle joined s = true) :
    contains needle s = true := by
  induction s generalizing joined with
  | nil => cases h
  | cons c rest ih =>
      rw [containsAlone, Bool.or_eq_true, Bool.and_eq_true] at h
      cases h with
      | inl here => exact contains_iff_infix.mpr (prefix_of_standsAt here.2).isInfix
      | inr later =>
          rw [contains, ih later, Bool.or_true]

/-- What stands alone stands alone without its end, if no small letter starts the end. -/
theorem containsAlone_append {front back : List Point} (hback : startsSmall back = false)
    (hne : back ≠ []) {joined : Bool} (h : containsAlone (front ++ back) joined s = true) :
    containsAlone front joined s = true := by
  induction s generalizing joined with
  | nil => cases h
  | cons c rest ih =>
      rw [containsAlone, Bool.or_eq_true, Bool.and_eq_true] at h ⊢
      refine h.imp (fun ⟨hjoined, hstands⟩ => ⟨hjoined, ?_⟩) ih
      obtain ⟨after, hafter⟩ := prefix_of_standsAt hstands
      rw [← hafter, List.append_assoc, standsAt, List.drop_left, Bool.and_eq_true,
        List.isPrefixOf_iff_prefix]
      refine ⟨List.prefix_append _ _, ?_⟩
      cases back with
      | nil => exact absurd rfl hne
      | cons b back => simpa [startsSmall] using hback

end Text

namespace Culture

open Text (IsAscii isAscii_append isAscii_of_isAlpha)

/-! Parts that look like cultures -/

theorem isAscii_of_isTag {s : List Point} (h : isTag s = true) : IsAscii s := by
  rw [isTag, Bool.and_eq_true, Bool.and_eq_true] at h
  obtain ⟨⟨-, hletters⟩, htail⟩ := h
  rw [← List.take_append_drop 2 s]
  refine isAscii_append (isAscii_of_isAlpha hletters) ?_
  split at htail
  · next hnil => rw [hnil]; exact nofun
  · next region hregion =>
      rw [Bool.and_eq_true] at htail
      rw [hregion]
      exact List.forall_mem_cons.mpr ⟨by decide, isAscii_of_isAlpha htail.2⟩
  · cases htail

theorem isAscii_of_looksLikeTag {s : List Point} (h : looksLikeTag s = true) : IsAscii s := by
  rw [looksLikeTag, Bool.or_eq_true, Bool.and_eq_true] at h
  cases h with
  | inl htag => exact isAscii_of_isTag htag
  | inr hfeed =>
      obtain ⟨hlast, htag⟩ := hfeed
      rw [← List.dropLast_append_getLast? (Point.char '\n') (beq_iff_eq.mp hlast)]
      exact isAscii_append (isAscii_of_isTag htag) (List.forall_mem_singleton.mpr (by decide))

theorem exists_isAlpha_of_isTag {s : List Point} (h : isTag s = true) :
    ∃ c ∈ s, c.isAlpha = true := by
  rw [isTag, Bool.and_eq_true, Bool.and_eq_true, beq_iff_eq] at h
  obtain ⟨⟨hlength, hletters⟩, -⟩ := h
  cases s with
  | nil => cases hlength
  | cons c rest => exact ⟨c, List.mem_cons_self, List.all_eq_true.mp hletters c List.mem_cons_self⟩

theorem exists_isAlpha_of_looksLikeTag {s : List Point} (h : looksLikeTag s = true) :
    ∃ c ∈ s, c.isAlpha = true := by
  rw [looksLikeTag, Bool.or_eq_true, Bool.and_eq_true] at h
  cases h with
  | inl htag => exact exists_isAlpha_of_isTag htag
  | inr hfeed =>
      obtain ⟨c, hc, halpha⟩ := exists_isAlpha_of_isTag hfeed.2
      exact ⟨c, List.mem_of_mem_dropLast hc, halpha⟩

theorem trim_lower_ne_nil {s : List Point} (h : looksLikeTag s = true) :
    Text.trim (Text.lower s) ≠ [] := by
  have hletters : ∀ n < 0x80, (Point.ofNat n).isAlpha = true →
      Text.isBlank (Point.ofNat n).toLower = false := by decide
  obtain ⟨c, hc, halpha⟩ := exists_isAlpha_of_looksLikeTag h
  have hletter := hletters c.toNat (isAscii_of_looksLikeTag h c hc)
  rw [Point.ofNat_toNat] at hletter
  rw [Text.lower_ascii (isAscii_of_looksLikeTag h)]
  exact Text.trim_ne_nil (List.mem_map_of_mem hc) (hletter halpha)

/-! What a path tells -/

theorem suffix_lastPart (stem : List Point) :
    ((stem.splitOn (.char '.')).getLast?).getD [] <:+ stem := by
  cases hlast : (stem.splitOn (.char '.')).getLast? with
  | none => exact List.nil_suffix
  | some last =>
      have hend := Text.suffix_intercalate ['.'] (stem.splitOn (.char '.')).dropLast last
      rwa [List.dropLast_append_getLast? last hlast, List.intercalate_splitOn] at hend

theorem stem_eq (path : Text) :
    ∃ stem, (clues path).stem = Text.lower stem ∧
      (clues path).lastPart = ((stem.splitOn (.char '.')).getLast?).getD [] := by
  dsimp only [clues]
  exact ⟨_, rfl, rfl⟩

/-- A part of the file name that looks like a culture is found in the small form of the name. -/
theorem lastPart_infix {path : Text} (h : looksLikeTag (clues path).lastPart = true) :
    Text.contains (Text.lower (clues path).lastPart) (clues path).stem = true := by
  obtain ⟨stem, hstem, hlast⟩ := stem_eq path
  have hsuffix : (clues path).lastPart <:+ stem := hlast ▸ suffix_lastPart stem
  rw [hstem]
  exact Text.contains_iff_infix.mpr
    (Text.lower_suffix (isAscii_of_looksLikeTag h) hsuffix).isInfix

theorem occurs_of_standsAlone {clues : Clues} {culture : Text}
    (h : standsAlone clues culture = true) : occurs clues culture = true := by
  rw [standsAlone, Bool.or_eq_true] at h
  rw [occurs, Bool.or_eq_true]
  exact h.imp Text.contains_of_containsAlone Text.contains_of_containsAlone

theorem occurs_congr {clues : Clues} {a b : Text} (h : Text.lowercased a = Text.lowercased b) :
    occurs clues a = occurs clues b := by
  rw [occurs, occurs, Text.ofList_injective h]

theorem standsAlone_en {clues : Clues} (h : standsAlone clues "en-US" = true) :
    standsAlone clues "en" = true := by
  have hsplit : Text.lower (Text.ofString "en-US").toList =
      Text.lower (Text.ofString "en").toList ++ (Text.ofString "-us").toList := by decide
  rw [standsAlone, Bool.or_eq_true, hsplit] at h
  rw [standsAlone, Bool.or_eq_true]
  exact h.imp (Text.containsAlone_append rfl (by decide)) (Text.containsAlone_append rfl (by decide))

/-- A well-known culture that is found is in small letters: the one that is not has one before it
that stands wherever it does. -/
theorem lowercased_of_find? {clues : Clues} {culture : Text}
    (h : wellKnown.find? (standsAlone clues) = some culture) :
    Text.lowercased culture = culture ∧ Text.trimmed culture ≠ "" := by
  have hsmall : ∀ c ∈ wellKnown, c ≠ "en-US" → Text.lowercased c = c ∧ Text.trimmed c ≠ "" := by
    decide
  refine hsmall culture (List.mem_of_find?_eq_some h) ?_
  rintro rfl
  rw [wellKnown, List.map_cons, List.find?_cons_of_pos (standsAlone_en (List.find?_some h))] at h
  exact absurd (Option.some.inj h) (by decide)

/-- The culture of a file is a configured one, or the default one, or one in small letters with which
no configured one agrees. -/
theorem resolve_cases (explicit : List Text) (path : Text) :
    resolve explicit path ∈ explicit ∨ resolve explicit path = default ∨
      Text.lowercased (resolve explicit path) = resolve explicit path ∧
        Text.trimmed (resolve explicit path) ≠ "" ∧
        ∀ t ∈ explicit, Text.lowercased t ≠ resolve explicit path := by
  rw [resolve, ofClues]
  split
  · next culture hfound => exact Or.inl (List.mem_of_find?_eq_some hfound)
  · next hnone =>
      have habsent : ∀ t ∈ explicit, ¬ occurs (clues path) t = true := List.find?_eq_none.mp hnone
      refine Or.inr ?_
      split
      · next htag =>
          have hsmall : Text.lowercased (Text.ofList (Text.lower (clues path).lastPart)) =
              Text.ofList (Text.lower (clues path).lastPart) := by
            rw [Text.lowercased, Text.toList_ofList,
              Text.lower_lower_ascii (isAscii_of_looksLikeTag htag)]
          refine Or.inr ⟨hsmall, ?_, fun t ht hsame => habsent t ht ?_⟩
          · rw [Text.trimmed, Text.toList_ofList]
            exact fun hempty => trim_lower_ne_nil htag (congrArg Text.toList hempty)
          · rw [occurs, Text.ofList_injective hsame, lastPart_infix htag, Bool.or_true]
      · cases hknown : wellKnown.find? (standsAlone (clues path)) with
        | none => exact Or.inl rfl
        | some culture =>
            obtain ⟨hsmall, hblank⟩ := lowercased_of_find? hknown
            refine Or.inr ⟨hsmall, hblank, fun t ht hsame => habsent t ht ?_⟩
            rw [occurs_congr (hsame.trans hsmall.symm)]
            exact occurs_of_standsAlone (List.find?_some hknown)

end Culture
end LocaleKeys
