import LocaleKeys.Proofs.Catalog.Append
import LocaleKeys.Proofs.Culture
import LocaleKeys.Proofs.Path

/-!
Spellings of one path. The culture of an ASCII path is that of the path in small letters with slashes
between its names, so files whose paths differ in letter case or in their separators have one culture.
-/

namespace LocaleKeys.Culture

open Text (IsAscii)

/-- A path in small letters, with a slash for each backslash. -/
def folded (path : Text) : Text :=
  Text.lowercased (Text.ofList (path.toList.map fun c => if c = Point.char '\\' then Point.char '/' else c))

/-- Two ASCII paths that differ at most in letter case and in their separators. -/
def Alike (a b : Text) : Prop :=
  IsAscii a.toList ∧ IsAscii b.toList ∧ folded a = folded b

instance (a b : Text) : Decidable (Alike a b) :=
  inferInstanceAs (Decidable (_ ∧ _))

/-! Parts that look like cultures -/

theorem isTag_small (s : List Point) : isTag (s.map Point.toLower) = isTag s := by
  have hletters : ∀ t : List Point, (t.map Point.toLower).all Point.isAlpha = t.all Point.isAlpha := by
    intro t
    simp only [List.all_map, Function.comp_def, fun c => (Text.toLower_spec c).1]
  simp only [isTag, ← List.map_take, ← List.map_drop, List.length_map, hletters]
  congr 1
  cases s.drop 2 with
  | nil => rfl
  | cons c region =>
      by_cases hc : c = Point.char '-'
      · have hself : (Point.char '-').toLower = Point.char '-' := (Text.toLower_eq_iff (by decide)).mpr rfl
        simp only [hc, List.map_cons, hself, List.length_map, hletters]
      · have hother : c.toLower ≠ Point.char '-' := fun h => hc ((Text.toLower_eq_iff (by decide)).mp h)
        simp [hc, hother]

theorem looksLikeTag_small (s : List Point) : looksLikeTag (s.map Point.toLower) = looksLikeTag s := by
  have hfeed : ((s.map Point.toLower).getLast? == some (Point.char '\n')) =
      (s.getLast? == some (Point.char '\n')) := by
    rw [List.getLast?_map]
    cases s.getLast? with
    | none => rfl
    | some c =>
        rw [Bool.eq_iff_iff]
        simpa using Text.toLower_eq_iff (by decide)
  rw [looksLikeTag, looksLikeTag, isTag_small, hfeed, ← List.map_dropLast, isTag_small]

/-! What spellings tell -/

variable {path : Text} {clues : Clues}

theorem ofClues_small (explicit : List Text) (h : IsAscii clues.lastPart) :
    ofClues explicit { clues with lastPart := clues.lastPart.map Point.toLower } =
      ofClues explicit clues := by
  rw [ofClues, ofClues]
  simp only [looksLikeTag_small, Text.lower_small h]
  rfl

theorem isAscii_slashed (h : IsAscii path.toList) :
    IsAscii (path.toList.map fun c => if c = Point.char '\\' then Point.char '/' else c) := by
  intro c hc
  obtain ⟨d, hd, rfl⟩ := List.mem_map.mp hc
  split
  · decide
  · exact h d hd

/-- The folded path tells the same, with the last part of the file name in small letters. -/
theorem clues_folded (h : IsAscii path.toList) :
    Culture.clues (folded path) =
      { Culture.clues path with lastPart := (Culture.clues path).lastPart.map Point.toLower } := by
  have hslashed := isAscii_slashed h
  rw [folded, Text.lowercased, Text.toList_ofList, Text.lower_ascii hslashed, Culture.clues, Culture.clues]
  generalize hs : (path.toList.map fun c =>
    if c = Point.char '\\' then Point.char '/' else c) = s at hslashed ⊢
  have hnone : Point.char '\\' ∉ s := by
    rintro hmem
    rw [← hs] at hmem
    obtain ⟨c, -, hc⟩ := List.mem_map.mp hmem
    split at hc
    · cases hc
    · contradiction
  -- Folding leaves no backslash behind, so the names of the folded path are parted by slashes alone.
  have hself : ((s.map Point.toLower).map fun c =>
      if c = Point.char '\\' then Point.char '/' else c) = s.map Point.toLower := by
    rw [List.map_map]
    refine List.map_congr_left fun c hc => if_neg fun hback => hnone ?_
    rwa [← (Text.toLower_eq_iff (by decide)).mp hback]
  have hpath := Path.isAscii_ofChars hslashed
  have hdot : ∀ t, Text.small t = "." ↔ t = "." := fun t => Text.small_eq_iff (by decide)
  simp only [hself, Path.ofChars_small, Path.parent_small, Path.text_small,
    Path.stem_small, Text.toList_small, Text.lower_small hpath.parent.text, Text.lower_small hpath.stem,
    Text.splitOn_map Path.toLower_eq_dot, List.getLast?_map, hdot]
  cases ((Path.ofChars s).stem.toList.splitOn (.char '.')).getLast? with
  | none => rfl
  | some last => rfl

theorem isAscii_lastPart (h : IsAscii path.toList) : IsAscii (Culture.clues path).lastPart := by
  have hstem := (Path.isAscii_ofChars (isAscii_slashed h)).stem
  dsimp only [Culture.clues]
  intro c hc
  exact hstem c ((suffix_lastPart _).subset hc)

theorem resolve_folded (explicit : List Text) (h : IsAscii path.toList) :
    resolve explicit (folded path) = resolve explicit path := by
  rw [resolve, clues_folded h, ofClues_small explicit (isAscii_lastPart h), resolve]

theorem Alike.resolve_eq {a b : Text} (h : Alike a b) (explicit : List Text) :
    resolve explicit a = resolve explicit b := by
  obtain ⟨ha, hb, hfolded⟩ := h
  rw [← resolve_folded explicit ha, hfolded, resolve_folded explicit hb]

/-- Lists of paths that are alike one by one have the same cultures, each in its place, and together
no more cultures than either of them. -/
theorem discover_alike (explicit : List Text) {paths others : List Text}
    (h : List.Forall₂ Alike paths others) :
    paths.map (resolve explicit) = others.map (resolve explicit) ∧
      discover explicit paths = discover explicit others ∧
      discover explicit (paths ++ others) = discover explicit paths := by
  have hsame : paths.map (resolve explicit) = others.map (resolve explicit) := by
    induction h with
    | nil => rfl
    | cons halike _ ih => rw [List.map_cons, List.map_cons, halike.resolve_eq explicit, ih]
  have hnew : ∀ texts : List Text, (Text.distinct texts).filter (· ∉ Text.distinct texts) = [] := by
    intro texts
    rw [List.filter_eq_nil_iff]
    intro s hs
    simpa using hs
  refine ⟨hsame, by rw [discover, discover, hsame], ?_⟩
  rw [discover, discover, List.map_append, ← hsame, Text.distinct_append, hnew, List.append_nil]

theorem discover_alike_separators :
    List.Forall₂ Alike ["Resources\\Pages/Index.EN-us.JSON"] ["resources/pages\\INDEX.en-US.json"] ∧
      discover ["fr", "Pages"] (["Resources\\Pages/Index.EN-us.JSON"] ++
        ["resources/pages\\INDEX.en-US.json"]) = ["Pages"] := by
  have halike : Alike "Resources\\Pages/Index.EN-us.JSON" "resources/pages\\INDEX.en-US.json" := by
    decide +kernel
  have hall : List.Forall₂ Alike ["Resources\\Pages/Index.EN-us.JSON"]
      ["resources/pages\\INDEX.en-US.json"] := .cons halike .nil
  obtain ⟨-, -, htogether⟩ := discover_alike ["fr", "Pages"] hall
  have hculture : discover ["fr", "Pages"] ["Resources\\Pages/Index.EN-us.JSON"] = ["Pages"] := by
    decide +kernel
  exact ⟨hall, htogether.trans hculture⟩

end LocaleKeys.Culture
