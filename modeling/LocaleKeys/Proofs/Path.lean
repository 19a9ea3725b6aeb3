import LocaleKeys.Path
import LocaleKeys.Proofs.Text.Lower
import LocaleKeys.Proofs.Text.Split

/-!
Paths in small letters. Slashes and dots have no letter case, so a path is taken apart at the same
places whatever letters it is written in, and its parts are then written in these letters.
-/

namespace LocaleKeys

namespace Text

/-- A text with its ASCII capitals made small. -/
def small (s : Text) : Text :=
  Text.ofList (s.toList.map Point.toLower)

@[simp]
theorem toList_small (s : Text) : (small s).toList = s.toList.map Point.toLower :=
  Text.toList_ofList _

theorem small_ofList (s : List Point) : small (Text.ofList s) = Text.ofList (s.map Point.toLower) := by
  rw [small, Text.toList_ofList]

theorem map_toLower_eq_iff {s t : List Point} (ht : t.any Point.isAlpha = false) :
    s.map Point.toLower = t ↔ s = t := by
  induction s generalizing t with
  | nil => rfl
  | cons c s ih =>
      cases t with
      | nil => simp
      | cons d t =>
          obtain ⟨hd, ht⟩ := Bool.or_eq_false_iff.mp ht
          rw [List.map_cons, List.cons.injEq, List.cons.injEq, toLower_eq_iff hd, ih ht]

theorem small_eq_iff {s t : Text} (ht : t.toList.any Point.isAlpha = false) :
    small s = t ↔ s = t := by
  rw [← Text.toList_inj, ← Text.toList_inj, toList_small, map_toLower_eq_iff ht]

theorem lower_small {s : List Point} (h : IsAscii s) : lower (s.map Point.toLower) = lower s := by
  rw [← lower_ascii h, lower_lower_ascii h]

end Text

namespace Path

open Text (IsAscii small small_ofList toList_small toLower_eq_iff)

/-! Names and their endings -/

theorem splitName_of_no_dot {name : List Point} (h : Point.char '.' ∉ name) :
    splitName name = (name, []) := by
  have hall : ∀ c ∈ name.reverse, decide (c ≠ Point.char '.') = true := by
    intro c hc
    exact decide_eq_true fun heq => h (heq ▸ List.mem_reverse.mp hc)
  have hnone : (name.reverse ++ []).dropWhile (· ≠ Point.char '.') = [] := List.dropWhile_append_of_pos hall
  rw [List.append_nil] at hnone
  rw [splitName]
  simp only [hnone]

/-- A name is split before its last dot, if that is at neither end. -/
theorem splitName_append {front back : List Point} (h : Point.char '.' ∉ back) :
    splitName (front ++ Point.char '.' :: back) =
      if back = [] ∨ front = [] then (front ++ Point.char '.' :: back, [])
      else (front, Point.char '.' :: back) := by
  have hback : ∀ c ∈ back.reverse, decide (c ≠ Point.char '.') = true := by
    intro c hc
    exact decide_eq_true fun heq => h (heq ▸ List.mem_reverse.mp hc)
  have hreverse : (front ++ Point.char '.' :: back).reverse =
      back.reverse ++ Point.char '.' :: front.reverse := by simp
  rw [splitName]
  simp only [hreverse, List.takeWhile_append_of_pos hback, List.dropWhile_append_of_pos hback]
  simp

theorem exists_last_dot {name : List Point} (h : Point.char '.' ∈ name) :
    ∃ front back, name = front ++ Point.char '.' :: back ∧ Point.char '.' ∉ back := by
  obtain ⟨back, front, hname, hback⟩ := List.eq_append_cons_of_mem (List.mem_reverse.mpr h)
  refine ⟨front.reverse, back.reverse, ?_, by simpa using hback⟩
  rw [← List.reverse_reverse name, hname]
  simp

/-! Small letters -/

theorem toLower_eq_slash (c : Point) : c.toLower = Point.char '/' ↔ c = Point.char '/' :=
  toLower_eq_iff (by decide)

theorem toLower_eq_dot (c : Point) : c.toLower = Point.char '.' ↔ c = Point.char '.' :=
  toLower_eq_iff (by decide)

theorem splitName_small (name : List Point) :
    splitName (name.map Point.toLower) =
      ((splitName name).1.map Point.toLower, (splitName name).2.map Point.toLower) := by
  have hdot : ∀ s : List Point, Point.char '.' ∉ s → Point.char '.' ∉ s.map Point.toLower := by
    intro s hs hmem
    obtain ⟨c, hc, hlower⟩ := List.mem_map.mp hmem
    exact hs ((toLower_eq_dot c).mp hlower ▸ hc)
  by_cases h : Point.char '.' ∈ name
  · obtain ⟨front, back, rfl, hback⟩ := exists_last_dot h
    have hself : (Point.char '.').toLower = Point.char '.' := (toLower_eq_dot '.').mpr rfl
    rw [List.map_append, List.map_cons, hself, splitName_append (hdot back hback),
      splitName_append hback]
    simp only [List.map_eq_nil_iff]
    split <;> simp [hself]
  · rw [splitName_of_no_dot h, splitName_of_no_dot (hdot name h)]
    rfl

/-- A path with its ASCII capitals made small. -/
def smallLetters (path : Path) : Path :=
  ⟨small path.root, path.names.map small⟩

theorem namesOf_small (s : List Point) : namesOf (s.map Point.toLower) = (namesOf s).map small := by
  have hkept : ∀ name : List Point,
      (name.map Point.toLower ≠ [] && name.map Point.toLower ≠ [Point.char '.']) =
      (name ≠ [] && name ≠ [Point.char '.'] : Bool) := by
    intro name
    simp only [ne_eq, Text.map_toLower_eq_iff (t := []) (by decide),
      Text.map_toLower_eq_iff (t := [Point.char '.']) (by decide)]
  rw [namesOf, namesOf, Text.splitOn_map toLower_eq_slash, List.filter_map, List.map_map, List.map_map]
  simp only [Function.comp_def, hkept, small_ofList]

theorem ofChars_small (s : List Point) : ofChars (s.map Point.toLower) = (ofChars s).smallLetters := by
  have hself : (Point.char '/').toLower = Point.char '/' := (toLower_eq_slash '/').mpr rfl
  have hroots : small "" = "" ∧ small "/" = "/" ∧ small "//" = "//" := by decide
  obtain ⟨hnone, hone, htwo⟩ := hroots
  have hhead : ∀ rest : List Point,
      (rest.map Point.toLower).head? = some (Point.char '/') ↔ rest.head? = some (Point.char '/') := by
    intro rest
    cases rest <;> simp [toLower_eq_slash]
  have hcons : ∀ {t more : List Point}, t.map Point.toLower = Point.char '/' :: more →
      ∃ rest, t = Point.char '/' :: rest := by
    intro t more h
    obtain ⟨c, rest, rfl, hc, -⟩ := List.map_eq_cons_iff.mp h
    exact ⟨rest, by rw [(toLower_eq_slash c).mp hc]⟩
  fun_cases ofChars s with
  | case1 rest hthird =>
      simp only [List.map_cons, hself, ofChars, hhead, hthird, if_true, smallLetters, namesOf_small, hone]
  | case2 rest hthird =>
      simp only [List.map_cons, hself, ofChars, hhead, hthird, if_false, smallLetters, namesOf_small, htwo]
  | case3 rest hsecond =>
      rw [List.map_cons, hself, ofChars]
      · simp only [smallLetters, namesOf_small, hone]
      · intro more hmore
        obtain ⟨after, hafter⟩ := hcons hmore
        exact hsecond after hafter
  | case4 _ _ hfirst =>
      have hother : ∀ more, s.map Point.toLower ≠ Point.char '/' :: more := by
        intro more hmore
        obtain ⟨after, hafter⟩ := hcons hmore
        exact hfirst after hafter
      rw [ofChars]
      · simp only [smallLetters, namesOf_small, hnone]
      · exact fun more => hother _
      · exact hother

theorem parent_small (path : Path) : path.smallLetters.parent = path.parent.smallLetters := by
  rw [parent, parent, smallLetters, smallLetters, List.map_dropLast]

theorem name_small (path : Path) : path.smallLetters.name = small path.name := by
  rw [name, name, smallLetters, List.getLast?_map]
  cases path.names.getLast? with
  | none => rfl
  | some last => rfl

theorem stem_small (path : Path) : path.smallLetters.stem = small path.stem := by
  rw [stem, stem, name_small, toList_small, splitName_small, small_ofList]

theorem text_small (path : Path) : path.smallLetters.text = small path.text := by
  have hempty : (small path.root = "" && (path.names.map small).isEmpty) =
      (path.root = "" && path.names.isEmpty : Bool) := by
    rw [List.isEmpty_map]
    simp only [Text.small_eq_iff (t := "") (by decide)]
  rw [text, text, smallLetters, hempty]
  split
  · decide
  · rw [← Text.toList_inj]
    have hparts : (path.names.map small).map Text.toList =
        (path.names.map Text.toList).map (List.map Point.toLower) := by
      simp only [List.map_map, Function.comp_def, toList_small]
    have hslash : (Text.ofString "/").toList = [Point.char '/'] := rfl
    rw [toList_small, Text.toList_append, Text.toList_append, Text.toList_intercalate,
      Text.toList_intercalate, toList_small, List.map_append, hparts, hslash,
      Text.map_intercalate toLower_eq_slash]

/-! ASCII paths -/

/-- A path of ASCII characters. -/
def IsAscii (path : Path) : Prop :=
  Text.IsAscii path.root.toList ∧ ∀ name ∈ path.names, Text.IsAscii name.toList

theorem isAscii_ofChars {s : List Point} (h : Text.IsAscii s) : (ofChars s).IsAscii := by
  have hnames : ∀ t ⊆ s, ∀ name ∈ namesOf t, Text.IsAscii name.toList := by
    intro t ht name hname
    obtain ⟨part, hpart, rfl⟩ := List.mem_map.mp hname
    rw [Text.toList_ofList]
    exact fun c hc => h c (ht (Text.subset_of_mem_splitOn (List.mem_filter.mp hpart).1 hc))
  have hroots : Text.IsAscii (Text.ofString "").toList ∧ Text.IsAscii (Text.ofString "/").toList ∧
      Text.IsAscii (Text.ofString "//").toList := by decide
  obtain ⟨hnone, hone, htwo⟩ := hroots
  fun_cases ofChars s with
  | case1 rest hthird => exact ⟨hone, hnames rest (by simp)⟩
  | case2 rest hthird => exact ⟨htwo, hnames rest (by simp)⟩
  | case3 rest hsecond => exact ⟨hone, hnames rest (by simp)⟩
  | case4 => exact ⟨hnone, hnames s (List.Subset.refl s)⟩

theorem IsAscii.parent {path : Path} (h : path.IsAscii) : path.parent.IsAscii :=
  ⟨h.1, fun name hname => h.2 name (List.dropLast_subset _ hname)⟩

theorem IsAscii.stem {path : Path} (h : path.IsAscii) : Text.IsAscii path.stem.toList := by
  have hname : Text.IsAscii path.name.toList := by
    rw [Path.name]
    cases hlast : path.names.getLast? with
    | none => exact nofun
    | some last => exact h.2 last (List.mem_of_getLast? hlast)
  rw [Path.stem, Text.toList_ofList]
  generalize path.name.toList = name at hname ⊢
  by_cases hdot : Point.char '.' ∈ name
  · obtain ⟨front, back, rfl, hback⟩ := exists_last_dot hdot
    rw [splitName_append hback]
    split
    · exact hname
    · exact fun c hc => hname c (List.mem_append_left _ hc)
  · rwa [splitName_of_no_dot hdot]

theorem IsAscii.text {path : Path} (h : path.IsAscii) : Text.IsAscii path.text.toList := by
  obtain ⟨hroot, hnames⟩ := h
  have hjoined : ∀ parts : List Text, (∀ part ∈ parts, Text.IsAscii part.toList) →
      Text.IsAscii ([Point.char '/'].intercalate (parts.map Text.toList)) := by
    intro parts hparts
    induction parts with
    | nil => exact nofun
    | cons part parts ih =>
        obtain ⟨hpart, hrest⟩ := List.forall_mem_cons.mp hparts
        cases parts with
        | nil => simpa using hpart
        | cons next parts =>
            rw [List.map_cons, List.map_cons, List.intercalate_cons_cons]
            exact Text.isAscii_append (Text.isAscii_append hpart (by decide)) (ih hrest)
  rw [Path.text]
  split
  · decide
  · rw [Text.toList_append, Text.toList_intercalate]
    exact Text.isAscii_append hroot (hjoined path.names hnames)

end Path
end LocaleKeys
