import LocaleKeys.Settings.Options
import LocaleKeys.Proofs.Except
import LocaleKeys.Proofs.Text.Blank
import LocaleKeys.Proofs.Text.Split
import LocaleKeys.Proofs.Text.Point

/-!
Settings come back from their own report. What options can set is in a form that its report keeps:
the texts are trimmed, the names of accessors have no commas, and there is a pattern. Settings in this
form are what their members say, when these are read as options.
-/

namespace LocaleKeys

/-! Trimmed texts -/

namespace Text

/-- A text that is not empty and has no blank at either end. -/
structure IsTrimmed (s : Text) : Prop where
  ne_empty : s ≠ ""
  trimmed_eq : trimmed s = s

theorem isTrimmed_ofList {s : List Point} (hne : s ≠ []) (hs : trim s = s) :
    IsTrimmed (Text.ofList s) := by
  refine ⟨?_, ?_⟩
  · intro hempty
    exact hne (Text.ofList_injective hempty)
  · rw [trimmed, Text.toList_ofList, hs]

theorem IsTrimmed.trim_toList {s : Text} (h : IsTrimmed s) : trim s.toList = s.toList := by
  have htext := congrArg Text.toList h.trimmed_eq
  rwa [trimmed, Text.toList_ofList] at htext

theorem IsTrimmed.toList_ne_nil {s : Text} (h : IsTrimmed s) : s.toList ≠ [] := by
  intro hnil
  exact h.ne_empty (Text.toList_injective hnil)

end Text

namespace Settings

open Text (IsTrimmed)

/-! The texts of an option -/

theorem isTrimmed_of_mem_splitText {separator : Point} {s part : Text}
    (h : part ∈ splitText separator s) : IsTrimmed part ∧ separator ∉ part.toList := by
  obtain ⟨chars, hchars, rfl⟩ := List.mem_map.mp h
  obtain ⟨hmem, hne⟩ := List.mem_filter.mp hchars
  obtain ⟨piece, hpiece, rfl⟩ := List.mem_map.mp hmem
  refine ⟨Text.isTrimmed_ofList (by simpa using hne) (Text.trim_trim piece), ?_⟩
  intro hsep
  rw [Text.toList_ofList] at hsep
  exact Text.not_mem_of_mem_splitOn hpiece (Text.mem_of_mem_trim hsep)

theorem splitText_intercalate {names : List Text} (hne : names ≠ [])
    (h : ∀ name ∈ names, IsTrimmed name ∧ Point.char ',' ∉ name.toList) :
    splitText ',' (Text.intercalate "," names) = names := by
  have hsplit : (Text.intercalate "," names).toList.splitOn (.char ',') = names.map Text.toList := by
    rw [Text.toList_intercalate]
    refine List.splitOn_intercalate (Point.char ',') ?_ (by simpa using hne)
    exact List.forall_mem_map.mpr fun name hname => (h name hname).2
  have htrim : (names.map Text.toList).map Text.trim = names.map Text.toList := by
    rw [List.map_map]
    exact List.map_congr_left fun name hname => (h name hname).1.trim_toList
  have hkept : (names.map Text.toList).filter (· ≠ []) = names.map Text.toList := by
    refine List.filter_eq_self.mpr (List.forall_mem_map.mpr fun name hname => ?_)
    simpa using (h name hname).1.ne_empty
  rw [splitText, hsplit, htrim, hkept, List.map_map]
  exact List.map_id names

theorem isTrimmed_of_mem_trimAll {items : List Text} {s : Text} (h : s ∈ trimAll items) :
    IsTrimmed s := by
  obtain ⟨hmem, hne⟩ := List.mem_filter.mp h
  obtain ⟨item, -, rfl⟩ := List.mem_map.mp hmem
  refine Text.isTrimmed_ofList ?_ (Text.trim_trim item.toList)
  intro hnil
  rw [Text.trimmed, hnil] at hne
  simp at hne

theorem trimAll_eq_self {items : List Text} (h : ∀ s ∈ items, IsTrimmed s) :
    trimAll items = items := by
  have htrim : items.map Text.trimmed = items :=
    (List.map_congr_left fun s hs => (h s hs).trimmed_eq).trans (List.map_id items)
  rw [trimAll, htrim]
  exact List.filter_eq_self.mpr fun s hs => by simpa using (h s hs).ne_empty

theorem isTrimmed_of_texts {value : Datum} {separator : Point} {found : List Text}
    (h : texts value separator = .ok found) : ∀ s ∈ found, IsTrimmed s := by
  unfold texts at h
  split at h
  · cases h
    exact List.forall_mem_nil _
  · cases h
    exact fun s hs => (isTrimmed_of_mem_splitText hs).1
  · split at h
    · next items _ =>
        cases hwritable : writable (.list items) with
        | error e =>
            rw [hwritable] at h
            cases h
        | ok _ =>
            rw [hwritable] at h
            cases h
            exact fun s hs => isTrimmed_of_mem_trimAll hs
    · cases h

theorem faultInAll_texts (room : Nat) (items : List Text) :
    Datum.faultInAll room (items.map .text) = none := by
  induction items with
  | nil => rfl
  | cons s items ih =>
      exact ih

/-- A list of trimmed texts is read as it stands. -/
theorem texts_list {items : List Text} (h : ∀ s ∈ items, IsTrimmed s) (separator : Point) :
    texts (.list (items.map .text)) separator = .ok items := by
  have hwritable : writable (.list (items.map .text)) = .ok () := by
    rw [writable, Datum.writeFault?, Datum.faultIn, if_neg (by decide), faultInAll_texts]
  have hplain : (items.map Datum.text).map Datum.plain = items := by
    rw [List.map_map]
    exact List.map_id items
  show (writable (.list (items.map .text))).map _ = _
  rw [hwritable, hplain, trimAll_eq_self h]
  rfl

end Settings

/-! Accessor rules -/

/-- An accessor rule whose text can be read: it has names, trimmed and without commas. -/
structure Accessor.IsReadable (a : Accessor) : Prop where
  names_ne_nil : a.names ≠ []
  names_trimmed : ∀ name ∈ a.names, Text.IsTrimmed name ∧ Point.char ',' ∉ name.toList

namespace Settings

open Text (IsTrimmed)

theorem accessor?_cases {s : Text} {a : Accessor} (h : accessor? s = some a) :
    ∃ names : List Point, a.names ≠ [] ∧ a.names = splitText ',' (Text.ofList names) := by
  unfold accessor? at h
  split at h
  · cases h
  · next names _ =>
      split at h
      · next hsplit =>
          cases h
          exact ⟨names, List.cons_ne_nil _ _, hsplit.symm⟩
      · cases h

theorem isReadable_of_accessor? {s : Text} {a : Accessor} (h : accessor? s = some a) :
    a.IsReadable := by
  obtain ⟨names, hne, hnames⟩ := accessor?_cases h
  refine ⟨hne, ?_⟩
  rw [hnames]
  exact fun name hname => isTrimmed_of_mem_splitText hname

theorem isReadable_of_accessorRules {value : Datum} {found : List Accessor}
    (h : accessorRules value = .ok found) : ∀ a ∈ found, a.IsReadable := by
  dsimp only [accessorRules] at h
  split at h
  · cases h
    intro a ha
    obtain ⟨part, -, hpart⟩ := List.mem_filterMap.mp ha
    exact isReadable_of_accessor? hpart
  · cases h

theorem toList_text (a : Accessor) :
    a.text.toList = a.type.title.toList ++ Point.char ':' :: (Text.intercalate "," a.names).toList := by
  simp [Accessor.text]

theorem accessorType?_title (type : AccessorType) :
    accessorType? type.title.toList = some type := by
  cases type <;> decide

theorem no_colon_title (type : AccessorType) : Point.char ':' ∉ type.title.toList := by
  cases type <;> decide

/-- The text of a rule is read as the rule. -/
theorem accessor?_text {a : Accessor} (h : a.IsReadable) : accessor? a.text = some a := by
  have htitle : ∀ c ∈ a.type.title.toList, decide (c ≠ ':') = true := by
    intro c hc
    exact decide_eq_true fun heq => no_colon_title a.type (heq ▸ hc)
  have hbefore : a.text.toList.takeWhile (· ≠ Point.char ':') = a.type.title.toList := by
    rw [toList_text, List.takeWhile_append_of_pos htitle]
    simp
  have hafter : a.text.toList.dropWhile (· ≠ Point.char ':') =
      Point.char ':' :: (Text.intercalate "," a.names).toList := by
    rw [toList_text, List.dropWhile_append_of_pos htitle]
    simp
  have hnames := splitText_intercalate h.names_ne_nil h.names_trimmed
  obtain ⟨name, more, hcons⟩ := List.exists_cons_of_ne_nil h.names_ne_nil
  rw [accessor?, hafter, hbefore]
  dsimp only
  rw [accessorType?_title, Text.ofList_toList, hnames]
  obtain ⟨type, names⟩ := a
  cases hcons
  rfl

theorem isTrimmed_text {a : Accessor} (h : a.IsReadable) : IsTrimmed a.text := by
  have hstart : ∃ c rest, a.type.title.toList = c :: rest ∧ Text.isBlank c = false := by
    cases a.type
    · exact ⟨'I', _, rfl, by decide⟩
    · exact ⟨'M', _, rfl, by decide⟩
  obtain ⟨c, rest, htitle, hc⟩ := hstart
  obtain ⟨before, last, hlast⟩ := (List.eq_nil_or_concat' a.names).resolve_left h.names_ne_nil
  have hend : last.toList <:+ (Text.intercalate "," a.names).toList := by
    rw [Text.toList_intercalate, hlast, List.map_append]
    exact Text.suffix_intercalate _ (before.map Text.toList) last.toList
  obtain ⟨front, hfront⟩ := hend
  have htext : a.text.toList = c :: (rest ++ Point.char ':' :: front) ++ last.toList := by
    rw [toList_text, htitle, ← hfront]
    simp
  have hname := (h.names_trimmed last (hlast ▸ by simp)).1
  have htrim := Text.trim_append hc (rest ++ Point.char ':' :: front) hname.trim_toList hname.toList_ne_nil
  rw [← htext] at htrim
  refine ⟨?_, ?_⟩
  · intro hempty
    rw [hempty] at htext
    cases htext
  · rw [Text.trimmed, htrim, Text.ofList_toList]

/-- The list of the texts of rules is read as the rules. -/
theorem accessorRules_list {rules : List Accessor} (h : ∀ a ∈ rules, a.IsReadable) :
    accessorRules (.list ((rules.map Accessor.text).map .text)) = .ok rules := by
  have htexts := texts_list (List.forall_mem_map.mpr fun a ha => isTrimmed_text (h a ha)) ';'
  have hread : (rules.map Accessor.text).filterMap accessor? = rules := by
    rw [List.filterMap_map]
    exact (List.filterMap_congr fun a ha => accessor?_text (h a ha)).trans (List.filterMap_some)
  dsimp only [accessorRules, Datum.opened]
  rw [htexts]
  dsimp only
  rw [hread]

/-! Settings -/

/-- Settings that their report gives back: there is a pattern, all texts are trimmed, and the
accessor rules can be read. -/
structure IsReadable (settings : Settings) : Prop where
  patterns_ne_nil : settings.jsonPatterns ≠ []
  patterns_trimmed : ∀ s ∈ settings.jsonPatterns, IsTrimmed s
  accessors_readable : ∀ a ∈ settings.accessors, a.IsReadable
  cultures_trimmed : ∀ s ∈ settings.cultures, IsTrimmed s
  dynamic_trimmed : ∀ s ∈ settings.dynamicPatterns, IsTrimmed s
  exclude_trimmed : ∀ s ∈ settings.exclude, IsTrimmed s

theorem isReadable_usual : ({} : Settings).IsReadable := by
  have hnames : ∀ a ∈ ({} : Settings).accessors, a.names ≠ [] ∧
      ∀ name ∈ a.names, (name ≠ "" ∧ Text.trimmed name = name) ∧ Point.char ',' ∉ name.toList := by
    decide
  constructor
  case patterns_ne_nil => exact List.cons_ne_nil _ _
  case patterns_trimmed => exact List.forall_mem_singleton.mpr ⟨by decide, by decide⟩
  case accessors_readable =>
    intro a ha
    refine ⟨(hnames a ha).1, fun name hname => ?_⟩
    obtain ⟨⟨hne, htrimmed⟩, hcomma⟩ := (hnames a ha).2 name hname
    exact ⟨⟨hne, htrimmed⟩, hcomma⟩
  all_goals exact List.forall_mem_nil _

/-- An option leaves settings in a form that can be read back. -/
theorem IsReadable.setOption {settings next : Settings} {option : Text} {value : Datum}
    (hs : settings.IsReadable) (h : settings.setOption option value = .ok next) :
    next.IsReadable := by
  unfold Settings.setOption at h
  split at h
  case h_1 =>
    obtain ⟨patterns, hpatterns, rfl⟩ := map_eq_ok_iff.mp h
    have htrimmed := isTrimmed_of_texts hpatterns
    cases patterns with
    | nil =>
        exact { hs with
          patterns_ne_nil := isReadable_usual.patterns_ne_nil
          patterns_trimmed := isReadable_usual.patterns_trimmed }
    | cons first more =>
        exact { hs with
          patterns_ne_nil := List.cons_ne_nil first more
          patterns_trimmed := htrimmed }
  case h_2 =>
    obtain ⟨accessors, haccessors, rfl⟩ := map_eq_ok_iff.mp h
    exact { hs with accessors_readable := isReadable_of_accessorRules haccessors }
  case h_3 =>
    obtain ⟨cultures, hcultures, rfl⟩ := map_eq_ok_iff.mp h
    exact { hs with cultures_trimmed := isTrimmed_of_texts hcultures }
  case h_4 =>
    obtain ⟨dynamicPatterns, hpatterns, rfl⟩ := map_eq_ok_iff.mp h
    exact { hs with dynamic_trimmed := isTrimmed_of_texts hpatterns }
  case h_5 =>
    obtain ⟨exclude, hexclude, rfl⟩ := map_eq_ok_iff.mp h
    exact { hs with exclude_trimmed := isTrimmed_of_texts hexclude }
  case h_6 | h_7 | h_8 =>
    obtain ⟨_, _, rfl⟩ := map_eq_ok_iff.mp h
    exact ⟨hs.patterns_ne_nil, hs.patterns_trimmed, hs.accessors_readable, hs.cultures_trimmed,
      hs.dynamic_trimmed, hs.exclude_trimmed⟩
  case h_9 => cases h

theorem IsReadable.setOptions {settings next : Settings} {options : List (Datum × Datum)}
    (hs : settings.IsReadable) (h : settings.setOptions options = .ok next) :
    next.IsReadable := by
  induction options generalizing settings with
  | nil =>
      cases h
      exact hs
  | cons first rest ih =>
      unfold Settings.setOptions at h
      split at h
      · next heq => cases heq
      · next option value _ heq =>
          cases heq
          split at h
          · next settings' hset => exact ih (hs.setOption hset) h
          · cases h
      · next other _ _ _ heq =>
          cases heq
          cases hwritable : writable other <;> rw [hwritable] at h <;> cases h

theorem ofJson_strings (items : List Text) :
    Datum.ofJson (.strings items) = .list (items.map .text) := by
  have hall : Datum.ofJsonAll (items.map .str) = items.map .text := by
    induction items with
    | nil => rfl
    | cons s items ih => exact congrArg (Datum.text s :: ·) ih
  rw [Json.strings, Datum.ofJson, hall]

/-- The members of settings that can be read back, as options, set all that they say, whatever was
set before. -/
theorem IsReadable.setOptions_members {settings : Settings} (h : settings.IsReadable)
    (before : Settings) :
    before.setOptions (Datum.ofJsonMembers settings.members) = .ok settings := by
  have hpatterns := texts_list h.patterns_trimmed ','
  have haccessors := accessorRules_list h.accessors_readable
  have hcultures := texts_list h.cultures_trimmed ','
  have hdynamic := texts_list h.dynamic_trimmed ','
  have hexclude := texts_list h.exclude_trimmed ','
  have hkept : settings.jsonPatterns.isEmpty = false := by
    simpa using h.patterns_ne_nil
  simp only [members, Datum.ofJsonMembers, ofJson_strings, Datum.ofJson, Datum.ofScalar,
    Settings.setOptions, Settings.setOption, fieldNames, Assoc.get?, hpatterns, haccessors, hcultures,
    hdynamic,
    hexclude, Except.map, hkept, bool]
  rfl

/-- The report of the settings that options give, read as options, gives the same settings. -/
theorem ofOptions_members {options : List (Datum × Datum)} {settings : Settings}
    (h : ofOptions options = .ok settings) :
    ofOptions (Datum.ofJsonMembers settings.members) = .ok settings :=
  (isReadable_usual.setOptions h).setOptions_members {}

/-- Options with separators and blanks in many places, under short and long names. -/
def mixedOptions : List (Datum × Datum) := [
  (.text "localization_accessor_kinds",
    .map [(.text " METHOD:a ", .list [.text "x:y;z", .int 5, .null, .text "b , c"]),
      (.text "bogus", .text "z"), (.text "Indexer", .text " , ")]),
  (.text "cultures", .text " en ,, th"),
  (.text "json_patterns", .null),
  (.text "localization_key_case", .int 3)]

def mixedSettings : Settings where
  accessors := [⟨.method, ["a :x:y;z", "5", "None", "b", "c"]⟩]
  cultures := ["en", "th"]
  caseSensitive := false

theorem ofOptions_members_mixed :
    ofOptions mixedOptions = .ok mixedSettings ∧
      ofOptions (Datum.ofJsonMembers mixedSettings.members) = .ok mixedSettings := by
  have hgiven : ofOptions mixedOptions = .ok mixedSettings := by decide +kernel
  exact ⟨hgiven, ofOptions_members hgiven⟩

end Settings
end LocaleKeys
