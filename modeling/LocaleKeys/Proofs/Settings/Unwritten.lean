import LocaleKeys.Proofs.Assoc
import LocaleKeys.Proofs.Datum
import LocaleKeys.Proofs.Except
import LocaleKeys.Settings.Options

/-!
Options that cannot be read because a value has to be written for it and cannot be. Texts are read from
written items, and unfit values are quoted. Options are read in order, so those before such an option
are all settings.
-/

namespace LocaleKeys.Settings

variable {α β : Type} {x : Except OptionError α} {settings : Settings} {option : Text} {value : Datum}

/-- Options are not read because a value cannot be written. -/
def IsUnwritten (x : Except OptionError α) : Prop :=
  ∃ fault, x = .error (.unwritable fault)

@[simp]
theorem not_isUnwritten_ok (a : α) : ¬ IsUnwritten (.ok a) :=
  nofun

@[simp]
theorem isUnwritten_error {e : OptionError} :
    IsUnwritten (.error e : Except OptionError α) ↔ ∃ fault, e = .unwritable fault := by
  simp [IsUnwritten]

@[simp]
theorem isUnwritten_map {f : α → β} : IsUnwritten (x.map f) ↔ IsUnwritten x := by
  cases x <;> simp [Except.map]

/-! Values -/

@[simp]
theorem isUnwritten_writable : IsUnwritten (writable value) ↔ value.IsUnwritable := by
  rw [writable, ← Datum.writeFault?_ne_none_iff]
  cases value.writeFault? <;> simp

/-- A value has to be written before anything else is done with it. -/
theorem isUnwritten_writable_bind {next : Unit → Except OptionError α} :
    IsUnwritten ((writable value).bind next) ↔ value.IsUnwritable ∨ IsUnwritten (next ()) := by
  rw [writable, ← Datum.writeFault?_ne_none_iff]
  cases value.writeFault? <;> simp [Except.bind]

/-- An item of a value that texts are read from cannot be written. -/
def HasUnwritableItems (value : Datum) : Prop :=
  ∃ items, value.opened.items? = some items ∧ (Datum.list items).IsUnwritable

theorem isUnwritten_texts {separator : Point} :
    IsUnwritten (texts value separator) ↔ HasUnwritableItems value := by
  unfold texts HasUnwritableItems
  split
  · simp [Datum.opened, Datum.items?]
  · simp [Datum.opened, Datum.items?]
  · cases value.opened.items? <;> simp

theorem isUnwritten_bool : IsUnwritten (bool option value) ↔ value.IsUnwritable := by
  unfold bool
  cases value with
  | bool b => simp [Datum.not_isUnwritable_bool]
  | text s =>
      have htext := Datum.not_isUnwritable_text s
      cases hword : boolOfText? s <;> simp [isUnwritten_writable_bind, htext, hword]
  | _ => simp [isUnwritten_writable_bind]

/-! Values in order -/

theorem accessorTexts_cons (entry : Datum × Datum) (rest : List (Datum × Datum)) :
    accessorTexts (entry :: rest) =
      ((writable entry.1).bind fun () => texts entry.2).bind fun names =>
        (accessorTexts rest).map ((entry.1.plain ++ ":" ++ Text.intercalate "," names) :: ·) := by
  rw [accessorTexts]
  cases (writable entry.1).bind fun () => texts entry.2 with
  | error e => rfl
  | ok names => cases accessorTexts rest <;> rfl

/-- The types and names of accessors are written one after the other. -/
theorem isUnwritten_accessorTexts {entries : List (Datum × Datum)} :
    IsUnwritten (accessorTexts entries) ↔
      ∃ before entry after, entries = before ++ entry :: after ∧
        ¬ Fails (accessorTexts before) ∧ (entry.1.IsUnwritable ∨ HasUnwritableItems entry.2) := by
  have hnil : accessorTexts [] = .ok [] := rfl
  induction entries with
  | nil => simp [hnil]
  | cons entry rest ih =>
      have hentry := @isUnwritten_writable_bind _ entry.1 fun () => texts entry.2
      rw [isUnwritten_texts] at hentry
      rw [Assoc.exists_split_cons, ← hentry]
      simp only [accessorTexts_cons, hnil]
      cases (writable entry.1).bind fun () => texts entry.2 with
      | error e => simp [Except.bind]
      | ok names => simp [Except.bind, ih]

/-- What accessor rules are read from cannot be written. -/
inductive HasUnwritableRules (value : Datum) : Prop
  | map {before after : List (Datum × Datum)} {entry : Datum × Datum}
      (hopened : value.opened = .map (before ++ entry :: after))
      (hbefore : ¬ Fails (accessorTexts before))
      (h : entry.1.IsUnwritable ∨ HasUnwritableItems entry.2)
  | items (hopened : ∀ entries, value.opened ≠ .map entries) (h : HasUnwritableItems value)

theorem accessorRules_of_map {entries : List (Datum × Datum)} (h : value.opened = .map entries) :
    accessorRules value = (accessorTexts entries).map (·.filterMap accessor?) := by
  unfold accessorRules
  rw [h]
  dsimp only
  cases accessorTexts entries <;> rfl

theorem accessorRules_of_not_map (h : ∀ entries, value.opened ≠ .map entries) :
    accessorRules value = (texts value ';').map (·.filterMap accessor?) := by
  unfold accessorRules
  cases hopened : value.opened with
  | map entries => exact absurd hopened (h entries)
  | _ => cases texts value ';' <;> rfl

theorem isUnwritten_accessorRules :
    IsUnwritten (accessorRules value) ↔ HasUnwritableRules value := by
  constructor
  · intro h
    by_cases hmap : ∃ entries, value.opened = .map entries
    · obtain ⟨entries, hopened⟩ := hmap
      rw [accessorRules_of_map hopened, isUnwritten_map, isUnwritten_accessorTexts] at h
      obtain ⟨before, entry, after, rfl, hbefore, h⟩ := h
      exact .map hopened hbefore h
    · have hopened := not_exists.mp hmap
      rw [accessorRules_of_not_map hopened, isUnwritten_map, isUnwritten_texts] at h
      exact .items hopened h
  · rintro (⟨hopened, hbefore, h⟩ | ⟨hopened, h⟩)
    · rw [accessorRules_of_map hopened, isUnwritten_map, isUnwritten_accessorTexts]
      exact ⟨_, _, _, rfl, hbefore, h⟩
    · rw [accessorRules_of_not_map hopened, isUnwritten_map, isUnwritten_texts]
      exact h

/-! Options -/

/-- What has to be written for an option to be read cannot be: items of texts, what accessor rules are
read from, or all of the value. -/
def IsUnwritableOption (option : Text) (value : Datum) : Prop :=
  match Assoc.get? option fieldNames with
  | some .jsonPatterns | some .cultures | some .dynamicPatterns | some .exclude =>
    HasUnwritableItems value
  | some .accessors => HasUnwritableRules value
  | some .keyCase | some .caseSensitive | some .warnPartial => value.IsUnwritable
  | none => False

theorem isUnwritten_setOption :
    IsUnwritten (settings.setOption option value) ↔ IsUnwritableOption option value := by
  unfold setOption IsUnwritableOption
  split <;> simp [isUnwritten_texts, isUnwritten_accessorRules, isUnwritten_bool, *]

theorem setOptions_cons (name value : Datum) (rest : List (Datum × Datum)) :
    settings.setOptions ((name, value) :: rest) =
      (settings.setOptions [(name, value)]).bind fun settings => settings.setOptions rest := by
  cases name with
  | text option =>
      simp only [setOptions]
      cases settings.setOption option value <;> rfl
  | _ =>
      simp only [setOptions, Except.bind]
      cases writable _ <;> rfl

/-- One option is not read for this if its name or what it says cannot be written. -/
theorem isUnwritten_setOptions_single {entry : Datum × Datum} :
    IsUnwritten (settings.setOptions [entry]) ↔
      entry.1.IsUnwritable ∨ ∃ option, entry.1 = .text option ∧ IsUnwritableOption option entry.2 := by
  obtain ⟨name, value⟩ := entry
  cases name with
  | text option =>
      have hsingle :
          settings.setOptions [(.text option, value)] = settings.setOption option value := by
        simp only [setOptions]
        cases settings.setOption option value <;> rfl
      simp [hsingle, isUnwritten_setOption, Datum.not_isUnwritable_text]
  | _ => simp [setOptions, isUnwritten_writable_bind]

/-- The options before the first one that is not read for this are settings. -/
theorem isUnwritten_setOptions {options : List (Datum × Datum)} :
    IsUnwritten (settings.setOptions options) ↔
      ∃ before entry after, options = before ++ entry :: after ∧
        ¬ Fails (settings.setOptions before) ∧
        (entry.1.IsUnwritable ∨
          ∃ option, entry.1 = .text option ∧ IsUnwritableOption option entry.2) := by
  induction options generalizing settings with
  | nil => simp [setOptions]
  | cons entry rest ih =>
      have hstep := @setOptions_cons settings entry.1 entry.2
      rw [Assoc.exists_split_cons, ← @isUnwritten_setOptions_single settings]
      generalize settings.setOptions [entry] = first at hstep ⊢
      simp only [hstep]
      cases first with
      | error e => simp [Except.bind, setOptions]
      | ok settings => simp [Except.bind, setOptions, ih]

end LocaleKeys.Settings
