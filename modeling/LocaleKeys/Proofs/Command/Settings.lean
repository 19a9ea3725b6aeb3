import LocaleKeys.Proofs.Command.Run
import LocaleKeys.Proofs.Settings.Unwritten

/-!
Which settings files are read or reported. A file that is neither is not decoded, or has an option whose
value cannot be written; a command ends with an error code if its settings file is bad in any other way.
-/

namespace LocaleKeys.Command

variable [Platform] {disk : Disk} {root path : Path} {bytes : List UInt8} {scope : Scope}
variable {noPartial : Bool} {command : Command} {e : Settings.FileError}

/-! Files -/

/-- What keeps a settings file from being read without being reported: bytes that are not UTF-8 where they
are decoded, or an option that cannot be written where it has to be. -/
inductive SettingsObstacle (path : Path) (bytes : List UInt8) : Prop
  | encoding {f : Text.Utf8.Fault} (hbytes : ¬ Text.Utf8.IsUtf8 bytes)
      (hload : Platform.loadYaml bytes = .error (.encoding f))
  | option {value : Datum} {before after : List (Datum × Datum)} {entry : Datum × Datum}
      (hload : Platform.loadYaml bytes = .ok value)
      (hoptions : Settings.optionsOf path value = .ok (before ++ entry :: after))
      (hbefore : ¬ Fails (Settings.ofOptions before))
      (h : entry.1.IsUnwritable ∨
        ∃ option, entry.1 = .text option ∧ Settings.IsUnwritableOption option entry.2)

omit [Platform] in
/-- A text that is no map of options is reported. -/
theorem isReported_of_optionsOf {value : Datum} (h : Settings.optionsOf path value = .error e) :
    isReported e = true := by
  unfold Settings.optionsOf at h
  split at h
  · cases h
  split at h
  · split at h <;> cases h
    rfl
  · cases h
    rfl

/-- A settings file fails without being reported. -/
def IsSilent (x : Except Settings.FileError Settings) : Prop :=
  ∃ e, x = .error e ∧ isReported e = false

instance (x : Except Settings.FileError Settings) : Decidable (IsSilent x) :=
  match x with
  | .error e => decidable_of_iff (isReported e = false) (by simp [IsSilent])
  | .ok _ => .isFalse nofun

omit [Platform] in
theorem not_isSilent_iff {x : Except Settings.FileError Settings} :
    ¬ IsSilent x ↔ (∃ settings, x = .ok settings) ∨ ∃ e, x = .error e ∧ isReported e = true := by
  cases x <;> simp [IsSilent]

theorem ofBytes_silent_of_load_error {e : LoadError} (hload : Platform.loadYaml bytes = .error e) :
    IsSilent (Settings.ofBytes path bytes) ↔ isReported (.ofLoad path e) = false := by
  unfold IsSilent Settings.ofBytes
  rw [hload]
  simp

theorem ofBytes_silent_of_load {value : Datum} (hload : Platform.loadYaml bytes = .ok value) :
    IsSilent (Settings.ofBytes path bytes) ↔
      ∃ options, Settings.optionsOf path value = .ok options ∧
        Settings.IsUnwritten (Settings.ofOptions options) := by
  unfold IsSilent Settings.ofBytes
  rw [hload]
  dsimp only
  cases hoptions : Settings.optionsOf path value with
  | error e =>
      have hreported := isReported_of_optionsOf hoptions
      simp [hreported]
  | ok options =>
      simp only [Except.ok.injEq, exists_eq_left']
      cases Settings.ofOptions options with
      | error e =>
          cases e with
          | unwritable fault => cases fault <;> simp [isReported]
          | _ => simp [isReported]
      | ok settings => simp

/-- A settings file fails without being reported exactly if one of the obstacles is in its way. -/
theorem ofBytes_silent_iff (hloads : Platform.LoadsText) :
    IsSilent (Settings.ofBytes path bytes) ↔ SettingsObstacle path bytes := by
  cases hload : Platform.loadYaml bytes with
  | error e =>
      rw [ofBytes_silent_of_load_error hload]
      obtain rfl | ⟨f, rfl⟩ := hloads.stream hload
      · refine iff_of_false (by simp [Settings.FileError.ofLoad, isReported]) ?_
        rintro (⟨-, hother⟩ | ⟨hother, -, -, -⟩)
        · cases hload.symm.trans hother
        · cases hload.symm.trans hother
      · refine iff_of_true rfl (.encoding (fun htext => ?_) hload)
        cases hloads.text htext hload
  | ok value =>
      rw [ofBytes_silent_of_load hload]
      constructor
      · rintro ⟨options, hoptions, h⟩
        obtain ⟨before, entry, after, rfl, hbefore, h⟩ := Settings.isUnwritten_setOptions.mp h
        exact .option hload hoptions hbefore h
      · rintro (⟨-, hother⟩ | ⟨hother, hoptions, hbefore, h⟩)
        · cases hload.symm.trans hother
        · cases hload.symm.trans hother
          exact ⟨_, hoptions, Settings.isUnwritten_setOptions.mpr ⟨_, _, _, rfl, hbefore, h⟩⟩

/-! Commands -/

/-- What a command that has settings takes them from: its scope, and whether it is to leave out keys
that are missing in part. -/
def scope? : Command → Option (Scope × Bool)
  | .check scope options => some (scope, options.noPartial)
  | .suggest scope .. | .create scope .. | .complete scope .. => some (scope, false)
  | .validate .. => none

theorem run_eq_withProject (h : scope? command = some (scope, noPartial)) (disk : Disk)
    (schemas : Place) (environment : Environment) (stamp : Check.Stamp) :
    ∃ next, run disk schemas environment stamp command = withProject disk scope noPartial next := by
  cases command <;> cases h <;> simp only [run] <;> exact ⟨_, rfl⟩

/-- The settings of a project are in a file: the command names it, or it is the first one in the root
with a usual name. -/
inductive IsSettingsFile (disk : Disk) (scope : Scope) (root path : Path) : Prop
  | named (h : scope.settingsFile = some path)
  | found {before after : List Text} {name : Text} (hnone : scope.settingsFile = none)
      (hnames : Settings.fileNames = before ++ name :: after)
      (hbefore : ∀ other ∈ before, disk.isFile (Glob.child root other) = .ok false)
      (hpath : path = Glob.child root name) (hfile : disk.isFile path = .ok true)

theorem discoverAmong_first {before after : List Text} {name : Text}
    (hbefore : ∀ other ∈ before, disk.isFile (Glob.child root other) = .ok false)
    (hfile : disk.isFile (Glob.child root name) = .ok true) :
    Settings.discoverAmong disk root (before ++ name :: after) =
      Settings.ofFile disk (Glob.child root name) := by
  unfold Glob.child at *
  induction before with
  | nil => simp [Settings.discoverAmong, hfile]
  | cons other before ih =>
      rw [List.forall_mem_cons] at hbefore
      simp [Settings.discoverAmong, hbefore.1, ih hbefore.2]

theorem settingsOf_eq_ofFile (h : IsSettingsFile disk scope root path) :
    settingsOf disk root scope noPartial =
      (Settings.ofFile disk path).map (·.withChanges (changesOf scope noPartial)) := by
  unfold settingsOf
  cases h with
  | named h => rw [h]
  | found hnone hnames hbefore hpath hfile =>
      subst hpath
      rw [hnone]
      dsimp only
      rw [Settings.discover, hnames, discoverAmong_first hbefore hfile]

/-- A command opens its project and finds a settings file. -/
structure FindsSettings (disk : Disk) (scope : Scope) (path : Path) : Prop where
  isFound : ∃ place : Place, disk.resolve scope.root = .ok place ∧
    disk.isFolder place.path = .ok true ∧ IsSettingsFile disk scope place.path path
  isNamed : scope.isBlank "config" = false

/-- A bad settings file is the end of a command. -/
theorem withProject_of_ofFile_error {run : Path → Settings → Effects}
    (h : FindsSettings disk scope path) (he : Settings.ofFile disk path = .error e) :
    withProject disk scope noPartial run =
      if isReported e then .ok (disk, reported e.message) else .error (.project (.settings e)) := by
  obtain ⟨⟨place, hroot, hfolder, hpath⟩, hnamed⟩ := h
  have hsettings : settingsOf disk place.path scope noPartial = .error e := by
    rw [settingsOf_eq_ofFile hpath, he]
    rfl
  simp [withProject, hroot, hfolder, hnamed, hsettings]

/-- A settings file is read or reported unless something is in the way that is not, and in the same cases
a command whose settings file is bad ends with code 2. -/
theorem settingsFile_ends_iff (hloads : Platform.LoadsText) (hbytes : disk.read path = .ok bytes) :
    (((∃ settings, Settings.ofFile disk path = .ok settings) ∨
        ∃ e, Settings.ofFile disk path = .error e ∧ isReported e = true) ↔
      ¬ SettingsObstacle path bytes) ∧
    ∀ (schemas : Place) (environment : Environment) (stamp : Check.Stamp)
      (arguments : List Text) (command : Command) (scope : Scope) (noPartial : Bool),
      parse arguments = .ok (some command) → scope? command = some (scope, noPartial) →
      FindsSettings disk scope path → Fails (Settings.ofFile disk path) →
      ((∃ output, runArguments disk schemas environment stamp arguments = .ok (disk, output) ∧
          output.exit.number = 2) ↔
        ¬ SettingsObstacle path bytes) := by
  have hsilent : IsSilent (Settings.ofFile disk path) ↔ SettingsObstacle path bytes := by
    rw [Settings.ofFile, hbytes]
    exact ofBytes_silent_iff hloads
  rw [← hsilent, not_isSilent_iff]
  refine ⟨Iff.rfl, ?_⟩
  intro schemas environment stamp arguments command scope noPartial hparse hscope hfinds ⟨e, he⟩
  obtain ⟨next, hnext⟩ := run_eq_withProject hscope disk schemas environment stamp
  rw [runArguments, hparse]
  dsimp only
  rw [hnext, withProject_of_ofFile_error hfinds he, he]
  cases hreported : isReported e <;> simp [hreported, reported, ExitCode.number]

/-- A working folder with settings that are no YAML. -/
def unclosedSettings : Disk where
  nodes := [(["work"], .folder), (["work", ".locale-audit.yaml"], .file [0x5b])]
  here := ["work"]

/-- The usual settings file of the folder `work`. -/
def usualSettings : Path :=
  ⟨"/", ["work", ".locale-audit.yaml"]⟩

omit [Platform] in
theorem settingsFile_ends_unclosedSettings :
    @Platform.LoadsText Platform.textual ∧ unclosedSettings.read usualSettings = .ok [0x5b] ∧
      parse ["check", ".", "--ci"] = .ok (some checkHere) ∧
      scope? checkHere = some ({ root := ⟨"", []⟩ }, false) ∧
      FindsSettings unclosedSettings { root := ⟨"", []⟩ } usualSettings ∧
      Fails (@Settings.ofFile Platform.textual unclosedSettings usualSettings) ∧
      ¬ @SettingsObstacle Platform.textual usualSettings [0x5b] ∧
      ∃ output, @runArguments Platform.textual unclosedSettings [] {}
        ⟨Clock.idText [], Clock.timeText 0⟩ ["check", ".", "--ci"] = .ok (unclosedSettings, output) ∧
        output.exit.number = 2 := by
  let _ := Platform.textual
  have hbytes : unclosedSettings.read usualSettings = .ok [0x5b] := by decide
  have hparse : parse ["check", ".", "--ci"] = .ok (some checkHere) := by decide
  have hfinds : FindsSettings unclosedSettings { root := ⟨"", []⟩ } usualSettings :=
    ⟨⟨["work"], by decide, by decide,
      .found rfl (List.nil_append _).symm (List.forall_mem_nil _) rfl (by decide)⟩, rfl⟩
  have hfails : Fails (@Settings.ofFile Platform.textual unclosedSettings usualSettings) := by
    decide +kernel
  have hreported : ¬ IsSilent (@Settings.ofFile Platform.textual unclosedSettings usualSettings) := by
    decide +kernel
  obtain ⟨hread, hends⟩ := settingsFile_ends_iff Platform.loadsText_textual hbytes
  have hobstacle := hread.mp (not_isSilent_iff.mp hreported)
  exact ⟨Platform.loadsText_textual, hbytes, hparse, rfl, hfinds, hfails, hobstacle,
    (hends _ _ _ _ _ _ _ hparse rfl hfinds hfails).mpr hobstacle⟩

omit [Platform] in
/-- Settings that are not UTF-8 are neither read nor reported, and are the end of a command that has no
code. -/
theorem settingsFile_silent_mangledSettings :
    mangledSettings.read usualSettings = .ok [0xff] ∧
      IsSilent (@Settings.ofFile Platform.textual mangledSettings usualSettings) ∧
      Fails (@runArguments Platform.textual mangledSettings [] {}
        ⟨Clock.idText [], Clock.timeText 0⟩ ["check", ".", "--ci"]) := by
  decide

end LocaleKeys.Command
