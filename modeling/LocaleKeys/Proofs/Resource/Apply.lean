import LocaleKeys.Proofs.Disk.Rewrite
import LocaleKeys.Resource.Apply

/-!
Applying fixes on a disk without links. A fix is compared with the file as it is when its turn comes, and
is made only if that still has the text it was planned for; then the old bytes are kept beside the file,
and nothing else changes. What a turn does is told by one structure, and what a run does turn by turn. Only
a target that is no path and a new text without bytes end a run before its end.
-/

namespace LocaleKeys

open Disk (IsAdmissible SameFolders)

variable {disk middle after : Disk} {fix : Fix} {result : FixResult} {mode : Fix.Mode}

/-- The file that a path leads to holds a text: its bytes are UTF-8, a byte order mark is dropped and all
line ends are made one. -/
def Disk.HoldsText (disk : Disk) (path : Path) (text : List Point) : Prop :=
  ∃ data decoded, disk.read path = .ok data ∧ Text.Utf8.decodeMarked data = .ok decoded ∧
    Text.unifyLineEnds decoded = text

theorem Disk.readMarked_eq_ok_iff {path : Path} {text : List Point} :
    disk.readMarked path = .ok text ↔ disk.HoldsText path text := by
  rw [readMarked, readWith, HoldsText]
  constructor
  · intro h
    split at h
    · cases h
    · next data hread =>
        split at h
        · cases h
        · next decoded hdecoded => exact ⟨data, decoded, hread, hdecoded, Except.ok.inj h⟩
  · rintro ⟨data, decoded, hread, hdecoded, rfl⟩
    rw [hread]
    dsimp only
    rw [hdecoded]

namespace Fix

/-- The places that a fix may change: that of its file, and that of the copy. -/
def Touches (mode : Mode) (disk : Disk) (fix : Fix) (place : Place) : Prop :=
  disk.locate fix.target = .ok place ∨
    mode.backup = true ∧ disk.locate (backupPath fix.target) = .ok place

/-- When a fix ends the run at its turn: no disk can be asked for its target, or it is to be written and
its new text has no bytes. -/
def Stops (mode : Mode) (disk : Disk) (fix : Fix) : Prop :=
  ¬ Disk.CanAsk fix.target ∨
    mode.dryRun = false ∧ disk.HoldsText fix.target fix.oldText ∧ ¬ Text.Utf8.IsWritable fix.newText

/-- What becomes of a fix and of the disk when its turn comes. Writing fails for one reason only: the name
of the copy is longer than the disk takes. -/
structure Turn (mode : Mode) (disk : Disk) (fix : Fix) (result : FixResult) (after : Disk) : Prop where
  target : result.target = fix.target
  counted : result.applied + result.skipped = 1
  applied_iff : result.applied = 1 ↔ disk.HoldsText fix.target fix.oldText
  spared : mode.dryRun = true ∨ result.skipped = 1 → after = disk
  written : mode.dryRun = false → result.applied = 1 →
    after.read fix.target = .ok (Text.Utf8.encode fix.newText)
  copied : mode.dryRun = false → mode.backup = true → result.applied = 1 → result.success = true →
    result.backup = some (backupPath fix.target) ∧
      after.read (backupPath fix.target) = disk.read fix.target
  success_iff : result.applied = 1 → (result.success = true ↔
    mode.dryRun = false → mode.backup = true → IsAdmissible (backupPath fix.target))
  kept : ∀ place, (result.applied = 1 → ¬ Touches mode disk fix place) →
    after.get? place = disk.get? place

/-- The disk when the turn of a fix of the list comes. -/
def diskAt (mode : Mode) (disk : Disk) (fixes : List Fix) (i : Nat) : Disk :=
  (applyAll mode disk (fixes.take i)).1

theorem backupPath_concat (root : Text) (names : List Text) (name : Text) :
    backupPath ⟨root, names ++ [name]⟩ = ⟨root, names ++ [name ++ ".bak"]⟩ := by
  rw [backupPath, Path.name, List.dropLast_concat, List.getLast?_concat, Option.getD_some]

theorem backup_name_ne (name : Text) : name ++ ".bak" ≠ ".." ∧ name ++ ".bak" ≠ name := by
  have hlonger : (name ++ ".bak").length = name.length + 4 :=
    Text.length_append name ".bak"
  constructor <;> intro h
  · have hup : (name ++ ".bak").length = 2 := congrArg Text.length h
    omega
  · rw [h] at hlonger
    omega

theorem isName_backup {name : Text} (h : Disk.IsName name) : Disk.IsName (name ++ ".bak") := by
  have hnull : Point.char '\x00' ∉ (Text.ofString ".bak").toList := by decide
  have hbytes : Text.Utf8.IsNameable (Text.ofString ".bak").toList := by decide
  refine ⟨(backup_name_ne name).1, ?_, ?_⟩
  · rw [Text.toList_append, List.mem_append, not_or]
    exact ⟨h.no_null, hnull⟩
  · rw [Text.toList_append]
    exact List.forall_mem_append.mpr ⟨h.nameable, hbytes⟩

/-- The disk and the result when the copy has been kept, or when none was asked for. -/
structure Prepared (mode : Mode) (disk : Disk) (fix : Fix) (result : FixResult) (middle : Disk) :
    Prop where
  plain : middle.IsPlain
  folders : SameFolders disk middle
  target : result.target = fix.target
  applied : result.applied = 1
  skipped : result.skipped = 0
  source : middle.read fix.target = disk.read fix.target
  success_iff : result.success = true ↔ mode.backup = true → IsAdmissible (backupPath fix.target)
  copied : mode.backup = true → result.success = true →
    result.backup = some (backupPath fix.target) ∧
      middle.read (backupPath fix.target) = disk.read fix.target
  kept : ∀ place, ¬ (mode.backup = true ∧ disk.locate (backupPath fix.target) = .ok place) →
    middle.get? place = disk.get? place

/-- The result of a fix that finds its text, before anything is written. -/
def accepted (fix : Fix) : FixResult where
  target := fix.target
  applied := 1

theorem prepared_bare (plain : disk.IsPlain) (hmode : mode.backup = false) :
    Prepared mode disk fix (accepted fix) disk where
  plain := plain
  folders := .refl disk
  target := rfl
  applied := rfl
  skipped := rfl
  source := rfl
  success_iff := by simp [accepted, FixResult.success, hmode]
  copied := by simp [hmode]
  kept := fun _ _ => rfl

theorem prepared_keepCopy {data : List UInt8} (plain : disk.IsPlain)
    (hread : disk.read fix.target = .ok data)
    (hfree : disk.isFolder (backupPath fix.target) ≠ .ok true) (hmode : mode.backup = true) :
    Prepared mode disk fix (keepCopy disk fix (accepted fix)).2
      (keepCopy disk fix (accepted fix)).1 := by
  obtain ⟨names, name, front, hpath, hname, hlook, hlocate, hfile⟩ := plain.exists_of_read hread
  generalize hroot : fix.target.root = root at hpath hlook
  have hbackup : backupPath fix.target = ⟨root, names ++ [name ++ ".bak"]⟩ := by
    rw [hpath, backupPath_concat]
  have hother := backup_name_ne name
  rw [hbackup] at hfree
  rw [hpath] at hlocate
  rw [keepCopy, hbackup, hpath]
  obtain ⟨hadmissible, hnot, hcopy⟩ | ⟨hrefused, e, hcopy⟩ :=
    plain.copy_beside hlook hlocate hfile hother hfree
  · rw [hcopy]
    obtain ⟨plain', hfolders⟩ := plain.put_file hlook (isName_backup hname) hnot data
    have hput := @Disk.get?_put disk _ (.file data)
      (List.append_ne_nil_of_right_ne_nil front (List.cons_ne_nil (name ++ ".bak") []))
    have hbeside : disk.locate (backupPath fix.target) = .ok (front ++ [name ++ ".bak"]) := by
      rw [hbackup]
      exact (plain.locate_concat_iff hlook hother.1).mpr ⟨hadmissible, rfl⟩
    refine ⟨plain', hfolders, rfl, rfl, rfl, ?_, ?_, ?_, ?_⟩
    · rw [hpath]
      refine Disk.read_congr hlocate ((hfolders.locate_iff plain plain').mpr hlocate) ?_
      have hapart : front ++ [name] ≠ front ++ [name ++ ".bak"] := by simpa using Ne.symm hother.2
      rw [hput, if_neg hapart]
    · rw [hbackup]
      exact ⟨fun _ _ => hadmissible, fun _ => rfl⟩
    · intro _ _
      rw [hread, Disk.read_eq_ok_iff]
      refine ⟨congrArg some hbackup.symm, _, (hfolders.locate_iff plain plain').mpr hbeside, ?_⟩
      rw [hput, if_pos rfl]
    · intro place hplace
      rw [hput, if_neg]
      rintro rfl
      exact hplace ⟨hmode, hbeside⟩
  · rw [hcopy]
    refine ⟨plain, .refl disk, rfl, rfl, rfl, rfl, ?_, ?_, fun _ _ => rfl⟩
    · rw [hbackup]
      exact ⟨nofun, fun hadmissible => absurd (hadmissible hmode) hrefused⟩
    · exact nofun

/-- What a fix that finds its text does before it is written. -/
def prepare (mode : Mode) (disk : Disk) (fix : Fix) : Disk × FixResult :=
  if mode.backup then keepCopy disk fix (accepted fix) else (disk, accepted fix)

theorem prepared {data : List UInt8} (plain : disk.IsPlain) (hread : disk.read fix.target = .ok data)
    (hfree : disk.isFolder (backupPath fix.target) ≠ .ok true) :
    Prepared mode disk fix (prepare mode disk fix).2 (prepare mode disk fix).1 := by
  rw [prepare]
  split
  · next hmode => exact prepared_keepCopy plain hread hfree hmode
  · next hmode => exact prepared_bare plain (Bool.eq_false_iff.mpr hmode)

theorem apply_made (h : disk.HoldsText fix.target fix.oldText) (hmode : mode.dryRun = false) :
    apply disk mode fix =
      writeTarget (prepare mode disk fix).1 fix (prepare mode disk fix).2 := by
  rw [apply, Disk.readMarked_eq_ok_iff.mpr h]
  simp [hmode, prepare, accepted]

theorem apply_shown (h : disk.HoldsText fix.target fix.oldText) (hmode : mode.dryRun = true) :
    apply disk mode fix = (disk, .ok (accepted fix)) := by
  rw [apply, Disk.readMarked_eq_ok_iff.mpr h]
  simp [hmode, accepted]

theorem canAsk_of_holdsText {path : Path} {text : List Point} (h : disk.HoldsText path text) :
    Disk.CanAsk path := by
  obtain ⟨data, -, hread, -⟩ := h
  obtain ⟨place, hlocate, -⟩ := Disk.read_eq_ok_iff.mp hread
  exact Disk.canAsk_of_locate hlocate

theorem readMarked_error_cases {path : Path} {e : Disk.ReadError} (h : disk.readMarked path = .error e) :
    (∃ f, e = .failure f ∧ (f.fault.isOfPath = true ↔ ¬ Disk.CanAsk path)) ∨
      (∃ f, e = .encoding f) ∧ Disk.CanAsk path := by
  rw [Disk.readMarked, Disk.readWith] at h
  split at h
  · next f hread =>
      cases h
      exact Or.inl ⟨f, rfl, Disk.isOfPath_iff_of_read hread⟩
  · next data hread =>
      split at h
      · next f _ =>
          cases h
          obtain ⟨place, hlocate, -⟩ := Disk.read_eq_ok_iff.mp hread
          exact Or.inr ⟨⟨f, rfl⟩, Disk.canAsk_of_locate hlocate⟩
      · cases h

/-- A target that cannot be read is skipped if it is a path, and ends the run otherwise. -/
theorem unread_cases {e : Disk.ReadError} (h : disk.readMarked fix.target = .error e) :
    ¬ Disk.CanAsk fix.target ∧ (∃ stop, unread fix e = .error stop) ∨
      Disk.CanAsk fix.target ∧ ∃ errors, unread fix e =
        .ok { target := fix.target, skipped := 1, errors := errors } := by
  obtain ⟨f, rfl, hpath⟩ | ⟨⟨f, rfl⟩, hask⟩ := readMarked_error_cases h
  · rw [unread]
    by_cases hask : Disk.CanAsk fix.target
    · rw [if_neg fun hfault => hpath.mp hfault hask]
      exact Or.inr ⟨hask, _, rfl⟩
    · rw [if_pos (hpath.mpr hask)]
      exact Or.inl ⟨hask, _, rfl⟩
  · exact Or.inr ⟨hask, _, rfl⟩

/-- A fix that does not find its text leaves the disk as it is. It is skipped if its target is a path. -/
theorem apply_skipped (h : ¬ disk.HoldsText fix.target fix.oldText) :
    ¬ Disk.CanAsk fix.target ∧ (∃ stop, apply disk mode fix = (disk, .error stop)) ∨
      Disk.CanAsk fix.target ∧ ∃ errors, apply disk mode fix =
        (disk, .ok { target := fix.target, skipped := 1, errors := errors }) := by
  rw [apply]
  split
  · next e hread =>
    obtain ⟨hask, stop, hstop⟩ | ⟨hask, errors, hskipped⟩ := unread_cases hread
    · exact Or.inl ⟨hask, stop, by rw [hstop]⟩
    · exact Or.inr ⟨hask, errors, by rw [hskipped]⟩
  · next text htext =>
    have hdiffers : text ≠ fix.oldText := by
      rintro rfl
      exact h (Disk.readMarked_eq_ok_iff.mp htext)
    rw [if_pos hdiffers]
    exact Or.inr ⟨canAsk_of_holdsText (Disk.readMarked_eq_ok_iff.mp htext), [], rfl⟩

/-- When a fix ends the work on any disk: no disk can be asked for its target, or it has been prepared, the
target can be written to, and its new text has no bytes. -/
def Halts (mode : Mode) (disk : Disk) (fix : Fix) : Prop :=
  ¬ Disk.CanAsk fix.target ∨
    mode.dryRun = false ∧ disk.HoldsText fix.target fix.oldText ∧
      ¬ Fails ((prepare mode disk fix).1.write fix.target []) ∧ ¬ Text.Utf8.IsWritable fix.newText

theorem writeTarget_halts_iff :
    Fails (writeTarget disk fix result).2 ↔
      ¬ Fails (disk.write fix.target []) ∧ ¬ Text.Utf8.IsWritable fix.newText := by
  rw [writeTarget]
  obtain ⟨hfails, f, heq⟩ | ⟨hgoes, after, ⟨hbytes, heq⟩ | ⟨hbytes, f, heq⟩⟩ :=
    @Disk.writeText_cases disk fix.target fix.newText
  · simp [heq, hfails]
  · simp [heq, hbytes]
  · simp [heq, hgoes, hbytes]

theorem apply_halts_iff : Fails (apply disk mode fix).2 ↔ Halts mode disk fix := by
  by_cases hholds : disk.HoldsText fix.target fix.oldText
  · have hask := canAsk_of_holdsText hholds
    rw [Halts, or_iff_right (not_not_intro hask), and_iff_right hholds]
    cases hmode : mode.dryRun with
    | true =>
        rw [apply_shown hholds hmode]
        exact iff_of_false (not_fails_ok _) nofun
    | false =>
        rw [apply_made hholds hmode, writeTarget_halts_iff, and_iff_right rfl]
  · have hnot : ¬ (mode.dryRun = false ∧ disk.HoldsText fix.target fix.oldText ∧
        ¬ Fails ((prepare mode disk fix).1.write fix.target []) ∧
        ¬ Text.Utf8.IsWritable fix.newText) := fun h => hholds h.2.1
    rw [Halts, or_iff_left hnot]
    obtain ⟨hask, stop, happly⟩ | ⟨hask, errors, happly⟩ := @apply_skipped disk fix mode hholds
    · exact iff_of_true (happly ▸ fails_error stop) hask
    · exact iff_of_false (happly ▸ not_fails_ok _) (not_not_intro hask)

/-- Writing a prepared fix puts its new text where the file is, and no folder comes or goes. -/
theorem writeTarget_of_prepared {data : List UInt8} (hread : disk.read fix.target = .ok data)
    (h : Prepared mode disk fix result middle) (hbytes : Text.Utf8.IsWritable fix.newText) :
    ∃ place, middle.locate fix.target = .ok place ∧
      middle.locate (backupPath fix.target) ≠ .ok place ∧ place ≠ [] ∧
      writeTarget middle fix result =
        (middle.put place (.file (Text.Utf8.encode fix.newText)), .ok result) ∧
      (middle.put place (.file (Text.Utf8.encode fix.newText))).IsPlain ∧
      SameFolders middle (middle.put place (.file (Text.Utf8.encode fix.newText))) := by
  obtain ⟨names, name, front, hpath, hname, hlook, hlocate, hfile⟩ :=
    h.plain.exists_of_read (h.source.trans hread)
  have hnot : middle.get? (front ++ [name]) ≠ some .folder := by
    rw [hfile]
    nofun
  have hwrite := Disk.write_eq hlocate hnot (Text.Utf8.encode fix.newText)
  obtain ⟨plain', hfolders⟩ := h.plain.put_file hlook hname hnot (Text.Utf8.encode fix.newText)
  refine ⟨front ++ [name], hlocate, ?_, List.append_ne_nil_of_right_ne_nil _ (List.cons_ne_nil _ _), ?_,
    plain', hfolders⟩
  · rw [hpath, backupPath_concat]
    intro hbeside
    have hplace := ((h.plain.locate_concat_iff hlook (backup_name_ne name).1).mp hbeside).2
    exact (backup_name_ne name).2 (by simpa using hplace.symm)
  · rw [writeTarget, Disk.writeText_eq_ok_iff.mpr ⟨hbytes, hwrite⟩]

/-- What a fix that finds its text does, and what it leaves. -/
theorem turn_of_prepared (plain : disk.IsPlain) (hholds : disk.HoldsText fix.target fix.oldText)
    (hmode : mode.dryRun = false) (h : Prepared mode disk fix result middle)
    (hbytes : Text.Utf8.IsWritable fix.newText) :
    ∃ after, writeTarget middle fix result = (after, .ok result) ∧
      Turn mode disk fix result after ∧ after.IsPlain ∧ SameFolders disk after := by
  obtain ⟨data, -, hread, -⟩ := id hholds
  obtain ⟨place, hlocate, hbeside, hplace, hwrite, plain', hfolders⟩ :=
    writeTarget_of_prepared hread h hbytes
  have hput := @Disk.get?_put middle _ (.file (Text.Utf8.encode fix.newText)) hplace
  have hthere : ∀ {path place}, middle.locate path = .ok place ↔ disk.locate path = .ok place :=
    h.folders.locate_iff plain h.plain
  refine ⟨_, hwrite, ?_, plain', h.folders.trans hfolders⟩
  exact {
    target := h.target
    counted := by rw [h.applied, h.skipped]
    applied_iff := iff_of_true h.applied hholds
    spared := by simp [hmode, h.skipped]
    written := by
      intro _ _
      refine Disk.read_eq_ok_iff.mpr ⟨place, (hfolders.locate_iff h.plain plain').mpr hlocate, ?_⟩
      rw [hput, if_pos rfl]
    copied := by
      intro _ hbackup _ hsuccess
      obtain ⟨hpath, hcopy⟩ := h.copied hbackup hsuccess
      refine ⟨hpath, ?_⟩
      -- The copy is not lost when the file is written over, since it is at another place.
      obtain ⟨beside, hlocated, hfile⟩ := Disk.read_eq_ok_iff.mp (hcopy.trans hread)
      have hapart : beside ≠ place := by
        rintro rfl
        exact hbeside hlocated
      rw [← hcopy]
      refine Disk.read_congr hlocated ((hfolders.locate_iff h.plain plain').mpr hlocated) ?_
      rw [hput, if_neg hapart]
    success_iff := by
      intro _
      rw [h.success_iff]
      simp [hmode]
    kept := by
      intro other hother
      have huntouched := hother h.applied
      rw [Touches, not_or] at huntouched
      have hapart : other ≠ place := by
        rintro rfl
        exact huntouched.1 (hthere.mp hlocate)
      rw [hput, if_neg hapart]
      exact h.kept other huntouched.2 }

theorem turn_of_skipped (h : ¬ disk.HoldsText fix.target fix.oldText) (errors : List FixError) :
    Turn mode disk fix { target := fix.target, skipped := 1, errors := errors } disk where
  target := rfl
  counted := rfl
  applied_iff := iff_of_false nofun h
  spared := fun _ => rfl
  written := nofun
  copied := nofun
  success_iff := nofun
  kept := fun _ _ => rfl

theorem turn_of_shown (h : disk.HoldsText fix.target fix.oldText) (hmode : mode.dryRun = true) :
    Turn mode disk fix (accepted fix) disk where
  target := rfl
  counted := rfl
  applied_iff := iff_of_true rfl h
  spared := fun _ => rfl
  written := by simp [hmode]
  copied := by simp [hmode]
  success_iff := by simp [hmode, accepted, FixResult.success]
  kept := fun _ _ => rfl

/-- A new text without bytes ends the run, whatever was kept beside the file. -/
theorem writeTarget_of_unwritable (hread : middle.read fix.target = .ok data)
    (hbytes : ¬ Text.Utf8.IsWritable fix.newText) : Fails (writeTarget middle fix result).2 := by
  obtain ⟨place, hlocate, hfile⟩ := Disk.read_eq_ok_iff.mp hread
  refine writeTarget_halts_iff.mpr ⟨?_, hbytes⟩
  rw [Disk.write_eq hlocate (by rw [hfile]; nofun)]
  exact not_fails_ok _

theorem apply_turn (plain : disk.IsPlain) (hfree : disk.isFolder (backupPath fix.target) ≠ .ok true) :
    Stops mode disk fix ∧ Fails (apply disk mode fix).2 ∨
      ¬ Stops mode disk fix ∧ ∃ result after, apply disk mode fix = (after, .ok result) ∧
        Turn mode disk fix result after ∧ after.IsPlain ∧ SameFolders disk after := by
  by_cases hholds : disk.HoldsText fix.target fix.oldText
  · have hask := canAsk_of_holdsText hholds
    cases hmode : mode.dryRun with
    | true =>
        refine Or.inr ⟨?_, _, _, apply_shown hholds hmode, turn_of_shown hholds hmode, plain, .refl disk⟩
        simp [Stops, hask, hmode]
    | false =>
        obtain ⟨data, -, hread, -⟩ := id hholds
        have hprepared := @prepared disk fix mode data plain hread hfree
        rw [apply_made hholds hmode]
        by_cases hbytes : Text.Utf8.IsWritable fix.newText
        · obtain ⟨after, hwrite, hturn⟩ := turn_of_prepared plain hholds hmode hprepared hbytes
          exact Or.inr ⟨by simp [Stops, hask, hbytes], _, after, hwrite, hturn⟩
        · exact Or.inl ⟨Or.inr ⟨hmode, hholds, hbytes⟩,
            writeTarget_of_unwritable (hprepared.source.trans hread) hbytes⟩
  · obtain ⟨hask, stop, happly⟩ | ⟨hask, errors, happly⟩ := @apply_skipped disk fix mode hholds
    · rw [happly]
      exact Or.inl ⟨Or.inl hask, fails_error stop⟩
    · refine Or.inr ⟨?_, _, _, happly, turn_of_skipped hholds errors, plain, .refl disk⟩
      simp [Stops, hask, hholds]

/-! Runs -/

theorem touches_iff (h : SameFolders disk after) (plain : disk.IsPlain) (plain' : after.IsPlain)
    {place : Place} : Touches mode after fix place ↔ Touches mode disk fix place := by
  simp only [Touches, h.locate_iff plain plain']

theorem applyAll_cons (h : apply disk mode fix = (after, .ok result)) (rest : List Fix) :
    applyAll mode disk (fix :: rest) =
      ((applyAll mode after rest).1, (applyAll mode after rest).2.map (result :: ·)) := by
  rw [applyAll, h]

theorem diskAt_succ (h : apply disk mode fix = (after, .ok result)) (rest : List Fix) (i : Nat) :
    diskAt mode disk (fix :: rest) (i + 1) = diskAt mode after rest i := by
  rw [diskAt, List.take_succ_cons, applyAll_cons h, diskAt]

theorem applyAll_of_stop (h : Fails (apply disk mode fix).2) (rest : List Fix) :
    Fails (applyAll mode disk (fix :: rest)).2 := by
  obtain ⟨stop, hstop⟩ := h
  rw [applyAll]
  split
  · exact fails_error _
  · next happly =>
      rw [happly] at hstop
      cases hstop

theorem disk_of_apply_dryRun (hmode : mode.dryRun = true) : (apply disk mode fix).1 = disk := by
  rw [apply]
  split
  · rfl
  · rw [if_pos hmode]
    split <;> rfl

/-- A run for show only leaves the disk as it is, however it ends. -/
theorem applyAll_dryRun (hmode : mode.dryRun = true) (fixes : List Fix) :
    (applyAll mode disk fixes).1 = disk := by
  induction fixes generalizing disk with
  | nil => rfl
  | cons first rest ih =>
      have hdisk := @disk_of_apply_dryRun disk first mode hmode
      rw [applyAll]
      split
      · next happly =>
          rw [happly] at hdisk
          exact hdisk
      · next happly =>
          rw [happly] at hdisk
          exact ih.trans hdisk

section

variable {fixes : List Fix} {results : List FixResult}

/-- A run on any disk has results if no fix halts it at its turn. -/
theorem applyAll_halts_iff :
    Fails (applyAll mode disk fixes).2 ↔
      ∃ i fix, fixes[i]? = some fix ∧ Halts mode (diskAt mode disk fixes i) fix := by
  induction fixes generalizing disk with
  | nil => exact iff_of_false (not_fails_ok []) nofun
  | cons first rest ih =>
      by_cases hhalts : Halts mode disk first
      · exact iff_of_true (applyAll_of_stop (apply_halts_iff.mpr hhalts) rest) ⟨0, first, rfl, hhalts⟩
      · obtain ⟨result, hresult⟩ := not_fails_iff.mp (apply_halts_iff.not.mpr hhalts)
        have happly : apply disk mode first = ((apply disk mode first).1, .ok result) :=
          Prod.ext rfl hresult
        rw [applyAll_cons happly, fails_map, ih]
        constructor
        · rintro ⟨i, fix, hfix, hstops⟩
          exact ⟨i + 1, fix, hfix, by rwa [diskAt_succ happly]⟩
        · rintro ⟨i, fix, hfix, hstops⟩
          cases i with
          | zero =>
              cases hfix
              exact absurd hstops hhalts
          | succ i => exact ⟨i, fix, hfix, by rwa [diskAt_succ happly] at hstops⟩

/-- A run has results if no fix ends it at its turn. -/
theorem applyAll_fails_iff (plain : disk.IsPlain)
    (hfree : ∀ fix ∈ fixes, disk.isFolder (backupPath fix.target) ≠ .ok true) :
    Fails (applyAll mode disk fixes).2 ↔
      ∃ i fix, fixes[i]? = some fix ∧ Stops mode (diskAt mode disk fixes i) fix := by
  induction fixes generalizing disk with
  | nil => exact iff_of_false (not_fails_ok []) nofun
  | cons first rest ih =>
      obtain ⟨hfirst, hrest⟩ := List.forall_mem_cons.mp hfree
      obtain ⟨hstops, hfails⟩ | ⟨hgoes, result, after, happly, -, plain', hfolders⟩ :=
        @apply_turn disk first mode plain hfirst
      · exact iff_of_true (applyAll_of_stop hfails rest) ⟨0, first, rfl, hstops⟩
      · have hfree' : ∀ fix ∈ rest, after.isFolder (backupPath fix.target) ≠ .ok true := by
          intro fix hmem
          rw [ne_eq, hfolders.isFolder_iff plain plain']
          exact hrest fix hmem
        rw [applyAll_cons happly, fails_map, ih plain' hfree']
        constructor
        · rintro ⟨i, fix, hfix, hstops⟩
          exact ⟨i + 1, fix, hfix, by rwa [diskAt_succ happly]⟩
        · rintro ⟨i, fix, hfix, hstops⟩
          cases i with
          | zero =>
              cases hfix
              exact absurd hstops hgoes
          | succ i => exact ⟨i, fix, hfix, by rwa [diskAt_succ happly] at hstops⟩

/-- A run with results goes on behind its first fix. -/
theorem exists_of_applyAll_cons {first : Fix} (plain : disk.IsPlain)
    (hfree : ∀ fix ∈ first :: fixes, disk.isFolder (backupPath fix.target) ≠ .ok true)
    (h : (applyAll mode disk (first :: fixes)).2 = .ok results) :
    ∃ result after others, apply disk mode first = (after, .ok result) ∧
      Turn mode disk first result after ∧ after.IsPlain ∧ SameFolders disk after ∧
      (∀ fix ∈ fixes, after.isFolder (backupPath fix.target) ≠ .ok true) ∧
      (applyAll mode after fixes).2 = .ok others ∧ results = result :: others := by
  obtain ⟨hfirst, hrest⟩ := List.forall_mem_cons.mp hfree
  obtain ⟨-, hfails⟩ | ⟨-, result, after, happly, turn, plain', hfolders⟩ :=
    @apply_turn disk first mode plain hfirst
  · obtain ⟨e, he⟩ := applyAll_of_stop hfails fixes
    rw [he] at h
    cases h
  · rw [applyAll_cons happly] at h
    obtain ⟨others, hothers, rfl⟩ := map_eq_ok_iff.mp h
    refine ⟨result, after, others, happly, turn, plain', hfolders, fun fix hmem => ?_, hothers, rfl⟩
    rw [ne_eq, hfolders.isFolder_iff plain plain']
    exact hrest fix hmem

theorem length_applyAll (plain : disk.IsPlain)
    (hfree : ∀ fix ∈ fixes, disk.isFolder (backupPath fix.target) ≠ .ok true)
    (h : (applyAll mode disk fixes).2 = .ok results) : results.length = fixes.length := by
  induction fixes generalizing disk results with
  | nil =>
      cases h
      rfl
  | cons first rest ih =>
      obtain ⟨result, after, others, -, -, plain', -, hfree', hothers, rfl⟩ :=
        exists_of_applyAll_cons plain hfree h
      rw [List.length_cons, List.length_cons, ih plain' hfree' hothers]

theorem turn_of_applyAll (plain : disk.IsPlain)
    (hfree : ∀ fix ∈ fixes, disk.isFolder (backupPath fix.target) ≠ .ok true)
    (h : (applyAll mode disk fixes).2 = .ok results) {i : Nat}
    (hfix : fixes[i]? = some fix) (hresult : results[i]? = some result) :
    Turn mode (diskAt mode disk fixes i) fix result (diskAt mode disk fixes (i + 1)) := by
  induction fixes generalizing disk results i with
  | nil => cases hfix
  | cons first rest ih =>
      obtain ⟨made, after, others, happly, turn, plain', -, hfree', hothers, rfl⟩ :=
        exists_of_applyAll_cons plain hfree h
      rw [diskAt_succ happly]
      cases i with
      | zero =>
          cases hfix
          cases hresult
          exact turn
      | succ i =>
          rw [diskAt_succ happly]
          exact ih plain' hfree' hothers hfix hresult

theorem applyAll_kept (plain : disk.IsPlain)
    (hfree : ∀ fix ∈ fixes, disk.isFolder (backupPath fix.target) ≠ .ok true)
    (h : (applyAll mode disk fixes).2 = .ok results) {place : Place}
    (huntouched : ∀ (i : Nat) fix result, fixes[i]? = some fix → results[i]? = some result →
      result.applied = 1 → ¬ Touches mode disk fix place) :
    (applyAll mode disk fixes).1.get? place = disk.get? place := by
  -- The rest runs on the disk that the first turn leaves. It has the same folders, so the paths lead to
  -- the same places there, and what is touched and what is free can be said of the first disk.
  induction fixes generalizing disk results with
  | nil => rfl
  | cons first rest ih =>
      obtain ⟨made, after, others, happly, turn, plain', hfolders, hfree', hothers, rfl⟩ :=
        exists_of_applyAll_cons plain hfree h
      rw [applyAll_cons happly, ← turn.kept place (huntouched 0 first _ rfl rfl)]
      refine ih plain' hfree' hothers fun i fix result hfix hresult happlied => ?_
      rw [touches_iff hfolders plain plain']
      exact huntouched (i + 1) fix result hfix hresult happlied

/-- Each fix is made if and only if its file has the text it was planned for when its turn comes; what is
not the file of a fix that is made, nor the copy of one, stays as it is. All fixes get their turn if none
has a target that is no path, or is to write a text without bytes. -/
theorem applyAll_compares_and_swaps (plain : disk.IsPlain)
    (hfree : ∀ fix ∈ fixes, disk.isFolder (backupPath fix.target) ≠ .ok true) :
    ((∃ results, (applyAll mode disk fixes).2 = .ok results) ↔
      ∀ i fix, fixes[i]? = some fix → ¬ Stops mode (diskAt mode disk fixes i) fix) ∧
    (mode.dryRun = true → (applyAll mode disk fixes).1 = disk) ∧
    ∀ results, (applyAll mode disk fixes).2 = .ok results →
      results.length = fixes.length ∧
      (∀ (i : Nat) fix result, fixes[i]? = some fix → results[i]? = some result →
        Turn mode (diskAt mode disk fixes i) fix result (diskAt mode disk fixes (i + 1))) ∧
      ∀ place, (∀ (i : Nat) fix result, fixes[i]? = some fix → results[i]? = some result →
          result.applied = 1 → ¬ Touches mode disk fix place) →
        (applyAll mode disk fixes).1.get? place = disk.get? place := by
  refine ⟨?_, fun hmode => applyAll_dryRun hmode fixes, fun results h => ⟨length_applyAll plain hfree h,
    fun _ _ _ hfix hresult => turn_of_applyAll plain hfree h hfix hresult,
    fun _ huntouched => applyAll_kept plain hfree h huntouched⟩⟩
  rw [← not_fails_iff, applyAll_fails_iff plain hfree]
  simp only [not_exists, not_and]

end

def oneFile : Disk where
  nodes := [(["p"], .folder), (["p", "a.json"], .file [0x31])]

def editOf (name old new : Text) : Fix where
  target := ⟨"/", ["p", name]⟩
  path := name
  culture := "en"
  key := "k"
  oldText := old.toList
  newText := new.toList
  ruleId := "LOC001"
  value := .str "v"

/-- Two edits of the file that were planned for the same text, and one of the copy. -/
def edits : List Fix :=
  [editOf "a.json" "1" "2", editOf "a.json" "1" "3", editOf "a.json.bak" "1" "4"]

/-- The second edit comes too late, and the third one finds the copy that the first one has kept. -/
theorem applyAll_edits_copy :
    oneFile.IsPlain ∧ (∀ fix ∈ edits, oneFile.isFolder (backupPath fix.target) ≠ .ok true) ∧
      (applyAll {} oneFile edits).2.map (·.map (·.applied)) = .ok [1, 0, 1] ∧
      Turn {} (diskAt {} oneFile edits 2) (editOf "a.json.bak" "1" "4")
        { target := ⟨"/", ["p", "a.json.bak"]⟩, applied := 1,
          backup := some ⟨"/", ["p", "a.json.bak.bak"]⟩ } (diskAt {} oneFile edits 3) := by
  have plain : oneFile.IsPlain := by decide
  have hfree : ∀ fix ∈ edits, oneFile.isFolder (backupPath fix.target) ≠ .ok true := by
    decide
  obtain ⟨-, -, hresults⟩ := @applyAll_compares_and_swaps oneFile {} edits plain hfree
  have happlied : (applyAll {} oneFile edits).2.map (·.map (·.applied)) = .ok [1, 0, 1] := by
    decide
  obtain ⟨results, hrun, -⟩ := map_eq_ok_iff.mp happlied
  obtain ⟨-, hturns, -⟩ := hresults results hrun
  have hthird : (applyAll {} oneFile edits).2.map (·[2]?) = .ok (some
      { target := ⟨"/", ["p", "a.json.bak"]⟩, applied := 1,
        backup := some ⟨"/", ["p", "a.json.bak.bak"]⟩ }) := by
    decide
  rw [hrun] at hthird
  exact ⟨plain, hfree, happlied, hturns 2 _ _ rfl (Except.ok.inj hthird)⟩

end Fix
end LocaleKeys
