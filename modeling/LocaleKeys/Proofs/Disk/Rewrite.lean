import LocaleKeys.Proofs.Discovery
import LocaleKeys.Proofs.Disk.Growth

/-!
Files written into folders that are there. No folder comes or goes then, so every path leads where it led
before, and a file is copied to the place beside it.
-/

namespace LocaleKeys.Disk

variable {disk middle after : Disk} {place front start : Place} {path : Path}
variable {root name other : Text} {names back : List Text} {data : List UInt8}

/-- A path that no disk refuses for its length or its characters. -/
def IsAdmissible (path : Path) : Prop :=
  pathFault? path = none ∧ byteSize path.name ≤ maxNameBytes

instance (path : Path) : Decidable (IsAdmissible path) :=
  inferInstanceAs (Decidable (_ ∧ _))

theorem isFolder_eq_true_iff : disk.isFolder path = .ok true ↔
    ∃ place, disk.locate path = .ok place ∧ disk.get? place = some .folder := by
  constructor
  · intro h
    obtain ⟨place, hlook⟩ := look_of_isFolder h
    exact ⟨place, look_eq_ok hlook⟩
  · rintro ⟨place, hlocate, hfolder⟩
    simp only [isFolder, test, look, hlocate, hfolder, isFolderNode]

theorem read_eq_ok_iff : disk.read path = .ok data ↔
    ∃ place, disk.locate path = .ok place ∧ disk.get? place = some (.file data) := by
  constructor
  · intro h
    rw [read] at h
    split at h
    · next place held hlook =>
        cases h
        exact ⟨place, look_eq_ok hlook⟩
    · cases h
    · cases h
  · rintro ⟨place, hlocate, hfile⟩
    simp only [read, look, hlocate, hfile]

theorem write_eq (hlocate : disk.locate path = .ok place) (hnot : disk.get? place ≠ some .folder)
    (data : List UInt8) : disk.write path data = .ok (disk.put place (.file data)) := by
  rw [write, hlocate]
  dsimp only
  split
  · next hfolder => exact absurd hfolder hnot
  · rfl

theorem write_fails_iff (data : List UInt8) :
    Fails (disk.write path data) ↔
      Fails (disk.locate path) ∨ ∃ place, disk.locate path = .ok place ∧
        disk.get? place = some .folder := by
  rw [write]
  cases disk.locate path with
  | error fault => simp
  | ok place =>
      dsimp only
      split
      · next hfolder => simp [hfolder]
      · next hnot => simpa using hnot

/-- Where a text is not written, the path cannot be written to, or the text has no bytes. -/
theorem writeText_cases (text : List Point) :
    (Fails (disk.write path []) ∧ ∃ f, disk.writeText path text = (disk, .error (.failure f))) ∨
      ¬ Fails (disk.write path []) ∧ ∃ after,
        (Text.Utf8.IsWritable text ∧ disk.writeText path text = (after, .ok ()) ∨
          ¬ Text.Utf8.IsWritable text ∧ ∃ f, disk.writeText path text = (after, .error (.unwritable f))) := by
  have hpath : Fails (disk.write path ((Text.Utf8.write text).toOption.getD [])) ↔
      Fails (disk.write path []) := by
    rw [write_fails_iff, write_fails_iff]
  rw [← hpath, writeText]
  cases hwrite : disk.write path ((Text.Utf8.write text).toOption.getD []) with
  | error f => exact Or.inl ⟨fails_error f, f, rfl⟩
  | ok after =>
      refine Or.inr ⟨not_fails_ok after, after, ?_⟩
      cases hdata : Text.Utf8.write text with
      | ok data => exact Or.inl ⟨(Text.Utf8.write_eq_ok_iff.mp hdata).1, rfl⟩
      | error f =>
          refine Or.inr ⟨fun hbytes => ?_, f, rfl⟩
          rw [Text.Utf8.write_of_isWritable hbytes] at hdata
          cases hdata

/-- A text is not written if the path cannot be written to, or if it has no bytes. -/
theorem writeText_fails_iff (text : List Point) :
    Fails (disk.writeText path text).2 ↔
      Fails (disk.write path []) ∨ ¬ Text.Utf8.IsWritable text := by
  obtain ⟨hfails, f, heq⟩ | ⟨hgoes, after, ⟨hbytes, heq⟩ | ⟨hbytes, f, heq⟩⟩ :=
    @writeText_cases disk path text
  · simp [heq, hfails]
  · simp [heq, hgoes, hbytes]
  · simp [heq, hbytes]

theorem read_congr (h : disk.locate path = .ok place) (h' : after.locate path = .ok place)
    (hget : after.get? place = disk.get? place) : after.read path = disk.read path := by
  rw [read, read, look, look, h, h']
  dsimp only
  rw [hget]

/-- Two disks with the same folders. -/
structure SameFolders (disk after : Disk) : Prop where
  here : after.here = disk.here
  folder_iff : ∀ place, after.get? place = some .folder ↔ disk.get? place = some .folder

namespace SameFolders

theorem refl (disk : Disk) : SameFolders disk disk :=
  ⟨rfl, fun _ => Iff.rfl⟩

theorem trans (h : SameFolders disk middle) (h' : SameFolders middle after) :
    SameFolders disk after :=
  ⟨h'.here.trans h.here, fun place => (h'.folder_iff place).trans (h.folder_iff place)⟩

section

variable (h : SameFolders disk after) (plain : disk.IsPlain) (plain' : after.IsPlain)

include h plain plain'

theorem walkFrom_iff {follow follow' : Place → List Text → Except Fault Place} :
    walkFrom after follow' start names = .ok place ↔
      walkFrom disk follow start names = .ok place := by
  -- Without links a walk never follows one, so the two ways to follow them may differ.
  induction names generalizing start with
  | nil => rfl
  | cons name rest ih =>
      rw [plain'.walkFrom_cons_iff, plain.walkFrom_cons_iff, ih, ih]
      simp only [ne_eq, h.folder_iff]

theorem locate_iff : after.locate path = .ok place ↔ disk.locate path = .ok place := by
  have hstart : after.startOf path = disk.startOf path := by
    rw [startOf, startOf, h.here]
  rw [locate, locate, hstart]
  split
  · simp
  · exact h.walkFrom_iff plain plain'

theorem isFolder_iff : after.isFolder path = .ok true ↔ disk.isFolder path = .ok true := by
  rw [isFolder_eq_true_iff, isFolder_eq_true_iff]
  simp only [h.locate_iff plain plain', h.folder_iff]

end

end SameFolders

namespace IsPlain

variable (plain : disk.IsPlain)

include plain

/-! Places beside each other -/

/-- A walk goes on from the folder that its first names lead to. -/
theorem walkFrom_of_append {follow : Place → List Text → Except Fault Place} {middle : Place}
    (hfront : walkFrom disk follow start names = .ok middle)
    (hmiddle : disk.get? middle = some .folder) (hback : walkFrom disk follow middle back = .ok place) :
    walkFrom disk follow start (names ++ back) = .ok place := by
  induction names generalizing start with
  | nil =>
      cases hfront
      exact hback
  | cons name rest ih =>
      rw [List.cons_append, plain.walkFrom_cons_iff]
      obtain ⟨hup, hrest⟩ | ⟨hname, hshort, ⟨hfolder, hrest⟩ | ⟨hnot, -, rfl⟩⟩ :=
        plain.walkFrom_cons_iff.mp hfront
      · exact Or.inl ⟨hup, ih hrest⟩
      · exact Or.inr ⟨hname, hshort, Or.inl ⟨hfolder, ih hrest⟩⟩
      · exact absurd hmiddle hnot

/-- A path to a name in a folder leads to the place of that name, if no disk refuses it. -/
theorem locate_concat_iff (hlook : disk.look ⟨root, names⟩ = .ok (front, .folder)) (hname : name ≠ "..") :
    disk.locate ⟨root, names ++ [name]⟩ = .ok place ↔
      IsAdmissible ⟨root, names ++ [name]⟩ ∧ place = front ++ [name] := by
  have hlast : (⟨root, names ++ [name]⟩ : Path).name = name := by
    rw [Path.name, List.getLast?_concat, Option.getD_some]
  rw [IsAdmissible, hlast]
  constructor
  · intro h
    obtain ⟨front', hfront', hplace⟩ := plain.locate_concat h
    obtain ⟨hshort, -, rfl⟩ := hplace.resolve_left hname
    obtain ⟨rfl, -⟩ := Prod.mk.inj (Except.ok.inj (hfront'.symm.trans hlook))
    refine ⟨⟨?_, hshort⟩, rfl⟩
    rw [locate] at h
    split at h
    · cases h
    · assumption
  · rintro ⟨⟨hfault, hshort⟩, rfl⟩
    obtain ⟨hlocate, hfolder⟩ := look_eq_ok hlook
    rw [locate, pathFault?_of_append hfault] at hlocate
    rw [locate, hfault]
    refine plain.walkFrom_of_append hlocate hfolder (plain.walkFrom_cons_iff.mpr (Or.inr ?_))
    refine ⟨hname, Nat.not_lt_of_le hshort, ?_⟩
    by_cases hthere : disk.get? (front ++ [name]) = some .folder
    · exact Or.inl ⟨hthere, rfl⟩
    · exact Or.inr ⟨hthere, rfl, rfl⟩

/-- A path that ends with a step up leads to a folder, if it leads anywhere. -/
theorem folder_of_locate_up (h : disk.locate ⟨root, names ++ [Text.ofString ".."]⟩ = .ok place) :
    disk.get? place = some .folder := by
  rw [locate] at h
  split at h
  · cases h
  · obtain ⟨middle, -, hmiddle, hup⟩ :=
      plain.walkFrom_append (List.cons_ne_nil _ _) (plain.startOf _) h
    obtain ⟨-, hplace⟩ | ⟨hname, -⟩ := plain.walkFrom_cons_iff.mp hup
    · cases hplace
      exact plain.get?_dropLast hmiddle
    · exact absurd rfl hname

/-- What can be read has a proper name in a folder. -/
theorem exists_of_read (h : disk.read path = .ok data) :
    ∃ names name front, path = ⟨path.root, names ++ [name]⟩ ∧ IsName name ∧
      disk.look ⟨path.root, names⟩ = .ok (front, .folder) ∧
      disk.locate path = .ok (front ++ [name]) ∧ disk.get? (front ++ [name]) = some (.file data) := by
  obtain ⟨root, names⟩ := path
  obtain ⟨place, hlocate, hfile⟩ := read_eq_ok_iff.mp h
  cases List.eq_nil_or_concat names with
  | inl hnil =>
      subst hnil
      rw [locate] at hlocate
      split at hlocate
      · cases hlocate
      · cases hlocate
        rw [plain.startOf] at hfile
        cases hfile
  | inr hconcat =>
      obtain ⟨names, name, rfl⟩ := hconcat
      rw [List.concat_eq_append] at *
      obtain ⟨front, hlook, hplace⟩ := plain.locate_concat hlocate
      have hup : name ≠ ".." := by
        rintro rfl
        rw [plain.folder_of_locate_up hlocate] at hfile
        cases hfile
      obtain ⟨-, hname, rfl⟩ := hplace.resolve_left hup
      exact ⟨names, name, front, rfl, hname, hlook, hlocate, hfile⟩

/-! Writing -/

/-- A file is written over, or a new one is put into a folder. -/
theorem put_file (hlook : disk.look path = .ok (front, .folder))
    (hname : IsName name) (hnot : disk.get? (front ++ [name]) ≠ some .folder)
    (data : List UInt8) :
    (disk.put (front ++ [name]) (.file data)).IsPlain ∧
      SameFolders disk (disk.put (front ++ [name]) (.file data)) := by
  obtain ⟨-, hfolder⟩ := look_eq_ok hlook
  refine ⟨plain.put hfolder hname nofun fun hthere => absurd hthere hnot, rfl, fun place => ?_⟩
  rw [get?_put _ (List.append_ne_nil_of_right_ne_nil _ (List.cons_ne_nil _ _))]
  split
  · next hsame =>
      subst hsame
      exact ⟨nofun, fun hthere => absurd hthere hnot⟩
  · exact Iff.rfl

/-- A file is copied to a name beside it, or nothing happens because no disk takes that name. -/
theorem copy_beside {names : List Text}
    (hlook : disk.look ⟨root, names⟩ = .ok (front, .folder))
    (hlocate : disk.locate ⟨root, names ++ [name]⟩ = .ok (front ++ [name]))
    (hfile : disk.get? (front ++ [name]) = some (.file data)) (hother : other ≠ ".." ∧ other ≠ name)
    (hnot : disk.isFolder ⟨root, names ++ [other]⟩ ≠ .ok true) :
    IsAdmissible ⟨root, names ++ [other]⟩ ∧ disk.get? (front ++ [other]) ≠ some .folder ∧
        disk.copy ⟨root, names ++ [name]⟩ ⟨root, names ++ [other]⟩ =
          .ok (disk.put (front ++ [other]) (.file data)) ∨
      ¬ IsAdmissible ⟨root, names ++ [other]⟩ ∧
        ∃ e, disk.copy ⟨root, names ++ [name]⟩ ⟨root, names ++ [other]⟩ = .error e := by
  have htarget : disk.copyTarget ⟨root, names ++ [name]⟩ ⟨root, names ++ [other]⟩ =
      (⟨root, names ++ [other]⟩, false) := by
    rw [copyTarget]
    split
    · next htrue => exact absurd htrue hnot
    · rfl
  have hread : disk.read ⟨root, names ++ [name]⟩ = .ok data :=
    read_eq_ok_iff.mpr ⟨_, hlocate, hfile⟩
  rw [copy, htarget, hread, hlocate]
  dsimp only
  by_cases hadmissible : IsAdmissible ⟨root, names ++ [other]⟩
  · have hbeside := (plain.locate_concat_iff hlook hother.1).mpr ⟨hadmissible, rfl⟩
    have hfree : disk.get? (front ++ [other]) ≠ some .folder :=
      fun hfolder => hnot (isFolder_eq_true_iff.mpr ⟨_, hbeside, hfolder⟩)
    have hapart : front ++ [name] ≠ front ++ [other] := by simpa using Ne.symm hother.2
    refine Or.inl ⟨hadmissible, hfree, ?_⟩
    rw [hbeside, if_neg (by simpa [Except.toOption] using hapart), write_eq hbeside hfree]
  · refine Or.inr ⟨hadmissible, ?_⟩
    cases hlocated : disk.locate ⟨root, names ++ [other]⟩ with
    | ok place =>
        exact absurd ((plain.locate_concat_iff hlook hother.1).mp hlocated).1 hadmissible
    | error fault =>
        rw [if_neg (by simp [Except.toOption]), Disk.write, hlocated]
        exact ⟨_, rfl⟩

end IsPlain
end LocaleKeys.Disk
