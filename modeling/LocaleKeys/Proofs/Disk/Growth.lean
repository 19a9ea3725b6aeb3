import LocaleKeys.Proofs.Disk.Plain

/-!
What a disk becomes when folders are made and a file is written. Whatever was there stays as it was, but
for files of the name that is written; and once a folder is there and a file holds a text, making and
writing them again changes nothing at all.
-/

namespace LocaleKeys.Disk

variable {disk middle after : Disk} {place start : Place} {path : Path} {node : Node}
variable {name : Text}

/-- A disk with more folders, and with files of one name that may be new or have other contents. -/
structure Grows (name : Text) (disk after : Disk) : Prop where
  here : after.here = disk.here
  get? : ∀ place, after.get? place = disk.get? place ∨
    disk.get? place = none ∧ after.get? place = some .folder ∨
    place.getLast? = some name ∧ disk.get? place ≠ some .folder ∧
      ∃ data, after.get? place = some (.file data)

namespace Grows

theorem refl (name : Text) (disk : Disk) : Grows name disk disk :=
  ⟨rfl, fun _ => Or.inl rfl⟩

theorem trans (h : Grows name disk middle) (h' : Grows name middle after) :
    Grows name disk after := by
  refine ⟨h'.here.trans h.here, fun place => ?_⟩
  obtain hsame | ⟨hnone, hfolder⟩ | ⟨hname, hnot, data, hfile⟩ := h'.get? place
  · rw [hsame]
    exact h.get? place
  · obtain hbefore | ⟨-, hnew⟩ | ⟨-, -, data, hnew⟩ := h.get? place
    · exact Or.inr (Or.inl ⟨hbefore.symm.trans hnone, hfolder⟩)
    · rw [hnone] at hnew
      cases hnew
    · rw [hnone] at hnew
      cases hnew
  · refine Or.inr (Or.inr ⟨hname, ?_, data, hfile⟩)
    intro hbefore
    obtain hkept | ⟨hnone, -⟩ | ⟨-, hstill, -⟩ := h.get? place
    · exact hnot (hkept.trans hbefore)
    · rw [hbefore] at hnone
      cases hnone
    · exact hstill hbefore

theorem folder (h : Grows name disk after) (hfolder : disk.get? place = some .folder) :
    after.get? place = some .folder := by
  obtain hsame | ⟨hnone, -⟩ | ⟨-, hnot, -⟩ := h.get? place
  · exact hsame.trans hfolder
  · rw [hfolder] at hnone
    cases hnone
  · exact absurd hfolder hnot

theorem exists_node (h : Grows name disk after) (hnode : disk.get? place = some node) :
    ∃ node, after.get? place = some node := by
  obtain hsame | ⟨-, hfolder⟩ | ⟨-, -, data, hfile⟩ := h.get? place
  · exact ⟨node, hsame.trans hnode⟩
  · exact ⟨.folder, hfolder⟩
  · exact ⟨.file data, hfile⟩

/-- Files of other names are the same. -/
theorem file_iff (h : Grows name disk after) (hname : place.getLast? ≠ some name)
    (data : List UInt8) :
    after.get? place = some (.file data) ↔ disk.get? place = some (.file data) := by
  obtain hsame | ⟨hnone, hfolder⟩ | ⟨hlast, -⟩ := h.get? place
  · rw [hsame]
  · rw [hnone, hfolder]
    exact ⟨nofun, nofun⟩
  · exact absurd hlast hname

section

variable (h : Grows name disk after) (plain : disk.IsPlain) (plain' : after.IsPlain)

include h plain plain'

/-- What a walk leads to, it leads to on the grown disk. -/
theorem walkFrom {follow follow' : Place → List Text → Except Fault Place} {names : List Text}
    (hplace : Disk.walkFrom disk follow start names = .ok place) :
    Disk.walkFrom after follow' start names = .ok place := by
  induction names generalizing start with
  | nil => exact hplace
  | cons first rest ih =>
      rw [plain'.walkFrom_cons_iff]
      obtain ⟨hup, hrest⟩ | ⟨hname, hshort, ⟨hfolder, hrest⟩ | ⟨-, rfl, rfl⟩⟩ :=
        plain.walkFrom_cons_iff.mp hplace
      · exact Or.inl ⟨hup, ih hrest⟩
      · exact Or.inr ⟨hname, hshort, Or.inl ⟨h.folder hfolder, ih hrest⟩⟩
      · by_cases hnew : after.get? (start ++ [first]) = some .folder
        · exact Or.inr ⟨hname, hshort, Or.inl ⟨hnew, rfl⟩⟩
        · exact Or.inr ⟨hname, hshort, Or.inr ⟨hnew, rfl, rfl⟩⟩

theorem locate (hplace : disk.locate path = .ok place) : after.locate path = .ok place := by
  have hstart : after.startOf path = disk.startOf path := by rw [startOf, startOf, h.here]
  rw [Disk.locate] at hplace ⊢
  split
  · next hfault =>
      rw [hfault] at hplace
      cases hplace
  · next hfault =>
      rw [hfault] at hplace
      rw [hstart]
      exact h.walkFrom plain plain' hplace

theorem look_folder (hlook : disk.look path = .ok (place, .folder)) :
    after.look path = .ok (place, .folder) := by
  obtain ⟨hlocate, hfolder⟩ := look_eq_ok hlook
  rw [look, h.locate plain plain' hlocate]
  dsimp only
  rw [h.folder hfolder]

end

end Grows

/-! One more entry -/

theorem IsPlain.put (plain : disk.IsPlain) (hfolder : disk.get? start = some .folder)
    (hname : IsName name) (hnode : ∀ target, node ≠ .link target)
    (hkept : disk.get? (start ++ [name]) = some .folder → node = .folder) :
    (disk.put (start ++ [name]) node).IsPlain := by
  have hplace : start ++ [name] ≠ [] := List.append_ne_nil_of_right_ne_nil _ (List.cons_ne_nil _ _)
  have hfolders : ∀ front, disk.get? front = some .folder →
      (disk.put (start ++ [name]) node).get? front = some .folder := by
    intro front hfront
    rw [get?_put node hplace]
    split
    · next hsame => rw [hkept (hsame ▸ hfront)]
    · exact hfront
  have hentries : ∀ entry ∈ (disk.put (start ++ [name]) node).nodes,
      entry ∈ disk.nodes ∨ entry = (start ++ [name], node) := by
    intro entry hentry
    rw [Disk.put, Assoc.put_eq_update] at hentry
    obtain hold | ⟨old, rfl, -⟩ := Assoc.mem_update hentry
    · exact Or.inl hold
    · exact Or.inr rfl
  refine ⟨⟨?_, fun entry hentry => ?_⟩, hfolders _ plain.here, fun entry hentry => ?_⟩
  · rw [Disk.put, Assoc.put_eq_update]
    exact Assoc.nodup_keys_update _ _ plain.nodup
  · obtain hold | rfl := hentries entry hentry
    · obtain ⟨front, last, hentry, hfront, hlast⟩ := plain.parent entry hold
      exact ⟨front, last, hentry, hfolders front hfront, hlast⟩
    · exact ⟨start, name, rfl, hfolders start hfolder, hname⟩
  · obtain hold | rfl := hentries entry hentry
    · exact plain.noLink entry hold
    · cases node with
      | file _ => exact Or.inl rfl
      | folder => exact Or.inr rfl
      | link target => exact absurd rfl (hnode target)

theorem grows_put_folder {other : Text} (hnone : disk.get? (start ++ [other]) = none) :
    Grows name disk (disk.put (start ++ [other]) .folder) := by
  refine ⟨rfl, fun place => ?_⟩
  rw [get?_put _ (List.append_ne_nil_of_right_ne_nil _ (List.cons_ne_nil _ _))]
  split
  · next hsame => exact Or.inr (Or.inl ⟨hsame ▸ hnone, rfl⟩)
  · exact Or.inl rfl

theorem grows_put_file {data : List UInt8} (hnot : disk.get? (start ++ [name]) ≠ some .folder) :
    Grows name disk (disk.put (start ++ [name]) (.file data)) := by
  refine ⟨rfl, fun place => ?_⟩
  rw [get?_put _ (List.append_ne_nil_of_right_ne_nil _ (List.cons_ne_nil _ _))]
  split
  · next hsame =>
      subst hsame
      exact Or.inr (Or.inr ⟨List.getLast?_concat, hnot, data, rfl⟩)
  · exact Or.inl rfl

/-! Making folders -/

/-- A folder is made in a folder, under a name that is not in use. -/
theorem IsPlain.exists_of_makeFolder (plain : disk.IsPlain) (h : disk.makeFolder path = .ok after) :
    ∃ front last, disk.get? front = some .folder ∧ IsName last ∧
      disk.get? (front ++ [last]) = none ∧ after = disk.put (front ++ [last]) .folder := by
  rw [makeFolder, freePlace] at h
  split at h
  · cases h
  · cases h
  · next last hfault hlast =>
      split at h
      · cases h
      · cases h
      · next front node hfile hlook =>
          obtain ⟨-, hget⟩ := look_eq_ok hlook
          have hfolder : disk.get? front = some .folder := by
            cases node with
            | file data => exact absurd rfl (hfile data)
            | folder => exact hget
            | link target => exact absurd rfl (plain.ne_link hget target)
          split at h
          · cases h
          · split at h
            · cases h
            · next hfree =>
                cases h
                rw [Bool.or_eq_true, not_or, decide_eq_true_eq, Option.not_isSome_iff_eq_none] at hfree
                have hname : IsName last :=
                  isName_of_pathFault? hfault (List.mem_of_getLast? hlast) hfree.1
                exact ⟨front, last, hfolder, hname, hfree.2, rfl⟩

theorem IsPlain.makeFolder (plain : disk.IsPlain) (h : disk.makeFolder path = .ok after) :
    after.IsPlain ∧ Grows name disk after := by
  obtain ⟨front, last, hfolder, hlast, hnone, rfl⟩ := plain.exists_of_makeFolder h
  refine ⟨plain.put hfolder hlast nofun fun _ => rfl, grows_put_folder hnone⟩

theorem eq_of_settleFolder {fault : Fault} (h : disk.settleFolder path fault = .ok after) :
    after = disk := by
  rw [settleFolder] at h
  split at h
  · exact (Except.ok.inj h).symm
  · cases h
  · cases h

theorem IsPlain.makeFoldersAt (plain : disk.IsPlain) {root : Text} {room : Nat}
    {names : List Text} (h : disk.makeFoldersAt root room names = .ok after) :
    after.IsPlain ∧ Grows name disk after := by
  induction names generalizing room after with
  | nil =>
      rw [Disk.makeFoldersAt] at h
      cases h
      exact ⟨plain, .refl name disk⟩
  | cons last above ih =>
      cases room with
      | zero => cases h
      | succ room =>
          rw [Disk.makeFoldersAt] at h
          split at h
          · next hmade =>
              cases h
              exact plain.makeFolder hmade
          · split at h
            · cases h
            · next middle habove =>
                obtain ⟨plain', hgrows⟩ := ih habove
                split at h
                · next hmade =>
                    cases h
                    obtain ⟨plain'', hgrows'⟩ := plain'.makeFolder hmade
                    exact ⟨plain'', hgrows.trans hgrows'⟩
                · obtain rfl := eq_of_settleFolder h
                  exact ⟨plain', hgrows⟩
          · obtain rfl := eq_of_settleFolder h
            exact ⟨plain, .refl name after⟩

theorem IsPlain.makeFolders (plain : disk.IsPlain) {room : Nat}
    (h : disk.makeFolders room path = .ok after) :
    after.IsPlain ∧ Grows name disk after :=
  plain.makeFoldersAt h

theorem IsPlain.makeFolder_of_look (plain : disk.IsPlain) {root : Text} {names : List Text}
    (hlook : disk.look ⟨root, names ++ [name]⟩ = .ok (place, .folder)) :
    disk.makeFolder ⟨root, names ++ [name]⟩ = .error .alreadyThere := by
  obtain ⟨hlocate, hheld⟩ := look_eq_ok hlook
  obtain ⟨front, hfront, hlast⟩ := plain.locate_concat hlocate
  have hfault : pathFault? ⟨root, names ++ [name]⟩ = none := by
    rw [locate] at hlocate
    split at hlocate
    · cases hlocate
    · assumption
  have hshort : ¬ maxNameBytes < byteSize name := by
    obtain rfl | ⟨hshort, -⟩ := hlast
    · decide
    · exact Nat.not_lt_of_le hshort
  have hthere : (name = ".." || (disk.get? (front ++ [name])).isSome) = true := by
    obtain rfl | ⟨-, -, rfl⟩ := hlast
    · rfl
    · rw [hheld]
      exact Bool.or_true _
  have hparent : (⟨root, names ++ [name]⟩ : Path).parent = ⟨root, names⟩ := by
    rw [Path.parent, List.dropLast_concat]
  rw [Disk.makeFolder, freePlace, hfault, List.getLast?_concat]
  dsimp only
  rw [hparent, hfront]
  dsimp only
  rw [if_neg hshort, if_pos hthere]
  rfl

/-- Where a folder is there already, making it changes nothing. -/
theorem IsPlain.makeFolders_of_look (plain : disk.IsPlain) {room : Nat}
    (hroom : 0 < room ∨ path.names = []) (hlook : disk.look path = .ok (place, .folder)) :
    disk.makeFolders room path = .ok disk := by
  obtain ⟨root, names⟩ := path
  rw [Disk.makeFolders]
  cases List.eq_nil_or_concat names with
  | inl hnil =>
      rw [hnil, List.reverse_nil, Disk.makeFoldersAt]
  | inr hconcat =>
      obtain ⟨above, last, rfl⟩ := hconcat
      rw [List.concat_eq_append] at *
      obtain ⟨room, rfl⟩ := Nat.exists_eq_add_one_of_ne_zero
        (Nat.ne_of_gt (hroom.resolve_right (by simp)))
      have hfolder : disk.isFolder ⟨root, above ++ [last]⟩ = .ok true := by
        rw [isFolder, test, hlook]
        rfl
      rw [List.reverse_append, List.reverse_singleton, List.singleton_append, Disk.makeFoldersAt]
      dsimp only
      rw [List.reverse_cons, List.reverse_reverse, plain.makeFolder_of_look hlook]
      dsimp only
      rw [settleFolder, hfolder]

theorem room_of_makeFolders {room : Nat} (h : disk.makeFolders room path = .ok after) :
    0 < room ∨ path.names = [] := by
  rw [Disk.makeFolders] at h
  cases room with
  | zero =>
      cases hnames : path.names.reverse with
      | nil => exact Or.inr (List.reverse_eq_nil_iff.mp hnames)
      | cons last above =>
          rw [hnames] at h
          cases h
  | succ room => exact Or.inl (Nat.zero_lt_succ _)

/-! Writing -/

/-- A text is written if it has bytes and they can be written. -/
theorem writeText_eq_ok_iff {text : List Point} :
    disk.writeText path text = (after, .ok ()) ↔
      Text.Utf8.IsWritable text ∧ disk.write path (Text.Utf8.encode text) = .ok after := by
  rw [writeText]
  cases hdata : Text.Utf8.write text with
  | error f =>
      have hbytes : ¬ Text.Utf8.IsWritable text := fun hbytes => by
        rw [Text.Utf8.write_of_isWritable hbytes] at hdata
        cases hdata
      refine iff_of_false ?_ fun h => hbytes h.1
      split <;> exact nofun
  | ok data =>
      obtain ⟨hbytes, rfl⟩ := Text.Utf8.write_eq_ok_iff.mp hdata
      cases hwrite : disk.write path (Text.Utf8.encode text) with
      | error f => simp [hbytes, Except.toOption, hwrite]
      | ok written => simp [hbytes, Except.toOption, hwrite, Except.map, Except.mapError]

/-- What a file was written to, in a folder that is there. -/
theorem IsPlain.exists_of_write (plain : disk.IsPlain) {root : Text} {names : List Text}
    {data : List UInt8} (hname : name ≠ "..")
    (h : disk.write ⟨root, names ++ [name]⟩ data = .ok after) :
    ∃ front, disk.look ⟨root, names⟩ = .ok (front, .folder) ∧
      disk.locate ⟨root, names ++ [name]⟩ = .ok (front ++ [name]) ∧
      IsName name ∧ disk.get? (front ++ [name]) ≠ some .folder ∧
      after = disk.put (front ++ [name]) (.file data) := by
  rw [write] at h
  split at h
  · cases h
  · next place hlocate =>
      obtain ⟨front, hfront, hlast⟩ := plain.locate_concat hlocate
      obtain ⟨-, hproper, rfl⟩ := hlast.resolve_left hname
      split at h
      · cases h
      · next hnot =>
          cases h
          exact ⟨front, hfront, hlocate, hproper, hnot, rfl⟩

theorem IsPlain.write (plain : disk.IsPlain) {root : Text} {names : List Text}
    {data : List UInt8} (hname : name ≠ "..")
    (h : disk.write ⟨root, names ++ [name]⟩ data = .ok after) :
    after.IsPlain ∧ Grows name disk after := by
  obtain ⟨front, hfront, -, hproper, hnot, rfl⟩ := plain.exists_of_write hname h
  obtain ⟨-, hfolder⟩ := look_eq_ok hfront
  exact ⟨plain.put hfolder hproper nofun fun hthere => absurd hthere hnot, grows_put_file hnot⟩

/-- A file that has been written can be read back; making its folder and writing it again change
nothing. -/
theorem IsPlain.write_again (plain : disk.IsPlain) {root : Text} {names : List Text}
    {data : List UInt8} {room : Nat} (hroom : 0 < room ∨ names = []) (hname : name ≠ "..")
    (h : disk.write ⟨root, names ++ [name]⟩ data = .ok after) :
    after.read ⟨root, names ++ [name]⟩ = .ok data ∧ after.makeFolders room ⟨root, names⟩ = .ok after ∧
      after.write ⟨root, names ++ [name]⟩ data = .ok after := by
  obtain ⟨plain', hgrows⟩ := plain.write hname h
  obtain ⟨front, hfront, hlocate, -, -, rfl⟩ := plain.exists_of_write hname h
  have hplace : front ++ [name] ≠ [] := List.append_ne_nil_of_right_ne_nil _ (List.cons_ne_nil _ _)
  have hlocate' := hgrows.locate plain plain' hlocate
  have hget : (disk.put (front ++ [name]) (.file data)).get? (front ++ [name]) = some (.file data) := by
    rw [get?_put _ hplace, if_pos rfl]
  refine ⟨?_, plain'.makeFolders_of_look hroom (hgrows.look_folder plain plain' hfront), ?_⟩
  · rw [read, look, hlocate']
    dsimp only
    rw [hget]
  · rw [Disk.write, hlocate']
    dsimp only
    rw [hget]
    dsimp only
    rw [put_of_get? hplace hget]

end LocaleKeys.Disk
