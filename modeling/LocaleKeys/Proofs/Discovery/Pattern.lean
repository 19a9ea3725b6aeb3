import LocaleKeys.Proofs.Discovery.Folders

/-!
What patterns find. On a plain disk a search that does not fail finds those files below the root whose
names the steps of the pattern describe, whatever else the disk holds.
-/

namespace LocaleKeys

namespace Glob

/-- Names of a file that steps describe. Two stars pass over any number of folders. -/
inductive Describes : List Step → List Text → Prop
  | nil : Describes [] []
  | name {s : Text} {rest : List Step} {names : List Text} (h : Describes rest names) :
      Describes (.name s :: rest) (s :: names)
  | wildcard {s name : Text} {rest : List Step} {names : List Text}
      (hfits : Wildcard.fits s name = true) (h : Describes rest names) :
      Describes (.wildcard s :: rest) (name :: names)
  | anyFolders {rest : List Step} {passed names : List Text} (hnames : names ≠ [])
      (h : Describes rest names) : Describes (.anyFolders :: rest) (passed ++ names)

variable {disk : Disk} {start place : Place} {path : Path} {step : Step} {rest steps : List Step}
variable {last foldersOnly : Bool} {found : List Path} {names : List Text}

theorem Describes.ne_nil (h : Describes (step :: rest) names) : names ≠ [] := by
  cases h with
  | name _ | wildcard _ _ => exact List.cons_ne_nil _ _
  | anyFolders hnames _ => exact List.append_ne_nil_of_right_ne_nil _ hnames

theorem Describes.steps_eq_nil (h : Describes steps names) (hnames : names = []) : steps = [] := by
  cases steps with
  | nil => rfl
  | cons step rest => exact absurd hnames h.ne_nil

/-! Steps -/

section Steps

variable (plain : disk.IsPlain) {room : Nat}

include plain

theorem mem_follow_name {s : Text} (hname : Text.ofString ".." ∉ start ++ [s])
    (h : follow disk room last start.path (.name s) = .ok found) :
    path ∈ found ↔ path = Place.path (start ++ [s]) ∧ ∃ node,
      disk.get? (start ++ [s]) = some node ∧ (last = false → node = .folder) ∧
        ¬ Disk.IsTooLong (start ++ [s]) := by
  have hchild : child start.path s = Place.path (start ++ [s]) := rfl
  have hpasses : (if last then disk.pathExists else disk.isFolder) (Place.path (start ++ [s])) =
      .ok true ↔ ∃ node, disk.get? (start ++ [s]) = some node ∧ (last = false → node = .folder) ∧
        ¬ Disk.IsTooLong (start ++ [s]) := by
    cases last with
    | true => simpa [Disk.pathExists] using @Disk.IsPlain.test_path_iff _ _ (fun _ => true) plain hname
    | false => simpa using plain.isFolder_path_iff hname
  rw [follow, hchild, passing] at h
  split at h
  · cases h
  · next passes htest =>
      cases h
      rw [htest, Except.ok.injEq] at hpasses
      rw [← hpasses]
      cases passes <;> simp

/-- What a step leads to goes on from the start, with names that the step describes. -/
theorem exists_of_mem_follow (hstep : step ≠ .name "..") (hstart : disk.get? start = some .folder)
    (hfollow : follow disk room last start.path step = .ok found) (hpath : path ∈ found) :
    ∃ passed node, path = Place.path (start ++ passed) ∧
      disk.get? (start ++ passed) = some node ∧ (last = false → node = .folder) ∧
      ∀ more names, (node = .folder → names ≠ []) → Describes more names →
        Describes (step :: more) (passed ++ names) := by
  cases step with
  | name s =>
      have hname : Text.ofString ".." ∉ start ++ [s] := by
        rw [List.mem_append, List.mem_singleton, not_or]
        refine ⟨plain.not_up hstart, ?_⟩
        rintro rfl
        exact hstep rfl
      obtain ⟨rfl, node, hget, hnode, -⟩ := (mem_follow_name plain hname hfollow).mp hpath
      exact ⟨[s], node, rfl, hget, hnode, fun _ _ _ => .name⟩
  | wildcard s =>
      obtain ⟨name, node, rfl, hfits, hget, hnode⟩ :=
        (mem_follow_wildcard plain hstart hfollow).mp hpath
      exact ⟨[name], node, rfl, hget, hnode, fun _ _ _ => .wildcard hfits⟩
  | anyFolders =>
      obtain ⟨passed, hget, rfl⟩ := (mem_foldersFrom plain hstart hfollow).mp hpath
      exact ⟨passed, .folder, rfl, hget, fun _ => rfl, fun _ _ hnames => .anyFolders (hnames rfl)⟩

/-- A step that describes the first names of a file leads to what they lead to. -/
theorem exists_mem_follow {data : List UInt8} (hget : disk.get? (start ++ names) = some (.file data))
    (hshort : ¬ Disk.IsTooLong (start ++ names)) (hdescribes : Describes (step :: rest) names)
    (hfollow : follow disk room rest.isEmpty start.path step = .ok found) :
    ∃ passed more, names = passed ++ more ∧ Place.path (start ++ passed) ∈ found ∧
      Describes rest more := by
  -- Above the file all is there and short enough, and what is not the file is a folder.
  have hthere : ∀ passed more, names = passed ++ more → ∃ node,
      disk.get? (start ++ passed) = some node ∧ (more ≠ [] → node = .folder) ∧
        ¬ Disk.IsTooLong (start ++ passed) := by
    rintro passed more rfl
    rw [← List.append_assoc] at hget hshort
    have hfront : ¬ Disk.IsTooLong (start ++ passed) := fun hlong => hshort (hlong.append more)
    by_cases hmore : more = []
    · rw [hmore, List.append_nil] at hget
      exact ⟨_, hget, fun hne => absurd hmore hne, hfront⟩
    · exact ⟨.folder, plain.folder_of_append hmore hget, fun _ => rfl, hfront⟩
  have hstart : disk.get? start = some .folder := plain.folder_of_append hdescribes.ne_nil hget
  cases hdescribes with
  | @name s _ more h =>
      obtain ⟨node, hnode, hfolder, hfront⟩ := hthere [s] more rfl
      refine ⟨[s], more, rfl, (mem_follow_name plain (plain.not_up hnode) hfollow).mpr
        ⟨rfl, node, hnode, fun hlast => hfolder fun hnil => ?_, hfront⟩, h⟩
      rw [h.steps_eq_nil hnil] at hlast
      cases hlast
  | @wildcard s name _ more hfits h =>
      obtain ⟨node, hnode, hfolder, -⟩ := hthere [name] more rfl
      refine ⟨[name], more, rfl, (mem_follow_wildcard plain hstart hfollow).mpr
        ⟨name, node, rfl, hfits, hnode, fun hlast => hfolder fun hnil => ?_⟩, h⟩
      rw [h.steps_eq_nil hnil] at hlast
      cases hlast
  | @anyFolders _ passed more hmore h =>
      obtain ⟨node, hnode, hfolder, -⟩ := hthere passed more rfl
      obtain rfl := hfolder hmore
      exact ⟨passed, more, rfl, (mem_foldersFrom plain hstart hfollow).mpr ⟨passed, hnode, rfl⟩, h⟩

end Steps

/-! Searches -/

theorem room_of_walk {room : Nat} (h : walk disk foldersOnly room (step :: rest) path = .ok found) :
    ∃ less, room = less + 1 := by
  cases room with
  | zero => cases h
  | succ room => exact ⟨room, rfl⟩

variable (plain : disk.IsPlain)

include plain

/-- What a walk leads to goes on from the start; if it is a file, the steps describe its names. -/
theorem exists_of_mem_walk {room : Nat} (hup : Text.ofString ".." ∉ start)
    (hsteps : .name ".." ∉ steps)
    (hstart : steps ≠ [] ∨ foldersOnly = true → disk.get? start = some .folder)
    (hwalk : walk disk foldersOnly room steps start.path = .ok found) (hpath : path ∈ found) :
    ∃ names, path = Place.path (start ++ names) ∧ Text.ofString ".." ∉ start ++ names ∧
      ∀ data, disk.get? (start ++ names) = some (.file data) →
        foldersOnly = false ∧ Describes steps names := by
  induction steps generalizing start found room with
  | nil =>
      rw [walk] at hwalk
      cases hwalk
      obtain rfl := List.mem_singleton.mp hpath
      refine ⟨[], by rw [List.append_nil], by rwa [List.append_nil], fun data hfile => ⟨?_, .nil⟩⟩
      rw [Bool.eq_false_iff]
      intro honly
      rw [List.append_nil, hstart (Or.inr honly)] at hfile
      cases hfile
  | cons step rest ih =>
      rw [List.mem_cons, not_or] at hsteps
      obtain ⟨room, rfl⟩ := room_of_walk hwalk
      rw [walk] at hwalk
      split at hwalk
      · cases hwalk
      · next middle hfollow =>
          obtain ⟨first, hfirst, more, hmore, hpath⟩ := (mem_gather hwalk).mp hpath
          obtain ⟨passed, node, rfl, hget, hnode, hdescribes⟩ :=
            exists_of_mem_follow plain (Ne.symm hsteps.1) (hstart (Or.inl (List.cons_ne_nil _ _)))
              hfollow hfirst
          have hfolder : rest ≠ [] ∨ foldersOnly = true → disk.get? (start ++ passed) = some .folder := by
            intro hmiddle
            rw [hget, hnode]
            obtain hrest | honly := hmiddle
            · rw [List.isEmpty_eq_false_iff.mpr hrest, Bool.false_and]
            · rw [honly, Bool.not_true, Bool.and_false]
          obtain ⟨names, rfl, hup', hfile⟩ := ih (plain.not_up hget) hsteps.2 hfolder hmore hpath
          rw [List.append_assoc] at hup' hfile ⊢
          refine ⟨passed ++ names, rfl, hup', fun data hdata => ?_⟩
          obtain ⟨honly, hrest⟩ := hfile data hdata
          refine ⟨honly, hdescribes rest names ?_ hrest⟩
          rintro rfl rfl
          rw [List.append_nil, hget] at hdata
          cases hdata

theorem mem_walk_of_describes {data : List UInt8} {room : Nat}
    (hget : disk.get? (start ++ names) = some (.file data))
    (hshort : ¬ Disk.IsTooLong (start ++ names)) (hdescribes : Describes steps names)
    (hwalk : walk disk false room steps start.path = .ok found) :
    Place.path (start ++ names) ∈ found := by
  induction steps generalizing start names found room with
  | nil =>
      cases hdescribes
      rw [walk] at hwalk
      cases hwalk
      rw [List.append_nil]
      exact List.mem_singleton_self _
  | cons step rest ih =>
      obtain ⟨room, rfl⟩ := room_of_walk hwalk
      rw [walk, Bool.not_false, Bool.and_true] at hwalk
      split at hwalk
      · cases hwalk
      · next middle hfollow =>
          obtain ⟨passed, names, rfl, hfirst, hrest⟩ :=
            exists_mem_follow plain hget hshort hdescribes hfollow
          obtain ⟨more, hmore⟩ := exists_of_gather hwalk hfirst
          rw [← List.append_assoc] at hget hshort ⊢
          exact (mem_gather hwalk).mpr ⟨_, hfirst, more, hmore, ih hget hshort hrest hmore⟩

omit plain in
theorem eq_of_step {name s : Text} (h : Glob.step name = .ok (.name s)) : s = name := by
  rw [Glob.step] at h
  split at h
  · cases h
  · split at h
    · cases h
    · split at h
      · cases h
      · cases h
        rfl

omit plain in
theorem exists_of_steps {room : Nat} {parts : List Text}
    (h : Glob.steps foldersOnly room parts = .ok steps) :
    (steps = [] → parts = []) ∧ ∀ step ∈ steps, ∃ name ∈ parts, Glob.step name = .ok step := by
  induction parts generalizing room steps with
  | nil =>
      rw [Glob.steps] at h
      split at h
      · cases h
      · cases h
        refine ⟨fun _ => rfl, fun step hstep => ?_⟩
        cases hstep
  | cons name rest ih =>
      cases room with
      | zero => cases h
      | succ room =>
          rw [Glob.steps] at h
          split at h
          · cases h
          · next step hstep =>
              split at h
              · cases h
              · next more hmore =>
                  cases h
                  refine ⟨fun hnil => absurd hnil (List.cons_ne_nil _ _),
                    List.forall_mem_cons.mpr ⟨?_, fun other hother => ?_⟩⟩
                  · exact ⟨name, List.mem_cons_self, hstep⟩
                  · obtain ⟨origin, horigin, hother⟩ := (ih hmore).2 other hother
                    exact ⟨origin, List.mem_cons_of_mem _ horigin, hother⟩

namespace Pattern

/-- Names of a file that a pattern describes. A pattern for folders describes no file. -/
def Describes (pattern : Pattern) (names : List Text) : Prop :=
  pattern.foldersOnly = false ∧ Glob.Describes pattern.steps names

omit plain in
theorem of_parse {text : Text} {pattern : Pattern} (h : parse text = .ok pattern)
    (hup : Text.ofString ".." ∉ (Path.ofString text).names) :
    pattern.steps ≠ [] ∧ Step.name ".." ∉ pattern.steps := by
  rw [parse] at h
  split at h
  · cases h
  · dsimp only at h
    split at h
    · cases h
    · split at h
      · cases h
      · next hnames =>
          rw [List.isEmpty_iff] at hnames
          cases hsteps : Glob.steps (text.toList.getLast? = some (Point.char '/')) maxSteps
              (Path.ofString text).names with
          | error e => rw [hsteps] at h; cases h
          | ok steps =>
              rw [hsteps] at h
              cases h
              obtain ⟨hnil, horigin⟩ := exists_of_steps hsteps
              refine ⟨fun hempty => hnames (hnil hempty), fun hmem => ?_⟩
              obtain ⟨name, hname, hstep⟩ := horigin _ hmem
              rw [← eq_of_step hstep] at hname
              exact hup hname

end Pattern

variable [Platform] {pattern : Pattern}

theorem exists_of_mem_find (hup : Text.ofString ".." ∉ start) (hsteps : .name ".." ∉ pattern.steps)
    (hfind : find disk pattern start.path = .ok found) (hpath : path ∈ found) :
    ∃ names, path = Place.path (start ++ names) ∧ Text.ofString ".." ∉ start ++ names ∧
      ∀ data, disk.get? (start ++ names) = some (.file data) → pattern.Describes names := by
  rw [find] at hfind
  split at hfind
  · cases hfind
  · cases hfind
    cases hpath
  · next hfolder =>
      have hstart := ((plain.isFolder_path_iff hup).mp hfolder).1
      exact exists_of_mem_walk plain hup hsteps (fun _ => hstart) hfind hpath

theorem mem_find_of_describes {data : List UInt8} (hsteps : pattern.steps ≠ [])
    (hget : disk.get? (start ++ names) = some (.file data))
    (hshort : ¬ Disk.IsTooLong (start ++ names)) (hdescribes : pattern.Describes names)
    (hfind : find disk pattern start.path = .ok found) : Place.path (start ++ names) ∈ found := by
  obtain ⟨honly, hdescribes⟩ := hdescribes
  have hup : Text.ofString ".." ∉ start := fun hmem => plain.not_up hget (List.mem_append_left _ hmem)
  have hnames : names ≠ [] := fun hnil => hsteps (hdescribes.steps_eq_nil hnil)
  have hfolder : disk.isFolder start.path = .ok true := (plain.isFolder_path_iff hup).mpr
    ⟨plain.folder_of_append hnames hget, fun hlong => hshort (hlong.append names)⟩
  rw [find, hfolder, honly] at hfind
  exact mem_walk_of_describes plain hget hshort hdescribes hfind

end Glob
end LocaleKeys
