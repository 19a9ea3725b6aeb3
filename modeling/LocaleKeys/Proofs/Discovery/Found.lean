import LocaleKeys.Proofs.Discovery.Pattern
import LocaleKeys.Proofs.Disk.Growth

/-!
Which files a search finds. On a plain disk both searches are settled by the files alone: what they find
is all that their patterns, endings and exclusions ask for. So neither new folders nor files of a name
that is never looked for change it.
-/

namespace LocaleKeys.Discovery

variable {disk after : Disk} {root place : Place} {exclude patterns extensions : List Text}
variable {places others : List Place} {maxBytes : Int} {name : Text}

/-! Resources -/

/-- A place that a pattern asks for: it is not too long, its folders are not passed over, and its names
below the root are described. -/
def Asks (root : Place) (exclude : List Text) (pattern : Text) (place : Place) : Prop :=
  ¬ Disk.IsTooLong place ∧ mayBeResource exclude root place.path = true ∧
    ∃ parsed names, Glob.parse pattern = .ok parsed ∧ place = root ++ names ∧ parsed.Describes names

theorem mem_filePlaces {paths : List Path} (h : filePlaces disk paths = .ok places) :
    place ∈ places ↔ ∃ path ∈ paths, disk.isFile path = .ok true ∧ disk.resolve path = .ok place := by
  induction paths generalizing places with
  | nil =>
      cases h
      simp
  | cons path rest ih =>
      rw [filePlaces] at h
      split at h
      · cases h
      · next hfile => simp [ih h, hfile]
      · next hfile =>
          split at h
          · cases h
          · next here hresolve =>
              split at h
              · cases h
              · next more hmore =>
                  cases h
                  simp [ih hmore, hfile, hresolve, eq_comm]

variable [Platform]

section

variable (plain : disk.IsPlain) (hroot : Text.ofString ".." ∉ root)

include plain hroot

theorem mem_resourcesOf_iff {pattern : Text} (hpattern : Text.ofString ".." ∉ (Path.ofString pattern).names)
    (h : resourcesOf disk root exclude pattern = .ok places) :
    place ∈ places ↔ HoldsFile disk place ∧ Asks root exclude pattern place := by
  rw [resourcesOf] at h
  split at h
  · cases h
  · next parsed hparse =>
      obtain ⟨hsteps, hup⟩ := Glob.Pattern.of_parse hparse hpattern
      split at h
      · cases h
      · next paths hfind =>
          rw [mem_filePlaces h]
          constructor
          · rintro ⟨path, hpath, hfile, hresolve⟩
            obtain ⟨hpath, hname⟩ := List.mem_filter.mp hpath
            obtain ⟨names, rfl, hup', hdescribes⟩ :=
              Glob.exists_of_mem_find plain hroot hup hfind hpath
            obtain ⟨⟨data, hdata⟩, hshort⟩ := (plain.isFile_path_iff hup').mp hfile
            rw [plain.resolve_place hdata] at hresolve
            cases hresolve
            exact ⟨⟨data, hdata⟩, hshort, hname, parsed, names, hparse, rfl, hdescribes data hdata⟩
          · rintro ⟨⟨data, hdata⟩, hshort, hname, _, names, hparse', rfl, hdescribes⟩
            rw [hparse] at hparse'
            cases hparse'
            have hmem := Glob.mem_find_of_describes plain hsteps hdata hshort hdescribes hfind
            exact ⟨_, List.mem_filter.mpr ⟨hmem, hname⟩,
              (plain.isFile_path_iff (plain.not_up hdata)).mpr ⟨⟨data, hdata⟩, hshort⟩,
              plain.resolve_place hdata⟩

theorem mem_resourcesOfAll_iff
    (hpatterns : ∀ pattern ∈ patterns, Text.ofString ".." ∉ (Path.ofString pattern).names)
    (h : resourcesOfAll disk root exclude patterns = .ok places) :
    place ∈ places ↔ HoldsFile disk place ∧ ∃ pattern ∈ patterns, Asks root exclude pattern place := by
  induction patterns generalizing places with
  | nil =>
      cases h
      simp
  | cons pattern rest ih =>
      obtain ⟨hpattern, hrest⟩ := List.forall_mem_cons.mp hpatterns
      rw [resourcesOfAll] at h
      split at h
      · cases h
      · next found hfound =>
          split at h
          · cases h
          · next more hmore =>
              cases h
              rw [List.mem_append, mem_resourcesOf_iff plain hroot hpattern hfound, ih hrest hmore,
                ← and_or_left, List.exists_mem_cons_iff]

/-- The resource files are exactly the files that a pattern asks for. -/
theorem mem_resources_iff
    (hpatterns : ∀ pattern ∈ patterns, Text.ofString ".." ∉ (Path.ofString pattern).names)
    (h : resources disk root patterns exclude = .ok places) :
    place ∈ places ↔ HoldsFile disk place ∧ ∃ pattern ∈ patterns, Asks root exclude pattern place := by
  rw [resources] at h
  cases hall : resourcesOfAll disk root exclude patterns with
  | error e => rw [hall] at h; cases h
  | ok found =>
      rw [hall] at h
      cases h
      rw [mem_sorted, mem_resourcesOfAll_iff plain hroot hpatterns hall]

end

/-! Sources -/

/-- A file that counts as a source: it is the root itself, with the right ending, or below it, with a path
that is not too long, no more bytes than are looked at, and no folder that is passed over. -/
def IsSourceFile (root : Place) (extensions exclude : List Text) (maxBytes : Int) (place : Place)
    (data : List UInt8) : Prop :=
  place = root ∧ extensions.contains (Text.lowercased root.path.suffix) = true ∨
    (∃ names, names ≠ [] ∧ place = root ++ names) ∧ Disk.pathFault? place.path = none ∧
      (extensions.map Text.lowercased).contains (Text.lowercased place.path.suffix) = true ∧
      isExcluded exclude root place.path = false ∧ (data.length : Int) ≤ maxBytes

omit [Platform] in
theorem isSource_iff : isSource disk root extensions exclude maxBytes place = true ↔
    ∃ data, disk.get? place = some (.file data) ∧ Disk.pathFault? place.path = none ∧
      extensions.contains (Text.lowercased place.path.suffix) = true ∧
      isExcluded exclude root place.path = false ∧ (data.length : Int) ≤ maxBytes := by
  rw [isSource]
  split
  · next data hfault hdata => simp [hdata, hfault, and_assoc]
  · next hnot =>
      refine iff_of_false Bool.false_ne_true ?_
      rintro ⟨data, hdata, hfault, -⟩
      exact hnot data hfault hdata

omit [Platform] in
theorem not_file_of_isFile (plain : disk.IsPlain) (hplace : Text.ofString ".." ∉ place)
    (h : disk.isFile place.path = .ok false) (data : List UInt8) :
    disk.get? place ≠ some (.file data) := by
  intro hdata
  by_cases hlong : Disk.IsTooLong place
  · have hlook := plain.look_place hdata
    rw [if_pos hlong] at hlook
    obtain ⟨f, hfails⟩ : Fails (disk.isFile place.path) := Disk.test_fails_iff.mpr hlook
    rw [hfails] at h
    cases h
  · rw [(plain.isFile_path_iff hplace).mpr ⟨⟨data, hdata⟩, hlong⟩] at h
    cases h

omit [Platform] in
theorem fits_star (name : Text) : Wildcard.fits "*" name = true := by
  have hpieces : Wildcard.piecesFrom 0 (Text.ofString "*").toList = [.anyRun] := by decide
  have hends : ∀ s : List Point, Wildcard.someEnd (Wildcard.describes []) s = true := by
    intro s
    induction s with
    | nil => rfl
    | cons c s ih => rw [Wildcard.someEnd, ih, Bool.or_true]
  rw [Wildcard.fits, hpieces, Wildcard.describes]
  exact hends _

theorem folder_of_mem_find {pattern : Glob.Pattern} {paths : List Path} {path : Path}
    (plain : disk.IsPlain) (hroot : Text.ofString ".." ∉ root)
    (h : Glob.find disk pattern root.path = .ok paths) (hpath : path ∈ paths) :
    disk.get? root = some .folder := by
  rw [Glob.find] at h
  split at h
  · cases h
  · cases h
    cases hpath
  · next hfolder => exact ((plain.isFolder_path_iff hroot).mp hfolder).1

theorem mem_sources_iff (plain : disk.IsPlain) (hroot : Text.ofString ".." ∉ root)
    (h : sources disk root extensions exclude maxBytes = .ok places) :
    place ∈ places ↔ ∃ data, disk.get? place = some (.file data) ∧
      IsSourceFile root extensions exclude maxBytes place data := by
  rw [sources] at h
  split at h
  · cases h
  · next hfile =>
      cases h
      obtain ⟨⟨data, hdata⟩, -⟩ := (plain.isFile_path_iff hroot).mp hfile
      constructor
      · intro hplace
        split at hplace
        · next hsuffix =>
            obtain rfl := List.mem_singleton.mp hplace
            exact ⟨data, hdata, Or.inl ⟨rfl, hsuffix⟩⟩
        · cases hplace
      · rintro ⟨data', hdata', ⟨rfl, hsuffix⟩ | ⟨⟨names, hnames, rfl⟩, -⟩⟩
        · rw [if_pos hsuffix]
          exact List.mem_singleton_self _
        · rw [plain.folder_of_append hnames hdata'] at hdata
          cases hdata
  · next hfile =>
      split at h
      · cases h
      · next paths hfind =>
          cases h
          rw [mem_sorted, List.mem_filter, isSource_iff, List.mem_map]
          constructor
          · rintro ⟨⟨path, hpath, rfl⟩, data, hdata, hsource⟩
            have hfolder := folder_of_mem_find plain hroot hfind hpath
            obtain ⟨folders, name, node, rfl, -, -⟩ :=
              (Glob.mem_find_everywhere plain hfolder hfind).mp hpath
            refine ⟨data, hdata, Or.inr ⟨⟨folders ++ [name], ?_, ?_⟩, hsource⟩⟩
            · exact List.append_ne_nil_of_right_ne_nil _ (List.cons_ne_nil _ _)
            · exact List.append_assoc _ _ _
          · rintro ⟨data, hdata, ⟨rfl, -⟩ | ⟨⟨names, hnames, rfl⟩, hsource⟩⟩
            · exact absurd hdata (not_file_of_isFile plain hroot hfile data)
            · have hfolder := plain.folder_of_append hnames hdata
              obtain ⟨folders, name, rfl⟩ := (List.eq_nil_or_concat' names).resolve_left hnames
              refine ⟨⟨Place.path (root ++ (folders ++ [name])), ?_, rfl⟩, data, hdata, hsource⟩
              rw [← List.append_assoc] at hdata ⊢
              exact (Glob.mem_find_everywhere plain hfolder hfind).mpr
                ⟨folders, name, _, rfl, fits_star name, hdata⟩

/-- Looking for source files in a root that is there fails exactly if not all folders below it can be
reached. -/
theorem sources_fails_iff (plain : disk.IsPlain) (hroot : Text.ofString ".." ∉ root)
    (hexists : disk.pathExists root.path = .ok true) :
    Fails (sources disk root extensions exclude maxBytes) ↔ ¬ Glob.IsOpen disk root := by
  obtain ⟨node, hget, -, hshort⟩ := (plain.test_path_iff hroot).mp hexists
  have hfile : disk.isFile root.path = .ok (Disk.isFileNode node) := by
    rw [Disk.isFile, plain.test_place hget, if_neg hshort]
  rw [sources, hfile]
  cases node with
  | file data =>
      refine iff_of_false (not_fails_ok _) (not_not_intro fun passed hpassed => ?_)
      rw [plain.folder_of_folder hpassed] at hget
      cases hget
  | folder =>
      have hsearch : (⟨anything, false⟩ : Glob.Pattern) = Glob.everywhere "*" := rfl
      rw [← @Glob.find_everywhere_fails_iff disk root plain hget "*", hsearch]
      dsimp only [Disk.isFileNode]
      cases Glob.find disk (Glob.everywhere "*") root.path <;> simp
  | link target => exact absurd rfl (plain.ne_link hget target)

/-! Disks with the same files -/

theorem exists_of_resources (h : resources disk root patterns exclude = .ok places) :
    ∃ found, places = Place.sorted found := by
  rw [resources] at h
  cases hall : resourcesOfAll disk root exclude patterns with
  | error e => rw [hall] at h; cases h
  | ok found =>
      rw [hall] at h
      cases h
      exact ⟨found, rfl⟩

theorem exists_of_sources (h : sources disk root extensions exclude maxBytes = .ok places) :
    ∃ found, places = Place.sorted found := by
  rw [sources] at h
  split at h
  · cases h
  · cases h
    split
    · exact ⟨[root], by simp [Place.sorted, List.eraseDups_cons]⟩
    · exact ⟨[], by simp [Place.sorted]⟩
  · split at h
    · cases h
    · cases h
      exact ⟨_, rfl⟩

omit [Platform] in
theorem getLast?_ne_of_asks {pattern : Text} (h : Asks root exclude pattern place) :
    place.getLast? ≠ some reportName := by
  intro hlast
  obtain ⟨-, hname, -⟩ := h
  rw [mayBeResource, Bool.and_eq_true, Bool.and_eq_true, decide_eq_true_iff, decide_eq_true_iff] at hname
  refine hname.1.2 ?_
  rw [Path.name, Place.path, hlast, Option.getD_some]

variable (plain : disk.IsPlain) (plain' : after.IsPlain) (hroot : Text.ofString ".." ∉ root)

include plain plain' hroot

/-- Reports are never among the resource files, nor are folders. -/
theorem resources_of_grows (grows : Disk.Grows reportName disk after)
    (hpatterns : ∀ pattern ∈ patterns, Text.ofString ".." ∉ (Path.ofString pattern).names)
    (h : resources disk root patterns exclude = .ok places)
    (h' : resources after root patterns exclude = .ok others) : others = places := by
  obtain ⟨found, rfl⟩ := exists_of_resources h
  obtain ⟨found', rfl⟩ := exists_of_resources h'
  refine Place.sorted_congr fun place => ?_
  rw [← mem_sorted, mem_resources_iff plain' hroot hpatterns h', ← @mem_sorted place found,
    mem_resources_iff plain hroot hpatterns h]
  refine and_congr_left ?_
  rintro ⟨pattern, -, hasks⟩
  exact exists_congr (grows.file_iff (getLast?_ne_of_asks hasks))

theorem sources_of_grows (grows : Disk.Grows name disk after)
    (hname : ∀ place data, place.getLast? = some name →
      ¬ IsSourceFile root extensions exclude maxBytes place data)
    (h : sources disk root extensions exclude maxBytes = .ok places)
    (h' : sources after root extensions exclude maxBytes = .ok others) : others = places := by
  obtain ⟨found, rfl⟩ := exists_of_sources h
  obtain ⟨found', rfl⟩ := exists_of_sources h'
  refine Place.sorted_congr fun place => ?_
  rw [← mem_sorted, mem_sources_iff plain' hroot h', ← @mem_sorted place found,
    mem_sources_iff plain hroot h]
  refine exists_congr fun data => and_congr_left fun hsource => ?_
  exact grows.file_iff (fun hlast => hname place data hlast hsource) data

end LocaleKeys.Discovery
