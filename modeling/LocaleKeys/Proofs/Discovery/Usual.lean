import LocaleKeys.Proofs.Discovery.Found
import LocaleKeys.Proofs.Path
import LocaleKeys.Proofs.Platform

/-!
The resource files of a directory tree. On a disk without links the usual pattern finds every file with
the ending of a resource, in whatever depth, but for the reports and for what lies in folders that are
passed over. It finds nothing at all if a folder below the root cannot be reached, or if a resource file
has a path that is too long. What several patterns find does not depend on their order.
-/

namespace LocaleKeys

/-! Names that a pattern describes -/

namespace Wildcard

theorem someEnd_iff {test : List Point → Bool} {s : List Point} :
    someEnd test s = true ↔ ∃ back, back <:+ s ∧ test back = true := by
  induction s with
  | nil => simp [someEnd]
  | cons c rest ih =>
      rw [someEnd, Bool.or_eq_true, ih]
      constructor
      · rintro (hall | ⟨back, hback, htest⟩)
        · exact ⟨_, List.suffix_rfl, hall⟩
        · exact ⟨back, hback.trans (List.suffix_cons c rest), htest⟩
      · rintro ⟨back, hback, htest⟩
        obtain rfl | hrest := List.suffix_cons_iff.mp hback
        · exact Or.inl htest
        · exact Or.inr ⟨back, hrest, htest⟩

theorem describes_chars {chars s : List Point} :
    describes (chars.map Piece.char) s = true ↔ s = chars := by
  induction chars generalizing s with
  | nil => simp [describes]
  | cons c chars ih =>
      cases s with
      | nil => simp [describes]
      | cons d s =>
          rw [List.map_cons, describes, Bool.and_eq_true, ih, List.cons.injEq]
          · simp [Piece.takes, eq_comm]
          · intro h
            cases h

theorem fits_json_iff {name : Text} : fits "*.json" name = true ↔ ∃ stem, name = stem ++ ".json" := by
  have hpieces : piecesFrom 0 (Text.ofString "*.json").toList =
      .anyRun :: (Text.ofString ".json").toList.map Piece.char := by decide
  rw [fits, hpieces, describes, someEnd_iff]
  simp only [describes_chars]
  constructor
  · rintro ⟨_, ⟨front, hname⟩, rfl⟩
    exact ⟨Text.ofList front, by rw [← Text.toList_inj]; simp [← hname]⟩
  · rintro ⟨stem, rfl⟩
    exact ⟨_, ⟨stem.toList, by simp⟩, rfl⟩

end Wildcard

namespace Discovery

variable {disk : Disk} {root place : Place} {exclude folders : List Text} {name : Text}

theorem not_isExcluded_iff :
    (!isExcluded exclude root (Place.path (root ++ (folders ++ [name])))) = true ↔
      ∀ folder ∈ folders, folder ∉ defaultExcludes ∧ folder ∉ exclude := by
  rw [isExcluded, Place.path, List.drop_left, List.dropLast_concat]
  simp

theorem mayBeResource_iff :
    mayBeResource exclude root (Place.path (root ++ (folders ++ [name]))) = true ↔
      Text.lowercased (Text.ofList (Path.splitName name.toList).2) = ".json" ∧ name ≠ reportName ∧
        ∀ folder ∈ folders, folder ∉ defaultExcludes ∧ folder ∉ exclude := by
  have hname : (Place.path (root ++ (folders ++ [name]))).name = name := by
    rw [Path.name, Place.path, ← List.append_assoc, List.getLast?_concat, Option.getD_some]
  rw [mayBeResource, Path.suffix, hname, Bool.and_eq_true, Bool.and_eq_true, decide_eq_true_iff,
    decide_eq_true_iff, not_isExcluded_iff, and_assoc]

/-- The ending of a resource counts as one if something stands before it. -/
theorem ending_iff {stem : Text} :
    Text.lowercased (Text.ofList (Path.splitName (stem ++ ".json").toList).2) = ".json" ↔ stem ≠ "" := by
  have hsplit : (stem ++ ".json").toList = stem.toList ++
      Point.char '.' :: (Text.ofString "json").toList := by simp
  rw [hsplit, Path.splitName_append (by decide)]
  by_cases hstem : stem = ""
  · subst hstem
    decide
  · have hne : ¬ ((Text.ofString "json").toList = [] ∨ stem.toList = []) := by simpa using hstem
    have hlower : Text.lowercased (Text.ofList (Point.char '.' :: (Text.ofString "json").toList)) =
        ".json" := by decide
    rw [if_neg hne]
    exact iff_of_true hlower hstem

/-- A place of a resource: below the root, in folders of which none is passed over, and with a name that
has the ending of a resource behind something and is not that of a report. -/
def IsResourcePlace (root : Place) (exclude : List Text) (place : Place) : Prop :=
  ∃ (folders : List Text) (stem : Text), place = root ++ (folders ++ [stem ++ ".json"]) ∧ stem ≠ "" ∧
    stem ++ ".json" ≠ reportName ∧ ∀ folder ∈ folders, folder ∉ defaultExcludes ∧ folder ∉ exclude

theorem parse_usual : Glob.parse "**/*.json" = .ok ⟨[.anyFolders, .wildcard "*.json"], false⟩ := by
  decide

theorem describes_usual_iff {names : List Text} :
    Glob.Describes [.anyFolders, .wildcard "*.json"] names ↔
      ∃ (folders : List Text) (stem : Text), names = folders ++ [stem ++ ".json"] := by
  constructor
  · intro h
    cases h with
    | @anyFolders _ folders _ _ hrest =>
        cases hrest with
        | wildcard hfits hnone =>
            cases hnone
            obtain ⟨stem, rfl⟩ := Wildcard.fits_json_iff.mp hfits
            exact ⟨folders, stem, rfl⟩
  · rintro ⟨folders, stem, rfl⟩
    exact .anyFolders (List.cons_ne_nil _ _)
      (.wildcard (Wildcard.fits_json_iff.mpr ⟨stem, rfl⟩) .nil)

theorem asks_usual_iff (hshort : ¬ Disk.IsTooLong place) :
    Asks root exclude "**/*.json" place ↔ IsResourcePlace root exclude place := by
  rw [Asks, and_iff_right hshort]
  constructor
  · rintro ⟨hname, parsed, names, hparse, rfl, -, hdescribes⟩
    rw [parse_usual] at hparse
    cases hparse
    obtain ⟨folders, stem, rfl⟩ := describes_usual_iff.mp hdescribes
    obtain ⟨hending, hreport, hfolders⟩ := mayBeResource_iff.mp hname
    exact ⟨folders, stem, rfl, ending_iff.mp hending, hreport, hfolders⟩
  · rintro ⟨folders, stem, rfl, hstem, hreport, hfolders⟩
    exact ⟨mayBeResource_iff.mpr ⟨ending_iff.mpr hstem, hreport, hfolders⟩, _, _, parse_usual, rfl, rfl,
      describes_usual_iff.mpr ⟨folders, stem, rfl⟩⟩

/-! Lists of patterns -/

variable [Platform] {places : List Place} {patterns others : List Text}

theorem mem_resourcesOfAll (h : resourcesOfAll disk root exclude patterns = .ok places) :
    place ∈ places ↔
      ∃ pattern ∈ patterns, ∃ found, resourcesOf disk root exclude pattern = .ok found ∧ place ∈ found := by
  induction patterns generalizing places with
  | nil =>
      cases h
      simp
  | cons pattern rest ih =>
      rw [resourcesOfAll] at h
      split at h
      · cases h
      · next found hfound =>
          split at h
          · cases h
          · next more hmore =>
              cases h
              rw [List.mem_append, ih hmore, List.exists_mem_cons_iff, hfound]
              simp

/-- Which resources are found does not depend on the order of the patterns, nor on repeated ones. -/
theorem resources_congr (h : ∀ pattern, pattern ∈ patterns ↔ pattern ∈ others) :
    (resources disk root patterns exclude).toOption = (resources disk root others exclude).toOption := by
  have hfails : Fails (resources disk root patterns exclude) ↔
      Fails (resources disk root others exclude) := by
    simp only [resources_fails_iff, h]
  cases hfirst : resources disk root patterns exclude with
  | error e =>
      obtain ⟨e', hsecond⟩ := hfails.mp ⟨e, hfirst⟩
      rw [hsecond]
      rfl
  | ok places =>
      have hsecond : ¬ Fails (resources disk root others exclude) := by
        rw [← hfails, hfirst]
        exact not_fails_ok places
      obtain ⟨places', hsecond⟩ := not_fails_iff.mp hsecond
      obtain ⟨found, hfound, rfl⟩ := map_eq_ok_iff.mp hfirst
      obtain ⟨found', hfound', rfl⟩ := map_eq_ok_iff.mp hsecond
      rw [hsecond]
      refine congrArg some (Place.sorted_congr fun place => ?_)
      simp only [mem_resourcesOfAll hfound, mem_resourcesOfAll hfound', h]

/-! The usual pattern -/

section Usual

variable (plain : disk.IsPlain)

include plain

omit [Platform] in
/-- Among paths of what is there, only those that are too long cannot be probed. -/
theorem filePlaces_fails_iff {paths : List Path} (h : ∀ path ∈ paths, ∃ place node,
    path = Place.path place ∧ disk.get? place = some node) :
    Fails (filePlaces disk paths) ↔ ∃ place, Place.path place ∈ paths ∧ Disk.IsTooLong place := by
  induction paths with
  | nil => simp [filePlaces]
  | cons path rest ih =>
      obtain ⟨⟨place, node, rfl, hget⟩, hrest⟩ := List.forall_mem_cons.mp h
      have hfirst : (∃ other, Place.path other ∈ place.path :: rest ∧ Disk.IsTooLong other) ↔
          Disk.IsTooLong place ∨ ∃ other, Place.path other ∈ rest ∧ Disk.IsTooLong other := by
        simp only [List.mem_cons, or_and_right, exists_or, Place.path, Path.mk.injEq, true_and,
          exists_eq_left]
      rw [hfirst, ← ih hrest, filePlaces, Disk.isFile, plain.test_place hget]
      by_cases hlong : Disk.IsTooLong place
      · simp [hlong]
      · rw [if_neg hlong, or_iff_right hlong, plain.resolve_place hget]
        cases Disk.isFileNode node with
        | false => rfl
        | true => cases filePlaces disk rest <;> simp

variable (hroot : disk.get? root = some .folder)

include hroot

theorem resources_usual_fails_iff :
    Fails (resources disk root ["**/*.json"] exclude) ↔ ¬ Glob.IsOpen disk root ∨
      ∃ place, HoldsFile disk place ∧ IsResourcePlace root exclude place ∧ Disk.IsTooLong place := by
  have hsearch : (⟨[.anyFolders, .wildcard "*.json"], false⟩ : Glob.Pattern) =
      Glob.everywhere "*.json" := rfl
  have hopen : Fails (Glob.find disk (Glob.everywhere "*.json") root.path) ↔ ¬ Glob.IsOpen disk root :=
    Glob.find_everywhere_fails_iff plain hroot
  rw [resources_fails_iff]
  simp only [List.mem_singleton, exists_eq_left]
  rw [resourcesOf, parse_usual]
  dsimp only
  rw [hsearch]
  cases hfind : Glob.find disk (Glob.everywhere "*.json") root.path with
  | error o =>
      rw [hfind] at hopen
      exact iff_of_true (fails_error _) (Or.inl (hopen.mp (fails_error o)))
  | ok paths =>
      rw [hfind] at hopen
      have hreached : Glob.IsOpen disk root := not_not.mp fun hnot => not_fails_ok paths (hopen.mpr hnot)
      rw [or_iff_right (not_not_intro hreached)]
      refine (filePlaces_fails_iff plain fun path hpath => ?_).trans (exists_congr fun place => ?_)
      · obtain ⟨folders, name, node, rfl, -, hget⟩ :=
          (Glob.mem_find_everywhere plain hroot hfind).mp (List.mem_filter.mp hpath).1
        exact ⟨_, node, rfl, hget⟩
      · rw [List.mem_filter, Glob.mem_find_everywhere plain hroot hfind, ← and_assoc]
        refine and_congr_left fun hlong => ?_
        constructor
        · rintro ⟨⟨folders, name, node, hplace, hfits, hget⟩, hname⟩
          obtain rfl : place = root ++ folders ++ [name] := (Path.mk.inj hplace).2
          obtain ⟨stem, rfl⟩ := Wildcard.fits_json_iff.mp hfits
          rw [List.append_assoc] at hget hlong hname ⊢
          obtain ⟨hending, hreport, hfolders⟩ := mayBeResource_iff.mp hname
          refine ⟨?_, folders, stem, rfl, ending_iff.mp hending, hreport, hfolders⟩
          cases node with
          | file data => exact ⟨data, hget⟩
          | folder => exact absurd hlong (hreached _ hget).1
          | link target => exact absurd rfl (plain.ne_link hget target)
        · rintro ⟨⟨data, hget⟩, folders, stem, rfl, hstem, hreport, hfolders⟩
          refine ⟨⟨folders, stem ++ ".json", .file data, ?_, Wildcard.fits_json_iff.mpr ⟨stem, rfl⟩, ?_⟩,
            mayBeResource_iff.mpr ⟨ending_iff.mpr hstem, hreport, hfolders⟩⟩
          · rw [List.append_assoc]
          · rwa [List.append_assoc]

/-- The usual pattern finds the files at the places of resources, each once and in order, if every folder
below the root can be reached and none of these files has a path that is too long; else the search fails.
And a list of patterns finds what it finds in any order and however often each of them is in it; it finds
something unless one of the patterns alone fails. -/
theorem resources_usual (exclude : List Text) :
    ((∃ places, resources disk root ["**/*.json"] exclude = .ok places) ↔
      Glob.IsOpen disk root ∧ ∀ place, HoldsFile disk place → IsResourcePlace root exclude place →
        ¬ Disk.IsTooLong place) ∧
    (∀ places, resources disk root ["**/*.json"] exclude = .ok places → places.Pairwise (· < ·) ∧
      ∀ place, place ∈ places ↔ HoldsFile disk place ∧ IsResourcePlace root exclude place) ∧
    ∀ patterns others : List Text, (∀ pattern, pattern ∈ patterns ↔ pattern ∈ others) →
      (resources disk root patterns exclude).toOption =
          (resources disk root others exclude).toOption ∧
        (Fails (resources disk root patterns exclude) ↔
          ∃ pattern ∈ patterns, Fails (resources disk root [pattern] exclude)) := by
  have hfinds : (∃ places, resources disk root ["**/*.json"] exclude = .ok places) ↔
      Glob.IsOpen disk root ∧ ∀ place, HoldsFile disk place → IsResourcePlace root exclude place →
        ¬ Disk.IsTooLong place := by
    rw [← not_fails_iff, resources_usual_fails_iff plain hroot]
    simp only [not_or, not_not, not_exists, not_and]
  refine ⟨hfinds, fun places hplaces => ?_, fun patterns others hsame => ⟨resources_congr hsame, ?_⟩⟩
  · have hshort := (hfinds.mp ⟨places, hplaces⟩).2
    obtain ⟨found, rfl⟩ := exists_of_resources hplaces
    refine ⟨Place.pairwise_lt_sorted found, fun place => ?_⟩
    have hup : ∀ pattern ∈ [Text.ofString "**/*.json"],
        Text.ofString ".." ∉ (Path.ofString pattern).names := by
      decide
    rw [mem_resources_iff plain (plain.not_up hroot) hup hplaces]
    refine and_congr_right fun hfile => ?_
    simp only [List.mem_singleton, exists_eq_left]
    by_cases hlong : Disk.IsTooLong place
    · exact iff_of_false (fun hasks => hasks.1 hlong) fun hplace => hshort place hfile hplace hlong
    · exact asks_usual_iff hlong
  · rw [resources_fails_iff]
    simp only [resources_fails_iff, List.mem_singleton, exists_eq_left]

end Usual

/-- A tree with a resource two folders down, one in a folder that may be passed over, and a file with
nothing before its ending. -/
def releases : Disk where
  nodes := [(["p"], .folder), (["p", "a"], .folder), (["p", "a", "b"], .folder),
    (["p", "a", "old"], .folder), (["p", "a", "b", "de.json"], .file []),
    (["p", "a", "old", "en.json"], .file []), (["p", ".json"], .file [])]

omit [Platform] in
theorem resources_usual_releases :
    releases.IsPlain ∧ releases.get? ["p"] = some .folder ∧
      ∃ places, @resources Platform.standIn releases ["p"] ["**/*.json"] ["old"] = .ok places ∧
        [Text.ofString "p", "a", "b", "de.json"] ∈ places ∧
        [Text.ofString "p", "a", "old", "en.json"] ∉ places := by
  have plain : releases.IsPlain := by decide
  have hroot : releases.get? ["p"] = some .folder := by decide
  obtain ⟨-, hmem, -⟩ := @resources_usual releases ["p"] Platform.standIn plain hroot ["old"]
  have hfinds : ¬ Fails (@resources Platform.standIn releases ["p"] ["**/*.json"] ["old"]) := by
    decide
  obtain ⟨places, hplaces⟩ := not_fails_iff.mp hfinds
  obtain ⟨-, hmem⟩ := hmem places hplaces
  refine ⟨plain, hroot, places, hplaces, (hmem _).mpr ⟨⟨[], by decide⟩, ?_⟩, fun hin => ?_⟩
  · exact ⟨["a", "b"], "de", by decide, by decide, by decide, by decide⟩
  · obtain ⟨-, folders, stem, hplace, -, -, hfolders⟩ := (hmem _).mp hin
    have hparts : [Text.ofString "a", "old"] ++ [Text.ofString "en.json"] = folders ++ [stem ++ ".json"] :=
      (List.cons.inj hplace).2
    obtain rfl := List.append_inj_left' hparts rfl
    exact (hfolders "old" (by decide)).2 (by decide)

/-- A name as long as a disk takes it. -/
def longName : Text :=
  Text.ofList (List.replicate 255 (.char 'x'))

/-- A tree with a resource, and beside it seventeen folders, one in the other. -/
def towering : Disk where
  nodes := (["p"], .folder) :: (["p", "en.json"], .file []) ::
    (List.range 17).map fun i => ("p" :: List.replicate (i + 1) longName, .folder)

omit [Platform] in
/-- The search gives up at a folder, though there is a resource beside it. -/
theorem resources_fails_towering :
    towering.IsPlain ∧ towering.get? ["p"] = some .folder ∧
      HoldsFile towering ["p", "en.json"] ∧ IsResourcePlace ["p"] [] ["p", "en.json"] ∧
      Fails (@resources Platform.standIn towering ["p"] ["**/*.json"] []) := by
  have plain : towering.IsPlain := by decide +kernel
  have hlong : Disk.IsTooLong ([Text.ofString "p"] ++ List.replicate 17 longName) := by decide +kernel
  have hthere : towering.get? ([Text.ofString "p"] ++ List.replicate 17 longName) =
      some .folder := by decide +kernel
  refine ⟨plain, rfl, ⟨[], rfl⟩, ⟨[], "en", rfl, by decide, by decide, nofun⟩, ?_⟩
  exact (@resources_usual_fails_iff _ _ [] Platform.standIn plain rfl).mpr
    (Or.inl fun hopen => (hopen _ hthere).1 hlong)

end Discovery
end LocaleKeys
