import LocaleKeys.Check.RunId
import LocaleKeys.Proofs.Disk.Order
import LocaleKeys.Proofs.Except
import LocaleKeys.Proofs.Number.Digits
import LocaleKeys.Proofs.Text.Utf8
import Mathlib.Data.List.Nodup

/-!
What the id of a reproducible run tells of the files. The bytes behind an id are the paths and the sizes
of the files, one after the other with nothing between them. Files that stand in the order of their paths
from the root give the same bytes wherever the root is. Bytes tell files apart as far as they show where a
path ends and where a size does: a path that starts with a digit, or one that is another one with a digit
behind it, may hide that.
-/

namespace LocaleKeys.RunId

/-- What a run sees of a file below its root: the names that lead there and the size. -/
@[ext]
structure Sighting where
  names : Place
  size : Nat
  below : names ≠ []
  named : ∀ name ∈ names, name ≠ "" ∧ Point.char '/' ∉ name.toList
  deriving DecidableEq

namespace Sighting

def path (s : Sighting) : List Point :=
  (Path.text ⟨"", s.names⟩).toList

/-- What stands for a file in the text of a run. -/
def chars (s : Sighting) : List Point :=
  s.path ++ Text.digits s.size

def resize (s : Sighting) (size : Nat) : Sighting :=
  { s with size }

variable {s t : Sighting}

theorem path_eq (s : Sighting) : s.path = [Point.char '/'].intercalate (s.names.map Text.toList) := by
  have hnames : s.names.isEmpty = false := by
    rw [List.isEmpty_eq_false_iff]
    exact s.below
  rw [path, Path.text, hnames]
  simp [Text.toList_intercalate]

/-- The slashes show where the names of a path are. -/
theorem names_eq_of_path (h : s.path = t.path) : s.names = t.names := by
  have hsplit : ∀ s : Sighting, s.path.splitOn (.char '/') = s.names.map Text.toList := by
    intro s
    rw [path_eq]
    refine List.splitOn_intercalate (Point.char '/') ?_ (by simpa using s.below)
    intro name hname
    obtain ⟨name, hmem, rfl⟩ := List.mem_map.mp hname
    exact (s.named name hmem).2
  apply List.map_injective_iff.mpr Text.toList_injective
  rw [← hsplit, ← hsplit, h]

theorem path_ne_nil (s : Sighting) : s.path ≠ [] := by
  obtain ⟨name, rest, hnames⟩ := List.exists_cons_of_ne_nil s.below
  have hname : name.toList ≠ [] := by
    simpa using (s.named name (hnames ▸ List.mem_cons_self)).1
  rw [path_eq, hnames, List.map_cons]
  cases rest with
  | nil => simpa using hname
  | cons next rest => simp [hname]

end Sighting

/-! Texts that show where their parts end -/

/-- A text is another one with more behind it, and that starts with a digit. -/
def GoesOn (front text : List Point) : Prop :=
  ∃ digit rest, digit.isDigit = true ∧ text = front ++ digit :: rest

theorem goesOn_iff {front text : List Point} :
    GoesOn front text ↔
      front <+: text ∧ (text.drop front.length).head?.any Point.isDigit = true := by
  constructor
  · rintro ⟨digit, rest, hdigit, rfl⟩
    simp [hdigit]
  · rintro ⟨⟨rest, rfl⟩, hhead⟩
    rw [List.drop_left, Option.any_eq_true] at hhead
    obtain ⟨digit, hrest, hdigit⟩ := hhead
    obtain ⟨behind, rfl⟩ := List.head?_eq_some_iff.mp hrest
    exact ⟨digit, behind, hdigit, rfl⟩

instance (front text : List Point) : Decidable (GoesOn front text) :=
  decidable_of_iff _ goesOn_iff.symm

theorem not_goesOn_self (text : List Point) : ¬ GoesOn text text := by
  rintro ⟨digit, rest, -, h⟩
  simp at h

/-- A path in front of a size does not end sooner than another one that does not go on from it. -/
theorem eq_nil_of_not_goesOn {front path more back rest : List Point} {size : Nat}
    (hgoes : ¬ GoesOn front path) (hpath : path = front ++ more)
    (h : Text.digits size ++ back = more ++ rest) : more = [] := by
  cases more with
  | nil => rfl
  | cons c more =>
      obtain ⟨digit, digits, hdigits⟩ :=
        List.exists_cons_of_ne_nil (Number.digits_ne_nil (n := size))
      rw [hdigits] at h
      obtain ⟨rfl, -⟩ := List.cons.inj h
      have hdigit : digit.isDigit = true :=
        Number.isDigit_of_mem_toDigits (n := size) (hdigits ▸ List.mem_cons_self)
      exact absurd ⟨digit, more, hdigit, hpath⟩ hgoes

theorem path_eq_of_append {path path' back back' : List Point} {size size' : Nat}
    (hgoes : ¬ GoesOn path path') (hgoes' : ¬ GoesOn path' path)
    (h : path ++ (Text.digits size ++ back) = path' ++ (Text.digits size' ++ back')) :
    path = path' := by
  obtain ⟨more, hpath, hrest⟩ | ⟨more, hpath, hrest⟩ := List.append_eq_append_iff.mp h
  · rw [hpath, eq_nil_of_not_goesOn hgoes hpath hrest, List.append_nil]
  · rw [hpath, eq_nil_of_not_goesOn hgoes' hpath hrest, List.append_nil]

theorem size_eq_of_append {back back' : List Point} {size size' : Nat} (hback : ¬ GoesOn [] back)
    (hback' : ¬ GoesOn [] back')
    (h : Text.digits size ++ back = Text.digits size' ++ back') :
    size = size' ∧ back = back' := by
  have hspan : ∀ (n : Nat) (rest : List Point), ¬ GoesOn [] rest →
      Number.spanDigits (Text.digits n ++ rest) = (Text.digits n, rest) := by
    intro n rest hrest
    refine Number.spanDigits_append (fun _ => Number.isDigit_of_mem_toDigits) fun c hc => ?_
    obtain ⟨behind, rfl⟩ := List.head?_eq_some_iff.mp hc
    exact Bool.eq_false_iff.mpr fun hdigit => hrest ⟨c, behind, hdigit, rfl⟩
  have hsame := congrArg Number.spanDigits h
  rw [hspan size back hback, hspan size' back' hback'] at hsame
  obtain ⟨hdigits, hrest⟩ := Prod.mk.inj hsame
  exact ⟨Number.toDigits_injective hdigits, hrest⟩

/-- All paths have bytes. -/
def HaveBytes (sightings : List Sighting) : Prop :=
  ∀ s ∈ sightings, Text.Utf8.IsWritable s.path

instance (sightings : List Sighting) : Decidable (HaveBytes sightings) :=
  List.decidableBAll (fun s : Sighting => Text.Utf8.IsWritable s.path) sightings

theorem haveBytes_cons {s : Sighting} {sightings : List Sighting} :
    HaveBytes (s :: sightings) ↔ Text.Utf8.IsWritable s.path ∧ HaveBytes sightings :=
  List.forall_mem_cons

/-- The text for files: their paths and sizes without anything between them. -/
def written (sightings : List Sighting) : List Point :=
  sightings.flatMap Sighting.chars

theorem written_cons (s : Sighting) (sightings : List Sighting) :
    written (s :: sightings) = s.path ++ (Text.digits s.size ++ written sightings) := by
  rw [written, List.flatMap_cons, Sighting.chars, List.append_assoc]
  rfl

theorem written_append (front back : List Sighting) :
    written (front ++ back) = written front ++ written back :=
  List.flatMap_append

theorem written_cons_ne_nil (s : Sighting) (sightings : List Sighting) :
    written (s :: sightings) ≠ [] := by
  rw [written_cons]
  exact List.append_ne_nil_of_left_ne_nil s.path_ne_nil _

theorem not_goesOn_written {sightings : List Sighting}
    (h : ∀ s ∈ sightings, ¬ GoesOn [] s.path) : ¬ GoesOn [] (written sightings) := by
  rintro ⟨digit, rest, hdigit, hwritten⟩
  cases sightings with
  | nil => cases hwritten
  | cons s sightings =>
      obtain ⟨c, path, hpath⟩ := List.exists_cons_of_ne_nil s.path_ne_nil
      rw [written_cons, hpath] at hwritten
      obtain ⟨rfl, -⟩ := List.cons.inj hwritten
      exact h s List.mem_cons_self ⟨c, path, hdigit, hpath⟩

/-- A text shows which files it is for if no path starts with a digit and no path goes on from the one
in the same place. -/
theorem eq_of_written {seen seen' : List Sighting} (hstarts : ∀ s ∈ seen, ¬ GoesOn [] s.path)
    (hstarts' : ∀ s ∈ seen', ¬ GoesOn [] s.path)
    (hgoes : ∀ pair ∈ seen.zip seen',
      ¬ GoesOn pair.1.path pair.2.path ∧ ¬ GoesOn pair.2.path pair.1.path)
    (h : written seen = written seen') : seen = seen' := by
  induction seen generalizing seen' with
  | nil =>
      cases seen' with
      | nil => rfl
      | cons t seen' => exact absurd h.symm (written_cons_ne_nil t seen')
  | cons s seen ih =>
      cases seen' with
      | nil => exact absurd h (written_cons_ne_nil s seen)
      | cons t seen' =>
          obtain ⟨-, hstarts⟩ := List.forall_mem_cons.mp hstarts
          obtain ⟨-, hstarts'⟩ := List.forall_mem_cons.mp hstarts'
          rw [List.zip_cons_cons] at hgoes
          obtain ⟨⟨hst, hts⟩, hgoes⟩ := List.forall_mem_cons.mp hgoes
          rw [written_cons, written_cons] at h
          have hpath : s.path = t.path := path_eq_of_append hst hts h
          rw [hpath, List.append_cancel_left_eq] at h
          obtain ⟨hsize, hrest⟩ :=
            size_eq_of_append (not_goesOn_written hstarts) (not_goesOn_written hstarts') h
          rw [Sighting.ext (Sighting.names_eq_of_path hpath) hsize,
            ih hstarts hstarts' hgoes hrest]

/-! Files in order -/

/-- Files in the order of their paths from the root. -/
def ordered (seen : List Sighting) : List Sighting :=
  seen.mergeSort fun s t => Place.le s.names t.names

theorem ordered_perm (seen : List Sighting) : (ordered seen).Perm seen :=
  List.mergeSort_perm _ _

theorem ordered_eq_of_perm {seen seen' : List Sighting} (hperm : seen.Perm seen')
    (hnodup : (seen.map Sighting.names).Nodup) : ordered seen = ordered seen' :=
  Place.mergeSort_eq_of_perm Sighting.names hperm hnodup

/-- Files that have the same names stand in the same order. -/
theorem names_ordered (seen : List Sighting) :
    (ordered seen).map Sighting.names = (seen.map Sighting.names).mergeSort Place.le :=
  List.map_mergeSort fun _ _ _ _ => rfl

/-- Files are in order if their names are those of files in order. -/
theorem ordered_eq_self (seen : List Sighting) {seen' : List Sighting}
    (h : seen'.map Sighting.names = (ordered seen).map Sighting.names) : ordered seen' = seen' := by
  have hpairwise := List.pairwise_mergeSort Place.le_of_le_of_le Place.le_or_le
    (seen.map Sighting.names)
  rw [← names_ordered, ← h, List.pairwise_map] at hpairwise
  exact List.mergeSort_of_pairwise hpairwise

/-- Of all files one has another size. -/
def Resized (seen seen' : List Sighting) : Prop :=
  ∃ s size rest, size ≠ s.size ∧ seen.Perm (s :: rest) ∧ seen'.Perm (s.resize size :: rest)

/-- The file stands where it stood, with the same files around it, so the text shows its size. -/
theorem written_ne_of_resized {seen seen' : List Sighting} (hnodup : (seen.map Sighting.names).Nodup)
    (h : Resized seen seen') : written (ordered seen) ≠ written (ordered seen') := by
  obtain ⟨s, size, rest, hsize, hseen, hseen'⟩ := h
  have hmem : s ∈ ordered seen := ((ordered_perm seen).trans hseen).mem_iff.mpr List.mem_cons_self
  obtain ⟨front, back, hsplit⟩ := List.append_of_mem hmem
  have hperm : (front ++ s :: back).Perm seen := hsplit ▸ ordered_perm seen
  have hnames : (front ++ s.resize size :: back).map Sighting.names =
      (front ++ s :: back).map Sighting.names := by
    rw [List.map_append, List.map_append]
    rfl
  have hsame : ordered seen' = front ++ s.resize size :: back := by
    have hrest : rest.Perm (front ++ back) :=
      (hseen.symm.trans (hperm.symm.trans List.perm_middle)).cons_inv
    have hchanged : (front ++ s.resize size :: back).Perm seen' :=
      (List.perm_middle.trans (hrest.symm.cons _)).trans hseen'.symm
    have hnodup' : ((front ++ s.resize size :: back).map Sighting.names).Nodup := by
      rw [hnames]
      exact (hperm.map _).nodup_iff.mpr hnodup
    rw [← ordered_eq_of_perm hchanged hnodup']
    exact ordered_eq_self seen (hsplit ▸ hnames)
  intro h
  rw [hsame, hsplit, written_append, written_append, List.append_cancel_left_eq, written_cons,
    written_cons] at h
  have hdigits := List.append_cancel_right (List.append_cancel_left h)
  exact hsize (Number.toDigits_injective hdigits).symm

/-- No path starts with a digit. -/
def StartPlain (seen : List Sighting) : Prop :=
  ∀ s ∈ seen, ¬ GoesOn [] s.path

instance (seen : List Sighting) : Decidable (StartPlain seen) :=
  inferInstanceAs (Decidable (∀ s ∈ seen, ¬ GoesOn [] s.path))

/-- No path of one of the lists goes on from a path of the other one. -/
def NoneGoesOn (seen seen' : List Sighting) : Prop :=
  ∀ s ∈ seen, ∀ t ∈ seen', ¬ GoesOn s.path t.path ∧ ¬ GoesOn t.path s.path

instance (seen seen' : List Sighting) : Decidable (NoneGoesOn seen seen') :=
  inferInstanceAs
    (Decidable (∀ s ∈ seen, ∀ t ∈ seen', ¬ GoesOn s.path t.path ∧ ¬ GoesOn t.path s.path))

theorem path_eq_of_mem_zip {seen seen' : List Sighting} {pair : Sighting × Sighting}
    (h : seen.map Sighting.names = seen'.map Sighting.names) (hpair : pair ∈ seen.zip seen') :
    pair.1.path = pair.2.path := by
  obtain ⟨i, hi, rfl⟩ := List.mem_iff_getElem.mp hpair
  rw [List.length_zip, Nat.lt_min] at hi
  have hnames := congrArg (fun names => names[i]?) h
  simp only [List.getElem?_map, List.getElem?_eq_getElem hi.1, List.getElem?_eq_getElem hi.2,
    Option.map_some, Option.some.injEq] at hnames
  rw [List.getElem_zip, Sighting.path, Sighting.path, hnames]

/-- Files with the same paths stand in pairs, so no path goes on from the one in its place. -/
theorem perm_of_written_ordered {seen seen' : List Sighting}
    (hnodup : (seen.map Sighting.names).Nodup)
    (hnames : (seen.map Sighting.names).Perm (seen'.map Sighting.names)) (hplain : StartPlain seen)
    (hplain' : StartPlain seen') (h : written (ordered seen) = written (ordered seen')) :
    seen.Perm seen' := by
  have hsame : (ordered seen).map Sighting.names = (ordered seen').map Sighting.names := by
    rw [names_ordered, names_ordered]
    exact Place.mergeSort_eq_of_perm id hnames (by rwa [List.map_id])
  have hordered : ordered seen = ordered seen' := by
    refine eq_of_written (fun s hs => hplain s ((ordered_perm _).mem_iff.mp hs))
      (fun s hs => hplain' s ((ordered_perm _).mem_iff.mp hs)) (fun pair hpair => ?_) h
    rw [path_eq_of_mem_zip hsame hpair]
    exact ⟨not_goesOn_self _, not_goesOn_self _⟩
  exact (ordered_perm seen).symm.trans (hordered ▸ ordered_perm seen')

/-! Files on a disk -/

/-- The size of what is at a path, zero if nothing is there. -/
def sizeAt (disk : Disk) (path : Path) : Nat :=
  match disk.look path with
  | .ok (_, .file data) => data.length
  | .ok (_, .folder) => folderSize
  | _ => 0

theorem toList_sizeText (disk : Disk) (path : Path) :
    (sizeText disk path).toList = Text.digits (sizeAt disk path) := by
  have hzero : (Text.ofString "0").toList = Text.digits 0 := by decide
  rw [sizeText, sizeAt]
  cases disk.look path with
  | error _ => exact hzero
  | ok found =>
      obtain ⟨_, node⟩ := found
      cases node with
      | file _ | folder => rfl
      | link _ => exact hzero

/-- A path leads below the root of a run, to what is seen there. -/
structure Sees (disk : Disk) (root path : Path) (s : Sighting) : Prop where
  names : seenPath disk root path = .ok ⟨"", s.names⟩
  size : sizeAt disk path = s.size

/-- What is seen of files that are handed to a run. -/
def sightings (files : List (Path × Sighting)) : List Sighting :=
  files.map Prod.snd

theorem sightings_cons (file : Path × Sighting) (files : List (Path × Sighting)) :
    sightings (file :: files) = file.2 :: sightings files := rfl

/-- Paths that are handed to a run, with what is seen of each; no two lead to one file. -/
structure Handed (disk : Disk) (root : Path) (files : List (Path × Sighting)) : Prop where
  sees : ∀ file ∈ files, Sees disk root file.1 file.2
  nodup : ((sightings files).map Sighting.names).Nodup

theorem handed_iff {disk : Disk} {root : Path} {files : List (Path × Sighting)} :
    Handed disk root files ↔
      (∀ file ∈ files, seenPath disk root file.1 = .ok ⟨"", file.2.names⟩ ∧
        sizeAt disk file.1 = file.2.size) ∧ ((sightings files).map Sighting.names).Nodup :=
  ⟨fun h => ⟨fun file hfile => ⟨(h.sees file hfile).names, (h.sees file hfile).size⟩, h.nodup⟩,
    fun ⟨hsees, hnodup⟩ => ⟨fun file hfile => ⟨(hsees file hfile).1, (hsees file hfile).2⟩, hnodup⟩⟩

instance (disk : Disk) (root : Path) (files : List (Path × Sighting)) :
    Decidable (Handed disk root files) :=
  decidable_of_iff _ handed_iff.symm

/-- The paths are in the order of what is seen of them from the root. -/
def InStep (files : List (Path × Sighting)) : Prop :=
  ∀ file ∈ files, ∀ other ∈ files,
    Place.le (parts file.1) (parts other.1) = Place.le file.2.names other.2.names

/-- Paths from the root on, with one path in front of them, are in step. -/
theorem inStep_of_front (front : Path) {files : List (Path × Sighting)}
    (h : ∀ file ∈ files, file.1 = { front with names := front.names ++ file.2.names }) :
    InStep files := by
  intro file hfile other hother
  rw [h file hfile, h other hother, parts, parts, Path.isAbsolute, Path.isAbsolute]
  split
  · exact Place.le_append (front.root :: front.names) _ _
  · exact Place.le_append front.names _ _

/-- What is seen of files in the order of the paths that are handed over. -/
def inTurn (files : List (Path × Sighting)) : List Sighting :=
  sightings (files.mergeSort fun file other => Place.le (parts file.1) (parts other.1))

variable {disk disk' : Disk} {root root' : Path} {files files' : List (Path × Sighting)}

theorem inTurn_perm (files : List (Path × Sighting)) : (inTurn files).Perm (sightings files) :=
  (List.mergeSort_perm files _).map Prod.snd

theorem inTurn_eq (h : InStep files) : inTurn files = ordered (sightings files) :=
  List.map_mergeSort h

/-- Files are hashed if all their paths have bytes. -/
theorem payloadOf_eq_ok_iff {bytes : List UInt8}
    (h : ∀ file ∈ files, Sees disk root file.1 file.2) :
    payloadOf disk root (files.map Prod.fst) = .ok bytes ↔
      HaveBytes (sightings files) ∧ Text.Utf8.encode (written (sightings files)) = bytes := by
  induction files generalizing bytes with
  | nil => simp [payloadOf, sightings, HaveBytes, written, Text.Utf8.encode]
  | cons file files ih =>
      obtain ⟨hfile, hfiles⟩ := List.forall_mem_cons.mp h
      rw [List.map_cons, payloadOf, hfile.names, sightings_cons, haveBytes_cons, written_cons,
        Text.Utf8.encode_append, Text.Utf8.encode_append]
      dsimp only
      rw [show (Path.text ⟨"", file.2.names⟩).toList = file.2.path from rfl, toList_sizeText,
        hfile.size]
      by_cases hpath : Text.Utf8.IsWritable file.2.path
      · rw [Text.Utf8.write_of_isWritable hpath]
        dsimp only
        cases hrest : payloadOf disk root (files.map Prod.fst) with
        | error e =>
            refine iff_of_false nofun fun hall => ?_
            rw [(ih hfiles).mpr ⟨hall.1.2, rfl⟩] at hrest
            cases hrest
        | ok restBytes =>
            obtain ⟨hbytes, rfl⟩ := (ih hfiles).mp hrest
            simp [hpath, hbytes]
      · cases hwrite : Text.Utf8.write file.2.path with
        | error f => simp [hpath]
        | ok pathBytes => exact absurd (Text.Utf8.write_eq_ok_iff.mp hwrite).1 hpath

theorem Handed.payloadOf_inOrder {bytes : List UInt8} (h : Handed disk root files) :
    payloadOf disk root (inOrder (files.map Prod.fst)) = .ok bytes ↔
      HaveBytes (sightings files) ∧ Text.Utf8.encode (written (inTurn files)) = bytes := by
  have hpaths : inOrder (files.map Prod.fst) =
      (files.mergeSort fun file other => Place.le (parts file.1) (parts other.1)).map Prod.fst :=
    (List.map_mergeSort (f := Prod.fst) fun _ _ _ _ => rfl).symm
  have hbytes : HaveBytes (inTurn files) ↔ HaveBytes (sightings files) :=
    forall_congr' fun _ => imp_congr_left (inTurn_perm files).mem_iff
  rw [hpaths, ← hbytes]
  exact payloadOf_eq_ok_iff fun file hfile => h.sees file (List.mem_mergeSort.mp hfile)

theorem perm_of_written_inTurn (hplain : StartPlain (sightings files))
    (hplain' : StartPlain (sightings files'))
    (hgoes : NoneGoesOn (sightings files) (sightings files'))
    (h : written (inTurn files) = written (inTurn files')) :
    (sightings files).Perm (sightings files') := by
  have hmem : ∀ {files s}, s ∈ inTurn files → s ∈ sightings files :=
    fun {files _} hs => (inTurn_perm files).mem_iff.mp hs
  have hsame : inTurn files = inTurn files' := by
    refine eq_of_written (fun s hs => hplain s (hmem hs)) (fun s hs => hplain' s (hmem hs))
      (fun pair hpair => ?_) h
    obtain ⟨hleft, hright⟩ := List.of_mem_zip hpair
    exact hgoes _ (hmem hleft) _ (hmem hright)
  exact (inTurn_perm files).symm.trans (hsame ▸ inTurn_perm files')

/-- What is hashed for files below a root tells what is seen of them as far as it shows where paths and
sizes end. The order of paths never matters, and something is hashed if all paths have bytes. Files in
step give the same bytes wherever the root is, and
other bytes if one of them has another size. If no path starts with a digit, the same bytes mean the same
files, be it that no path goes on from another one with a digit or that the paths are the same. -/
theorem payload_of_sightings (h : Handed disk root files) (h' : Handed disk' root' files') :
    (∀ paths others : List Path, paths.Perm others → (paths.map parts).Nodup →
        payloadOf disk root (inOrder paths) = payloadOf disk root (inOrder others)) ∧
      ((∃ bytes, payloadOf disk root (inOrder (files.map Prod.fst)) = .ok bytes) ↔
        HaveBytes (sightings files)) ∧
      ((∃ bytes, payloadOf disk' root' (inOrder (files'.map Prod.fst)) = .ok bytes) ↔
        HaveBytes (sightings files')) ∧
      ∀ bytes bytes', payloadOf disk root (inOrder (files.map Prod.fst)) = .ok bytes →
        payloadOf disk' root' (inOrder (files'.map Prod.fst)) = .ok bytes' →
        (InStep files → InStep files' →
          ((sightings files).Perm (sightings files') → bytes = bytes') ∧
            (Resized (sightings files) (sightings files') → bytes ≠ bytes')) ∧
        (StartPlain (sightings files) → StartPlain (sightings files') →
          NoneGoesOn (sightings files) (sightings files') ∨
            InStep files ∧ InStep files' ∧
              ((sightings files).map Sighting.names).Perm ((sightings files').map Sighting.names) →
          bytes = bytes' → (sightings files).Perm (sightings files')) := by
  refine ⟨fun paths others hperm hnodup => ?_, ?_, ?_, fun bytes bytes' hfound hfound' => ?_⟩
  · have horder : inOrder paths = inOrder others := Place.mergeSort_eq_of_perm parts hperm hnodup
    rw [horder]
  · exact ⟨fun ⟨_, hok⟩ => (h.payloadOf_inOrder.mp hok).1,
      fun hbytes => ⟨_, h.payloadOf_inOrder.mpr ⟨hbytes, rfl⟩⟩⟩
  · exact ⟨fun ⟨_, hok⟩ => (h'.payloadOf_inOrder.mp hok).1,
      fun hbytes => ⟨_, h'.payloadOf_inOrder.mpr ⟨hbytes, rfl⟩⟩⟩
  obtain ⟨-, rfl⟩ := h.payloadOf_inOrder.mp hfound
  obtain ⟨-, rfl⟩ := h'.payloadOf_inOrder.mp hfound'
  refine ⟨fun hstep hstep' => ?_, fun hplain hplain' hcase hbytes => ?_⟩
  · rw [inTurn_eq hstep, inTurn_eq hstep']
    constructor
    · intro hperm
      rw [ordered_eq_of_perm hperm h.nodup]
    · intro hresized hbytes
      exact written_ne_of_resized h.nodup hresized (Text.Utf8.encode_injective hbytes)
  · have htext := Text.Utf8.encode_injective hbytes
    obtain hgoes | ⟨hstep, hstep', hnames⟩ := hcase
    · exact perm_of_written_inTurn hplain hplain' hgoes htext
    · rw [inTurn_eq hstep, inTurn_eq hstep'] at htext
      exact perm_of_written_ordered h.nodup hnames hplain hplain' htext

/-- A folder with some files and links in it. -/
def folderWith (folder : Text) (nodes : List (Text × Node)) : Disk :=
  { nodes := ([folder], .folder) :: nodes.map fun node => ([folder, node.1], node.2) }

def blank (size : Nat) : Node :=
  .file (List.replicate size 0x20)

def english : Sighting := ⟨["en.json"], 2, by decide, by decide⟩

def german : Sighting := ⟨["de.json"], 8, by decide, by decide⟩

/-- A file that has grown, in a project that has moved. -/
theorem payload_of_sightings_grown :
    let disk := folderWith "old" [("en.json", blank 2), ("de.json", blank 8)]
    let disk' := folderWith "new" [("en.json", blank 2), ("de.json", blank 9)]
    let files := [(⟨"/", ["old", "en.json"]⟩, english), (⟨"/", ["old", "de.json"]⟩, german)]
    let files' := [(⟨"/", ["new", "de.json"]⟩, german.resize 9), (⟨"/", ["new", "en.json"]⟩, english)]
    Handed disk ⟨"/", ["old"]⟩ files ∧ Handed disk' ⟨"/", ["new"]⟩ files' ∧
      InStep files ∧ InStep files' ∧ Resized (sightings files) (sightings files') ∧
      StartPlain (sightings files) ∧ StartPlain (sightings files') ∧
      NoneGoesOn (sightings files) (sightings files') ∧
      ∃ bytes bytes', payloadOf disk ⟨"/", ["old"]⟩ (inOrder (files.map Prod.fst)) = .ok bytes ∧
        payloadOf disk' ⟨"/", ["new"]⟩ (inOrder (files'.map Prod.fst)) = .ok bytes' ∧ bytes ≠ bytes' := by
  intro disk disk' files files'
  have handed : Handed disk ⟨"/", ["old"]⟩ files := by decide
  have handed' : Handed disk' ⟨"/", ["new"]⟩ files' := by decide
  have step : InStep files := inStep_of_front ⟨"/", ["old"]⟩ (by decide)
  have step' : InStep files' := inStep_of_front ⟨"/", ["new"]⟩ (by decide)
  have grown : Resized (sightings files) (sightings files') :=
    ⟨german, 9, [english], by decide, by decide, .refl _⟩
  obtain ⟨-, hfound, hfound', hbytes⟩ := payload_of_sightings handed handed'
  obtain ⟨bytes, hok⟩ := hfound.mpr (by decide)
  obtain ⟨bytes', hok'⟩ := hfound'.mpr (by decide)
  exact ⟨handed, handed', step, step', grown, by decide, by decide, by decide,
    bytes, bytes', hok, hok', ((hbytes bytes bytes' hok hok').1 step step').2 grown⟩

/-- A project of two files and a link to one of them. -/
def linked : Disk :=
  folderWith "old" [("de.json", blank 8), ("en.json", blank 2), ("zz.json", .link ⟨"", ["de.json"]⟩)]

theorem inOrder_pair {path other : Path} (h : Place.le (parts path) (parts other) = true) :
    inOrder [path, other] = [path, other] :=
  List.mergeSort_of_pairwise (by simpa using h)

/-- A digit at the end of a path may go for the first one of a size: one file gives the same bytes as
another one. A file that is found through a link may come later than by its own path: the same two files
give other bytes. -/
theorem payload_confused :
    (let disk := folderWith "old" [("a", blank 12), ("a1", blank 2)]
      let files := [(⟨"/", ["old", "a"]⟩, ⟨["a"], 12, by decide, by decide⟩)]
      let files' := [(⟨"/", ["old", "a1"]⟩, ⟨["a1"], 2, by decide, by decide⟩)]
      Handed disk ⟨"/", ["old"]⟩ files ∧ Handed disk ⟨"/", ["old"]⟩ files' ∧
        ¬ (sightings files).Perm (sightings files') ∧
        payloadOf disk ⟨"/", ["old"]⟩ (inOrder (files.map Prod.fst)) =
          payloadOf disk ⟨"/", ["old"]⟩ (inOrder (files'.map Prod.fst))) ∧
      (let files := [(⟨"/", ["old", "de.json"]⟩, german), (⟨"/", ["old", "en.json"]⟩, english)]
        let files' := [(⟨"/", ["old", "en.json"]⟩, english), (⟨"/", ["old", "zz.json"]⟩, german)]
        Handed linked ⟨"/", ["old"]⟩ files ∧ Handed linked ⟨"/", ["old"]⟩ files' ∧
          (sightings files).Perm (sightings files') ∧
          payloadOf linked ⟨"/", ["old"]⟩ (inOrder (files.map Prod.fst)) ≠
            payloadOf linked ⟨"/", ["old"]⟩ (inOrder (files'.map Prod.fst))) := by
  refine ⟨by decide +kernel, by decide +kernel, by decide +kernel, by decide +kernel, ?_⟩
  rw [List.map_cons, List.map_singleton, List.map_cons, List.map_singleton,
    inOrder_pair (by decide), inOrder_pair (by decide)]
  decide

end LocaleKeys.RunId
