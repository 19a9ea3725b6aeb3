import LocaleKeys.Disk.Resolve
import LocaleKeys.Proofs.Assoc
import LocaleKeys.Proofs.Text.Split
import LocaleKeys.Proofs.Text.Utf8
import Mathlib.Data.List.Induction
import Mathlib.Data.List.Perm.Subperm
import Mathlib.Order.Nat

/-!
Locating and resolving agree. A path that leads somewhere within the bound on links runs into no loop:
a link met again on its own way would need as many links as the way to it, and the shortest way has
none to spare. So resolving such a path gives the place that it leads to.
-/

namespace LocaleKeys.Disk

variable {disk : Disk}

/-- Where the target of a link starts. -/
def startAt (link : Place) (target : Path) : Place :=
  if target.isAbsolute then [] else link.dropLast

/-- Names lead from a folder to a place through at most so many links. -/
inductive Leads (disk : Disk) : (links : Nat) → Place → List Text → Place → Prop
  | nil {links : Nat} {place : Place} : Leads disk links place [] place
  | up {links : Nat} {folder place : Place} {rest : List Text}
      (next : Leads disk links folder.dropLast rest place) :
      Leads disk links folder (".." :: rest) place
  | last {links : Nat} {folder : Place} {name : Text} (hname : name ≠ "..")
      (hnode : ∀ target, disk.get? (folder ++ [name]) ≠ some (.link target)) :
      Leads disk links folder [name] (folder ++ [name])
  | folder {links : Nat} {folder place : Place} {name : Text} {rest : List Text}
      (hname : name ≠ "..") (hnode : disk.get? (folder ++ [name]) = some .folder)
      (next : Leads disk links (folder ++ [name]) rest place) :
      Leads disk links folder (name :: rest) place
  | link {links : Nat} {folder place : Place} {name : Text} {rest : List Text} {target : Path}
      (hname : name ≠ "..") (hnode : disk.get? (folder ++ [name]) = some (.link target))
      (next : Leads disk links (startAt (folder ++ [name]) target) (target.names ++ rest) place) :
      Leads disk (links + 1) folder (name :: rest) place

/-! Walks lead somewhere -/

theorem leads_of_walkFrom {links : Nat} {follow : Place → List Text → Except Fault Place}
    (hfollow : ∀ link target rest place,
      follow (startAt link target) (target.names ++ rest) = .ok place →
        ∃ fewer, links = fewer + 1 ∧
          Leads disk fewer (startAt link target) (target.names ++ rest) place)
    {folder place : Place} {names : List Text}
    (h : walkFrom disk follow folder names = .ok place) : Leads disk links folder names place := by
  induction names generalizing folder with
  | nil =>
      cases h
      exact .nil
  | cons name rest ih =>
      rw [walkFrom] at h
      split at h
      · next hup =>
          subst hup
          exact .up (ih h)
      · next hname =>
          split at h
          · cases h
          · dsimp only at h
            split at h
            · next hnone =>
                split at h
                · next hrest =>
                    cases h
                    rw [List.isEmpty_iff.mp hrest]
                    exact .last hname (by simp [hnone])
                · cases h
            · next hfile =>
                split at h
                · next hrest =>
                    cases h
                    rw [List.isEmpty_iff.mp hrest]
                    exact .last hname (by simp [hfile])
                · cases h
            · next hfolder => exact .folder hname hfolder (ih h)
            · next target hlink =>
                have hstart : startAt (folder ++ [name]) target =
                    if target.isAbsolute then [] else folder := by
                  rw [startAt, List.dropLast_concat]
                rw [← hstart] at h
                obtain ⟨fewer, rfl, hnext⟩ := hfollow _ _ _ _ h
                exact .link hname hlink hnext

theorem leads_of_walk {links : Nat} {folder place : Place} {names : List Text}
    (h : disk.walk links folder names = .ok place) : Leads disk links folder names place := by
  induction links generalizing folder names place with
  | zero =>
      refine leads_of_walkFrom ?_ h
      intro link target rest place hloop
      cases hloop
  | succ links ih => exact leads_of_walkFrom (fun _ _ _ _ hnext => ⟨links, rfl, ih hnext⟩) h

namespace Leads

variable {links : Nat} {folder place : Place} {names : List Text}

theorem unique (h : Leads disk links folder names place) {links' : Nat} {place' : Place}
    (h' : Leads disk links' folder names place') : place = place' := by
  induction h generalizing links' place' with
  | nil =>
      cases h'
      rfl
  | up _ ih =>
      cases h' with
      | up next => exact ih next
      | last hname _ | folder hname _ _ | link hname _ _ => exact absurd rfl hname
  | last hname hnode =>
      cases h' with
      | up _ => exact absurd rfl hname
      | last _ _ => rfl
      | folder _ _ next =>
          cases next
          rfl
      | link _ hlink _ => exact absurd hlink (hnode _)
  | folder hname hnode next ih =>
      cases h' with
      | up _ => exact absurd rfl hname
      | last _ _ =>
          cases next
          rfl
      | folder _ _ next' => exact ih next'
      | link _ hlink _ =>
          rw [hnode] at hlink
          cases hlink
  | link hname hnode _ ih =>
      cases h' with
      | up _ => exact absurd rfl hname
      | last _ hlink => exact absurd hnode (hlink _)
      | folder _ hfolder _ =>
          rw [hnode] at hfolder
          cases hfolder
      | link _ hlink next' =>
          rw [hnode] at hlink
          cases hlink
          exact ih next'

/-- The shortest way with its links. -/
theorem exists_shortest (h : Leads disk links folder names place) :
    ∃ least ≤ links, Leads disk least folder names place ∧
      ∀ fewer < least, ∀ other, ¬ Leads disk fewer folder names other := by
  classical
  have hsome : ∃ least, Leads disk least folder names place := ⟨links, h⟩
  refine ⟨Nat.find hsome, Nat.find_min' hsome h, Nat.find_spec hsome, ?_⟩
  intro fewer hfewer other hother
  obtain rfl := hother.unique h
  exact Nat.find_min hsome hfewer hother

theorem split_nil (h : Leads disk links folder names place) :
    ∃ middle, Leads disk links folder [] middle ∧
      ∃ fewer ≤ links, Leads disk fewer middle names place :=
  ⟨folder, .nil, links, Nat.le_refl _, h⟩

/-- A way along two lists of names is a way along the first and one from there along the second. -/
theorem split {front back : List Text} (h : Leads disk links folder (front ++ back) place) :
    ∃ middle, Leads disk links folder front middle ∧
      ∃ fewer ≤ links, Leads disk fewer middle back place := by
  generalize hnames : front ++ back = names at h
  induction h generalizing front with
  | nil =>
      obtain ⟨rfl, rfl⟩ := List.append_eq_nil_iff.mp hnames
      exact ⟨_, .nil, _, Nat.le_refl _, .nil⟩
  | up next ih =>
      cases front with
      | nil =>
          obtain rfl : back = _ := hnames
          exact split_nil (.up next)
      | cons first front =>
          obtain ⟨rfl, hrest⟩ := List.cons.inj hnames
          obtain ⟨middle, hfront, hback⟩ := ih hrest
          exact ⟨middle, .up hfront, hback⟩
  | last hname hnode =>
      cases front with
      | nil =>
          obtain rfl : back = _ := hnames
          exact split_nil (.last hname hnode)
      | cons first front =>
          obtain ⟨rfl, hrest⟩ := List.cons.inj hnames
          obtain ⟨rfl, rfl⟩ := List.append_eq_nil_iff.mp hrest
          exact ⟨_, .last hname hnode, _, Nat.le_refl _, .nil⟩
  | folder hname hnode next ih =>
      cases front with
      | nil =>
          obtain rfl : back = _ := hnames
          exact split_nil (.folder hname hnode next)
      | cons first front =>
          obtain ⟨rfl, hrest⟩ := List.cons.inj hnames
          obtain ⟨middle, hfront, hback⟩ := ih hrest
          exact ⟨middle, .folder hname hnode hfront, hback⟩
  | link hname hnode next ih =>
      cases front with
      | nil =>
          obtain rfl : back = _ := hnames
          exact split_nil (.link hname hnode next)
      | cons first front =>
          obtain ⟨rfl, hrest⟩ := List.cons.inj hnames
          obtain ⟨middle, hfront, fewer, hle, hback⟩ := ih
            ((List.append_assoc _ _ _).trans (congrArg _ hrest))
          exact ⟨middle, .link hname hnode hfront, fewer, Nat.le_succ_of_le hle, hback⟩

end Leads

/-! Resolving what leads somewhere -/

/-- What resolving does at a link, when so many more may be followed. -/
def through (disk : Disk) (following : List Place) : Nat → Place → Path → Resolved
  | 0 => fun link _ => ⟨link, false⟩
  | depth + 1 => fun link target =>
    settle disk depth (link :: following) (startAt link target) target.names

theorem settle_eq (depth : Nat) (following : List Place) :
    disk.settle depth following =
      settleFrom disk following (through disk following depth) := by
  cases depth <;> rfl

theorem settle_nil {depth : Nat} {following : List Place} {place : Place} :
    disk.settle depth following place [] = ⟨place, true⟩ := by
  rw [settle_eq]
  rfl

theorem settle_up {depth : Nat} {following : List Place} {place : Place} {rest : List Text} :
    disk.settle depth following place (".." :: rest) =
      disk.settle depth following place.dropLast rest := by
  rw [settle_eq, settleFrom, if_pos rfl]

theorem settle_name {depth : Nat} {following : List Place} {place : Place} {name : Text}
    {rest : List Text} (hname : name ≠ "..")
    (hnode : ∀ target, disk.get? (place ++ [name]) ≠ some (.link target)) :
    disk.settle depth following place (name :: rest) =
      disk.settle depth following (place ++ [name]) rest := by
  rw [settle_eq, settleFrom, if_neg hname]
  dsimp only
  split
  · next target hlink => exact absurd hlink (hnode target)
  · rfl

theorem settle_link {depth : Nat} {following : List Place} {place middle : Place} {name : Text}
    {rest : List Text} {target : Path} (hname : name ≠ "..")
    (hnode : disk.get? (place ++ [name]) = some (.link target))
    (hnew : place ++ [name] ∉ following)
    (hthrough : through disk following depth (place ++ [name]) target = ⟨middle, true⟩) :
    disk.settle depth following place (name :: rest) =
      disk.settle depth following middle rest := by
  rw [settle_eq, settleFrom, if_neg hname]
  simp [hnode, hnew, hthrough]

/-- Links that are being followed, none of which leads anywhere within fewer links than so many. -/
def Exhausted (disk : Disk) (links : Nat) (following : List Place) : Prop :=
  ∀ link ∈ following, ∀ target, disk.get? link = some (.link target) →
    ∀ fewer < links, ∀ place, ¬ Leads disk fewer (startAt link target) target.names place

theorem mem_keys_of_link {link : Place} {target : Path}
    (h : disk.get? link = some (.link target)) : link ∈ Assoc.keys disk.nodes := by
  rw [get?] at h
  split at h
  · cases h
  · exact List.mem_map_of_mem (f := Prod.fst) (Assoc.mem_of_get? h)

/-- With room for every link of the disk, resolving what leads somewhere is settled there. -/
theorem settle_of_leads {links : Nat} {folder place : Place} {names : List Text}
    (h : Leads disk links folder names place) {depth : Nat} {following : List Place}
    (hexhausted : Exhausted disk links following) (hnodup : following.Nodup)
    (hkeys : following ⊆ Assoc.keys disk.nodes)
    (hroom : disk.nodes.length < depth + following.length) :
    disk.settle depth following folder names = ⟨place, true⟩ := by
  induction links using Nat.strong_induction_on generalizing folder names place depth following with
  | _ links ihlinks =>
      induction names generalizing folder with
      | nil =>
          cases h
          exact settle_nil
      | cons name rest ih =>
          cases h with
          | up next => rw [settle_up, ih next]
          | last hname hnode => rw [settle_name hname hnode, settle_nil]
          | folder hname hnode next =>
              rw [settle_name hname (by simp [hnode]), ih next]
          | @link fewer _ _ _ _ target hname hnode next =>
              obtain ⟨middle, hfront, less, hless, hback⟩ := next.split
              have hnew : folder ++ [name] ∉ following := fun hmem =>
                hexhausted _ hmem target hnode fewer (Nat.lt_succ_self _) middle hfront
              obtain ⟨least, hleast, hshortest, hnone⟩ := hfront.exists_shortest
              have hnew' : ((folder ++ [name]) :: following).Nodup :=
                List.nodup_cons.mpr ⟨hnew, hnodup⟩
              have hkeys' : (folder ++ [name]) :: following ⊆ Assoc.keys disk.nodes :=
                List.cons_subset.mpr ⟨mem_keys_of_link hnode, hkeys⟩
              have hcount : following.length + 1 ≤ disk.nodes.length := by
                simpa [Assoc.keys] using (hnew'.subperm hkeys').length_le
              have hthrough : through disk following depth (folder ++ [name]) target =
                  ⟨middle, true⟩ := by
                cases depth with
                | zero => omega
                | succ depth =>
                    refine ihlinks least (Nat.lt_succ_of_le hleast) hshortest ?_ hnew' hkeys' ?_
                    · intro link hlink target' htarget j hj
                      cases List.mem_cons.mp hlink with
                      | inl here =>
                          subst here
                          rw [hnode] at htarget
                          cases htarget
                          exact hnone j hj
                      | inr before =>
                          exact hexhausted link before target' htarget j (by omega)
                    · rw [List.length_cons]
                      omega
              rw [settle_link hname hnode hnew hthrough]
              refine ihlinks less (Nat.lt_succ_of_le hless) hback ?_ hnodup hkeys hroom
              intro link hlink target' htarget j hj
              exact hexhausted link hlink target' htarget j (by omega)

theorem resolve_of_leads {links : Nat} {path : Path} {place : Place}
    (h : Leads disk links (disk.startOf path) path.names place)
    (hbytes : Text.Utf8.IsNameable path.text.toList) (hnull : path.hasNull = false) :
    disk.resolve path = .ok place := by
  have hsettled : disk.settle (disk.nodes.length + 1) [] (disk.startOf path) path.names =
      ⟨place, true⟩ :=
    settle_of_leads h (fun _ hlink => nomatch hlink) List.nodup_nil (List.nil_subset _)
      (Nat.lt_succ_self _)
  simp [resolve, Text.Utf8.unnameable?_eq_none_iff.mpr hbytes, hnull, hsettled]

/-- A path can be asked for if it has bytes, no null character, and is not too long. -/
theorem pathFault?_eq_none_iff {path : Path} :
    pathFault? path = none ↔ Text.Utf8.IsNameable path.text.toList ∧ path.hasNull = false ∧
      byteSize path.text ≤ maxPathBytes := by
  rw [← Text.Utf8.unnameable?_eq_none_iff, pathFault?]
  cases Text.Utf8.unnameable? path.text.toList with
  | some f => simp
  | none => cases path.hasNull <;> simp

/-- Resolving a path that leads somewhere gives the place it leads to. -/
theorem resolve_of_locate {path : Path} {place : Place} (h : disk.locate path = .ok place) :
    disk.resolve path = .ok place := by
  rw [locate] at h
  split at h
  · cases h
  · next hfault =>
      obtain ⟨hbytes, hnull, -⟩ := pathFault?_eq_none_iff.mp hfault
      exact resolve_of_leads (leads_of_walk h) hbytes hnull

theorem look_eq_ok {path : Path} {place : Place} {node : Node}
    (h : disk.look path = .ok (place, node)) :
    disk.locate path = .ok place ∧ disk.get? place = some node := by
  rw [look] at h
  split at h
  · cases h
  · next found hfound =>
      split at h
      · next held hheld =>
          cases h
          exact ⟨hfound, hheld⟩
      · cases h

/-! Trees -/

/-- A name that a place may have: it is no step up, and has bytes without a null character. -/
structure IsName (name : Text) : Prop where
  not_up : name ≠ ".."
  no_null : Point.char '\x00' ∉ name.toList
  nameable : Text.Utf8.IsNameable name.toList

theorem isName_iff {name : Text} : IsName name ↔ name ≠ ".." ∧
    Point.char '\x00' ∉ name.toList ∧ Text.Utf8.IsNameable name.toList :=
  ⟨fun h => ⟨h.not_up, h.no_null, h.nameable⟩, fun ⟨hup, hnull, hbytes⟩ => ⟨hup, hnull, hbytes⟩⟩

instance (name : Text) : Decidable (IsName name) :=
  decidable_of_iff _ isName_iff.symm

/-- A disk whose entries make a tree: each has a proper name in a folder, and no place has two. -/
structure IsTree (disk : Disk) : Prop where
  nodup : (Assoc.keys disk.nodes).Nodup
  parent : ∀ entry ∈ disk.nodes, ∃ folder name, entry.1 = folder ++ [name] ∧
    disk.get? folder = some .folder ∧ IsName name

theorem isTree_iff :
    disk.IsTree ↔ (Assoc.keys disk.nodes).Nodup ∧ ∀ entry ∈ disk.nodes,
      ∃ name ∈ entry.1.getLast?, disk.get? entry.1.dropLast = some .folder ∧ IsName name := by
  constructor
  · intro tree
    refine ⟨tree.nodup, fun entry hentry => ?_⟩
    obtain ⟨folder, name, hplace, hfolder⟩ := tree.parent entry hentry
    exact ⟨name, by simp [hplace], by rwa [hplace, List.dropLast_concat]⟩
  · rintro ⟨hnodup, hparent⟩
    refine ⟨hnodup, fun entry hentry => ?_⟩
    obtain ⟨name, hname, hfolder⟩ := hparent entry hentry
    exact ⟨entry.1.dropLast, name, (List.dropLast_append_getLast? name hname).symm, hfolder⟩

instance (disk : Disk) : Decidable disk.IsTree :=
  decidable_of_iff _ isTree_iff.symm

/-- A place whose path is longer than a disk takes, in all or in one of its names. -/
def IsTooLong (place : Place) : Prop :=
  maxPathBytes < byteSize place.path.text ∨ ∃ name ∈ place, maxNameBytes < byteSize name

instance (place : Place) : Decidable (IsTooLong place) :=
  inferInstanceAs (Decidable (_ ∨ _))

/-- The path of a place has bytes if its names do. -/
theorem isNameable_text {place : Place} (h : ∀ name ∈ place, Text.Utf8.IsNameable name.toList) :
    Text.Utf8.IsNameable place.path.text.toList := by
  have hslash : Text.Utf8.IsNameable (Text.ofString "/").toList := by decide
  rw [Path.text, if_neg (by simp [Place.path]), Text.toList_append, Text.toList_intercalate]
  exact List.forall_mem_append.mpr
    ⟨hslash, (Text.forall_mem_intercalate hslash).mpr (List.forall_mem_map.mpr h)⟩

namespace IsTree

variable {front back : Place} {name : Text} {node : Node}

theorem get?_of_mem (tree : disk.IsTree) {place : Place} (h : (place, node) ∈ disk.nodes) :
    disk.get? place = some node := by
  obtain ⟨folder, last, hplace, -⟩ := tree.parent _ h
  have hne : place ≠ [] := by simp [show place = folder ++ [last] from hplace]
  rw [get?, if_neg hne, Assoc.get?_of_mem tree.nodup h]

theorem mem_of_get? {place : Place} (hplace : place ≠ []) (h : disk.get? place = some node) :
    (place, node) ∈ disk.nodes := by
  rw [get?, if_neg hplace] at h
  exact Assoc.mem_of_get? h

theorem get?_concat (tree : disk.IsTree) (h : disk.get? (front ++ [name]) = some node) :
    disk.get? front = some .folder ∧ IsName name := by
  rw [get?, if_neg (by simp)] at h
  obtain ⟨folder, name', hplace, hfolder⟩ := tree.parent _ (Assoc.mem_of_get? h)
  obtain ⟨rfl, hname⟩ := List.append_inj' hplace rfl
  obtain rfl := List.singleton_inj.mp hname
  exact hfolder

theorem folder_of_append (tree : disk.IsTree) (hback : back ≠ [])
    (h : disk.get? (front ++ back) = some node) : disk.get? front = some .folder := by
  induction back using List.reverseRecOn generalizing node with
  | nil => exact absurd rfl hback
  | append_singleton back name ih =>
      rw [← List.append_assoc] at h
      have hfolder := (tree.get?_concat h).1
      cases back with
      | nil => rwa [List.append_nil] at hfolder
      | cons first back => exact ih (List.cons_ne_nil _ _) hfolder

theorem folder_of_folder (tree : disk.IsTree) (h : disk.get? (front ++ back) = some .folder) :
    disk.get? front = some .folder := by
  by_cases hback : back = []
  · rwa [hback, List.append_nil] at h
  · exact tree.folder_of_append hback h

theorem proper_of_append (tree : disk.IsTree)
    (h : disk.get? (front ++ name :: back) = some node) : IsName name := by
  rw [List.append_cons] at h
  cases back with
  | nil =>
      rw [List.append_nil] at h
      exact (tree.get?_concat h).2
  | cons next back =>
      exact (tree.get?_concat (tree.folder_of_append (List.cons_ne_nil _ _) h)).2

/-- The names of a place lead to it, unless it holds a link. -/
theorem leads (tree : disk.IsTree) (h : disk.get? (front ++ back) = some node)
    (hnode : ∀ target, node ≠ .link target) : Leads disk 0 front back (front ++ back) := by
  induction back generalizing front with
  | nil =>
      rw [List.append_nil]
      exact .nil
  | cons name rest ih =>
      have hname := (tree.proper_of_append h).not_up
      rw [List.append_cons] at h ⊢
      cases rest with
      | nil =>
          rw [List.append_nil] at h ⊢
          refine .last hname fun target hlink => hnode target ?_
          rw [h] at hlink
          exact Option.some.inj hlink
      | cons next rest => exact .folder hname (tree.folder_of_append (List.cons_ne_nil _ _) h) (ih h)

theorem isName_of_mem (tree : disk.IsTree) {place : Place} (h : disk.get? place = some node) :
    ∀ name ∈ place, IsName name := by
  intro name hname
  obtain ⟨front, back, rfl⟩ : ∃ front back, place = front ++ name :: back :=
    List.append_of_mem hname
  exact tree.proper_of_append h

theorem isNameable_path (tree : disk.IsTree) {place : Place} (h : disk.get? place = some node) :
    Text.Utf8.IsNameable place.path.text.toList :=
  isNameable_text fun name hname => (tree.isName_of_mem h name hname).nameable

theorem hasNull_path (tree : disk.IsTree) {place : Place} (h : disk.get? place = some node) :
    place.path.hasNull = false := by
  rw [Path.hasNull, List.any_eq_false]
  intro name hname
  simpa using (tree.isName_of_mem h name hname).no_null

/-- The path of a place that holds something has no fault but that of being too long. -/
theorem pathFault?_place (tree : disk.IsTree) {place : Place} (h : disk.get? place = some node) :
    pathFault? place.path =
      if maxPathBytes < byteSize place.path.text then some .nameTooLong else none := by
  rw [pathFault?, Text.Utf8.unnameable?_eq_none_iff.mpr (tree.isNameable_path h),
    tree.hasNull_path h, if_neg Bool.false_ne_true]

/-- A place that holds no link is resolved as it is. -/
theorem resolve_place (tree : disk.IsTree) {place : Place} (h : disk.get? place = some node)
    (hnode : ∀ target, node ≠ .link target) : disk.resolve place.path = .ok place :=
  resolve_of_leads (tree.leads (show disk.get? ([] ++ place) = some node from h) hnode)
    (tree.isNameable_path h) (tree.hasNull_path h)

theorem walkFrom_names (tree : disk.IsTree) (h : disk.get? (front ++ back) = some node)
    (hnode : ∀ target, node ≠ .link target) (follow : Place → List Text → Except Fault Place) :
    walkFrom disk follow front back =
      if ∃ name ∈ back, maxNameBytes < byteSize name then .error .nameTooLong
      else .ok (front ++ back) := by
  induction back generalizing front with
  | nil => rw [walkFrom, if_neg (by simp), List.append_nil]
  | cons name rest ih =>
      have hname := (tree.proper_of_append h).not_up
      rw [List.append_cons] at h ⊢
      rw [walkFrom, if_neg hname]
      by_cases hlong : maxNameBytes < byteSize name
      · rw [if_pos hlong, if_pos ⟨name, List.mem_cons_self, hlong⟩]
      · rw [if_neg hlong]
        simp only [List.exists_mem_cons_iff, hlong, false_or]
        cases rest with
        | nil =>
            rw [List.append_nil] at h ⊢
            have hnone : ¬ ∃ name ∈ ([] : List Text), maxNameBytes < byteSize name := by simp
            rw [h, if_neg hnone]
            cases node with
            | file _ => rfl
            | folder => rfl
            | link target => exact absurd rfl (hnode target)
        | cons next rest =>
            rw [tree.folder_of_append (List.cons_ne_nil _ _) h]
            exact ih h

/-- The path of a place that holds no link leads to it, unless it is too long. -/
theorem look_place (tree : disk.IsTree) {place : Place} (h : disk.get? place = some node)
    (hnode : ∀ target, node ≠ .link target) :
    disk.look place.path =
      if IsTooLong place then .error .nameTooLong else .ok (place, node) := by
  have hfound : disk.get? ([] ++ place) = some node := h
  have hwalk : disk.walk maxLinks (disk.startOf place.path) place.path.names =
      if ∃ name ∈ place, maxNameBytes < byteSize name then .error .nameTooLong
      else .ok place := tree.walkFrom_names hfound hnode _
  rw [look, locate, tree.pathFault?_place h, hwalk]
  by_cases hpath : maxPathBytes < byteSize place.path.text
  · have hlong : IsTooLong place := Or.inl hpath
    rw [if_pos hpath, if_pos hlong]
  · by_cases hname : ∃ name ∈ place, maxNameBytes < byteSize name
    · have hlong : IsTooLong place := Or.inr hname
      rw [if_neg hpath, if_pos hname, if_pos hlong]
    · have hshort : ¬ IsTooLong place := not_or.mpr ⟨hpath, hname⟩
      rw [if_neg hpath, if_neg hname, if_neg hshort]
      simp only [h]

end IsTree

end LocaleKeys.Disk
