import LocaleKeys.Proofs.Source.Names
import LocaleKeys.Proofs.Source.Walk
import LocaleKeys.Proofs.Stable
import LocaleKeys.Proofs.Text.Utf8
import LocaleKeys.Source.Parser

/-!
The usages in a tree of source text. A call of a configured method with a literal text for its first
argument is one, and so is a subscript of a thing named like a configured type with a literal text for
its index, wherever they stand in the tree. They are listed once each, in the order of the texts.
-/

namespace LocaleKeys.Source

variable {settings : Settings}

/-! What a usage is -/

/-- What usage there is at a node, of the key and at the place of its literal text. -/
inductive IsUsage (settings : Settings) (path : Text) : Node → Usage → Prop
  | call {callee : Node} {args keywords : List Node} {method key : Text} {span : Span} :
      method ∈ settings.accessorNames .method → EndsIn callee (segments method) →
      IsUsage settings path (.call callee (.text key span :: args) keywords)
        ⟨key, path, span.start.line, span.lastLine, span.start.column⟩
  | subscript {target : Node} {type key : Text} {span : Span} :
      type ∈ settings.accessorNames .indexer → IsNamedLike type target →
      IsUsage settings path (.subscript target (.text key span))
        ⟨key, path, span.start.line, span.lastLine, span.start.column⟩

theorem methods_ofSettings :
    (Patterns.ofSettings settings).methods = (settings.accessorNames .method).map segments :=
  rfl

theorem isMethod_iff {callee : Node} :
    (Patterns.ofSettings settings).isMethod callee = true ↔
      ∃ method ∈ settings.accessorNames .method, EndsIn callee (segments method) := by
  rw [Patterns.isMethod, List.any_eq_true, methods_ofSettings]
  constructor
  · rintro ⟨words, hwords, h⟩
    obtain ⟨method, hmethod, rfl⟩ := List.mem_map.mp hwords
    obtain ⟨hne, hsuffix⟩ := Bool.and_eq_true_iff.mp h
    have hends := endsIn_of_suffix (by simpa using hne) (List.isSuffixOf_iff_suffix.mp hsuffix)
    exact ⟨method, hmethod, hends⟩
  · rintro ⟨method, hmethod, h⟩
    refine ⟨segments method, List.mem_map_of_mem hmethod, Bool.and_eq_true_iff.mpr ⟨?_, ?_⟩⟩
    · simpa using h.ne_nil
    · exact List.isSuffixOf_iff_suffix.mpr h.suffix

theorem isIndexed_iff {target : Node} :
    (Patterns.ofSettings settings).isIndexed target = true ↔
      ∃ type ∈ settings.accessorNames .indexer, IsNamedLike type target := by
  rw [Patterns.isIndexed, getLast?_dotted]
  cases hname : lastName? target with
  | none =>
      constructor
      · intro h
        cases h
      · rintro ⟨type, -, name, ending, hlast, -⟩
        rw [hname] at hlast
        cases hlast
  | some name =>
      refine List.any_eq_true.trans (Iff.intro ?_ ?_)
      · rintro ⟨ending, hending, hsuffix⟩
        obtain ⟨type, htype, hending⟩ := List.mem_flatMap.mp hending
        exact ⟨type, htype, name, ending, hname, mem_typeEndings.mp hending,
          List.isSuffixOf_iff_suffix.mp hsuffix⟩
      · rintro ⟨type, htype, other, ending, hlast, hending, hsuffix⟩
        obtain rfl := Option.some.inj (hname.symm.trans hlast)
        exact ⟨ending, List.mem_flatMap.mpr ⟨type, htype, mem_typeEndings.mpr hending⟩,
          List.isSuffixOf_iff_suffix.mpr hsuffix⟩

theorem keyNode?_iff {n keyNode : Node} :
    (Patterns.ofSettings settings).keyNode? n = some keyNode ↔
      (∃ callee args keywords, n = .call callee (keyNode :: args) keywords ∧
        ∃ method ∈ settings.accessorNames .method, EndsIn callee (segments method)) ∨
      ∃ target, n = .subscript target keyNode ∧
        ∃ type ∈ settings.accessorNames .indexer, IsNamedLike type target := by
  constructor
  · intro h
    rw [Patterns.keyNode?.eq_def] at h
    split at h
    · rename_i callee arg args keywords
      obtain ⟨hmethod, hkey⟩ := Option.ite_none_right_eq_some.mp h
      obtain rfl := Option.some.inj hkey
      exact .inl ⟨callee, args, keywords, rfl, isMethod_iff.mp hmethod⟩
    · rename_i target index
      obtain ⟨hindexed, hkey⟩ := Option.ite_none_right_eq_some.mp h
      obtain rfl := Option.some.inj hkey
      exact .inr ⟨target, rfl, isIndexed_iff.mp hindexed⟩
    · cases h
  · rintro (⟨callee, args, keywords, rfl, hmethod⟩ | ⟨target, rfl, hindexed⟩)
    · exact if_pos (isMethod_iff.mpr hmethod)
    · exact if_pos (isIndexed_iff.mpr hindexed)

theorem usage?_iff {path : Text} {n : Node} {usage : Usage} :
    (Patterns.ofSettings settings).usage? path n = some usage ↔ IsUsage settings path n usage := by
  rw [Patterns.usage?]
  constructor
  · intro h
    split at h
    · rename_i key span hkey
      obtain rfl := Option.some.inj h
      rcases keyNode?_iff.mp hkey with ⟨callee, args, keywords, rfl, method, hmethod, hends⟩ |
        ⟨target, rfl, type, htype, hnamed⟩
      · exact .call hmethod hends
      · exact .subscript htype hnamed
    · cases h
  · intro h
    cases h with
    | call hmethod hends =>
        rw [keyNode?_iff.mpr (.inl ⟨_, _, _, rfl, _, hmethod, hends⟩)]
    | subscript htype hnamed =>
        rw [keyNode?_iff.mpr (.inr ⟨_, rfl, _, htype, hnamed⟩)]

/-! The order of usages -/

theorem notAfter_iff {a b : Usage} :
    notAfter a b = true ↔ a.location.lineStart < b.location.lineStart ∨
      a.location.lineStart = b.location.lineStart ∧ a.location.column ≤ b.location.column := by
  rw [notAfter, Bool.or_eq_true, Bool.and_eq_true, decide_eq_true_iff, decide_eq_true_iff,
    decide_eq_true_iff]

theorem notAfter_trans (a b c : Usage) (hab : notAfter a b = true) (hbc : notAfter b c = true) :
    notAfter a c = true := by
  rw [notAfter_iff] at *
  omega

theorem notAfter_total (a b : Usage) : (notAfter a b || notAfter b a) = true := by
  rw [Bool.or_eq_true, notAfter_iff, notAfter_iff]
  omega

/-- Whether the text of a usage stands before that of another one, or both stand at one place and the
walk of the tree comes upon it first. -/
def IsBefore (a b : List Nat × Usage) : Prop :=
  a.2.location.lineStart < b.2.location.lineStart ∨
    a.2.location.lineStart = b.2.location.lineStart ∧
      (a.2.location.column < b.2.location.column ∨
        a.2.location.column = b.2.location.column ∧ Node.NearerOrLeft a.1 b.1)

/-! Usages with the ways to them -/

/-- The usages that the walk of a tree comes upon, with the ways to their nodes. -/
def sites (patterns : Patterns) (path : Text) (tree : Node) : List (List Nat × Usage) :=
  (Node.visits tree).filterMap fun a => (patterns.usage? path a.2).map (a.1, ·)

section Sites

variable (patterns : Patterns) (path : Text) (tree : Node)

theorem map_snd_sites :
    (sites patterns path tree).map Prod.snd = tree.walk.filterMap (patterns.usage? path) := by
  rw [sites, List.map_filterMap, ← Node.map_snd_visits, List.filterMap_map]
  congr 1
  funext a
  rw [Option.map_map]
  exact Option.map_id'

theorem mem_sites {way : List Nat} {usage : Usage} :
    (way, usage) ∈ sites patterns path tree ↔
      ∃ node, tree.at? way = some node ∧ patterns.usage? path node = some usage := by
  rw [sites, List.mem_filterMap]
  constructor
  · rintro ⟨⟨way, node⟩, hvisit, h⟩
    obtain ⟨usage, husage, hpair⟩ := Option.map_eq_some_iff.mp h
    cases hpair
    exact ⟨node, (Node.mem_visits tree).mp hvisit, husage⟩
  · rintro ⟨node, hnode, husage⟩
    exact ⟨(way, node), (Node.mem_visits tree).mpr hnode, by rw [husage]; rfl⟩

theorem pairwise_sites :
    (sites patterns path tree).Pairwise fun a b => Node.NearerOrLeft a.1 b.1 := by
  rw [sites, List.pairwise_filterMap]
  refine (Node.pairwise_visits tree).imp fun hab a ha b hb => ?_
  obtain ⟨_, -, rfl⟩ := Option.map_eq_some_iff.mp ha
  obtain ⟨_, -, rfl⟩ := Option.map_eq_some_iff.mp hb
  exact hab

def sortedSites : List (List Nat × Usage) :=
  (sites patterns path tree).mergeSort fun a b => notAfter a.2 b.2

theorem map_snd_sortedSites :
    (sortedSites patterns path tree).map Prod.snd = usages patterns path tree := by
  rw [sortedSites, usages, ← map_snd_sites]
  exact List.map_mergeSort fun _ _ _ _ => rfl

theorem pairwise_sortedSites : (sortedSites patterns path tree).Pairwise IsBefore := by
  refine (Stable.pairwise_mergeSort_ties (fun a b c => notAfter_trans a.2 b.2 c.2)
    (fun a b => notAfter_total a.2 b.2) (pairwise_sites patterns path tree)).imp ?_
  intro a b ⟨hle, hties⟩
  rw [notAfter_iff] at hle hties
  rcases hle with hline | ⟨hline, hcolumn⟩
  · exact .inl hline
  · rcases Int.lt_or_eq_of_le hcolumn with hless | hequal
    · exact .inr ⟨hline, .inl hless⟩
    · exact .inr ⟨hline, .inr ⟨hequal, hties (.inr ⟨hline.symm, Int.le_of_eq hequal.symm⟩)⟩⟩

theorem nodup_sortedSites : ((sortedSites patterns path tree).map Prod.fst).Nodup := by
  have hsites : ((sites patterns path tree).map Prod.fst).Nodup :=
    List.pairwise_map.mpr ((pairwise_sites patterns path tree).imp Node.NearerOrLeft.ne)
  exact ((List.mergeSort_perm _ _).map Prod.fst).nodup_iff.mpr hsites

theorem mem_sortedSites {way : List Nat} {usage : Usage} :
    (way, usage) ∈ sortedSites patterns path tree ↔
      ∃ node, tree.at? way = some node ∧ patterns.usage? path node = some usage :=
  (List.mergeSort_perm _ _).mem_iff.trans (mem_sites patterns path tree)

end Sites

theorem scan_eq {names : CharNames} {path : Text} {text : List Point} {tree : Node}
    (hwritable : Text.Utf8.IsWritable text) (hnull : Point.char '\x00' ∉ text)
    (htree : parse names ((Text.unifyLineEnds text).filterMap Point.char?) = .ok (some tree)) :
    scan names settings path text = .ok (usages (Patterns.ofSettings settings) path tree) := by
  rw [scan, Text.Utf8.unwritable?_eq_none_iff.mpr hwritable]
  dsimp only
  rw [if_neg (by rwa [List.contains_iff_mem]), htree]
  rfl

/-- The usages of a tree are those at its nodes, one for each node that is one, in the order of their
texts, and at one place in that of the walk. Source text with that tree has these usages. -/
theorem usages_listed (settings : Settings) (path : Text) (tree : Node) :
    ∃ sites : List (List Nat × Usage),
      usages (Patterns.ofSettings settings) path tree = sites.map Prod.snd ∧
      (sites.map Prod.fst).Nodup ∧
      (∀ way usage, (way, usage) ∈ sites ↔
        ∃ node, tree.at? way = some node ∧ IsUsage settings path node usage) ∧
      sites.Pairwise IsBefore ∧
      ∀ names text, Text.Utf8.IsWritable text → Point.char '\x00' ∉ text →
        parse names ((Text.unifyLineEnds text).filterMap Point.char?) = .ok (some tree) →
        scan names settings path text = .ok (sites.map Prod.snd) := by
  have hlisted := map_snd_sortedSites (Patterns.ofSettings settings) path tree
  refine ⟨sortedSites (Patterns.ofSettings settings) path tree, hlisted.symm,
    nodup_sortedSites _ path tree, fun way usage => ?_, pairwise_sortedSites _ path tree, ?_⟩
  · simp only [mem_sortedSites, usage?_iff]
  · intro names text hwritable hnull htree
    rw [hlisted]
    exact scan_eq hwritable hnull htree

set_option maxRecDepth 4000 in
example : scan (fun _ => none) { accessors := [⟨.method, ["t"]⟩] } "a.py"
    (Text.ofString "t(t('x') and 'y')").toList =
    .ok [⟨"x", "a.py", 1, 1, 5⟩] := by cbv

end LocaleKeys.Source
