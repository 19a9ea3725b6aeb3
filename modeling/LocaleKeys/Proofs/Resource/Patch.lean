import LocaleKeys.Proofs.Json.RoundTrip
import LocaleKeys.Proofs.Key.Insert
import LocaleKeys.Proofs.Text.Blank
import LocaleKeys.Resource.Patch

/-!
Adding a key to resource text. An object comes out with the value set and everything else in its
order, and patching once more changes nothing, since the text that is written is read back.
-/

namespace LocaleKeys.Patch

open Json (Layout Readable maxDepth)

variable {text : List Point} {key : Text} {value : Text} {ms : List (Text × Json)}

/-- The text that is written for an object. -/
def fileText (ms : List (Text × Json)) : List Point :=
  Json.render (.lines 2) (.obj ms) ++ [Point.char '\n']

theorem renderFile_eq (hdepth : (Key.segments key).length ≤ maxDepth) (v : Json) :
    renderFile key v ms = .ok (fileText (Key.insert key v ms)) :=
  if_neg (Nat.not_lt.mpr hdepth)

theorem read_fileText (h : Readable maxDepth (.obj ms)) (policy : Json.Repeats) :
    Json.read policy (fileText ms) = .ok (.obj ms) :=
  Json.read_render h (.lines 2) policy (by simp [Json.isSpace])

theorem readable_str (depth : Nat) : Readable depth (.str value) :=
  .scalar True.intro

theorem readable_insert (value : Text) (h : Readable maxDepth (.obj ms))
    (hdepth : (Key.segments key).length ≤ maxDepth) :
    Readable maxDepth (.obj (Key.insert key (.str value) ms)) :=
  Key.readable_insertAt readable_str hdepth h

theorem readable_nil : Readable maxDepth (.obj []) := by
  change Readable (989 + 1) (.obj [])
  exact .obj List.nodup_nil (by simp)

/-! Texts of objects are not blank -/

theorem brace_mem_of_reads {depth : Nat} {start stop : Json.Cursor} {tree : Json.Tree}
    (h : Json.Reads depth start tree stop) {policy : Json.Repeats}
    (hobject : tree.toJson policy = .obj ms) : Point.char '{' ∈ start.rest := by
  have hleaf : ¬ Json.Leaf start tree stop := by
    intro leaf
    cases leaf with
    | string _ | literal _ => cases hobject
  cases depth with
  | zero => exact absurd h hleaf
  | succ depth =>
      cases h with
      | inl leaf => exact absurd leaf hleaf
      | inr container =>
          cases container with
          | emptyArray _ | array _ => cases hobject
          | emptyObject _ | object _ => exact List.mem_cons_self

theorem trim_ne_nil_of_read {policy : Json.Repeats} (h : Json.read policy text = .ok (.obj ms)) :
    Text.trim text ≠ [] := by
  rw [Json.read] at h
  split at h
  · next tree htree =>
      obtain ⟨stop, hreads, -⟩ := Json.readsText_of_readTree htree
      obtain ⟨taken, (htext : text = _), -⟩ := Json.Cursor.reaches_skip ⟨text, 0⟩
      have hmem : Point.char '{' ∈ text := by
        rw [htext]
        exact List.mem_append_right taken (brace_mem_of_reads hreads (Except.ok.inj h))
      exact Text.trim_ne_nil hmem (by decide)
  · cases h

/-- Patching the text of an object writes the object with the key set. -/
theorem apply_of_read (h : Json.read .keepLast text = .ok (.obj ms)) (v : Json) :
    apply text key v = renderFile key v ms := by
  have hblank : (Text.trim text).isEmpty = false := by
    simpa using trim_ne_nil_of_read h
  simp [apply, hblank, h]

theorem apply_of_blank (h : (Text.trim text).isEmpty = true) (v : Json) :
    apply text key v = renderFile key v [] :=
  if_pos h

/-- Patching once more finds the key set. -/
theorem apply_fileText (value : Text) (h : Readable maxDepth (.obj ms))
    (hdepth : (Key.segments key).length ≤ maxDepth) :
    apply (fileText (Key.insert key (.str value) ms)) key (.str value) =
      .ok (fileText (Key.insert key (.str value) ms)) := by
  have hread := read_fileText (readable_insert value h hdepth) .keepLast
  rw [apply_of_read hread, renderFile_eq hdepth, Key.insert_insert]

/-- Patching a blank text or the text of an object gives a text from which the object with the key
set is read, its members in order at every level; and the same patch leaves that text as it is. -/
theorem apply_sets_key (value : Text)
    (h : (Text.trim text).isEmpty = true ∧ ms = [] ∨ Json.read .keepLast text = .ok (.obj ms))
    (hdepth : (Key.segments key).length ≤ maxDepth) :
    ∃ after, apply text key (.str value) = .ok after ∧
      Json.read .keepLast after = .ok (.obj (Key.insert key (.str value) ms)) ∧
      apply after key (.str value) = .ok after := by
  have hreadable : Readable maxDepth (.obj ms) := by
    cases h with
    | inl blank => exact blank.2 ▸ readable_nil
    | inr read => exact Json.readable_of_read read
  have happly : apply text key (.str value) = renderFile key (.str value) ms := by
    cases h with
    | inl blank => rw [blank.2, apply_of_blank blank.1]
    | inr read => exact apply_of_read read _
  refine ⟨fileText (Key.insert key (.str value) ms), ?_, ?_, apply_fileText value hreadable hdepth⟩
  · rw [happly, renderFile_eq hdepth]
  · exact read_fileText (readable_insert value hreadable hdepth) .keepLast

/-- A key with two parts, the first of which has a value of another kind. -/
theorem apply_sets_key_replacing :
    ∃ after, apply (Text.ofString "\x7b\"a\": 1, \"b\": []\x7d").toList "a.c" (.str "v") = .ok after ∧
      Json.read .keepLast after =
        .ok (.obj (Key.insert "a.c" (.str "v") [("a", .int 1), ("b", .arr [])])) ∧
      apply after "a.c" (.str "v") = .ok after := by
  have hread : Json.readTree (Text.ofString "\x7b\"a\": 1, \"b\": []\x7d").toList =
      .ok (.obj [(⟨"a", 1⟩, .scalar (.int 1)), (⟨"b", 9⟩, .arr [])]) := rfl
  have hsegments : Key.segments "a.c" = ["a", "c"] := rfl
  exact apply_sets_key "v" (Or.inr (Json.read_of_readTree hread .keepLast))
    (by rw [hsegments]; decide)

/-! Text that cannot be read -/

theorem hasMember_append {name : List Point} (hname : name ≠ []) (before after : List Point) :
    hasMember name (before ++ (name ++ Point.char ':' :: after)) = true := by
  induction before with
  | nil =>
      obtain ⟨c, rest, rfl⟩ := List.exists_cons_of_ne_nil hname
      have hcolon : Text.isBlank ':' = false := by decide
      rw [List.nil_append, List.cons_append, hasMember]
      simp [hcolon]
  | cons c before ih =>
      rw [List.cons_append, hasMember, ih, Bool.or_true]

/-- What an insertion puts behind the text before the brace. -/
theorem memberLines_eq (name : List Point) (v : Json) :
    ∃ shown, memberLines name v =
      Point.char '\n' :: Point.char ' ' :: Point.char ' ' :: (name ++ Point.char ':' :: shown) ++
      Point.char '\n' :: Point.char '}' :: ['\n'] := by
  refine ⟨Point.char ' ' :: Json.write .inline 0 v [], ?_⟩
  have hwrite := Json.write_append .inline 0 (Text.ofString "\n\x7d\n").toList v []
  rw [List.nil_append] at hwrite
  rw [memberLines, ← hwrite]
  simp

/-- An insertion either leaves the text alone or ends it with the new member. -/
theorem insertText_cases (text name : List Point) (v : Json) :
    insertText text name v = text ∨
      ∃ body, insertText text name v = body ++ memberLines name v := by
  rw [insertText]
  split
  · next reversed _ =>
      dsimp only
      split
      · exact Or.inl rfl
      · split
        · exact Or.inr ⟨_, rfl⟩
        · exact Or.inr ⟨_, rfl⟩
        · exact Or.inr ⟨Text.trimRight reversed.reverse ++ [Point.char ','], by simp⟩
  · exact Or.inl rfl

/-- The member of an insertion is found again. -/
theorem insertText_memberLines {name : List Point} (hname : name ≠ []) (body : List Point)
    (v w : Json) : insertText (body ++ memberLines name v) name w = body ++ memberLines name v := by
  obtain ⟨shown, hlines⟩ := memberLines_eq name v
  let before := body ++ [Point.char '\n', ' ', ' ']
  have htext : body ++ memberLines name v =
      (before ++ name ++ Point.char ':' :: shown ++ [Point.char '\n']) ++
        Point.char '}' :: ['\n'] := by simp [before, hlines]
  have hbrace : Text.isBlank '}' = false := by decide
  have hcolon : Text.isBlank ':' = false := by decide
  have hfeed : Text.trimRight [Point.char '\n'] = [] := by decide
  have hreversed : (Text.trimRight (body ++ memberLines name v)).reverse =
      Point.char '}' :: (before ++ name ++ Point.char ':' :: shown ++ [Point.char '\n']).reverse := by
    rw [htext, Text.trimRight_append hbrace, hfeed, List.reverse_append]
    rfl
  have hbody : Text.trimRight (before ++ name ++ Point.char ':' :: shown ++ [Point.char '\n']) =
      before ++ (name ++ Point.char ':' :: Text.trimRight (shown ++ [Point.char '\n'])) := by
    rw [List.append_assoc, List.cons_append, Text.trimRight_append hcolon, List.append_assoc]
  rw [insertText, hreversed]
  simp only [List.reverse_reverse, hbody, hasMember_append hname, if_true]

theorem insertText_insertText {name : List Point} (hname : name ≠ []) (text : List Point) (v : Json) :
    insertText (insertText text name v) name v = insertText text name v := by
  cases insertText_cases text name v with
  | inl same => rw [same, same]
  | inr added =>
      obtain ⟨body, hbody⟩ := added
      rw [hbody, insertText_memberLines hname]

theorem trim_insertText_ne_nil {name : List Point} {v : Json} (h : Text.trim text ≠ []) :
    Text.trim (insertText text name v) ≠ [] := by
  cases insertText_cases text name v with
  | inl same => rwa [same]
  | inr added =>
      obtain ⟨body, hbody⟩ := added
      obtain ⟨shown, hlines⟩ := memberLines_eq name v
      have hbrace : Point.char '}' ∈ body ++ memberLines name v := by simp [hlines]
      rw [hbody]
      exact Text.trim_ne_nil hbrace (by decide)

theorem apply_of_error {f : Json.Fault} (h : Json.read .keepLast text = .error f)
    (hblank : Text.trim text ≠ []) (v : Json) :
    apply text key v = .ok (insertText text (Json.writeString key []) v) := by
  have hnot : (Text.trim text).isEmpty = false := by simpa using hblank
  simp [apply, hnot, h]

theorem apply_of_not_object {j : Json} (h : Json.read .keepLast text = .ok j)
    (hblank : Text.trim text ≠ []) (hj : ∀ ms, j ≠ .obj ms) (v : Json) :
    apply text key v = .ok text := by
  have hnot : (Text.trim text).isEmpty = false := by simpa using hblank
  cases j with
  | obj ms => exact absurd rfl (hj ms)
  | scalar _ | arr _ => simp [apply, hnot, h]

/-- The text of an object is left as it is exactly when it is laid out as it would be written, and
the key is set. -/
theorem apply_eq_self_iff (h : Json.read .keepLast text = .ok (.obj ms)) :
    apply text key (.str value) = .ok text ↔
      text = fileText ms ∧ Key.insert key (.str value) ms = ms := by
  have hreadable := Json.readable_of_read h
  rw [apply_of_read h]
  constructor
  · intro hsame
    have hdepth : (Key.segments key).length ≤ maxDepth := by
      by_contra hdeep
      rw [renderFile, if_pos (Nat.not_le.mp hdeep)] at hsame
      cases hsame
    rw [renderFile_eq hdepth, Except.ok.injEq] at hsame
    have hread := read_fileText (readable_insert value hreadable hdepth) .keepLast
    rw [hsame, h, Except.ok.injEq, Json.obj.injEq] at hread
    rw [← hread] at hsame
    exact ⟨hsame.symm, hread.symm⟩
  · intro hlaid
    have hdepth := Key.length_le_of_insertAt_eq hreadable hlaid.2
    rw [renderFile_eq hdepth, hlaid.2, ← hlaid.1]

/-- Patching text that cannot be read changes it at most once as long as the outcome cannot be read
either. When the new member makes it the text of an object, the next patch writes that object anew:
then nothing changes only if the text is laid out in that way, and the key was set and not just
named. -/
theorem apply_apply_of_error {f : Json.Fault} (h : Json.read .keepLast text = .error f)
    (hedit : Text.trim text ≠ [] ∨ (Key.segments key).length ≤ maxDepth) :
    ∃ once, apply text key (.str value) = .ok once ∧
      (apply once key (.str value) = .ok once ↔
        ∀ ms, Json.read .keepLast once = .ok (.obj ms) →
          once = fileText ms ∧ Key.insert key (.str value) ms = ms) := by
  have hname : Json.writeString key [] ≠ [] := List.cons_ne_nil _ _
  by_cases hblank : Text.trim text = []
  · have hdepth := hedit.resolve_left (not_not_intro hblank)
    have honce : apply text key (.str value) = .ok (fileText (Key.insert key (.str value) [])) := by
      rw [apply_of_blank (List.isEmpty_iff.mpr hblank), renderFile_eq hdepth]
    have hagain := apply_fileText value readable_nil hdepth
    refine ⟨_, honce, fun _ ms hms => ?_, fun _ => hagain⟩
    exact (apply_eq_self_iff hms).mp hagain
  -- The second patch takes the path that the first one's outcome opens to it.
  · let once := insertText text (Json.writeString key []) (.str value)
    have hfilled : Text.trim once ≠ [] := trim_insertText_ne_nil hblank
    refine ⟨once, apply_of_error h hblank _, ?_⟩
    cases hread : Json.read .keepLast once with
    | error g =>
        refine ⟨fun _ ms hms => (nomatch hms), fun _ => ?_⟩
        rw [apply_of_error hread hfilled, insertText_insertText hname]
    | ok j =>
        by_cases hobject : ∃ ms, j = .obj ms
        · obtain ⟨ms, rfl⟩ := hobject
          rw [apply_eq_self_iff hread]
          refine ⟨fun hlaid others hothers => ?_, fun hlaid => hlaid ms rfl⟩
          cases hothers
          exact hlaid
        · have hj : ∀ ms, j ≠ .obj ms := fun ms hms => hobject ⟨ms, hms⟩
          refine ⟨fun _ ms hms => absurd (Except.ok.inj hms) (hj ms), fun _ => ?_⟩
          exact apply_of_not_object hread hfilled hj _

/-- An array without its end: the member goes before the brace inside it, and stays the only one. -/
theorem apply_apply_unclosed :
    ∃ once, apply (Text.ofString "[\x7b\x7d").toList "k" (.str "v") = .ok once ∧
      (apply once "k" (.str "v") = .ok once ↔ ∀ ms, Json.read .keepLast once = .ok (.obj ms) →
        once = fileText ms ∧ Key.insert "k" (.str "v") ms = ms) := by
  have hrejected : Json.read .keepLast (Text.ofString "[\x7b\x7d").toList =
      .error (.malformed .expectingComma 3) := rfl
  exact apply_apply_of_error hrejected (Or.inl (by decide))

/-- A comma before the brace is all that is wrong with the text: the new member makes it the text of
an object, and the next patch lays that text out anew. -/
theorem apply_apply_ne_trailing_comma :
    ∃ f once twice, Json.read .keepLast (Text.ofString "\x7b\"a\": 1,\x7d").toList = .error f ∧
      apply (Text.ofString "\x7b\"a\": 1,\x7d").toList "k" (.str "v") = .ok once ∧
      apply once "k" (.str "v") = .ok twice ∧ twice ≠ once := by
  have honce : Json.readTree (Text.ofString "\x7b\"a\": 1,\n  \"k\": \"v\"\n\x7d\n").toList =
      .ok (.obj [(⟨"a", 1⟩, .scalar (.int 1)), (⟨"k", 11⟩, .scalar (.str "v"))]) := rfl
  have hdepth : (Key.segments "k").length ≤ maxDepth := by
    rw [show Key.segments "k" = ["k"] from rfl]
    decide
  refine ⟨.malformed .expectingName 8, (Text.ofString "\x7b\"a\": 1,\n  \"k\": \"v\"\n\x7d\n").toList,
    (Text.ofString "\x7b\n  \"a\": 1,\n  \"k\": \"v\"\n\x7d\n").toList, rfl, rfl, ?_, by decide⟩
  rw [apply_of_read (Json.read_of_readTree honce .keepLast), renderFile_eq hdepth]
  rfl

end LocaleKeys.Patch
