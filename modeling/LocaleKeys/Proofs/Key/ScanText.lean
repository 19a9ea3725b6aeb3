import LocaleKeys.Key.Flatten
import LocaleKeys.Proofs.Key.Scan

/-!
The scan of accepted text against its syntax tree. Between two phrases the innermost bracket tells
the path of the next value, as the tree does; so a phrase is passed over with its member names
recorded in the order of the tree, and nothing else changes.
-/

namespace LocaleKeys.Key

open Json (At Cursor Listed Member Leaf Container Reads)
open Text (Position)

namespace Scan

variable {text : List Point} {scan : Scan}

/-- Names of a phrase are recorded in order, and the scan goes on behind it. -/
def Passes (text : List Point) (item : Cursor → Json.Tree → Cursor → Prop) : Prop :=
  ∀ {scan : Scan} {start stop : Cursor} {tree : Json.Tree}, item start tree stop →
    At text start → scan.pending = none → stop.skip.rest.head? ≠ some (Point.char ':') →
    (scan.goTo text start.offset).run start.rest =
      (((occurrences scan.openPath tree).foldl (record text) scan).goTo text stop.offset).run
        stop.rest

theorem passes_leaf : Passes text Leaf := by
  intro scan start stop tree h hat hpending hcolon
  cases h with
  | string h => exact run_value h hpending hat hcolon
  | @literal s offset x stop h =>
      obtain ⟨taken, hs, hstop, hchars⟩ := (Json.literal_ok h).1
      subst hs
      have inert : ∀ c ∈ taken, Inert c := fun c hc => inert_of_isLiteralChar (hchars c hc)
      rw [hstop]
      exact run_inert taken stop.rest hpending hat inert

/-! Brackets, commas and colons -/

theorem run_token {c : Cursor} {token : Point} {after : List Point} {o : Nat} (hat : At text c)
    (hpending : scan.pending = none) (h : c.skip = ⟨token :: after, o⟩) :
    (scan.goTo text c.offset).run c.rest = ((scan.goTo text o).stepOutside token).run after := by
  rw [run_skip hpending hat, h, run_step hpending]

theorem run_open {rest : List Point} {offset : Nat} {bracket : Point} {isObject : Bool}
    (h : bracket = '{' ∧ isObject = true ∨ bracket = '[' ∧ isObject = false)
    (hat : At text ⟨bracket :: rest, offset⟩) (hpending : scan.pending = none) :
    (scan.goTo text offset).run (bracket :: rest) =
      ((scan.framed ({ isObject, path := scan.openPath } :: scan.frames)).goTo text
        (offset + 1)).run rest := by
  rw [run_step hpending]
  have hplace := Position.ofOffset_succ hat
  cases h with
  | inl object =>
      obtain ⟨rfl, rfl⟩ := object
      simp [stepOutside, goTo, framed, hplace, openPath]
  | inr array =>
      obtain ⟨rfl, rfl⟩ := array
      simp [stepOutside, goTo, framed, hplace, openPath]

theorem run_close {c : Cursor} {bracket : Point} {after : List Point} {o : Nat}
    (hbracket : bracket = '}' ∨ bracket = ']') (hat : At text c) (hpending : scan.pending = none)
    (h : c.skip = ⟨bracket :: after, o⟩) :
    (scan.goTo text c.offset).run c.rest =
      ((scan.framed (scan.frames.drop 1)).goTo text (o + 1)).run after := by
  have hplace := Position.ofOffset_succ (h ▸ hat.reaches c.reaches_skip)
  rw [run_token hat hpending h]
  cases hbracket with
  | inl brace =>
      subst brace
      simp [stepOutside, goTo, framed, hplace]
  | inr square =>
      subst square
      simp [stepOutside, goTo, framed, hplace]

theorem run_comma {c : Cursor} {after : List Point} {o : Nat} (hat : At text c)
    (hpending : scan.pending = none) (h : c.skip = ⟨Point.char ',' :: after, o⟩) :
    (scan.goTo text c.offset).run c.rest =
      ((scan.framed (countComma scan.frames)).goTo text (o + 1)).run after := by
  have hplace := Position.ofOffset_succ (h ▸ hat.reaches c.reaches_skip)
  rw [run_token hat hpending h]
  simp [stepOutside, goTo, framed, hplace]

theorem run_colon {c : Cursor} {after : List Point} {o : Nat} (hat : At text c)
    (hpending : scan.pending = none) (h : c.skip = ⟨Point.char ':' :: after, o⟩) :
    (scan.goTo text c.offset).run c.rest = (scan.goTo text (o + 1)).run after := by
  have hcolon : Inert ':' := by unfold Inert; decide
  rw [run_token hat hpending h, stepOutside_inert hcolon (h ▸ hat.reaches c.reaches_skip)]

/-! Lists of values and of members -/

section Items

variable {item : Cursor → Json.Tree → Cursor → Prop} {frame : Frame} {outer : List Frame}
  {start stop : Cursor} (hitem : Passes text item)
  (forward : ∀ {start tree stop}, item start tree stop → start.Reaches stop)

include hitem

include forward in
/-- In an array each comma counts, so that each element has its own index. -/
theorem passes_elements {trees : List Json.Tree} (h : Listed ']' item start trees stop)
    (hat : At text start) (hpending : scan.pending = none) (hframes : scan.frames = frame :: outer)
    (harray : frame.isObject = false) :
    (scan.goTo text start.offset).run start.rest =
      ((((elementOccurrences frame.path frame.index trees).foldl (record text) scan).framed
        outer).goTo text stop.offset).run stop.rest := by
  induction h generalizing scan frame with
  | @last start stop tree after o hfirst hclose =>
      have hpath : scan.openPath = index frame.path frame.index := by
        simp [openPath, hframes, harray]
      have hstop := hat.reaches (forward hfirst)
      have hcolon : stop.skip.rest.head? ≠ some (Point.char ':') := by simp [hclose]
      rw [hitem hfirst hat hpending hcolon,
        run_close (Or.inr rfl) hstop (by simp [hpending]) hclose]
      simp [hpath, elementOccurrences, hframes]
  | @more start stop final tree trees after o hfirst hcomma _ ih =>
      have hpath : scan.openPath = index frame.path frame.index := by
        simp [openPath, hframes, harray]
      have hstop := hat.reaches (forward hfirst)
      have hcolon : stop.skip.rest.head? ≠ some (Point.char ':') := by simp [hcomma]
      have hnext : At text ⟨after, o + 1⟩ := hstop.reaches (Cursor.reaches_token hcomma)
      have hcount : countComma scan.frames = { frame with index := frame.index + 1 } :: outer := by
        simp [hframes, countComma, harray]
      rw [hitem hfirst hat hpending hcolon, run_comma hstop (by simp [hpending]) hcomma,
        run_skip (by simp [framed, hpending]) hnext, frames_foldl_record, hcount]
      -- After the comma the frame is another one, so the induction keeps it general.
      have hnextArray : ({ frame with index := frame.index + 1 } : Frame).isObject = false := harray
      rw [ih (hnext.reaches (Cursor.reaches_skip _)) (by simp [framed, hpending]) (frames_framed _ _)
        hnextArray]
      simp [hpath, elementOccurrences, foldl_record_framed]

/-- A member is recorded before the names in its value. -/
theorem passes_member {member : Json.Name × Json.Tree} (h : Member item start member stop)
    (hat : At text start) (hpending : scan.pending = none) (hframes : scan.frames = frame :: outer)
    (hobject : frame.isObject = true) (hcolon : stop.skip.rest.head? ≠ some (Point.char ':')) :
    (scan.goTo text start.offset).run start.rest =
      ((((occurrences (join frame.path member.1.text) member.2).foldl (record text)
        (scan.record text ⟨member.1.text, join frame.path member.1.text, member.1.offset,
          frame.seen.contains member.1.text⟩)).framed
            (noted frame member.1.text :: outer)).goTo text stop.offset).run stop.rest := by
  cases h with
  | @mk raw cs afterName afterColon offset o tree stop hname colon hvalue =>
      have hhead : (afterName.dropWhile Json.isSpace).head? = some (Point.char ':') :=
        congrArg (fun c : Cursor => c.rest.head?) colon
      have hbehind : At text ⟨afterName, offset + raw.length + 2⟩ :=
        hat.reaches (Leaf.string hname).reaches
      have hnext : At text ⟨afterColon, o + 1⟩ := hbehind.reaches (Cursor.reaches_token colon)
      have hpath : ∀ s : Scan, (s.framed (noted frame (Text.ofList cs) :: outer)).openPath =
          join frame.path (Text.ofList cs) := by
        intro s
        -- An empty member path falls back on the path of the object, which is then empty too.
        by_cases hempty : join frame.path (Text.ofList cs) = ""
        · have hbase : frame.path = "" := by
            by_contra hne
            simp [join, hne] at hempty
          simpa [openPath, noted, hobject, hbase] using Eq.symm
        · simp [openPath, noted, hobject, hempty]
      rw [run_name hname hpending hframes hobject hat hhead,
        run_colon hbehind (by simp [framed, hpending]) colon, run_skip (by simp [framed, hpending]) hnext,
        hitem hvalue (hnext.reaches (Cursor.reaches_skip _)) (by simp [framed, hpending]) hcolon, hpath,
        foldl_record_framed]

include forward in
/-- In an object the names so far are remembered, in whatever order. -/
theorem passes_members {members : List (Json.Name × Json.Tree)}
    (h : Listed '}' (Member item) start members stop) (hat : At text start)
    (hpending : scan.pending = none) (hframes : scan.frames = frame :: outer)
    (hobject : frame.isObject = true) {before : List Text}
    (hseen : ∀ name, frame.seen.contains name = before.contains name) :
    (scan.goTo text start.offset).run start.rest =
      ((((memberOccurrences frame.path before members).foldl (record text) scan).framed
        outer).goTo text stop.offset).run stop.rest := by
  induction h generalizing scan frame before with
  | @last start stop member after o hfirst hclose =>
      have hstop := hat.reaches (Member.reaches forward hfirst)
      have hcolon : stop.skip.rest.head? ≠ some (Point.char ':') := by simp [hclose]
      rw [passes_member hitem hfirst hat hpending hframes hobject hcolon,
        run_close (Or.inl rfl) hstop (by simp [framed, hpending]) hclose]
      simp only [memberOccurrences, hseen, List.foldl_cons, List.append_nil, frames_framed,
        framed_framed, List.drop_succ_cons, List.drop_zero]
  | @more start stop final member members after o hfirst hcomma _ ih =>
      have hstop := hat.reaches (Member.reaches forward hfirst)
      have hcolon : stop.skip.rest.head? ≠ some (Point.char ':') := by simp [hcomma]
      have hnext : At text ⟨after, o + 1⟩ := hstop.reaches (Cursor.reaches_token hcomma)
      have hnoted : ∀ name, (noted frame member.1.text).seen.contains name =
          (before ++ [member.1.text]).contains name := by
        intro name
        rw [contains_seen_noted, List.contains_append, List.contains_append, hseen]
      rw [passes_member hitem hfirst hat hpending hframes hobject hcolon,
        run_comma hstop (by simp [framed, hpending]) hcomma, run_skip (by simp [framed, hpending]) hnext]
      have hnotedObject : (noted frame member.1.text).isObject = true := hobject
      have hcount : countComma (noted frame member.1.text :: outer) =
          noted frame member.1.text :: outer := by
        simp [countComma, noted, hobject]
      rw [frames_framed, hcount, framed_framed,
        ih (hnext.reaches (Cursor.reaches_skip _)) (by simp [framed, hpending]) (frames_framed _ _)
          hnotedObject hnoted]
      simp only [memberOccurrences, hseen, foldl_record_framed, List.foldl_cons,
        List.foldl_append, framed_framed, noted]

end Items

/-! Values -/

theorem passes_container {item : Cursor → Json.Tree → Cursor → Prop} (hitem : Passes text item)
    (forward : ∀ {start tree stop}, item start tree stop → start.Reaches stop) :
    Passes text (Container item) := by
  intro scan start stop tree h hat hpending _
  have hbehind : ∀ {c s o}, At text ⟨c :: s, o⟩ → At text ⟨s, o + 1⟩ :=
    fun hat => hat.reaches (Cursor.Reaches.next _ _ _)
  cases h with
  | emptyArray hclose =>
      rw [run_open (Or.inr ⟨rfl, rfl⟩) hat hpending,
        run_close (Or.inr rfl) (hbehind hat) (by simp [framed, hpending]) hclose]
      rfl
  | emptyObject hclose =>
      rw [run_open (Or.inl ⟨rfl, rfl⟩) hat hpending,
        run_close (Or.inl rfl) (hbehind hat) (by simp [framed, hpending]) hclose]
      rfl
  | array hitems =>
      rw [run_open (Or.inr ⟨rfl, rfl⟩) hat hpending, run_skip (by simp [framed, hpending]) (hbehind hat),
        passes_elements hitem forward hitems ((hbehind hat).reaches (Cursor.reaches_skip _))
          (by simp [framed, hpending]) (frames_framed _ _) rfl,
        foldl_record_framed, framed_framed, ← foldl_record_framed, framed_frames]
      rfl
  | object hitems =>
      rw [run_open (Or.inl ⟨rfl, rfl⟩) hat hpending, run_skip (by simp [framed, hpending]) (hbehind hat),
        passes_members hitem forward hitems ((hbehind hat).reaches (Cursor.reaches_skip _))
          (by simp [framed, hpending]) (frames_framed _ _) rfl fun _ => rfl,
        foldl_record_framed, framed_framed, ← foldl_record_framed, framed_frames]
      rfl

theorem passes_reads (depth : Nat) : Passes text (Reads depth) := by
  induction depth with
  | zero => exact passes_leaf
  | succ depth ih =>
      intro scan start stop tree h hat hpending hcolon
      cases h with
      | inl leaf => exact passes_leaf leaf hat hpending hcolon
      | inr container =>
          exact passes_container ih Json.Reads.reaches container hat hpending hcolon

/-- The scan of a text records the member names of its tree. -/
theorem scan_of_readsText {tree : Json.Tree} (h : Json.ReadsText text tree) :
    ∃ offset, Key.scan text =
      ((occurrences "" tree).foldl (record text) {}).goTo text offset := by
  obtain ⟨stop, hreads, hend⟩ := h
  have hat : At text ⟨text, 0⟩ := rfl
  have hstart := hat.reaches (Cursor.reaches_skip _)
  have hskip : (({} : Scan).goTo text 0).run text = _ := run_skip rfl hat
  have hcolon : stop.skip.rest.head? ≠ some (Point.char ':') := by simp [hend]
  refine ⟨stop.skip.offset, ?_⟩
  have hstop := hstart.reaches hreads.reaches
  calc Key.scan text
      = (({} : Scan).goTo text 0).run text := rfl
    _ = _ := hskip
    _ = _ := passes_reads _ hreads hstart rfl hcolon
    _ = _ := run_skip (by simp) hstop
    _ = _ := by rw [hend, run]; rfl

end Scan

/-! The scan and the reader -/

theorem inOrder_of_readsText {text : List Point} {tree : Json.Tree} (h : Json.ReadsText text tree) :
    InOrder text 0 text.length (occurrences "" tree) := by
  obtain ⟨stop, hreads, -⟩ := h
  have hat : At text ⟨text, 0⟩ := rfl
  have hskip := Cursor.reaches_skip ⟨text, 0⟩
  obtain ⟨taken, hrest, hoffset⟩ := hskip.trans hreads.reaches
  have hend : stop.offset ≤ text.length := by
    have := congrArg List.length hrest
    simp only [List.length_append] at this
    rw [hoffset, this, Nat.zero_add]
    exact Nat.le_add_right _ _
  exact (places_reads _ hreads (hat.reaches hskip) "").mono hskip.offset_le hend

theorem repeats_of_readsText {text : List Point} {tree : Json.Tree} (h : Json.ReadsText text tree) :
    (scan text).repeats = ((occurrences "" tree).filter (·.repeated)).map
      fun o => ⟨o.name, o.path, o.place text⟩ := by
  obtain ⟨offset, hscan⟩ := Scan.scan_of_readsText h
  rw [hscan]
  exact Scan.repeats_foldl_record text {} _

theorem positions_of_readsText {text : List Point} {tree : Json.Tree} (h : Json.ReadsText text tree)
    (path : Text) :
    Assoc.get? path (scan text).positions =
      (((occurrences "" tree).filter (!·.repeated)).find? (·.path == path)).map (·.place text) := by
  obtain ⟨offset, hscan⟩ := Scan.scan_of_readsText h
  rw [hscan]
  exact Scan.positions_foldl_record text {} _ path

/-- Where the scan finds no repeats, it does not matter which member of a name is kept. -/
theorem readResource_of_no_repeats {text : List Point} (hnone : (scan text).repeats = []) :
    readResource text = Json.read .keepLast text := by
  cases h : Json.readTree text with
  | error f => simp only [readResource, Json.read, h]
  | ok tree =>
      have hnever : ∀ o ∈ occurrences "" tree, o.repeated = false := by
        intro o ho
        by_contra hrepeated
        have hmem : o ∈ (occurrences "" tree).filter (·.repeated) :=
          List.mem_filter.mpr ⟨ho, by simpa using hrepeated⟩
        rw [repeats_of_readsText (Json.readsText_of_readTree h), List.map_eq_nil_iff] at hnone
        rw [hnone] at hmem
        cases hmem
      simp only [readResource, Json.read, h, toJson_eq_of_not_repeated tree hnever]

/-- On text that the reader accepts, the scan finds the members of the syntax tree where they stand:
its repeats are the members whose object has had their name before, in text order, and a path has
the place of the first of the other members on it. Without repeats it does not matter which member
of a name the reader keeps. -/
theorem scan_of_readTree {text : List Point} {tree : Json.Tree} (h : Json.readTree text = .ok tree) :
    InOrder text 0 text.length (occurrences "" tree) ∧
      (scan text).repeats = ((occurrences "" tree).filter (·.repeated)).map
        (fun o => ⟨o.name, o.path, o.place text⟩) ∧
      (∀ path, Assoc.get? path (scan text).positions =
        (((occurrences "" tree).filter (!·.repeated)).find? (·.path == path)).map (·.place text)) ∧
      ((scan text).repeats = [] → readResource text = Json.read .keepLast text) := by
  have hreads := Json.readsText_of_readTree h
  refine ⟨inOrder_of_readsText hreads, repeats_of_readsText hreads, ?_,
    readResource_of_no_repeats⟩
  intro path
  obtain ⟨offset, hscan⟩ := Scan.scan_of_readsText hreads
  rw [hscan]
  exact Scan.positions_foldl_record text {} (occurrences "" tree) path

/-- A name repeated inside an array, and the same name in the object around it. -/
theorem scan_of_readTree_repeated :
    (scan (Text.ofString "\x7b\"a\": [\x7b\"a\": 1,\n\"a\": 2\x7d]\x7d").toList).repeats =
      [⟨"a", "a[0].a", ⟨2, 1⟩⟩] :=
  (scan_of_readTree (show Json.readTree (Text.ofString "\x7b\"a\": [\x7b\"a\": 1,\n\"a\": 2\x7d]\x7d").toList =
    .ok (.obj [(⟨"a", 1⟩,
      .arr [.obj [(⟨"a", 8⟩, .scalar (.int 1)), (⟨"a", 16⟩, .scalar (.int 2))]])])
    from rfl)).2.1

end LocaleKeys.Key
