import LocaleKeys.Canonical
import LocaleKeys.Proofs.Json.RoundTrip
import LocaleKeys.Proofs.Key.Reorder
import LocaleKeys.Proofs.Text.Order

/-!
Canonical text. Sorting members takes every value to one that is the same but for the order of members,
and to a single one for all that are; the text of a value is read back, so it tells the values apart that
the order of members does not.
-/

namespace LocaleKeys

namespace Json

theorem Readable.mono {depth more : Nat} {v : Json} (h : Readable depth v) (hle : depth ≤ more) :
    Readable more v := by
  induction h generalizing more with
  | scalar h => exact .scalar h
  | arr _ ih =>
      cases more with
      | zero => exact absurd hle (Nat.not_succ_le_zero _)
      | succ more => exact .arr fun v hv => ih v hv (Nat.le_of_succ_le_succ hle)
  | obj distinct _ ih =>
      cases more with
      | zero => exact absurd hle (Nat.not_succ_le_zero _)
      | succ more => exact .obj distinct fun m hm => ih m hm (Nat.le_of_succ_le_succ hle)

/-! Values up to the order of members -/

theorem Reordered.symm {v w : Json} (h : Reordered v w) : Reordered w v := by
  induction h with
  | refl v => exact .refl v
  | trans _ _ ih ih' => exact ih'.trans ih
  | perm h => exact .perm h.symm
  | member _ ih => exact .member ih
  | element _ ih => exact .element ih

/-- A value that is reordered stays readable. -/
theorem Reordered.readable {v w : Json} (h : Reordered v w) {depth : Nat} (hv : Readable depth v) :
    Readable depth w := by
  induction h generalizing depth with
  | refl => exact hv
  | trans _ _ ih ih' => exact ih' (ih hv)
  | perm h =>
      cases hv with
      | obj distinct hms =>
          exact .obj ((h.map Prod.fst).nodup_iff.mp distinct) fun m hm => hms m (h.mem_iff.mpr hm)
  | @member front back name v w _ ih =>
      cases hv with
      | obj distinct hms =>
          have hkeys : Assoc.keys (front ++ (name, w) :: back) =
              Assoc.keys (front ++ (name, v) :: back) := by
            simp [Assoc.keys]
          rw [List.forall_mem_append, List.forall_mem_cons] at hms
          obtain ⟨hfront, hmember, hback⟩ := hms
          refine .obj (hkeys ▸ distinct) ?_
          rw [List.forall_mem_append, List.forall_mem_cons]
          exact ⟨hfront, ih hmember, hback⟩
  | element _ ih =>
      cases hv with
      | arr hvs =>
          rw [List.forall_mem_append, List.forall_mem_cons] at hvs
          obtain ⟨hfront, helement, hback⟩ := hvs
          refine .arr ?_
          rw [List.forall_mem_append, List.forall_mem_cons]
          exact ⟨hfront, ih helement, hback⟩

/-! Sorted members -/

theorem sortElements_eq_map (vs : List Json) : sortElements vs = vs.map sortMembers := by
  induction vs with
  | nil => rfl
  | cons v vs ih => rw [sortElements, ih, List.map_cons]

theorem sortEach_eq_map (ms : List (Text × Json)) :
    sortEach ms = ms.map fun m => (m.1, sortMembers m.2) := by
  induction ms with
  | nil => rfl
  | cons m ms ih => rw [sortEach, ih, List.map_cons]

mutual

theorem reordered_sortMembers : (v : Json) → Reordered v (sortMembers v)
  | .scalar s => .refl _
  | .arr vs => by
      rw [sortMembers]
      exact reordered_sortElements [] vs
  | .obj ms => by
      rw [sortMembers]
      exact (reordered_sortEach [] ms).trans (.perm (List.mergeSort_perm _ _).symm)

/-- Elements are sorted one after the other, from the front. -/
theorem reordered_sortElements : (front vs : List Json) →
    Reordered (.arr (front ++ vs)) (.arr (front ++ sortElements vs))
  | front, [] => .refl _
  | front, v :: vs => by
      have hnext := reordered_sortElements (front ++ [sortMembers v]) vs
      rw [List.append_assoc, List.append_assoc] at hnext
      exact .trans (.element (reordered_sortMembers v)) hnext

theorem reordered_sortEach : (front ms : List (Text × Json)) →
    Reordered (.obj (front ++ ms)) (.obj (front ++ sortEach ms))
  | front, [] => .refl _
  | front, (name, v) :: ms => by
      have hnext := reordered_sortEach (front ++ [(name, sortMembers v)]) ms
      rw [List.append_assoc, List.append_assoc] at hnext
      exact .trans (.member (reordered_sortMembers v)) hnext

end

/-- Values that are the same but for the order of members become one. -/
theorem sortMembers_of_reordered {v w : Json} (h : Reordered v w) {depth : Nat}
    (hv : Readable depth v) : sortMembers v = sortMembers w := by
  induction h generalizing depth with
  | refl => rfl
  | trans h _ ih ih' => exact (ih hv).trans (ih' (h.readable hv))
  | @perm ms ns h =>
      cases hv with
      | obj distinct _ =>
          have hnodup : ((sortEach ms).map Prod.fst).Nodup := by
            rw [sortEach_eq_map, List.map_map]
            exact distinct
          rw [sortMembers, sortMembers, Text.sortedBy_perm Prod.fst ?_ hnodup]
          rw [sortEach_eq_map, sortEach_eq_map]
          exact h.map _
  | member _ ih =>
      cases hv with
      | obj _ hms =>
          have hmember := ih (hms _ (List.mem_append_right _ List.mem_cons_self))
          simp only [sortMembers, sortEach_eq_map, List.map_append, List.map_cons, hmember]
  | element _ ih =>
      cases hv with
      | arr hvs =>
          have helement := ih (hvs _ (List.mem_append_right _ List.mem_cons_self))
          simp only [sortMembers, sortElements_eq_map, List.map_append, List.map_cons, helement]

theorem sortMembers_eq_iff {v w : Json} {depth : Nat} (hv : Readable depth v) :
    sortMembers v = sortMembers w ↔ Reordered v w := by
  refine ⟨fun h => ?_, fun h => sortMembers_of_reordered h hv⟩
  have hback := (reordered_sortMembers w).symm
  rw [← h] at hback
  exact (reordered_sortMembers v).trans hback

/-! Texts -/

/-- A value is known by its text, with or without more space behind it. -/
theorem render_inj {v w : Json} (hv : Readable maxDepth v) (hw : Readable maxDepth w)
    (layout : Layout) {spaces : List Point} (hspaces : ∀ c ∈ spaces, isSpace c = true)
    (h : render layout v ++ spaces = render layout w ++ spaces) : v = w := by
  have hread := read_render hv layout .keepFirst hspaces
  rw [h, read_render hw layout .keepFirst hspaces] at hread
  exact (Except.ok.inj hread).symm

theorem canonical_eq_iff {v w : Json} (hv : Readable maxDepth v) (hw : Readable maxDepth w)
    (layout : Layout) :
    v.canonical false layout = w.canonical false layout ↔ Reordered v w := by
  have hfeed : ∀ c ∈ [Point.char '\n'], isSpace c = true := by simp [isSpace]
  rw [← sortMembers_eq_iff hv]
  constructor
  · intro h
    exact render_inj ((reordered_sortMembers v).readable hv) ((reordered_sortMembers w).readable hw)
      layout hfeed h
  · intro h
    simp only [canonical, Bool.false_eq_true, if_false, h]

end Json

/-! Dynamic values -/

namespace Datum

open Json (Readable)

mutual

theorem isMappable_ofJson : (v : Json) → (ofJson v).isMappable = true
  | .scalar s => by cases s <;> rfl
  | .arr vs => by
      rw [ofJson, isMappable]
      exact allMappable_ofJsonAll vs
  | .obj ms => by
      rw [ofJson, isMappable]
      exact valuesMappable_ofJsonMembers ms

theorem allMappable_ofJsonAll : (vs : List Json) → allMappable (ofJsonAll vs) = true
  | [] => rfl
  | v :: vs => by
      rw [ofJsonAll, allMappable, isMappable_ofJson v, allMappable_ofJsonAll vs, Bool.and_self]

theorem valuesMappable_ofJsonMembers : (ms : List (Text × Json)) →
    valuesMappable (ofJsonMembers ms) = true
  | [] => rfl
  | (name, v) :: ms => by
      rw [ofJsonMembers, valuesMappable, isMappable_ofJson v, valuesMappable_ofJsonMembers ms,
        Bool.and_self]

end

theorem toJsonAll_ofJsonAll {vs : List Json} (h : ∀ v ∈ vs, (ofJson v).toJson = v) :
    toJsonAll (ofJsonAll vs) = vs := by
  induction vs with
  | nil => rfl
  | cons v vs ih =>
      obtain ⟨hv, hvs⟩ := List.forall_mem_cons.mp h
      rw [ofJsonAll, toJsonAll, hv, ih hvs]

/-- Members with names of their own are put one behind the other. -/
theorem toJsonMembers_ofJsonMembers {ms done : List (Text × Json)}
    (hnodup : (Assoc.keys (done ++ ms)).Nodup) (h : ∀ m ∈ ms, (ofJson m.2).toJson = m.2) :
    toJsonMembers done (ofJsonMembers ms) = done ++ ms := by
  induction ms generalizing done with
  | nil => rw [ofJsonMembers, toJsonMembers, List.append_nil]
  | cons m ms ih =>
      obtain ⟨hm, hms⟩ := List.forall_mem_cons.mp h
      have hnew : m.1 ∉ Assoc.keys done := Assoc.not_mem_keys_of_nodup hnodup
      have hassoc : done ++ m :: ms = (done ++ [m]) ++ ms := by simp
      rw [hassoc] at hnodup ⊢
      rw [ofJsonMembers, toJsonMembers, hm, Assoc.put_eq_update, plain,
        Assoc.update_of_not_mem _ hnew, ih hnodup hms]

/-- A value with names of their own comes back from its dynamic form. -/
theorem toJson_ofJson {depth : Nat} {v : Json} (h : Readable depth v) : (ofJson v).toJson = v := by
  induction h with
  | @scalar _ s _ => cases s <;> rfl
  | arr _ ih => rw [ofJson, toJson, toJsonAll_ofJsonAll ih]
  | @obj _ ms distinct _ ih =>
      have hmembers : toJsonMembers [] (ofJsonMembers ms) = [] ++ ms :=
        toJsonMembers_ofJsonMembers distinct ih
      rw [ofJson, toJson, hmembers, List.nil_append]

/-- Plain data have a canonical text, in every layout, and two of them have the same one exactly if they
are the same but for the order of members, at any depth. -/
theorem canonical_eq_iff_reordered {v w : Json} (hv : Readable 300 v) (hw : Readable 300 w)
    (layout : Json.Layout) :
    ∃ s t, (ofJson v).canonical false layout = .ok s ∧ (ofJson w).canonical false layout = .ok t ∧
      (s = t ↔ Json.Reordered v w) := by
  have hdeep : 300 ≤ Json.maxDepth := by decide
  refine ⟨v.canonical false layout, w.canonical false layout, ?_, ?_, ?_⟩
  · rw [canonical, isMappable_ofJson, if_pos rfl, toJson_ofJson hv]
  · rw [canonical, isMappable_ofJson, if_pos rfl, toJson_ofJson hw]
  · exact Json.canonical_eq_iff (hv.mono hdeep) (hw.mono hdeep) layout

/-- Two objects that differ in the order of members inside of a list. -/
theorem canonical_eq_iff_reordered_nested :
    let first : Json := .arr [.obj [("x", .bool true), ("y", .obj [])]]
    let second : Json := .arr [.obj [("y", .obj []), ("x", .bool true)]]
    Readable 300 first ∧ Readable 300 second ∧
      ∃ s t, (ofJson first).canonical false (.lines 2) = .ok s ∧
        (ofJson second).canonical false (.lines 2) = .ok t ∧
        (s = t ↔ Json.Reordered first second) := by
  intro first second
  have hflag : Readable 298 (.bool true) := .scalar trivial
  have hempty : Readable 298 (.obj []) := .obj List.nodup_nil (List.forall_mem_nil _)
  have hfirst : Readable 300 first := .arr (by
    simpa using Readable.obj (by decide) (by simpa using ⟨hflag, hempty⟩))
  have hsecond : Readable 300 second := .arr (by
    simpa using Readable.obj (by decide) (by simpa using ⟨hempty, hflag⟩))
  exact ⟨hfirst, hsecond, canonical_eq_iff_reordered hfirst hsecond (.lines 2)⟩

end Datum
end LocaleKeys
