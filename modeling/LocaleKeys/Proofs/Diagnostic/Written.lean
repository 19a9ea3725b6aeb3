import LocaleKeys.Proofs.Diagnostic.Fingerprint
import LocaleKeys.Proofs.Except
import LocaleKeys.Proofs.Json.Written

/-!
Which diagnostics can be made. A fingerprint is taken of bytes, so a diagnostic is made only if its path
and its key have bytes. What it would be is said first, and its fingerprint is taken then.
-/

namespace LocaleKeys.Diagnostic

/-- A diagnostic as it is made if its path and its key have bytes. -/
def draft (kind : Kind) (key : Text) (location : Location) (missingCultures : List Text := [])
    (culture : Text := "") : Diagnostic :=
  let payload := fingerprintPayload kind.rule.id location.path key location.lineStart
  { kind, key, location, missingCultures, culture
    message := messageOf kind key missingCultures
    fingerprint := "sha256:" ++ Sha256.hexDigest (Text.Utf8.encode payload.toList) }

section Draft

variable (kind : Kind) (key : Text) (location : Location) (missingCultures : List Text)
variable (culture : Text)

@[simp]
theorem draft_kind : (draft kind key location missingCultures culture).kind = kind := rfl

@[simp]
theorem draft_key : (draft kind key location missingCultures culture).key = key := rfl

@[simp]
theorem draft_location : (draft kind key location missingCultures culture).location = location := rfl

end Draft

/-- What a fingerprint is taken of has bytes. -/
def HasBytes (d : Diagnostic) : Prop :=
  Text.Utf8.IsWritable d.location.path.toList ∧ Text.Utf8.IsWritable d.key.toList

instance (d : Diagnostic) : Decidable d.HasBytes :=
  inferInstanceAs (Decidable (_ ∧ _))

/-- A draft, or why its fingerprint cannot be taken. -/
def written (d : Diagnostic) : Except Text.Utf8.Unwritable Diagnostic :=
  let payload := fingerprintPayload d.kind.rule.id d.location.path d.key d.location.lineStart
  (Text.Utf8.write payload.toList).map fun _ => d

variable {d d' : Diagnostic} {ds ds' : List Diagnostic}

theorem make_eq (kind : Kind) (key : Text) (location : Location) (missingCultures : List Text)
    (culture : Text) :
    make kind key location missingCultures culture =
      (draft kind key location missingCultures culture).written := by
  rw [make, LocaleKeys.fingerprint, written]
  cases hwrite : Text.Utf8.write
      (fingerprintPayload kind.rule.id location.path key location.lineStart).toList with
  | error f => simp [draft, hwrite, Except.map]
  | ok bytes =>
      obtain ⟨-, rfl⟩ := Text.Utf8.write_eq_ok_iff.mp hwrite
      simp [draft, hwrite, Except.map]

theorem isWritable_slashed {path : Text} :
    Text.Utf8.IsWritable (slashed path).toList ↔ Text.Utf8.IsWritable path.toList := by
  have hpoint : ∀ c : Point,
      (if c = Point.char '\\' then Point.char '/' else c).isHalf = false ↔ c.isHalf = false := by
    intro c
    split
    · next hc => simp [hc, Point.isHalf, Point.char?]
    · rfl
  rw [slashed, Text.toList_map, Text.Utf8.IsWritable, List.forall_mem_map]
  exact forall_congr' fun c => imp_congr_right fun _ => hpoint c

/-- The rule and the line always have bytes. -/
theorem isWritable_payload_iff (kind : Kind) (path key : Text) (line : Int) :
    Text.Utf8.IsWritable (fingerprintPayload kind.rule.id path key line).toList ↔
      Text.Utf8.IsWritable path.toList ∧ Text.Utf8.IsWritable key.toList := by
  have hrule : Text.Utf8.IsWritable kind.rule.id.toList := by cases kind <;> decide
  have hbar : (Point.char '|').isHalf = false := rfl
  rw [toList_fingerprintPayload, barred, Text.Utf8.isWritable_append, Text.Utf8.isWritable_cons,
    Text.Utf8.isWritable_append, Text.Utf8.isWritable_append, Text.Utf8.isWritable_cons,
    Text.Utf8.isWritable_cons, isWritable_slashed]
  simp [hrule, hbar, Number.isWritable_intText]

theorem written_eq_ok_iff : d.written = .ok d' ↔ d.HasBytes ∧ d = d' := by
  rw [written, map_eq_ok_iff, HasBytes, ← isWritable_payload_iff d.kind _ _ d.location.lineStart]
  simp [Text.Utf8.write_eq_ok_iff]

theorem fails_written_iff : Fails d.written ↔ ¬ d.HasBytes := by
  rw [← not_iff_not, not_fails_iff, not_not]
  simp [written_eq_ok_iff]

/-- Diagnostics are made all, or none is given. -/
theorem mapM_written_eq_ok_iff :
    ds.mapM written = .ok ds' ↔ (∀ d ∈ ds, d.HasBytes) ∧ ds = ds' := by
  induction ds generalizing ds' with
  | nil => simp [pure, Except.pure]
  | cons d ds ih =>
      rw [List.mapM_cons, List.forall_mem_cons]
      cases hd : d.written with
      | error f =>
          have hbytes : ¬ d.HasBytes := fails_written_iff.mp ⟨f, hd⟩
          simp [hbytes, bind, Except.bind]
      | ok made =>
          obtain ⟨hbytes, rfl⟩ := written_eq_ok_iff.mp hd
          cases hds : ds.mapM written with
          | error f =>
              have hall : ¬ ∀ d ∈ ds, d.HasBytes := fun hall => by
                rw [ih.mpr ⟨hall, rfl⟩] at hds
                cases hds
              simp [hall, bind, Except.bind]
          | ok made =>
              obtain ⟨hall, rfl⟩ := ih.mp hds
              simpa [hbytes, bind, Except.bind, pure, Except.pure] using fun _ => hall

theorem fails_mapM_written_iff : Fails (ds.mapM written) ↔ ∃ d ∈ ds, ¬ d.HasBytes := by
  rw [← not_iff_not, not_fails_iff]
  simp [mapM_written_eq_ok_iff]

end LocaleKeys.Diagnostic
