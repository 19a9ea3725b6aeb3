import LocaleKeys.Platform.StandIn
import LocaleKeys.Proofs.Schema.Accepts
import LocaleKeys.Proofs.Text.Utf8

/-!
What is relied on of the platform. Each property is one that its packages document, and that a platform of
the kind of the stand-in has.
-/

namespace LocaleKeys.Platform

open Text.Utf8 (IsUtf8)

/-! Documents -/

/-- A document is let through exactly if the schema of reports accepts it. -/
def KnowsReports [Platform] : Prop :=
  ∀ value, Platform.validate Schema.report.toJson value = .ok () ↔
    Schema.Accepts Schema.report value

theorem knowsReports_standIn : @KnowsReports standIn := by
  intro value
  change checkReport Schema.report.toJson value = .ok () ↔ _
  rw [checkReport, if_pos rfl, ← Schema.check_eq_ok_iff]
  cases Schema.check Schema.report value with
  | error v => simp
  | ok _ => simp

/-! Settings files -/

/-- A document that is text has a value or is no YAML. Reading one that is not may also end where its bytes
are decoded, but in no other way. -/
structure LoadsText [Platform] : Prop where
  text {bytes : List UInt8} {e : LoadError} : IsUtf8 bytes →
    Platform.loadYaml bytes = .error e → e = .malformed
  stream {bytes : List UInt8} {e : LoadError} : Platform.loadYaml bytes = .error e →
    e = .malformed ∨ ∃ f, e = .encoding f

/-- The value of a document, all faults of its text being one. -/
def readText (bytes : List UInt8) : Except LoadError Datum :=
  match Text.Utf8.decode bytes with
  | .error f => .error (.encoding f)
  | .ok _ => (readYaml bytes).mapError fun _ => .malformed

/-- A platform that takes texts for YAML or for none. -/
@[reducible]
def textual : Platform where
  charNames := standIn.charNames
  loadYaml := readText
  validate := standIn.validate
  folderRoom := standIn.folderRoom
  makingRoom := standIn.makingRoom

theorem loadsText_textual : @LoadsText textual := by
  refine @LoadsText.mk textual ?text ?stream
  case text =>
    intro bytes e htext h
    obtain ⟨text, hdecode⟩ := (Text.Utf8.isUtf8_iff 0).mp htext
    change Text.Utf8.decode bytes = .ok text at hdecode
    change readText bytes = .error e at h
    rw [readText, hdecode] at h
    cases hread : readYaml bytes <;> rw [hread] at h <;> cases h
    rfl
  case stream =>
    intro bytes e h
    change readText bytes = .error e at h
    rw [readText] at h
    split at h
    · next f _ =>
        cases h
        exact Or.inr ⟨f, rfl⟩
    · cases hread : readYaml bytes <;> rw [hread] at h <;> cases h
      exact Or.inl rfl

end LocaleKeys.Platform
