import LocaleKeys.Proofs.Key.Frame
import LocaleKeys.Proofs.Key.ScanText
import LocaleKeys.Proofs.Resource.Patch

/-!
What a patch does to the other entries of a catalog. The patcher keeps the last member of a name and
the catalog reads the first, so the paths apart from the key keep their values as far as both give
them the same; without repeated names that is everywhere.
-/

namespace LocaleKeys.Patch

open Json (maxDepth)
open Key (Apart flatten readResource)

variable {text : List Point} {key : Text} {ms : List (Text × Json)}

theorem exists_readResource (h : Json.read .keepLast text = .ok (.obj ms)) :
    ∃ first, readResource text = .ok (.obj first) := by
  rw [Json.read] at h
  split at h
  · next tree htree =>
      have hobject : tree.toJson .keepLast = .obj ms := Except.ok.inj h
      cases tree with
      | scalar _ => cases hobject
      | arr _ => cases hobject
      | obj members => exact ⟨_, Json.read_of_readTree htree .keepFirst⟩
  · cases h

/-- The catalog of a patched text has at the paths apart from the key what the last members give. -/
theorem get?_readResource_apply (value : Text) (h : Json.read .keepLast text = .ok (.obj ms))
    (hkey : key ≠ "") (hpoint : ∀ r, key ≠ "." ++ r)
    (hdepth : (Key.segments key).length ≤ maxDepth) :
    ∃ after patched, apply text key (.str value) = .ok after ∧ readResource after = .ok patched ∧
      ∀ q, Apart key q →
        Assoc.get? q (flatten "" patched) = Assoc.get? q (flatten "" (.obj ms)) := by
  have hreadable := Json.readable_of_read h
  refine ⟨fileText (Key.insert key (.str value) ms), .obj (Key.insert key (.str value) ms),
    ?_, read_fileText (readable_insert value hreadable hdepth) .keepFirst, ?_⟩
  · rw [apply_of_read h, renderFile_eq hdepth]
  · intro q hq
    exact Key.get?_flatten_insert hkey hpoint hq (.str value) ms

/-- Patching the text of an object leaves the first value at a path apart from the key exactly when
keeping the last member of each name gives that path the value that keeping the first gives it. A
scan without repeats rules out that they differ. -/
theorem apply_undisturbed_iff (value : Text) (h : Json.read .keepLast text = .ok (.obj ms))
    (hkey : key ≠ "") (hpoint : ∀ r, key ≠ "." ++ r)
    (hdepth : (Key.segments key).length ≤ maxDepth) :
    ∃ first after patched, readResource text = .ok (.obj first) ∧
      apply text key (.str value) = .ok after ∧ readResource after = .ok patched ∧
      (∀ q, Apart key q →
        (Assoc.get? q (flatten "" patched) = Assoc.get? q (flatten "" (.obj first)) ↔
          Assoc.get? q (flatten "" (.obj ms)) = Assoc.get? q (flatten "" (.obj first)))) ∧
      ((Key.scan text).repeats = [] → ∀ q, Apart key q →
        Assoc.get? q (flatten "" patched) = Assoc.get? q (flatten "" (.obj first))) := by
  obtain ⟨first, hfirst⟩ := exists_readResource h
  obtain ⟨after, patched, hafter, hpatched, hsame⟩ :=
    get?_readResource_apply value h hkey hpoint hdepth
  refine ⟨first, after, patched, hfirst, hafter, hpatched, ?_, ?_⟩
  · intro q hq
    rw [hsame q hq]
  · intro hnone q hq
    have hpolicies := Key.readResource_of_no_repeats hnone
    rw [hfirst, h, Except.ok.injEq] at hpolicies
    rw [hsame q hq, hpolicies]

/-- A member is put into an object that is there, and the other leaves stay. -/
theorem apply_undisturbed_nested :
    ∃ after patched,
      apply (Text.ofString "\x7b\"a\": \x7b\"b\": \"x\"\x7d\x7d").toList "a.c" (.str "v") = .ok after ∧
      readResource after = .ok patched ∧ ∀ q, Apart "a.c" q → Assoc.get? q (flatten "" patched) =
        Assoc.get? q (flatten "" (.obj [("a", .obj [("b", .str "x")])])) := by
  have htree : Json.readTree (Text.ofString "\x7b\"a\": \x7b\"b\": \"x\"\x7d\x7d").toList =
      .ok (.obj [(⟨"a", 1⟩, .obj [(⟨"b", 7⟩, .scalar (.str "x"))])]) := rfl
  have hpoint : ∀ r, Text.ofString "a.c" ≠ "." ++ r := by
    intro r heq
    have hchars := congrArg Text.toList heq
    simp [Text.toList_append] at hchars
  have hdepth : (Key.segments "a.c").length ≤ maxDepth := by
    rw [show Key.segments "a.c" = ["a", "c"] from rfl]
    decide
  obtain ⟨first, after, patched, hfirst, hafter, hpatched, -, hsame⟩ := apply_undisturbed_iff "v"
    (Json.read_of_readTree htree .keepLast) (by decide) hpoint hdepth
  have hread := hfirst.symm.trans (Json.read_of_readTree htree .keepFirst)
  cases hread
  exact ⟨after, patched, hafter, hpatched, hsame rfl⟩

/-- A name that comes twice: the catalog has its first value before the patch and its last one
after, though the patch is about another name. -/
theorem apply_disturbs_repeated :
    ∃ before after patched,
      readResource (Text.ofString "\x7b\"a\": \"1\", \"a\": \"2\"\x7d").toList = .ok before ∧
      apply (Text.ofString "\x7b\"a\": \"1\", \"a\": \"2\"\x7d").toList "b" (.str "v") = .ok after ∧
      readResource after = .ok patched ∧ Apart "b" "a" ∧
      Assoc.get? (Text.ofString "a") (flatten "" before) = some (.str "1") ∧
      Assoc.get? (Text.ofString "a") (flatten "" patched) = some (.str "2") := by
  have htree : Json.readTree (Text.ofString "\x7b\"a\": \"1\", \"a\": \"2\"\x7d").toList = .ok (.obj
      [(⟨"a", 1⟩, .scalar (.str "1")), (⟨"a", 11⟩, .scalar (.str "2"))]) := rfl
  have hafter : Json.readTree (Text.ofString "\x7b\n  \"a\": \"2\",\n  \"b\": \"v\"\n\x7d\n").toList =
      .ok (.obj
      [(⟨"a", 4⟩, .scalar (.str "2")), (⟨"b", 16⟩, .scalar (.str "v"))]) := rfl
  have hdepth : (Key.segments "b").length ≤ maxDepth := by
    rw [show Key.segments "b" = ["b"] from rfl]
    decide
  have hapart : Apart "b" "a" := by
    have hone : ∀ p r, Text.ofString "b" ≠ p ++ "." ++ r := by
      intro p r heq
      have hmem : Point.char '.' ∈ (Text.ofString "b").toList := by simp [heq]
      exact absurd hmem (by decide)
    have hnot : ¬ Key.Below "b" "a" := by
      rintro (h | ⟨r, h⟩ | ⟨r, h⟩)
      all_goals
        have hchars := congrArg Text.toList h
        simp [Text.toList_append] at hchars
    exact ⟨hnot, fun p r heq => absurd heq (hone p r), fun p r heq => absurd heq (hone p r)⟩
  refine ⟨_, _, _, Json.read_of_readTree htree .keepFirst, ?_,
    Json.read_of_readTree hafter .keepFirst, hapart, rfl, rfl⟩
  rw [apply_of_read (Json.read_of_readTree htree .keepLast), renderFile_eq hdepth]
  rfl

end LocaleKeys.Patch
