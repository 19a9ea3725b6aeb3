import LocaleKeys.Proofs.Key.Members

/-!
Setting two values. If neither key leads to the other one, the order in which the values are set shows
in the order of new members only, whatever stands in the way.
-/

namespace LocaleKeys

namespace Json

/-- The same value but for the order of members: the members of any object in it may change places. -/
inductive Reordered : Json → Json → Prop
  | refl (v : Json) : Reordered v v
  | trans {u v w : Json} (h : Reordered u v) (h' : Reordered v w) : Reordered u w
  | perm {ms ns : List (Text × Json)} (h : ms.Perm ns) : Reordered (.obj ms) (.obj ns)
  | member {front back : List (Text × Json)} {name : Text} {v w : Json} (h : Reordered v w) :
      Reordered (.obj (front ++ (name, v) :: back)) (.obj (front ++ (name, w) :: back))
  | element {front back : List Json} {v w : Json} (h : Reordered v w) :
      Reordered (.arr (front ++ v :: back)) (.arr (front ++ w :: back))

theorem Reordered.update {name : Text} {change change' : Option Json → Json}
    (h : ∀ old, Reordered (change old) (change' old)) (ms : List (Text × Json)) :
    Reordered (.obj (Assoc.update name change ms)) (.obj (Assoc.update name change' ms)) := by
  obtain ⟨-, hupdate⟩ | ⟨front, old, back, -, -, hupdate⟩ := Assoc.update_cases name ms
  · rw [hupdate, hupdate]
    exact .member (h none)
  · rw [hupdate, hupdate]
    exact .member (h (some old))

end Json

namespace Key

open Json (member? Reordered)

theorem reordered_insertAt_insertAt {v w : Json} {first second : List Text}
    (h : ¬ first <+: second) (h' : ¬ second <+: first) (ms : List (Text × Json)) :
    Reordered (.obj (insertAt w second (insertAt v first ms)))
      (.obj (insertAt v first (insertAt w second ms))) := by
  induction first generalizing second ms with
  | nil => exact absurd List.nil_prefix h
  | cons name names ih =>
      cases second with
      | nil => exact absurd List.nil_prefix h'
      | cons other others =>
          by_cases hname : name = other
          -- Both values go below one child, which is an object after the first of them is set.
          · subst hname
            rw [List.prefix_cons_inj] at h h'
            simp only [insertAt_of_ne_nil (ne_nil_of_not_isPrefix h),
              insertAt_of_ne_nil (ne_nil_of_not_isPrefix h'), Assoc.update_update]
            exact Reordered.update (fun old => ih h h' (membersOf old)) ms
          · obtain ⟨change, hchange⟩ := insertAt_eq_update v name names
            obtain ⟨change', hchange'⟩ := insertAt_eq_update w other others
            simp only [hchange, hchange']
            exact .perm (Assoc.update_update_perm hname change change' ms)

/-- Two values can be set in either order under keys that do not lead to each other: the trees are the
same but for the order of members, and have both values. -/
theorem insert_insert_reordered {first second : Text} (h : ¬ segments first <+: segments second)
    (h' : ¬ segments second <+: segments first) (v w : Json) (ms : List (Text × Json)) :
    let tree := Json.obj (insert second w (insert first v ms))
    Reordered tree (.obj (insert first v (insert second w ms))) ∧
      member? (segments first) tree = some v ∧ member? (segments second) tree = some w := by
  refine ⟨reordered_insertAt_insertAt h h' ms, ?_, ?_⟩
  · exact (member?_insertAt_of_apart h h' _).trans (member?_insertAt_self (segments_ne_nil first) ms)
  · exact member?_insertAt_self (segments_ne_nil second) _

/-- Two keys behind one name, which has a value of another kind. -/
theorem insert_insert_reordered_replacing :
    let ms : List (Text × Json) := [("a", .int 1)]
    let tree := Json.obj (insert "a.c" (.str "w") (insert "a.b" (.str "v") ms))
    ¬ segments "a.b" <+: segments "a.c" ∧ ¬ segments "a.c" <+: segments "a.b" ∧
      Reordered tree (.obj (insert "a.b" (.str "v") (insert "a.c" (.str "w") ms))) ∧
      member? (segments "a.b") tree = some (.str "v") ∧
      member? (segments "a.c") tree = some (.str "w") := by
  intro ms tree
  have hb : segments "a.b" = ["a", "b"] := rfl
  have hc : segments "a.c" = ["a", "c"] := rfl
  have h : ¬ segments "a.b" <+: segments "a.c" := by
    rw [hb, hc]
    decide
  have h' : ¬ segments "a.c" <+: segments "a.b" := by
    rw [hb, hc]
    decide
  exact ⟨h, h', insert_insert_reordered h h' (.str "v") (.str "w") ms⟩

end Key
end LocaleKeys
