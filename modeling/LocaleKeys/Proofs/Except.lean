/-!
Computations that may fail, where it does not matter which failure it is. A chain of steps fails if a
step fails on what the steps before it have given.
-/

namespace LocaleKeys

variable {ε α β : Type} {x : Except ε α}

/-- A computation ends with an error. -/
def Fails (x : Except ε α) : Prop :=
  ∃ e, x = .error e

instance (x : Except ε α) : Decidable (Fails x) :=
  match x with
  | .error e => .isTrue ⟨e, rfl⟩
  | .ok _ => .isFalse nofun

/-- Whether a computation gives a value can be decided though errors may not be comparable. -/
instance decidableEqOk [DecidableEq α] (x : Except ε α) (a : α) : Decidable (x = .ok a) :=
  match x with
  | .error _ => .isFalse nofun
  | .ok b => decidable_of_iff (b = a) ⟨congrArg Except.ok, Except.ok.inj⟩

@[simp]
theorem fails_error (e : ε) : Fails (.error e : Except ε α) :=
  ⟨e, rfl⟩

@[simp]
theorem not_fails_ok (a : α) : ¬ Fails (.ok a : Except ε α) :=
  nofun

@[simp]
theorem fails_map {f : α → β} : Fails (x.map f) ↔ Fails x := by
  cases x <;> simp [Except.map]

theorem map_eq_ok_iff {f : α → β} {b : β} :
    x.map f = (.ok b : Except ε β) ↔ ∃ a, x = .ok a ∧ f a = b := by
  cases x <;> simp [Except.map]

theorem not_fails_iff : ¬ Fails x ↔ ∃ a, x = .ok a := by
  cases x <;> simp

end LocaleKeys
