import Mathlib.Control.Monad.Basic

/-!
# Results that may be faults

A computation that may fail is a sequence of steps, and it succeeds or fails at exactly one
of them. These rules take a sequence apart; proofs about readers and compilers use them in place of
the definition of sequencing.
-/

namespace Except

variable {ε : Type u} {α β : Type v}

@[simp] theorem ok_bind (a : α) (f : α → Except ε β) : (Except.ok a >>= f) = f a := rfl

@[simp] theorem error_bind (e : ε) (f : α → Except ε β) :
    ((Except.error e : Except ε α) >>= f) = .error e := rfl

@[simp] theorem pure_eq_ok (a : α) : (pure a : Except ε α) = .ok a := rfl

/-- What does not fail succeeds. -/
theorem exists_ok_iff {x : Except ε α} : (∃ a, x = .ok a) ↔ ∀ e, x ≠ .error e := by
  cases x <;> simp

/-- A sequence succeeds if its first step does and what follows it does. -/
theorem bind_eq_ok_iff {x : Except ε α} {f : α → Except ε β} {b : β} :
    (x >>= f) = .ok b ↔ ∃ a, x = .ok a ∧ f a = .ok b := by
  cases x <;> simp

/-- A sequence fails at its first step or at what follows it. -/
theorem bind_eq_error_iff {x : Except ε α} {f : α → Except ε β} {e : ε} :
    (x >>= f) = .error e ↔ x = .error e ∨ ∃ a, x = .ok a ∧ f a = .error e := by
  cases x <;> simp

/-- A test followed by a step succeeds if the test is passed and the step succeeds. -/
theorem test_bind_eq_ok_iff {x : Except ε PUnit} {y : Except ε β} {b : β} :
    (x >>= fun _ => y) = .ok b ↔ x = .ok ⟨⟩ ∧ y = .ok b := by
  cases x <;> simp

theorem map_eq_ok_iff {x : Except ε α} {f : α → β} {b : β} :
    (f <$> x) = .ok b ↔ ∃ a, x = .ok a ∧ f a = b := by
  cases x <;> simp

theorem exists_map_ok_iff {x : Except ε α} {f : α → β} :
    (∃ b, (f <$> x) = .ok b) ↔ ∃ a, x = .ok a := by
  cases x <;> simp

/-- Another wording of the fault changes no success. -/
theorem mapError_eq_ok_iff {ε' : Type*} {x : Except ε α} {f : ε → ε'} {a : α} :
    x.mapError f = .ok a ↔ x = .ok a := by
  cases x <;> simp [Except.mapError]

/-- A closed computation is run to see that it succeeds. -/
theorem exists_of_toBool {x : Except ε α} (h : x.toBool = true) : ∃ a, x = .ok a := by
  cases x with
  | ok a => exact ⟨a, rfl⟩
  | error e => cases h

/-- What follows a result and reads it by one function of it alone is the same after two results
that are the same by this function. -/
theorem bind_eq_of_map_eq {γ : Type v} {x x' : Except ε α} {f : α → γ} {rest : α → Except ε β}
    (hrest : ∀ a a', f a = f a' → rest a = rest a') (h : f <$> x = f <$> x') :
    (x >>= rest) = (x' >>= rest) := by
  cases x with
  | error e =>
      cases x' with
      | error e' => exact congrArg Except.error (Except.error.inj h)
      | ok a' => cases h
  | ok a =>
      cases x' with
      | error e' => cases h
      | ok a' => exact hrest a a' (Except.ok.inj h)

theorem map_eq_error_iff {x : Except ε α} {f : α → β} {e : ε} :
    (f <$> x) = .error e ↔ x = .error e := by
  cases x <;> simp

end Except
