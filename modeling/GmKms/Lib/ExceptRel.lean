import Mathlib
/-!
# Computations that fail

Two computations that may fail, one error type each. They are related when both return
related values or both fail with related errors; binds of related parts are related.
-/

namespace Lib

theorem bind_eq_ok {ε α β : Type} {x : Except ε β} {f : β → Except ε α} {a : α} (h : x >>= f = .ok a) :
    ∃ b, x = .ok b ∧ f b = .ok a := by
  cases x with
  | error e => cases h
  | ok b => exact ⟨b, rfl, h⟩

/-- Both return related values, or both fail with related errors. -/
inductive ExceptRel {ε ε' α β : Type} (E : ε → ε' → Prop) (R : α → β → Prop) : Except ε α → Except ε' β → Prop
  | ok {a : α} {b : β} (h : R a b) : ExceptRel E R (.ok a) (.ok b)
  | error {e : ε} {e' : ε'} (h : E e e') : ExceptRel E R (.error e) (.error e')

namespace ExceptRel

variable {ε ε' α β γ δ : Type} {E : ε → ε' → Prop} {R : α → β → Prop} {S : γ → δ → Prop}

theorem bind {x : Except ε α} {y : Except ε' β} {k : α → Except ε γ} {l : β → Except ε' δ} (h : ExceptRel E R x y)
    (hk : ∀ a b, R a b → ExceptRel E S (k a) (l b)) : ExceptRel E S (x >>= k) (y >>= l) := by
  cases h with
  | ok hr => exact hk _ _ hr
  | error he => exact .error he

/-- One computation, its errors written in two ways. -/
theorem mapError {f : γ → ε} {g : γ → ε'} (h : ∀ e, E (f e) (g e)) (x : Except γ α) :
    ExceptRel E Eq (x.mapError f) (x.mapError g) := by
  cases x with
  | ok a => exact .ok rfl
  | error e => exact .error (h e)

end ExceptRel

end Lib

/-! ## Results of calls that may panic

`ExceptT ε Option`: the outer `none` is a panic, which no handler of errors sees.
-/

namespace Lib.Panicking

variable {ε α β : Type}

theorem isSome_bind {x : ExceptT ε Option α} {f : α → ExceptT ε Option β} :
    (x >>= f).run.isSome ↔ x.run.isSome ∧ ∀ a, x.run = some (.ok a) → (f a).run.isSome := by
  rw [ExceptT.run_bind]
  cases x.run with
  | none => simp
  | some r => cases r <;> simp

theorem bind_eq_ok {x : ExceptT ε Option α} {f : α → ExceptT ε Option β} {b : β} :
    (x >>= f).run = some (.ok b) ↔ ∃ a, x.run = some (.ok a) ∧ (f a).run = some (.ok b) := by
  rw [ExceptT.run_bind]
  cases x.run with
  | none => simp
  | some r => cases r <;> simp

@[simp] theorem isSome_pure (a : α) : (pure a : ExceptT ε Option α).run.isSome := rfl

@[simp] theorem isSome_throw (e : ε) : (throw e : ExceptT ε Option α).run.isSome := rfl

@[simp] theorem pure_eq_ok {a b : α} : (pure a : ExceptT ε Option α).run = some (.ok b) ↔ a = b := by
  rw [ExceptT.run_pure]
  simp

@[simp] theorem throw_ne_ok {e : ε} {a : α} : (throw e : ExceptT ε Option α).run ≠ some (.ok a) := nofun

end Lib.Panicking
