import Mathlib
/-!
# Writes to two copies

A write reaches the backing copy first and the memory in a step of its own, so that
other writes may come between. `Covered` says that the memory lags behind only where
a write under way will still bring it up to date.
-/

namespace Lib

/-- Where the copies differ, a write under way carries what the backing copy holds. -/
def Covered {κ ν ι : Type*} (backing memory : κ → ν) (pending : ι → Option (κ × ν)) : Prop :=
  ∀ k, memory k = backing k ∨ ∃ i, pending i = some (k, backing k)

namespace Covered

variable {κ ν ι : Type*} {backing memory : κ → ν} {pending : ι → Option (κ × ν)}

/-- With no write under way, the copies are equal. -/
theorem eq_of_none (h : Covered backing memory pending) (hnone : ∀ i, pending i = none) : memory = backing := by
  funext k
  rcases h k with heq | ⟨i, hi⟩
  · exact heq
  · rw [hnone i] at hi
    cases hi

variable [DecidableEq ι]

/-- A write that has reached neither copy starts or fails. -/
theorem skip (h : Covered backing memory pending) {i : ι} (hi : pending i = none) :
    Covered backing memory (Function.update pending i none) := by
  rw [← hi, Function.update_eq_self]
  exact h

variable [DecidableEq κ]

/-- A write reaches the backing copy. -/
theorem write (h : Covered backing memory pending) {i : ι} (hi : pending i = none) (k : κ) (v : ν) :
    Covered (Function.update backing k v) memory (Function.update pending i (some (k, v))) := by
  intro k'
  by_cases hk : k' = k
  · subst hk
    exact .inr ⟨i, by rw [Function.update_self, Function.update_self]⟩
  · rw [Function.update_of_ne hk]
    rcases h k' with heq | ⟨j, hj⟩
    · exact .inl heq
    · have hne : j ≠ i := by
        rintro rfl
        rw [hi] at hj
        cases hj
      exact .inr ⟨j, by rw [Function.update_of_ne hne, hj]⟩

/-- A write reaches the memory, unless a later write of the same key has overtaken it. -/
theorem catchUp (h : Covered backing memory pending) {i : ι} {k : κ} {v : ν} (hi : pending i = some (k, v))
    (hlast : backing k = v ∨ ∃ j, j ≠ i ∧ pending j = some (k, backing k)) :
    Covered backing (Function.update memory k v) (Function.update pending i none) := by
  intro k'
  by_cases hk : k' = k
  · subst hk
    rw [Function.update_self]
    rcases hlast with heq | ⟨j, hne, hj⟩
    · exact .inl heq.symm
    · exact .inr ⟨j, by rw [Function.update_of_ne hne, hj]⟩
  · rw [Function.update_of_ne hk]
    rcases h k' with heq | ⟨j, hj⟩
    · exact .inl heq
    · have hne : j ≠ i := by
        rintro rfl
        rw [hi, Option.some.injEq, Prod.mk.injEq] at hj
        exact hk hj.1.symm
      exact .inr ⟨j, by rw [Function.update_of_ne hne, hj]⟩

end Covered

end Lib
