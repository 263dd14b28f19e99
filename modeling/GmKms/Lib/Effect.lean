import Mathlib
/-!
# Programs that fail and change state

A fallible method of a mutable object is an `EStateM` program: where it fails it
keeps the state reached so far. `Keeps` says what every outcome of a program
leaves true, `Sim` that two states answer a program alike; both go through
sequencing.
-/

namespace Lib.Effect

variable {ε σ τ α β : Type}

/-- The result of a program and the state it leaves. -/
def outcome (x : EStateM ε σ α) (s : σ) : Except ε α × σ :=
  match x s with
  | .ok a s' => (.ok a, s')
  | .error e s' => (.error e, s')

@[simp] theorem outcome_pure (a : α) (s : σ) : outcome (pure a : EStateM ε σ α) s = (.ok a, s) := rfl

@[simp] theorem outcome_throw (e : ε) (s : σ) : outcome (throw e : EStateM ε σ α) s = (.error e, s) := rfl

@[simp] theorem outcome_get (s : σ) : outcome (get : EStateM ε σ σ) s = (.ok s, s) := rfl

@[simp] theorem outcome_modify (f : σ → σ) (s : σ) : outcome (modify f : EStateM ε σ Unit) s = (.ok (), f s) := rfl

theorem outcome_bind (x : EStateM ε σ α) (f : α → EStateM ε σ β) (s : σ) :
    outcome (x >>= f) s = match outcome x s with
      | (.ok a, s') => outcome (f a) s'
      | (.error e, s') => (.error e, s') := by
  simp only [outcome, bind, EStateM.bind]
  cases x s <;> rfl

theorem outcome_bind_ok {x : EStateM ε σ α} {f : α → EStateM ε σ β} {s s' : σ} {a : α}
    (h : outcome x s = (.ok a, s')) : outcome (x >>= f) s = outcome (f a) s' := by
  rw [outcome_bind, h]

theorem outcome_bind_error {x : EStateM ε σ α} {f : α → EStateM ε σ β} {s s' : σ} {e : ε}
    (h : outcome x s = (.error e, s')) : outcome (x >>= f) s = (.error e, s') := by
  rw [outcome_bind, h]

/-! ## What a program does in a state -/

/-- `Q` holds of what the program answers in `s` and the state it leaves. -/
def Spec (x : EStateM ε σ α) (s : σ) (Q : Except ε α → σ → Prop) : Prop :=
  Q (outcome x s).1 (outcome x s).2

namespace Spec

variable {x : EStateM ε σ α} {s : σ} {Q : Except ε α → σ → Prop}

theorem mono {Q' : Except ε α → σ → Prop} (h : Spec x s Q) (hQ : ∀ r s', Q r s' → Q' r s') : Spec x s Q' := hQ _ _ h

theorem bind {f : α → EStateM ε σ β} {Q' : Except ε β → σ → Prop} (h : Spec x s Q)
    (hok : ∀ a s', Q (.ok a) s' → Spec (f a) s' Q') (herr : ∀ e s', Q (.error e) s' → Q' (.error e) s') :
    Spec (x >>= f) s Q' := by
  unfold Spec at *
  rw [outcome_bind]
  revert h
  rcases outcome x s with ⟨e | a, s'⟩ <;> intro h
  · exact herr e s' h
  · exact hok a s' h

end Spec

/-! ## What every outcome leaves true -/

/-- `P` is left true however the program ends, and what it returns satisfies `R`. -/
def Ensures (P : σ → Prop) (x : EStateM ε σ α) (R : α → Prop) : Prop :=
  ∀ s, P s → Spec x s fun r s' => P s' ∧ ∀ a, r = .ok a → R a

namespace Ensures

variable {P : σ → Prop} {x : EStateM ε σ α}

theorem pure {R : α → Prop} {a : α} (h : R a) : Ensures P (Pure.pure a : EStateM ε σ α) R :=
  fun _ hs => ⟨hs, by rintro _ ⟨⟩; exact h⟩

theorem throw {R : α → Prop} (e : ε) : Ensures P (MonadExcept.throw e : EStateM ε σ α) R :=
  fun _ hs => ⟨hs, by rintro _ ⟨⟩⟩

theorem get {R : σ → Prop} (h : ∀ s, P s → R s) : Ensures P (MonadState.get : EStateM ε σ σ) R :=
  fun s hs => ⟨hs, by rintro _ ⟨⟩; exact h s hs⟩

theorem modify {f : σ → σ} {R : Unit → Prop} (h : ∀ s, P s → P (f s)) (hR : R ()) :
    Ensures P (modifyGet fun s => ((), f s) : EStateM ε σ Unit) R :=
  fun s hs => ⟨h s hs, fun _ _ => hR⟩

theorem bind {f : α → EStateM ε σ β} {R : α → Prop} {R' : β → Prop} (hx : Ensures P x R)
    (hf : ∀ a, R a → Ensures P (f a) R') : Ensures P (x >>= f) R' := by
  intro s hs
  exact Spec.bind (Q := fun r s' => P s' ∧ ∀ a, r = .ok a → R a) (hx s hs)
    (fun a s' h => hf a (h.2 a rfl) s' h.1) fun e s' h => ⟨h.1, by rintro _ ⟨⟩⟩

theorem ite {c : Prop} [Decidable c] {y : EStateM ε σ α} {R : α → Prop} (hx : c → Ensures P x R)
    (hy : ¬ c → Ensures P y R) : Ensures P (if c then x else y) R := by
  split
  · exact hx ‹_›
  · exact hy ‹_›

theorem mono {R R' : α → Prop} (hx : Ensures P x R) (h : ∀ a, R a → R' a) : Ensures P x R' :=
  fun s hs => ⟨(hx s hs).1, fun a ha => h a ((hx s hs).2 a ha)⟩

end Ensures

/-! ## Two states side by side -/

/-- Both programs succeed, with answers and states that `Q` relates, or both fail with
one error and leave states that `E` relates. -/
def Sim (x : EStateM ε σ α) (y : EStateM ε τ β) (Q : α → β → σ → τ → Prop) (E : σ → τ → Prop) (s : σ) (t : τ) : Prop :=
  match outcome x s, outcome y t with
  | (.ok a, s'), (.ok b, t') => Q a b s' t'
  | (.error e, s'), (.error e', t') => e = e' ∧ E s' t'
  | _, _ => False

namespace Sim

variable {α' β' : Type} {x : EStateM ε σ α} {y : EStateM ε τ β} {Q : α → β → σ → τ → Prop}
  {E : σ → τ → Prop} {s : σ} {t : τ}

theorem of_ok {a : α} {b : β} {s' : σ} {t' : τ} (hx : outcome x s = (.ok a, s')) (hy : outcome y t = (.ok b, t'))
    (h : Q a b s' t') : Sim x y Q E s t := by
  unfold Sim
  rwa [hx, hy]

theorem of_error {e : ε} {s' : σ} {t' : τ} (hx : outcome x s = (.error e, s')) (hy : outcome y t = (.error e, t'))
    (h : E s' t') : Sim x y Q E s t := by
  unfold Sim
  rw [hx, hy]
  exact ⟨rfl, h⟩

theorem pure {a : α} {b : β} (h : Q a b s t) : Sim (Pure.pure a : EStateM ε σ α) (Pure.pure b) Q E s t := h

theorem throw {e : ε} (h : E s t) :
    Sim (MonadExcept.throw e : EStateM ε σ α) (MonadExcept.throw e : EStateM ε τ β) Q E s t := ⟨rfl, h⟩

theorem bind {f : α → EStateM ε σ α'} {g : β → EStateM ε τ β'} {Q' : α' → β' → σ → τ → Prop} (h : Sim x y Q E s t)
    (hok : ∀ a b s' t', Q a b s' t' → Sim (f a) (g b) Q' E s' t') : Sim (x >>= f) (y >>= g) Q' E s t := by
  unfold Sim at h
  rcases hx : outcome x s with ⟨_ | a, s'⟩ <;> rcases hy : outcome y t with ⟨_ | b, t'⟩ <;> rw [hx, hy] at h
  · obtain ⟨rfl, he⟩ := h
    exact of_error (outcome_bind_error hx) (outcome_bind_error hy) he
  · cases h
  · cases h
  · have hfg := hok a b s' t' h
    unfold Sim at hfg ⊢
    rwa [outcome_bind_ok hx, outcome_bind_ok hy]

theorem mono {Q' : α → β → σ → τ → Prop} (h : Sim x y Q E s t) (hQ : ∀ a b s' t', Q a b s' t' → Q' a b s' t') :
    Sim x y Q' E s t := by
  unfold Sim at *
  revert h
  rcases outcome x s with ⟨_ | a, s'⟩ <;> rcases outcome y t with ⟨_ | b, t'⟩ <;> intro h
  · exact h
  · exact h
  · exact h
  · exact hQ _ _ _ _ h

/-- Programs that answer alike give equal results. -/
theorem answer_eq {y : EStateM ε τ α} (h : Sim x y (fun a b s' t' => a = b ∧ E s' t') E s t) :
    (outcome x s).1 = (outcome y t).1 ∧ E (outcome x s).2 (outcome y t).2 := by
  unfold Sim at h
  revert h
  rcases outcome x s with ⟨_ | a, s'⟩ <;> rcases outcome y t with ⟨_ | b, t'⟩ <;> intro h
  · exact ⟨congrArg Except.error h.1, h.2⟩
  · cases h
  · cases h
  · exact ⟨congrArg Except.ok h.1, h.2⟩

end Sim

end Lib.Effect
