import Mathlib
/-!
# Programs over atomic calls

A fallible program that works on shared state only through calls, each of which is
atomic. `Reply op` is what the call `op` answers. `run` makes the calls one right
after the other; `Amid` is a run in which anything else may happen to the state
between them, such as the calls of other programs.
-/

namespace Lib

inductive Program {Op : Type} (Reply : Op → Type) (ε α : Type) : Type where
  | done (r : Except ε α)
  | call (op : Op) (next : Reply op → Program Reply ε α)

namespace Program

variable {Op : Type} {Reply : Op → Type} {ε α β σ : Type}

def bind : Program Reply ε α → (α → Program Reply ε β) → Program Reply ε β
  | done (.error e), _ => done (.error e)
  | done (.ok a), f => f a
  | call op next, f => call op fun r => (next r).bind f

instance instMonad : Monad (Program Reply ε) where
  pure a := done (.ok a)
  bind := bind

/-- The program ends with an error. -/
def fail (e : ε) : Program Reply ε α := done (.error e)

/-- A result computed without a call. -/
def lift (r : Except ε α) : Program Reply ε α := done r

/-! ## One program alone -/

/-- The result of the program and the state it leaves, where nothing comes between its calls. -/
def run (handle : (op : Op) → σ → Reply op × σ) : Program Reply ε α → σ → Except ε α × σ
  | done r, s => (r, s)
  | call op next, s => (next (handle op s).1).run handle (handle op s).2

variable {handle : (op : Op) → σ → Reply op × σ} {s s' : σ}

@[simp] theorem run_done (r : Except ε α) : (done r : Program Reply ε α).run handle s = (r, s) := rfl

@[simp] theorem run_pure (a : α) : (pure a : Program Reply ε α).run handle s = (.ok a, s) := rfl

@[simp] theorem run_fail (e : ε) : (fail e : Program Reply ε α).run handle s = (.error e, s) := rfl

@[simp] theorem run_lift (r : Except ε α) : (lift r : Program Reply ε α).run handle s = (r, s) := rfl

theorem run_call (op : Op) (next : Reply op → Program Reply ε α) :
    (call op next).run handle s = (next (handle op s).1).run handle (handle op s).2 := rfl

theorem run_bind (p : Program Reply ε α) (f : α → Program Reply ε β) :
    (p >>= f).run handle s = match p.run handle s with
      | (.ok a, s') => (f a).run handle s'
      | (.error e, s') => (.error e, s') := by
  change (p.bind f).run handle s = _
  induction p generalizing s with
  | done r => cases r <;> rfl
  | call op next ih => exact ih (handle op s).1

theorem run_bind_ok {p : Program Reply ε α} {f : α → Program Reply ε β} {a : α} (h : p.run handle s = (.ok a, s')) :
    (p >>= f).run handle s = (f a).run handle s' := by
  rw [run_bind, h]

theorem run_bind_error {p : Program Reply ε α} {f : α → Program Reply ε β} {e : ε}
    (h : p.run handle s = (.error e, s')) : (p >>= f).run handle s = (.error e, s') := by
  rw [run_bind, h]

/-! ## Which calls a program makes -/

/-- Whatever it is answered, the program makes only calls of which `Q` holds. -/
def Calls (Q : Op → Prop) : Program Reply ε α → Prop
  | done _ => True
  | call op next => Q op ∧ ∀ r, (next r).Calls Q

variable {Q : Op → Prop}

theorem Calls.bind {p : Program Reply ε α} {f : α → Program Reply ε β} (hp : p.Calls Q) (hf : ∀ a, (f a).Calls Q) :
    (p >>= f).Calls Q := by
  change (p.bind f).Calls Q
  induction p with
  | done r =>
    cases r with
    | error e => trivial
    | ok a => exact hf a
  | call op next ih => exact ⟨hp.1, fun r => ih r (hp.2 r)⟩

theorem Calls.mono {Q' : Op → Prop} (hQ : ∀ op, Q op → Q' op) {p : Program Reply ε α} (hp : p.Calls Q) :
    p.Calls Q' := by
  induction p with
  | done r => trivial
  | call op next ih => exact ⟨hQ _ hp.1, fun r => ih r (hp.2 r)⟩

/-- What every such call keeps, the program keeps. -/
theorem Calls.run_inv {I : σ → Prop} (hstep : ∀ op s, Q op → I s → I (handle op s).2) {p : Program Reply ε α}
    (hp : p.Calls Q) (hs : I s) : I (p.run handle s).2 := by
  induction p generalizing s with
  | done r => exact hs
  | call op next ih => exact ih _ (hp.2 _) (hstep op s hp.1 hs)

/-! ## Calls of two kinds -/

section

variable {Op' : Type} {Reply' : Op' → Type} {ε' τ : Type}

/-- The program among programs that make calls of another kind too, its errors mapped. -/
def inl (mapErr : ε → ε') : Program Reply ε α → Program (Sum.elim Reply Reply') ε' α
  | done r => done (r.mapError mapErr)
  | call op next => call (.inl op) fun r => (next r).inl mapErr

/-- Each kind of calls works on a state of its own. -/
def performEither (handle : (op : Op) → σ → Reply op × σ) (handle' : (op : Op') → τ → Reply' op × τ) :
    (op : Op ⊕ Op') → σ × τ → Sum.elim Reply Reply' op × (σ × τ)
  | .inl op, st => ((handle op st.1).1, (handle op st.1).2, st.2)
  | .inr op, st => ((handle' op st.2).1, st.1, (handle' op st.2).2)

theorem run_inl (mapErr : ε → ε') (handle' : (op : Op') → τ → Reply' op × τ) (p : Program Reply ε α) (t : τ) :
    (p.inl mapErr).run (performEither handle handle') (s, t) =
      ((p.run handle s).1.mapError mapErr, (p.run handle s).2, t) := by
  induction p generalizing s with
  | done r => rfl
  | call op next ih => exact ih (handle op s).1

end

/-! ## One program among others -/

section

variable {ι : Type} (handle) (step : σ → ι → σ) (G : List (Σ op : Op, Reply op) → σ → ι → Prop)

/-- Other steps lead from one state to another. Each is taken under `G`, which sees the calls
the program has made. -/
def Others (made : List (Σ op : Op, Reply op)) : σ → σ → Prop :=
  Relation.ReflTransGen fun s s' => ∃ i, G made s i ∧ s' = step s i

/-- A run of the program among other steps: with the calls it has made, the state, its result,
and the calls and the state at the end. -/
inductive Amid : List (Σ op : Op, Reply op) → σ → Program Reply ε α → Except ε α → List (Σ op : Op, Reply op) → σ → Prop
  | done (made : List (Σ op : Op, Reply op)) (s : σ) (r : Except ε α) : Amid made s (done r) r made s
  | own {made made' : List (Σ op : Op, Reply op)} {s s' : σ} {op : Op} {next : Reply op → Program Reply ε α}
      {r : Except ε α} (h : Amid (made ++ [⟨op, (handle op s).1⟩]) (handle op s).2 (next (handle op s).1) r made' s') :
      Amid made s (call op next) r made' s'
  | other {made made' : List (Σ op : Op, Reply op)} {s s' : σ} {p : Program Reply ε α} {r : Except ε α} (i : ι)
      (hi : G made s i) (h : Amid made (step s i) p r made' s') : Amid made s p r made' s'

variable {handle step G} {made made' : List (Σ op : Op, Reply op)} {b : β}

theorem Others.amid {s₁ : σ} {p : Program Reply ε α} {r : Except ε α} (hothers : Others step G made s s₁)
    (h : Amid handle step G made s₁ p r made' s') : Amid handle step G made s p r made' s' := by
  induction hothers using Relation.ReflTransGen.head_induction_on with
  | refl => exact h
  | head hstep _ ih =>
    obtain ⟨i, hi, rfl⟩ := hstep
    exact .other i hi ih

theorem Amid.of_done {r r' : Except ε α} (h : Amid handle step G made s (Program.done r) r' made' s') :
    r' = r ∧ made' = made ∧ Others step G made s s' := by
  generalize hp : Program.done r = p at h
  induction h with
  | done made s r =>
    cases hp
    exact ⟨rfl, rfl, .refl⟩
  | own => cases hp
  | other i hi _ ih =>
    obtain ⟨rfl, rfl, hothers⟩ := ih hp
    exact ⟨rfl, rfl, hothers.head ⟨i, hi, rfl⟩⟩

theorem Amid.of_call {op : Op} {next : Reply op → Program Reply ε α} {r : Except ε α}
    (h : Amid handle step G made s (call op next) r made' s') : ∃ s₁, Others step G made s s₁ ∧
      Amid handle step G (made ++ [⟨op, (handle op s₁).1⟩]) (handle op s₁).2 (next (handle op s₁).1) r made' s' := by
  generalize hp : call op next = p at h
  induction h with
  | done => cases hp
  | own h =>
    cases hp
    exact ⟨_, .refl, h⟩
  | other i hi _ ih =>
    obtain ⟨s₁, hothers, h⟩ := ih hp
    exact ⟨s₁, hothers.head ⟨i, hi, rfl⟩, h⟩

/-- A sequence that returns a value has run its first part, and then its second. -/
theorem Amid.of_bind {p : Program Reply ε α} {f : α → Program Reply ε β}
    (h : Amid handle step G made s (p >>= f) (.ok b) made' s') : ∃ a made₁ s₁,
      Amid handle step G made s p (.ok a) made₁ s₁ ∧ Amid handle step G made₁ s₁ (f a) (.ok b) made' s' := by
  change Amid handle step G made s (p.bind f) (.ok b) made' s' at h
  induction p generalizing made s with
  | done r =>
    cases r with
    | error e => cases (h.of_done).1
    | ok a => exact ⟨a, made, s, .done _ _ _, h⟩
  | call op next ih =>
    obtain ⟨s₁, hothers, hrest⟩ := h.of_call
    obtain ⟨a, made₁, s₂, hfirst, hsecond⟩ := ih _ hrest
    exact ⟨a, made₁, s₂, hothers.amid (.own hfirst), hsecond⟩

end

end Program

end Lib
