import GmKms.Lib.ProgramPool
/-!
# Noninterference

Programs of two parties side by side. One party has a view of the shared state: its own calls are answered by what is in
view, up to answers after which its programs go on the same way, and the calls of the other party leave the view as it
is. Then its programs come to the same in every interleaving whether or not the other party does anything. The inputs of
a machine that belong to one party are answered as if they were its only ones under the same conditions.
-/

namespace Lib.Machine

variable {σ ι ρ : Type*} {M : Machine σ ι ρ} {own : ι → Bool} {G : History ι ρ → σ → ι → Prop}
  {R : History ι ρ → σ → σ → Prop}

/-- A run, and the run of the inputs of one party alone: where these are answered alike in states with the same view,
and the others leave the view, the answers are the same. -/
theorem purge (hown : ∀ h s s' i, R h s s' → G h s i → own i = true →
      (M s i).1 = (M s' i).1 ∧ R (h ++ [(i, (M s i).1)]) (M s i).2 (M s' i).2)
    (hother : ∀ h s s' i, R h s s' → G h s i → own i = false → R (h ++ [(i, (M s i).1)]) (M s i).2 s')
    {h : History ι ρ} {s s' : σ} {is : List ι} (ha : M.Along G h s is) (h0 : R h s s') :
    M.trace s' (is.filter own) = (M.trace s is).filter (own ·.1) := by
  induction is generalizing h s s' with
  | nil => rfl
  | cons i is ih =>
    cases hi : own i with
    | true =>
      obtain ⟨hanswer, hnext⟩ := hown h s s' i h0 ha.1 hi
      simp only [List.filter_cons, trace, hi, if_true, ← hanswer, ih ha.2 hnext]
    | false =>
      simp only [List.filter_cons, trace, hi, Bool.false_eq_true, if_false, ih ha.2 (hother h s s' i h0 ha.1 hi)]

end Lib.Machine

namespace Lib.Program

variable {Op : Type} {Reply : Op → Type} {ε ε' α β κ σ ι : Type}

/-! ## Programs that do not tell answers apart -/

/-- The program goes on the same way after two answers that are alike. -/
def Uniform (alike : (op : Op) → Reply op → Reply op → Prop) : Program Reply ε α → Prop
  | done _ => True
  | call op next => (∀ r r', alike op r r' → next r = next r') ∧ ∀ r, (next r).Uniform alike

section

variable {alike : (op : Op) → Reply op → Reply op → Prop}

theorem Uniform.bind {p : Program Reply ε α} {f : α → Program Reply ε β} (hp : p.Uniform alike)
    (hf : ∀ a, (f a).Uniform alike) : (p >>= f).Uniform alike := by
  change (p.bind f).Uniform alike
  induction p with
  | done r =>
    cases r with
    | error e => trivial
    | ok a => exact hf a
  | call op next ih =>
    refine ⟨fun r r' h => ?_, fun r => ih r (hp.2 r)⟩
    change (next r).bind f = (next r').bind f
    rw [hp.1 r r' h]

theorem Uniform.mapResult (f : α → β) (g : ε → ε') {p : Program Reply ε α} (hp : p.Uniform alike) :
    (p.mapResult f g).Uniform alike := by
  induction p with
  | done r => trivial
  | call op next ih =>
    refine ⟨fun r r' h => ?_, fun r => ih r (hp.2 r)⟩
    change (next r).mapResult f g = (next r').mapResult f g
    rw [hp.1 r r' h]

theorem Calls.mapResult {Q : Op → Prop} (f : α → β) (g : ε → ε') {p : Program Reply ε α} (hp : p.Calls Q) :
    (p.mapResult f g).Calls Q := by
  induction p with
  | done r => trivial
  | call op next ih => exact ⟨hp.1, fun r => ih r (hp.2 r)⟩

end

/-! ## Two parties -/

/-- `R` holds of two states with the same view, `A` of the calls of the party that has it and `B` of the other's. -/
structure View (handle : ι → (op : Op) → σ → Reply op × σ) (A B : Op → Prop)
    (alike : (op : Op) → Reply op → Reply op → Prop) (G : ι → Op → σ → Prop) (R : σ → σ → Prop) : Prop where
  own : ∀ e op s s', R s s' → A op →
    alike op (handle e op s).1 (handle e op s').1 ∧ R (handle e op s).2 (handle e op s').2
  other : ∀ e op s s', R s s' → B op → G e op s → R (handle e op s).2 s'

/-- The call that the move makes is made under `G`. -/
def Pool.Guarded (G : ι → Op → σ → Prop) (s : Pool Reply ε α κ σ) : Move κ ι → Prop
  | .start _ => True
  | .advance i e =>
    match s.calls[i]? with
    | some (_, call op _) => G e op s.shared
    | _ => True

instance Pool.decidableGuarded {G : ι → Op → σ → Prop} [hG : ∀ e op s, Decidable (G e op s)] (s : Pool Reply ε α κ σ) :
    (m : Move κ ι) → Decidable (s.Guarded G m)
  | .start _ => .isTrue trivial
  | .advance i e =>
    match h : s.calls[i]? with
    | some (_, call op _) => decidable_of_iff (G e op s.shared) (by rw [Guarded, h])
    | some (_, done _) => .isTrue (by rw [Guarded, h]; trivial)
    | none => .isTrue (by rw [Guarded, h]; trivial)

/-- The programs of one party; those of the other end before their first call. -/
def only (own : κ → Bool) (e : ε) (program : κ → Program Reply ε α) (k : κ) : Program Reply ε α :=
  if own k then program k else .done (.error e)

section

variable (own : κ → Bool) (gone : ε) (A B : Op → Prop) (alike : (op : Op) → Reply op → Reply op → Prop)
  (R : σ → σ → Prop)

/-- A pool, and what it would be without the programs of the other party. -/
structure Pool.Without (s s' : Pool Reply ε α κ σ) : Prop where
  shared : R s.shared s'.shared
  length : s.calls.length = s'.calls.length
  same : ∀ (i : ℕ) (k : κ) (p : Program Reply ε α), own k = true →
    (s.calls[i]? = some (k, p) ↔ s'.calls[i]? = some (k, p))
  uniform : ∀ (i : ℕ) (k : κ) (p : Program Reply ε α), own k = true → s.calls[i]? = some (k, p) →
    p.Uniform alike ∧ p.Calls A
  others : ∀ (i : ℕ) (k : κ) (p : Program Reply ε α), own k = false → s.calls[i]? = some (k, p) → p.Calls B
  ended : ∀ (i : ℕ) (k : κ) (p : Program Reply ε α), own k = false → s'.calls[i]? = some (k, p) →
    p = .done (.error gone)

end

section

variable {handle : ι → (op : Op) → σ → Reply op × σ} {program : κ → Program Reply ε α} {own : κ → Bool} {gone : ε}
  {A B : Op → Prop} {alike : (op : Op) → Reply op → Reply op → Prop} {G : ι → Op → σ → Prop} {R : σ → σ → Prop}
  {s s' : Pool Reply ε α κ σ}

theorem getElem?_snoc_eq_some_iff {γ : Type} {l : List γ} {x y : γ} {i : ℕ} :
    (l ++ [x])[i]? = some y ↔ l[i]? = some y ∨ i = l.length ∧ x = y := by
  rcases Nat.lt_trichotomy i l.length with h | rfl | h
  · rw [List.getElem?_append_left h]
    simp [h.ne]
  · simp
  · rw [List.getElem?_append_right h.le, List.getElem?_eq_none (show [x].length ≤ i - l.length by simp; omega),
      List.getElem?_eq_none h.le]
    simp [h.ne']

theorem getElem?_set_eq_some_iff {γ : Type} {l : List γ} {x y z : γ} {i j : ℕ} (hi : l[i]? = some z) :
    (l.set i x)[j]? = some y ↔ if i = j then x = y else l[j]? = some y := by
  have hlt : i < l.length := (List.getElem?_eq_some_iff.1 hi).1
  by_cases hij : i = j
  · subst hij
    rw [List.getElem?_set_self hlt, if_pos rfl, Option.some.injEq]
  · rw [List.getElem?_set_ne hij, if_neg hij]

theorem Pool.Without.start (h : Pool.Without own gone A B alike R s s') {k : κ}
    (hown : own k = true → (program k).Uniform alike ∧ (program k).Calls A)
    (hother : own k = false → (program k).Calls B) :
    Pool.Without own gone A B alike R { s with calls := s.calls ++ [(k, program k)] }
      { s' with calls := s'.calls ++ [(k, only own gone program k)] } := by
  refine ⟨h.shared, ?_, fun i k' p hk => ?_, fun i k' p hk hp => ?_, fun i k' p hk hp => ?_, fun i k' p hk hp => ?_⟩
  · rw [List.length_append, List.length_append, h.length]
    rfl
  · rw [getElem?_snoc_eq_some_iff, getElem?_snoc_eq_some_iff, h.same i k' p hk, h.length]
    refine or_congr_right (and_congr_right fun _ => ?_)
    constructor <;> rintro heq <;> cases heq
    · rw [only, if_pos hk]
    · rw [only, if_pos hk]
  · rcases getElem?_snoc_eq_some_iff.1 hp with hp | ⟨-, heq⟩
    · exact h.uniform i k' p hk hp
    · cases heq
      exact hown hk
  · rcases getElem?_snoc_eq_some_iff.1 hp with hp | ⟨-, heq⟩
    · exact h.others i k' p hk hp
    · cases heq
      exact hother hk
  · rcases getElem?_snoc_eq_some_iff.1 hp with hp | ⟨-, heq⟩
    · exact h.ended i k' p hk hp
    · cases heq
      rw [only, if_neg (by simp [hk])]

/-- A call of the party with the view, in both pools. -/
theorem Pool.Without.own_call (h : Pool.Without own gone A B alike R s s') (hview : View handle A B alike G R) {i : ℕ}
    {k : κ}
    (hk : own k = true) {op : Op} {next : Reply op → Program Reply ε α} (hi : s.calls[i]? = some (k, call op next))
    (e : ι) : Pool.Without own gone A B alike R (s.move handle program (.advance i e))
      (s'.move handle (only own gone program) (.advance i e)) := by
  have hi' := (h.same i k _ hk).1 hi
  obtain ⟨⟨hnext, huniform⟩, hop, hcalls⟩ := h.uniform i k _ hk hi
  obtain ⟨halike, hshared⟩ := hview.own e op _ _ h.shared hop
  rw [Pool.move_advance _ _ hi, Pool.move_advance _ _ hi', ← hnext _ _ halike]
  refine ⟨hshared, ?_, fun j k' p hk' => ?_, fun j k' p hk' hp => ?_, fun j k' p hk' hp => ?_, fun j k' p hk' hp => ?_⟩
  · rw [List.length_set, List.length_set, h.length]
  · rw [getElem?_set_eq_some_iff hi, getElem?_set_eq_some_iff hi', h.same j k' p hk']
  · rw [getElem?_set_eq_some_iff hi] at hp
    split at hp
    · cases hp
      exact ⟨huniform _, hcalls _⟩
    · exact h.uniform j k' p hk' hp
  · rw [getElem?_set_eq_some_iff hi] at hp
    split at hp
    · cases hp
      rw [hk] at hk'
      cases hk'
    · exact h.others j k' p hk' hp
  · rw [getElem?_set_eq_some_iff hi'] at hp
    split at hp
    · cases hp
      rw [hk] at hk'
      cases hk'
    · exact h.ended j k' p hk' hp

/-- Where a program of the other party is, nothing happens without it. -/
theorem Pool.Without.still (h : Pool.Without own gone A B alike R s s') {i : ℕ} {k : κ} (hk : own k = false)
    {p : Program Reply ε α} (hi : s.calls[i]? = some (k, p)) (e : ι) :
    s'.move handle (only own gone program) (.advance i e) = s' := by
  cases hi' : s'.calls[i]? with
  | none => rw [Pool.move, hi']
  | some c =>
    obtain ⟨k', p'⟩ := c
    cases hk' : own k' with
    | true =>
      have heq := (h.same i k' p' hk').2 hi'
      rw [hi] at heq
      cases heq
      rw [hk] at hk'
      cases hk'
    | false => rw [Pool.move, hi', h.ended i k' p' hk' hi']

/-- A call of the other party is made in one pool only. -/
theorem Pool.Without.other_call (h : Pool.Without own gone A B alike R s s') (hview : View handle A B alike G R) {i : ℕ}
    {k : κ} (hk : own k = false) {op : Op} {next : Reply op → Program Reply ε α}
    (hi : s.calls[i]? = some (k, call op next)) {e : ι} (hG : G e op s.shared) :
    Pool.Without own gone A B alike R (s.move handle program (.advance i e))
      (s'.move handle (only own gone program) (.advance i e)) := by
  obtain ⟨hop, hnext⟩ := h.others i k _ hk hi
  rw [h.still hk hi, Pool.move_advance _ _ hi]
  refine ⟨hview.other e op _ _ h.shared hop hG, ?_, fun j k' p hk' => ?_, fun j k' p hk' hp => ?_,
    fun j k' p hk' hp => ?_, h.ended⟩
  · rw [List.length_set, h.length]
  · rw [getElem?_set_eq_some_iff hi, ← h.same j k' p hk']
    split
    · rename_i hij
      subst hij
      rw [hi]
      constructor <;> rintro heq <;> cases heq <;> rw [hk] at hk' <;> cases hk'
    · rfl
  · rw [getElem?_set_eq_some_iff hi] at hp
    split at hp
    · cases hp
      rw [hk] at hk'
      cases hk'
    · exact h.uniform j k' p hk' hp
  · rw [getElem?_set_eq_some_iff hi] at hp
    split at hp
    · cases hp
      exact hnext _
    · exact h.others j k' p hk' hp

theorem Pool.Without.step (h : Pool.Without own gone A B alike R s s') (hview : View handle A B alike G R)
    {m : Move κ ι}
    (hown : ∀ k, m = .start k → own k = true → (program k).Uniform alike ∧ (program k).Calls A)
    (hother : ∀ k, m = .start k → own k = false → (program k).Calls B) (hG : s.Guarded G m) :
    Pool.Without own gone A B alike R (s.move handle program m) (s'.move handle (only own gone program) m) := by
  cases m with
  | start k => exact h.start (hown k rfl) (hother k rfl)
  | advance i e =>
    cases hi : s.calls[i]? with
    | none =>
      have hi' : s'.calls[i]? = none := by
        rw [List.getElem?_eq_none_iff] at hi ⊢
        rwa [← h.length]
      rw [Pool.move, Pool.move, hi, hi']
      exact h
    | some c =>
      obtain ⟨k, p⟩ := c
      cases hk : own k with
      | true =>
        cases p with
        | done r =>
          rw [Pool.move, Pool.move, hi, (h.same i k _ hk).1 hi]
          exact h
        | call op next => exact h.own_call hview hk hi e
      | false =>
        cases p with
        | done r =>
          rw [h.still hk hi, Pool.move, hi]
          exact h
        | call op next =>
          rw [Pool.Guarded, hi] at hG
          exact h.other_call hview hk hi hG

variable (own gone) in
/-- What the programs of one party come to, in every interleaving with those of the other, they come to without them. -/
theorem Pool.without_run (hview : View handle A B alike G R) {shared shared' : σ} (hshared : R shared shared')
    {ms : List (Move κ ι)}
    (hown : ∀ k, .start k ∈ ms → own k = true → (program k).Uniform alike ∧ (program k).Calls A)
    (hother : ∀ k, .start k ∈ ms → own k = false → (program k).Calls B)
    (hG : Machine.Along (Pool.interleave handle program) (fun _ s m => s.Guarded G m) [] ⟨shared, []⟩ ms) :
    Pool.Without own gone A B alike R (Machine.final (Pool.interleave handle program) ⟨shared, []⟩ ms)
      (Machine.final (Pool.interleave handle (only own gone program)) ⟨shared', []⟩ ms) := by
  have hstart : Pool.Without own gone A B alike R (⟨shared, []⟩ : Pool Reply ε α κ σ) ⟨shared', []⟩ :=
    ⟨hshared, rfl, by simp, by simp, by simp, by simp⟩
  generalize (⟨shared, []⟩ : Pool Reply ε α κ σ) = s at hG hstart ⊢
  generalize (⟨shared', []⟩ : Pool Reply ε α κ σ) = s' at hstart ⊢
  generalize ([] : History (Move κ ι) (Option (Made Reply κ ι))) = h at hG
  induction ms generalizing h s s' with
  | nil => exact hstart
  | cons m ms ih =>
    refine ih (fun k hk => hown k (List.mem_cons_of_mem m hk)) (fun k hk => hother k (List.mem_cons_of_mem m hk)) _ _
      (hstart.step hview ?_ ?_ hG.1) _ hG.2
    · rintro k rfl
      exact hown k List.mem_cons_self
    · rintro k rfl
      exact hother k List.mem_cons_self

end

end Lib.Program
