import GmKms.Lib.Machine
import GmKms.Lib.Program
/-!
# Programs side by side

Any number of programs over the same state. A move starts one, or lets one that is under way make its next call, so
that a list of moves is an interleaving. The calls that the programs have made are a list, in the order in which they
took effect. A program promises which calls it makes after which others and what it returns after them; every
interleaving keeps the promises of all its programs.
-/

namespace Lib

/-- One element of a list is replaced. -/
theorem countP_set_add {β : Type*} {l : List β} {i : ℕ} {a : β} (h : l[i]? = some a) (b : β) (p : β → Bool) :
    (l.set i b).countP p + (if p a then 1 else 0) = l.countP p + (if p b then 1 else 0) := by
  obtain ⟨hi, rfl⟩ := List.getElem?_eq_some_iff.1 h
  rw [List.countP_set hi]
  have hpos : p l[i] = true → 0 < l.countP p := fun hp => List.countP_pos_iff.2 ⟨_, List.getElem_mem hi, hp⟩
  by_cases hp : p l[i] = true
  · have := hpos hp
    rw [if_pos hp]
    omega
  · rw [if_neg hp]
    omega

theorem sum_map_set_add {β M : Type*} [AddCommMonoid M] {l : List β} {i : ℕ} {a : β} (h : l[i]? = some a) (b : β)
    (f : β → M) : ((l.set i b).map f).sum + f a = (l.map f).sum + f b := by
  induction l generalizing i with
  | nil => cases h
  | cons c l ih =>
    cases i with
    | zero =>
      obtain rfl := Option.some.inj h
      simp only [List.set_cons_zero, List.map_cons, List.sum_cons]
      abel
    | succ i =>
      have hrest := ih h
      simp only [List.set_cons_succ, List.map_cons, List.sum_cons, add_assoc, hrest]

/-- A replacement that `f` does not see. -/
theorem map_set_of_eq {β γ : Type*} {l : List β} {i : ℕ} {a b : β} (h : l[i]? = some a) {f : β → γ} (hf : f b = f a) :
    (l.set i b).map f = l.map f := by
  apply List.ext_getElem?
  intro j
  rw [List.getElem?_map, List.getElem?_map]
  by_cases hij : i = j
  · subst hij
    have hi : i < l.length := (List.getElem?_eq_some_iff.1 h).1
    rw [List.getElem?_set_self hi, h, Option.map_some, Option.map_some, hf]
  · rw [List.getElem?_set_ne hij]

end Lib

namespace Lib.Program

variable {Op : Type} {Reply : Op → Type} {ε ε' α β κ σ ι : Type}

/-- The state that the programs share, and the programs that were started, each with what it was started for. -/
structure Pool (Reply : Op → Type) (ε α κ σ : Type) where
  shared : σ
  calls : List (κ × Program Reply ε α)

inductive Move (κ ι : Type) where
  | start (k : κ)
  | advance (i : ℕ) (e : ι)

section

variable (handle : ι → (op : Op) → σ → Reply op × σ) (program : κ → Program Reply ε α)

/-- What a call answers and leaves may depend on something outside. -/
def Pool.move (s : Pool Reply ε α κ σ) : Move κ ι → Pool Reply ε α κ σ
  | .start k => { s with calls := s.calls ++ [(k, program k)] }
  | .advance i e =>
    match s.calls[i]? with
    | some (k, call op next) =>
      { shared := (handle e op s.shared).2, calls := s.calls.set i (k, next (handle e op s.shared).1) }
    | _ => s

variable {s : Pool Reply ε α κ σ}

theorem Pool.move_advance {i : ℕ} {k : κ} {op : Op} {next : Reply op → Program Reply ε α}
    (h : s.calls[i]? = some (k, call op next)) (e : ι) :
    s.move handle program (.advance i e) =
      { shared := (handle e op s.shared).2, calls := s.calls.set i (k, next (handle e op s.shared).1) } := by
  rw [Pool.move, h]

/-- What a move does: it starts a program, makes one call, or nothing. -/
theorem Pool.move_cases (s : Pool Reply ε α κ σ) (m : Move κ ι) :
    (∃ k, m = .start k ∧ s.move handle program m = { s with calls := s.calls ++ [(k, program k)] }) ∨
    (∃ i e k op next, m = .advance i e ∧ s.calls[i]? = some (k, call op next) ∧
      s.move handle program m =
        { shared := (handle e op s.shared).2, calls := s.calls.set i (k, next (handle e op s.shared).1) }) ∨
    s.move handle program m = s := by
  cases m with
  | start k => exact .inl ⟨k, rfl, rfl⟩
  | advance i e =>
    cases hi : s.calls[i]? with
    | none => exact .inr (.inr (by rw [Pool.move, hi]))
    | some c =>
      obtain ⟨k, p⟩ := c
      cases p with
      | done r => exact .inr (.inr (by rw [Pool.move, hi]))
      | call op next => exact .inr (.inl ⟨i, e, k, op, next, rfl, hi, Pool.move_advance handle program hi e⟩)

end

/-! ## Promises -/

/-- After the calls of `log` the program makes only calls that `A` allows after those before them, and returns only
values of which `R` holds, whatever it is answered. -/
def Keeps (A : List (Σ op : Op, Reply op) → Op → Prop) (R : List (Σ op : Op, Reply op) → α → Prop) :
    List (Σ op : Op, Reply op) → Program Reply ε α → Prop
  | log, done (.ok a) => R log a
  | _, done (.error _) => True
  | log, call op next => A log op ∧ ∀ r, (next r).Keeps A R (log ++ [⟨op, r⟩])

section

variable {A : List (Σ op : Op, Reply op) → Op → Prop} {R : List (Σ op : Op, Reply op) → α → Prop}
  {S : List (Σ op : Op, Reply op) → β → Prop} {log : List (Σ op : Op, Reply op)}

theorem Keeps.bind {p : Program Reply ε α} {f : α → Program Reply ε β} (hp : p.Keeps A R log)
    (hf : ∀ log a, R log a → (f a).Keeps A S log) : (p >>= f).Keeps A S log := by
  change (p.bind f).Keeps A S log
  induction p generalizing log with
  | done r =>
    cases r with
    | error e => trivial
    | ok a => exact hf log a hp
  | call op next ih => exact ⟨hp.1, fun r => ih r (hp.2 r)⟩

theorem Keeps.mono {R' : List (Σ op : Op, Reply op) → α → Prop} {p : Program Reply ε α} (hp : p.Keeps A R log)
    (hR : ∀ log a, R log a → R' log a) : p.Keeps A R' log := by
  induction p generalizing log with
  | done r =>
    cases r with
    | error e => trivial
    | ok a => exact hR log a hp
  | call op next ih => exact ⟨hp.1, fun r => ih r (hp.2 r)⟩

theorem Keeps.pure {a : α} (h : R log a) : (pure a : Program Reply ε α).Keeps A R log := h

theorem Keeps.lift {r : Except ε α} (h : ∀ a, r = .ok a → R log a) :
    (Program.lift r : Program Reply ε α).Keeps A R log := by
  cases r with
  | error e => trivial
  | ok a => exact h a rfl

/-- The calls before the program are still there after it. -/
theorem Keeps.extends {p : Program Reply ε α} (hp : p.Keeps A R log) :
    p.Keeps A (fun log' a => R log' a ∧ log <+: log') log := by
  have hgen : ∀ log' : List (Σ op : Op, Reply op), log <+: log' → p.Keeps A R log' →
      p.Keeps A (fun log' a => R log' a ∧ log <+: log') log' := by
    clear hp
    intro log' hpre hp
    induction p generalizing log' with
    | done r =>
      cases r with
      | error e => trivial
      | ok a => exact ⟨hp, hpre⟩
    | call op next ih => exact ⟨hp.1, fun r => ih r _ (hpre.trans (List.prefix_append _ _)) (hp.2 r)⟩
  exact hgen log List.prefix_rfl hp

theorem Keeps.call {op : Op} {next : Reply op → Program Reply ε α} (hop : A log op)
    (hnext : ∀ r, (next r).Keeps A R (log ++ [⟨op, r⟩])) : (Program.call op next).Keeps A R log := ⟨hop, hnext⟩

end

/-! ## Other answers and errors -/

/-- The program with its value and its error mapped. -/
def mapResult (f : α → β) (g : ε → ε') : Program Reply ε α → Program Reply ε' β
  | done r => done ((r.map f).mapError g)
  | call op next => call op fun r => (next r).mapResult f g

theorem Keeps.mapResult {A : List (Σ op : Op, Reply op) → Op → Prop} {R : List (Σ op : Op, Reply op) → β → Prop}
    {log : List (Σ op : Op, Reply op)} (f : α → β) (g : ε → ε') {p : Program Reply ε α}
    (hp : p.Keeps A (fun log a => R log (f a)) log) : (p.mapResult f g).Keeps A R log := by
  induction p generalizing log with
  | done r =>
    cases r with
    | error e => trivial
    | ok a => exact hp
  | call op next ih => exact ⟨hp.1, fun r => ih r (hp.2 r)⟩

/-- A program that makes only calls of which `Q` holds, among programs that make calls of another kind too. -/
theorem Calls.keeps {Op' : Type} {Reply' : Op' → Type} {Q : Op → Prop}
    {A : List (Σ op : Op ⊕ Op', Sum.elim Reply Reply' op) → Op ⊕ Op' → Prop}
    {log : List (Σ op : Op ⊕ Op', Sum.elim Reply Reply' op)} (mapErr : ε → ε') {p : Program Reply ε α}
    (hp : p.Calls Q) (hQ : ∀ log' op, log <+: log' → Q op → A log' (.inl op)) :
    (p.inl mapErr : Program (Sum.elim Reply Reply') ε' α).Keeps A (fun _ _ => True) log := by
  induction p generalizing log with
  | done r => cases r <;> trivial
  | call op next ih =>
    refine ⟨hQ log op List.prefix_rfl hp.1, fun r => ih r (hp.2 r) fun log' op' hpre hop => ?_⟩
    exact hQ log' op' ((List.prefix_append _ _).trans hpre) hop

/-- A program whose calls are all allowed as long as only its own came before, among programs that make calls of another
kind too. -/
theorem keeps_inl {Op' : Type} {Reply' : Op' → Type}
    {A : List (Σ op : Op ⊕ Op', Sum.elim Reply Reply' op) → Op ⊕ Op' → Prop}
    {R : List (Σ op : Op ⊕ Op', Sum.elim Reply Reply' op) → α → Prop}
    {log : List (Σ op : Op ⊕ Op', Sum.elim Reply Reply' op)} (mapErr : ε → ε') (p : Program Reply ε α)
    (hA : ∀ own, (∀ e ∈ own, e.1.isLeft) → ∀ op, A (log ++ own) (.inl op))
    (hR : ∀ own, (∀ e ∈ own, e.1.isLeft) → ∀ a, R (log ++ own) a) :
    (p.inl mapErr : Program (Sum.elim Reply Reply') ε' α).Keeps A R log := by
  have hgen : ∀ own : List (Σ op : Op ⊕ Op', Sum.elim Reply Reply' op), (∀ e ∈ own, e.1.isLeft) →
      (p.inl mapErr : Program (Sum.elim Reply Reply') ε' α).Keeps A R (log ++ own) := by
    induction p with
    | done r =>
      intro own hown
      cases r with
      | error e => trivial
      | ok a => exact hR own hown a
    | call op next ih =>
      refine fun own hown => ⟨hA own hown op, fun r => ?_⟩
      rw [List.append_assoc]
      refine ih r _ fun e he => ?_
      rcases List.mem_append.1 he with he | he
      · exact hown e he
      · rw [List.mem_singleton.1 he]
        rfl
  simpa using hgen [] (by simp)

/-! ## The calls of a pool -/

/-- A call that a program of a pool has made: the place of the program in the pool, what it was started for, what the
call read from outside, and its answer. -/
structure Made (Reply : Op → Type) (κ ι : Type) where
  index : ℕ
  started : κ
  outside : ι
  op : Op
  answer : Reply op

/-- The calls of the program at a place. -/
def madeAt (i : ℕ) (l : List (Made Reply κ ι)) : List (Σ op : Op, Reply op) :=
  (l.filter (·.index = i)).map fun e => ⟨e.op, e.answer⟩

theorem mem_madeAt {i : ℕ} {l : List (Made Reply κ ι)} {op : Op} {r : Reply op}
    (h : (⟨op, r⟩ : Σ op : Op, Reply op) ∈ madeAt i l) :
    ∃ k e, (⟨i, k, e, op, r⟩ : Made Reply κ ι) ∈ l := by
  obtain ⟨⟨j, k, e, op', r'⟩, hmem, heq⟩ := List.mem_map.1 h
  obtain ⟨hl, hj⟩ := List.mem_filter.1 hmem
  obtain rfl : j = i := of_decide_eq_true hj
  cases heq
  exact ⟨k, e, hl⟩

theorem madeAt_snoc_self (l : List (Made Reply κ ι)) (e : Made Reply κ ι) :
    madeAt e.index (l ++ [e]) = madeAt e.index l ++ [⟨e.op, e.answer⟩] := by
  simp [madeAt]

theorem madeAt_snoc_of_ne {i : ℕ} (l : List (Made Reply κ ι)) {e : Made Reply κ ι} (h : e.index ≠ i) :
    madeAt i (l ++ [e]) = madeAt i l := by
  simp [madeAt, h]

section

variable (handle : ι → (op : Op) → σ → Reply op × σ) (program : κ → Program Reply ε α)

/-- The call that a move makes. -/
def Pool.made (s : Pool Reply ε α κ σ) : Move κ ι → Option (Made Reply κ ι)
  | .start _ => none
  | .advance i e =>
    match s.calls[i]? with
    | some (k, call op _) => some ⟨i, k, e, op, (handle e op s.shared).1⟩
    | _ => none

/-- The pool as a machine that answers a move with the call it makes. -/
def Pool.interleave : Machine (Pool Reply ε α κ σ) (Move κ ι) (Option (Made Reply κ ι)) := fun s m =>
  (s.made handle m, s.move handle program m)

/-- The calls of a run, in the order in which they took effect. -/
def log (h : History (Move κ ι) (Option (Made Reply κ ι))) : List (Made Reply κ ι) := h.filterMap (·.2)

theorem log_append (h h' : History (Move κ ι) (Option (Made Reply κ ι))) : log (h ++ h') = log h ++ log h' :=
  List.filterMap_append

/-- What a move does and what it makes: a start, one call, or nothing. -/
theorem Pool.interleave_cases (s : Pool Reply ε α κ σ) (m : Move κ ι) :
    (∃ k, m = .start k ∧ Pool.interleave handle program s m =
      (none, { s with calls := s.calls ++ [(k, program k)] })) ∨
    (∃ i e k op next, s.calls[i]? = some (k, call op next) ∧ Pool.interleave handle program s m =
      (some ⟨i, k, e, op, (handle e op s.shared).1⟩,
        { shared := (handle e op s.shared).2, calls := s.calls.set i (k, next (handle e op s.shared).1) })) ∨
    Pool.interleave handle program s m = (none, s) := by
  cases m with
  | start k => exact .inl ⟨k, rfl, rfl⟩
  | advance i e =>
    cases hi : s.calls[i]? with
    | none => exact .inr (.inr (by simp only [Pool.interleave, Pool.made, Pool.move, hi]))
    | some c =>
      obtain ⟨k, p⟩ := c
      cases p with
      | done r => exact .inr (.inr (by simp only [Pool.interleave, Pool.made, Pool.move, hi]))
      | call op next =>
        exact .inr (.inl ⟨i, e, k, op, next, hi, by simp only [Pool.interleave, Pool.made, Pool.move, hi]⟩)

/-! ## Runs -/

/-- The programs of the pool keep their promises from here on. -/
structure Pool.Promised (A : κ → List (Σ op : Op, Reply op) → Op → Prop)
    (R : κ → List (Σ op : Op, Reply op) → α → Prop) (l : List (Made Reply κ ι)) (s : Pool Reply ε α κ σ) : Prop where
  under : ∀ (i : ℕ) (k : κ) (p : Program Reply ε α), s.calls[i]? = some (k, p) → p.Keeps (A k) (R k) (madeAt i l)
  unstarted : ∀ i, s.calls.length ≤ i → madeAt i l = []
  allowed : ∀ l₁ e l₂, l = l₁ ++ e :: l₂ → A e.started (madeAt e.index l₁) e.op

variable {handle program} {A : κ → List (Σ op : Op, Reply op) → Op → Prop}
  {R : κ → List (Σ op : Op, Reply op) → α → Prop}

/-- Where a list with one more element splits. -/
theorem snoc_eq_append_cons {γ : Type} {l l₁ l₂ : List γ} {e e' : γ} (h : l ++ [e'] = l₁ ++ e :: l₂) :
    (l₁ = l ∧ e = e') ∨ ∃ l₂', l = l₁ ++ e :: l₂' := by
  rcases List.eq_nil_or_concat l₂ with rfl | ⟨l₂', e₂, rfl⟩
  · obtain ⟨rfl, he⟩ := List.append_inj' h rfl
    exact .inl ⟨rfl, (List.singleton_inj.1 he).symm⟩
  · rw [List.concat_eq_append, ← List.cons_append, ← List.append_assoc] at h
    exact .inr ⟨l₂', (List.append_inj' h rfl).1⟩

theorem Pool.Promised.step (hprogram : ∀ k, (program k).Keeps (A k) (R k) [])
    {h : History (Move κ ι) (Option (Made Reply κ ι))} {s : Pool Reply ε α κ σ} (hs : s.Promised A R (log h))
    (m : Move κ ι) : (Pool.interleave handle program s m).2.Promised A R
      (log (h ++ [(m, (Pool.interleave handle program s m).1)])) := by
  rw [log_append]
  rcases Pool.interleave_cases handle program s m with ⟨k, -, hm⟩ | ⟨i, e, k, op, next, hi, hm⟩ | hm
  · simp only [hm, log, List.filterMap_cons, List.filterMap_nil, List.append_nil]
    refine ⟨fun i k' p hp => ?_, fun i hle => hs.unstarted i ?_, hs.allowed⟩
    · rcases Nat.lt_or_ge i s.calls.length with hlt | hge
      · exact hs.under i k' p (by rwa [List.getElem?_append_left hlt] at hp)
      · rw [List.getElem?_append_right hge] at hp
        obtain ⟨hz, heq⟩ := List.getElem?_eq_some_iff.1 hp
        obtain rfl : i = s.calls.length := by
          simp only [List.length_singleton] at hz
          omega
        simp only [Nat.sub_self, List.getElem_cons_zero, Prod.mk.injEq] at heq
        obtain ⟨rfl, rfl⟩ := heq
        exact (hs.unstarted _ le_rfl).symm ▸ hprogram k
    · rw [List.length_append] at hle
      omega
  · have hunder := hs.under i k _ hi
    have hlt : i < s.calls.length := (List.getElem?_eq_some_iff.1 hi).1
    simp only [hm, log, List.filterMap_cons, List.filterMap_nil]
    refine ⟨fun j k' p hp => ?_, fun j hle => ?_, fun l₁ e' l₂ heq => ?_⟩
    · by_cases hij : i = j
      · subst hij
        rw [List.getElem?_set_self hlt] at hp
        cases hp
        rw [show i = (⟨i, k, e, op, (handle e op s.shared).1⟩ : Made Reply κ ι).index from rfl, madeAt_snoc_self]
        exact hunder.2 _
      · rw [List.getElem?_set_ne hij] at hp
        rw [madeAt_snoc_of_ne _ hij]
        exact hs.under j k' p hp
    · rw [List.length_set] at hle
      rw [madeAt_snoc_of_ne _ (show i ≠ j by omega)]
      exact hs.unstarted j hle
    · rcases snoc_eq_append_cons heq with ⟨rfl, rfl⟩ | ⟨l₂', heq'⟩
      · exact hunder.1
      · exact hs.allowed l₁ e' l₂' heq'
  · simpa only [hm, log, List.filterMap_cons, List.filterMap_nil, List.append_nil] using hs

/-- Every call of a run is one that its program had promised. -/
theorem Pool.promised_run (hprogram : ∀ k, (program k).Keeps (A k) (R k) []) (shared : σ) (ms : List (Move κ ι)) :
    (Machine.final (Pool.interleave handle program) ⟨shared, []⟩ ms).Promised A R
      (log (Machine.trace (Pool.interleave handle program) ⟨shared, []⟩ ms)) := by
  have h0 : (⟨shared, []⟩ : Pool Reply ε α κ σ).Promised A R (log (ι := ι) []) := by
    refine ⟨fun i k p hp => by simp at hp, fun i _ => rfl, fun l₁ e l₂ heq => ?_⟩
    simp [log] at heq
  exact Machine.run_inv (I := fun h s => Pool.Promised A R (log h) s)
    (fun _ _ m hs => hs.step hprogram m) h0 ms

/-- Only programs that were started make calls. -/
theorem Pool.started_run {shared : σ} {ms : List (Move κ ι)} {e : Made Reply κ ι}
    (he : e ∈ log (Machine.trace (Pool.interleave handle program) ⟨shared, []⟩ ms)) : .start e.started ∈ ms := by
  have hinv := Machine.run_inv (M := Pool.interleave handle program)
    (I := fun h s => (∀ c ∈ s.calls, Move.start c.1 ∈ h.map (·.1)) ∧ ∀ e ∈ log h, Move.start e.started ∈ h.map (·.1))
    ?_ (h := []) (s := ⟨shared, []⟩) ⟨by simp, by simp [log]⟩ ms
  · have hstarted := hinv.2 e he
    rwa [List.nil_append, Machine.map_fst_trace] at hstarted
  · rintro h s m ⟨hcalls, hlog⟩
    rw [List.map_append, log_append]
    have hcalls' : ∀ c ∈ s.calls, Move.start c.1 ∈ h.map (·.1) ++ [m] :=
      fun c hc => List.mem_append_left _ (hcalls c hc)
    have hlog' : ∀ e ∈ log h, Move.start e.started ∈ h.map (·.1) ++ [m] :=
      fun e he => List.mem_append_left _ (hlog e he)
    rcases Pool.interleave_cases handle program s m with ⟨k, rfl, hm⟩ | ⟨i, e, k, op, next, hi, hm⟩ | hm
    · simp only [hm, log, List.filterMap_cons, List.filterMap_nil, List.append_nil]
      refine ⟨fun c hc => ?_, hlog'⟩
      rcases List.mem_append.1 hc with hc | hc
      · exact hcalls' c hc
      · rw [List.mem_singleton.1 hc]
        simp
    · have hk := hcalls' _ (List.mem_of_getElem? hi)
      simp only [hm, log, List.filterMap_cons, List.filterMap_nil]
      refine ⟨fun c hc => ?_, fun e he => ?_⟩
      · rcases List.mem_or_eq_of_mem_set hc with hc | rfl
        · exact hcalls' c hc
        · exact hk
      · rcases List.mem_append.1 he with he | he
        · exact hlog' e he
        · rw [List.mem_singleton.1 he]
          exact hk
    · simpa only [hm, log, List.filterMap_cons, List.filterMap_nil, List.append_nil] using ⟨hcalls', hlog'⟩

/-- The calls at a place are those of the program that was started there. -/
theorem Pool.place_run {shared : σ} {ms : List (Move κ ι)} {e : Made Reply κ ι}
    (he : e ∈ log (Machine.trace (Pool.interleave handle program) ⟨shared, []⟩ ms)) :
    ((Machine.final (Pool.interleave handle program) ⟨shared, []⟩ ms).calls[e.index]?).map (·.1) = some e.started := by
  have hinv := Machine.run_inv (M := Pool.interleave handle program)
    (I := fun h s => ∀ e ∈ log h, (s.calls[e.index]?).map (·.1) = some e.started) ?_
    (h := []) (s := ⟨shared, []⟩) (by simp [log]) ms
  · exact hinv e he
  · intro h s m hs
    rw [log_append]
    rcases Pool.interleave_cases handle program s m with ⟨k, -, hm⟩ | ⟨i, e, k, op, next, hi, hm⟩ | hm
    · simp only [hm, log, List.filterMap_cons, List.filterMap_nil, List.append_nil]
      intro e he
      have hold := hs e he
      have hlt : e.index < s.calls.length := by
        by_contra hge
        rw [List.getElem?_eq_none (not_lt.1 hge)] at hold
        cases hold
      rwa [List.getElem?_append_left hlt]
    · simp only [hm, log, List.filterMap_cons, List.filterMap_nil]
      have hset : ∀ j : ℕ, ((s.calls.set i (k, next (handle e op s.shared).1))[j]?).map Prod.fst =
          (s.calls[j]?).map Prod.fst := by
        intro j
        rw [← List.getElem?_map, ← List.getElem?_map, map_set_of_eq hi (b := (k, next (handle e op s.shared).1)) rfl]
      intro e' he'
      rw [hset]
      rcases List.mem_append.1 he' with he' | he'
      · exact hs e' he'
      · rw [List.mem_singleton.1 he', hi]
        rfl
    · simpa only [hm, log, List.filterMap_cons, List.filterMap_nil, List.append_nil] using hs

/-- What every call keeps, of the shared state and of the calls so far, every run keeps. Each call is made where `Q`
holds of the calls before it. -/
theorem Pool.shared_run {I : List (Made Reply κ ι) → σ → Prop} {Q : List (Made Reply κ ι) → Made Reply κ ι → Prop}
    (hstep : ∀ l s e, I l s → Q l e → e.answer = (handle e.outside e.op s).1 → I (l ++ [e]) (handle e.outside e.op s).2)
    {shared : σ} (h0 : I [] shared) (ms : List (Move κ ι))
    (hQ : ∀ l₁ e l₂, log (Machine.trace (Pool.interleave handle program) ⟨shared, []⟩ ms) = l₁ ++ e :: l₂ → Q l₁ e) :
    I (log (Machine.trace (Pool.interleave handle program) ⟨shared, []⟩ ms))
      (Machine.final (Pool.interleave handle program) ⟨shared, []⟩ ms).shared := by
  have hinv := Machine.run_inv (M := Pool.interleave handle program)
    (I := fun h s => (∀ l₁ e l₂, log h = l₁ ++ e :: l₂ → Q l₁ e) → I (log h) s.shared) ?_
    (h := []) (s := ⟨shared, []⟩) (fun _ => h0) ms
  · exact hinv hQ
  · intro h s m hs hall
    rw [log_append] at hall ⊢
    have hold : ∀ l₁ e l₂, log h = l₁ ++ e :: l₂ → Q l₁ e := fun l₁ e l₂ heq =>
      hall l₁ e (l₂ ++ log [(m, (Pool.interleave handle program s m).1)])
      (by rw [heq, List.append_assoc, List.cons_append])
    rcases Pool.interleave_cases handle program s m with ⟨k, -, hm⟩ | ⟨i, e, k, op, next, hi, hm⟩ | hm
    · simp only [hm, log, List.filterMap_cons, List.filterMap_nil, List.append_nil] at hall ⊢
      exact hs hold
    · simp only [hm, log, List.filterMap_cons, List.filterMap_nil] at hall ⊢
      exact hstep _ s.shared ⟨i, k, e, op, _⟩ (hs hold) (hall _ _ [] rfl) rfl
    · simp only [hm, log, List.filterMap_cons, List.filterMap_nil, List.append_nil] at hall ⊢
      exact hs hold

/-- Each call of a run was answered in a state of which the invariant holds with the calls before it. -/
theorem Pool.answered_run {I : List (Made Reply κ ι) → σ → Prop} {Q : List (Made Reply κ ι) → Made Reply κ ι → Prop}
    (hstep : ∀ l s e, I l s → Q l e → e.answer = (handle e.outside e.op s).1 → I (l ++ [e]) (handle e.outside e.op s).2)
    {shared : σ} (h0 : I [] shared) (ms : List (Move κ ι))
    (hQ : ∀ l₁ e l₂, log (Machine.trace (Pool.interleave handle program) ⟨shared, []⟩ ms) = l₁ ++ e :: l₂ → Q l₁ e)
    {l₁ : List (Made Reply κ ι)} {e : Made Reply κ ι} {l₂ : List (Made Reply κ ι)}
    (hlog : log (Machine.trace (Pool.interleave handle program) ⟨shared, []⟩ ms) = l₁ ++ e :: l₂) :
    ∃ s, I l₁ s ∧ e.answer = (handle e.outside e.op s).1 := by
  have hinv := Pool.shared_run
    (I := fun l s => I l s ∧ ∀ l₁ e l₂, l = l₁ ++ e :: l₂ → ∃ s, I l₁ s ∧ e.answer = (handle e.outside e.op s).1) ?_
    ⟨h0, fun l₁ e l₂ heq => by simp at heq⟩ ms hQ
  · exact hinv.2 l₁ e l₂ hlog
  · rintro l s e ⟨hs, hpast⟩ he hanswer
    refine ⟨hstep l s e hs he hanswer, fun l₁ e' l₂ heq => ?_⟩
    rcases snoc_eq_append_cons heq with ⟨rfl, rfl⟩ | ⟨l₂', heq'⟩
    · exact ⟨s, hs, hanswer⟩
    · exact hpast l₁ e' l₂' heq'

end

end Lib.Program
