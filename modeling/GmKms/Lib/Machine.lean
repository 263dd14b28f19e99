import Mathlib
/-!
# Runs of a deterministic machine

A machine answers an input and moves to a next state. Whatever the program
reads from outside (clock, random bytes, fresh ids, the interleaving of
threads) is part of the input, so a run is a list of inputs and a theorem about
every list of inputs holds for every environment.

`Along` says under which condition the steps of a run are taken, `Throughout`
what holds in every state it reaches. Both see the history: the inputs so far
with their answers.
-/

namespace Lib

/-- What an input answers in a state, and the state it leaves. -/
abbrev Machine (σ ι ρ : Type*) := σ → ι → ρ × σ

/-- Inputs with their answers, oldest first. -/
abbrev History (ι ρ : Type*) := List (ι × ρ)

namespace History

variable {ε : Type*} (p : ε → Bool)

/-- The events after the last one that `p` marks. -/
def since (h : List ε) : List ε :=
  h.rtakeWhile (fun e => !p e)

/-- The last event that `p` marks. -/
def last? (h : List ε) : Option ε :=
  h.reverse.find? p

variable {p}

theorem since_append_of_pos {h : List ε} {e : ε} (he : p e = true) : since p (h ++ [e]) = [] := by
  simp [since, he]

theorem since_append_of_neg {h : List ε} {e : ε} (he : p e = false) :
    since p (h ++ [e]) = since p h ++ [e] := by
  simp [since, he]

/-- What comes after the last marked event, when nothing of `t` is marked. -/
theorem since_append {h t : List ε} (ht : ∀ e ∈ t, p e = false) : since p (h ++ t) = since p h ++ t := by
  induction t using List.reverseRecOn with
  | nil => simp
  | append_singleton t e ih =>
    rw [← List.append_assoc, since_append_of_neg (ht e (by simp)), ih fun e he => ht e (by simp [he]),
      List.append_assoc]

theorem last?_append_of_pos {h : List ε} {e : ε} (he : p e = true) : last? p (h ++ [e]) = some e := by
  simp [last?, he]

theorem last?_append_of_neg {h : List ε} {e : ε} (he : p e = false) : last? p (h ++ [e]) = last? p h := by
  simp [last?, he]

end History

namespace Machine

variable {σ τ ι ρ : Type*} (M : Machine σ ι ρ)

/-- The state after a list of inputs. -/
def final (s : σ) : List ι → σ
  | [] => s
  | i :: is => final (M s i).2 is

/-- The inputs of a run with their answers. -/
def trace (s : σ) : List ι → History ι ρ
  | [] => []
  | i :: is => (i, (M s i).1) :: trace (M s i).2 is

/-- Every step of the run is taken under `G`. -/
def Along (G : History ι ρ → σ → ι → Prop) : History ι ρ → σ → List ι → Prop
  | _, _, [] => True
  | h, s, i :: is => G h s i ∧ Along G (h ++ [(i, (M s i).1)]) (M s i).2 is

/-- The condition of a run can be evaluated on it. -/
instance decidableAlong (G : History ι ρ → σ → ι → Prop) [∀ h s i, Decidable (G h s i)] :
    ∀ h s is, Decidable (M.Along G h s is)
  | _, _, [] => isTrue trivial
  | h, s, i :: is => @instDecidableAnd _ _ _ (decidableAlong G (h ++ [(i, (M s i).1)]) (M s i).2 is)

/-- `P` holds in every state the run reaches, the first one included. -/
def Throughout (P : History ι ρ → σ → Prop) : History ι ρ → σ → List ι → Prop
  | h, s, [] => P h s
  | h, s, i :: is => P h s ∧ Throughout P (h ++ [(i, (M s i).1)]) (M s i).2 is

theorem length_trace (s : σ) (is : List ι) : (M.trace s is).length = is.length := by
  induction is generalizing s with
  | nil => rfl
  | cons i is ih => simp only [trace, List.length_cons, ih]

theorem final_append (s : σ) (is js : List ι) : M.final s (is ++ js) = M.final (M.final s is) js := by
  induction is generalizing s with
  | nil => rfl
  | cons i is ih => exact ih _

theorem trace_append (s : σ) (is js : List ι) : M.trace s (is ++ js) = M.trace s is ++ M.trace (M.final s is) js := by
  induction is generalizing s with
  | nil => rfl
  | cons i is ih => simp only [List.cons_append, trace, final, ih]

/-- A run through an event: what came before it, the step itself, and what comes after. -/
theorem trace_eq_append_cons {s : σ} {is : List ι} {h₁ h₂ : History ι ρ} {e : ι × ρ}
    (h : M.trace s is = h₁ ++ e :: h₂) : ∃ is₁ is₂, is = is₁ ++ e.1 :: is₂ ∧ M.trace s is₁ = h₁ ∧
      (M (M.final s is₁) e.1).1 = e.2 ∧ M.trace (M (M.final s is₁) e.1).2 is₂ = h₂ := by
  induction h₁ generalizing s is with
  | nil =>
    cases is with
    | nil => cases h
    | cons i is =>
      rw [trace, List.nil_append, List.cons.injEq] at h
      obtain ⟨rfl, rfl⟩ := h
      exact ⟨[], is, rfl, rfl, rfl, rfl⟩
  | cons e' h₁ ih =>
    cases is with
    | nil => cases h
    | cons i is =>
      rw [trace, List.cons_append, List.cons.injEq] at h
      obtain ⟨rfl, h⟩ := h
      obtain ⟨is₁, is₂, rfl, rfl, he, hrest⟩ := ih h
      exact ⟨i :: is₁, is₂, rfl, rfl, he, hrest⟩

/-- The input under a name that no other input has. -/
theorem eq_of_nodup_filterMap {κ : Type*} {name : ι → Option κ} {k : κ} {is is₁ is₂ js₁ js₂ : List ι} {i j : ι}
    (hnodup : (is.filterMap name).Nodup) (hi : is = is₁ ++ i :: is₂) (hj : is = js₁ ++ j :: js₂)
    (hki : name i = some k) (hkj : name j = some k) : is₁ = js₁ ∧ i = j ∧ is₂ = js₂ := by
  have hleft : ∀ {l : List ι} {m : ι} {t u : List ι}, is = l ++ m :: (t ++ u) → name m = some k →
      k ∉ (t ++ u).filterMap name := by
    intro l m t u heq hm hmem
    rw [heq, List.filterMap_append, List.filterMap_cons_some hm] at hnodup
    exact (List.nodup_cons.1 (List.nodup_append.1 hnodup).2.1).1 hmem
  have hmem : ∀ {m : ι} {t u : List ι}, name m = some k → k ∈ (t ++ m :: u).filterMap name := by
    intro m t u hm
    exact List.mem_filterMap.2 ⟨m, by simp, hm⟩
  rcases List.append_eq_append_iff.1 (hi.symm.trans hj) with ⟨t, rfl, hcons⟩ | ⟨t, rfl, hcons⟩
  · cases t with
    | nil =>
      obtain ⟨rfl, rfl⟩ := List.cons.inj hcons
      exact ⟨(List.append_nil _).symm, rfl, rfl⟩
    | cons m t =>
      obtain ⟨rfl, rfl⟩ := List.cons.inj hcons
      exact absurd (hmem hkj) (hleft hi hki)
  · cases t with
    | nil =>
      obtain ⟨rfl, rfl⟩ := List.cons.inj hcons
      exact ⟨List.append_nil _, rfl, rfl⟩
    | cons m t =>
      obtain ⟨rfl, rfl⟩ := List.cons.inj hcons
      exact absurd (hmem hki) (hleft hj hkj)

theorem map_fst_trace (s : σ) (is : List ι) : (M.trace s is).map (·.1) = is := by
  induction is generalizing s with
  | nil => rfl
  | cons i is ih => simp only [trace, List.map_cons, ih]

/-! ## Invariants -/

variable {M}

theorem Along.mono {G G' : History ι ρ → σ → ι → Prop} (hG : ∀ h s i, G h s i → G' h s i) {h : History ι ρ}
    {s : σ} {is : List ι} (ha : M.Along G h s is) : M.Along G' h s is := by
  induction is generalizing h s with
  | nil => trivial
  | cons i is ih => exact ⟨hG _ _ _ ha.1, ih ha.2⟩

theorem Along.and {G G' : History ι ρ → σ → ι → Prop} {h : History ι ρ} {s : σ} {is : List ι} (ha : M.Along G h s is)
    (ha' : M.Along G' h s is) : M.Along (fun h s i => G h s i ∧ G' h s i) h s is := by
  induction is generalizing h s with
  | nil => trivial
  | cons i is ih => exact ⟨⟨ha.1, ha'.1⟩, ih ha.2 ha'.2⟩

theorem along_append {G : History ι ρ → σ → ι → Prop} {h : History ι ρ} {s : σ} {is js : List ι} :
    M.Along G h s (is ++ js) ↔ M.Along G h s is ∧ M.Along G (h ++ M.trace s is) (M.final s is) js := by
  induction is generalizing h s with
  | nil => simp [Along, trace, final]
  | cons i is ih => simp [Along, trace, final, ih, and_assoc]

/-- Every step of a run, as the inputs before it, its own and those after it. -/
theorem along_iff_forall {G : σ → ι → Prop} {h : History ι ρ} {s : σ} {is : List ι} :
    M.Along (fun _ s i => G s i) h s is ↔ ∀ is₁ i is₂, is = is₁ ++ i :: is₂ → G (M.final s is₁) i := by
  constructor
  · rintro ha is₁ i is₂ rfl
    exact (along_append.1 ha).2.1
  · intro hall
    induction is generalizing h s with
    | nil => trivial
    | cons i is ih =>
      refine ⟨hall [] i is rfl, ih fun is₁ i' is₂ heq => ?_⟩
      rw [heq] at hall
      exact hall (i :: is₁) i' is₂ rfl

/-- Inputs related to all later ones, by names of their own or by times in order, say. -/
theorem along_of_pairwise {R : ι → ι → Prop} {h : History ι ρ} {s : σ} {is : List ι}
    (hp : (h.map (·.1) ++ is).Pairwise R) : M.Along (fun h _ i => ∀ e ∈ h, R e.1 i) h s is := by
  induction is generalizing h s with
  | nil => trivial
  | cons i is ih =>
    refine ⟨fun e he => (List.pairwise_append.1 hp).2.2 _ (List.mem_map_of_mem he) _ List.mem_cons_self, ih ?_⟩
    rwa [List.map_append, List.map_singleton, List.append_assoc, List.singleton_append]

/-- Conditions that agree on every step agree on every run. -/
theorem along_congr {G G' : History ι ρ → σ → ι → Prop} (hG : ∀ h s i, G h s i ↔ G' h s i) {h : History ι ρ}
    {s : σ} {is : List ι} : M.Along G h s is ↔ M.Along G' h s is :=
  ⟨.mono fun h s i => (hG h s i).1, .mono fun h s i => (hG h s i).2⟩

/-- What every step taken under `G` keeps holds at the end of the run. -/
theorem Along.inv {G : History ι ρ → σ → ι → Prop} {I : History ι ρ → σ → Prop}
    (hstep : ∀ h s i, I h s → G h s i → I (h ++ [(i, (M s i).1)]) (M s i).2)
    {h : History ι ρ} {s : σ} {is : List ι} (ha : M.Along G h s is) (h0 : I h s) :
    I (h ++ M.trace s is) (M.final s is) := by
  induction is generalizing h s with
  | nil => simpa [trace, final] using h0
  | cons i is ih =>
    have := ih ha.2 (hstep _ _ _ h0 ha.1)
    simpa [trace, final] using this

/-- What every step keeps holds at the end of every run. -/
theorem run_inv {I : History ι ρ → σ → Prop}
    (hstep : ∀ h s i, I h s → I (h ++ [(i, (M s i).1)]) (M s i).2)
    {h : History ι ρ} {s : σ} (h0 : I h s) (is : List ι) :
    I (h ++ M.trace s is) (M.final s is) := by
  have ha : M.Along (fun _ _ _ => True) h s is := by
    induction is generalizing h s with
    | nil => trivial
    | cons i is ih => exact ⟨trivial, ih (hstep _ _ _ h0)⟩
  exact ha.inv (fun h s i hi _ => hstep h s i hi) h0

/-- An invariant with a number that grows with the events of a kind holds at the end of a run with
their count, which stays below a limit. -/
theorem count_inv {I : ℕ → σ → Prop} {p : ι × ρ → Bool} {Q : ι × ρ → Prop} {limit n : ℕ} {s : σ} {is : List ι}
    (hstep : ∀ n s i, I n s → Q (i, (M s i).1) → (n + if p (i, (M s i).1) then 1 else 0) < limit →
      I (n + if p (i, (M s i).1) then 1 else 0) (M s i).2)
    (hQ : ∀ e ∈ M.trace s is, Q e) (h0 : I n s) (hlimit : n + (M.trace s is).countP p < limit) :
    I (n + (M.trace s is).countP p) (M.final s is) := by
  induction is generalizing n s with
  | nil => simpa [trace, final] using h0
  | cons i is ih =>
    rw [trace, List.countP_cons, Nat.add_comm (List.countP ..), ← Nat.add_assoc] at hlimit ⊢
    rw [trace, List.forall_mem_cons] at hQ
    exact ih hQ.2 (hstep n s i h0 hQ.1 (by omega)) hlimit

/-- What every step taken under `G` keeps holds in every state of the run. -/
theorem Along.throughout {G : History ι ρ → σ → ι → Prop} {I : History ι ρ → σ → Prop}
    (hstep : ∀ h s i, I h s → G h s i → I (h ++ [(i, (M s i).1)]) (M s i).2)
    {h : History ι ρ} {s : σ} {is : List ι} (ha : M.Along G h s is) (h0 : I h s) : M.Throughout I h s is := by
  induction is generalizing h s with
  | nil => exact h0
  | cons i is ih => exact ⟨h0, ih ha.2 (hstep _ _ _ h0 ha.1)⟩

theorem Throughout.mono {P Q : History ι ρ → σ → Prop} (hPQ : ∀ h s, P h s → Q h s) {h : History ι ρ} {s : σ}
    {is : List ι} (hp : M.Throughout P h s is) : M.Throughout Q h s is := by
  induction is generalizing h s with
  | nil => exact hPQ _ _ hp
  | cons i is ih => exact ⟨hPQ _ _ hp.1, ih hp.2⟩

theorem Throughout.final {P : History ι ρ → σ → Prop} {h : History ι ρ} {s : σ} {is : List ι}
    (hp : M.Throughout P h s is) : P (h ++ M.trace s is) (M.final s is) := by
  induction is generalizing h s with
  | nil => simpa [trace, Machine.final, Throughout] using hp
  | cons i is ih => simpa [trace, Machine.final] using ih hp.2

/-- Where the invariant `I` holds, `P` survives exactly the steps taken under
`G`: so it holds throughout exactly the runs whose steps are all taken under `G`.
The runs are those whose steps are all taken under `H`. -/
theorem Along.throughout_iff {H G : History ι ρ → σ → ι → Prop} {I P : History ι ρ → σ → Prop}
    (hinv : ∀ h s i, H h s i → I h s → I (h ++ [(i, (M s i).1)]) (M s i).2)
    (hstep : ∀ h s i, H h s i → I h s → P h s → (P (h ++ [(i, (M s i).1)]) (M s i).2 ↔ G h s i))
    {h : History ι ρ} {s : σ} {is : List ι} (ha : M.Along H h s is) (hI : I h s) (h0 : P h s) :
    M.Throughout P h s is ↔ M.Along G h s is := by
  induction is generalizing h s with
  | nil => exact ⟨fun _ => trivial, fun _ => h0⟩
  | cons i is ih =>
    obtain ⟨hi, his⟩ := ha
    have hI' := hinv h s i hi hI
    have hiff := hstep h s i hi hI h0
    constructor
    · rintro ⟨-, ht⟩
      have hp : P (h ++ [(i, (M s i).1)]) (M s i).2 := by
        cases is with
        | nil => exact ht
        | cons => exact ht.1
      exact ⟨hiff.1 hp, (ih his hI' hp).1 ht⟩
    · rintro ⟨hg, hrest⟩
      exact ⟨h0, (ih his hI' (hiff.2 hg)).2 hrest⟩

/-- The same over the inputs of which `Q` holds. -/
theorem throughout_iff_along_of {Q : ι → Prop} {G : History ι ρ → σ → ι → Prop} {I P : History ι ρ → σ → Prop}
    (hinv : ∀ h s i, Q i → I h s → I (h ++ [(i, (M s i).1)]) (M s i).2)
    (hstep : ∀ h s i, Q i → I h s → P h s → (P (h ++ [(i, (M s i).1)]) (M s i).2 ↔ G h s i))
    {h : History ι ρ} {s : σ} (hI : I h s) (h0 : P h s) {is : List ι} (hQ : ∀ i ∈ is, Q i) :
    M.Throughout P h s is ↔ M.Along G h s is := by
  have ha : M.Along (fun _ _ i => Q i) h s is := by
    refine along_iff_forall.2 fun is₁ i is₂ heq => hQ i ?_
    rw [heq]
    exact List.mem_append_right _ List.mem_cons_self
  exact ha.throughout_iff hinv hstep hI h0

/-- The same over all inputs. -/
theorem throughout_iff_along {G : History ι ρ → σ → ι → Prop} {I P : History ι ρ → σ → Prop}
    (hinv : ∀ h s i, I h s → I (h ++ [(i, (M s i).1)]) (M s i).2)
    (hstep : ∀ h s i, I h s → P h s → (P (h ++ [(i, (M s i).1)]) (M s i).2 ↔ G h s i))
    {h : History ι ρ} {s : σ} (hI : I h s) (h0 : P h s) (is : List ι) :
    M.Throughout P h s is ↔ M.Along G h s is :=
  throughout_iff_along_of (fun h s i (_ : True) => hinv h s i) (fun h s i _ => hstep h s i) hI h0 fun _ _ => trivial

/-- What the steps taken under `G` answer where the invariant holds, every step of the run answers. -/
theorem Along.mono_of_inv {G G' : History ι ρ → σ → ι → Prop} {I : History ι ρ → σ → Prop}
    (hstep : ∀ h s i, I h s → G h s i → I (h ++ [(i, (M s i).1)]) (M s i).2)
    (hG : ∀ h s i, I h s → G h s i → G' h s i) {h : History ι ρ} {s : σ} {is : List ι} (ha : M.Along G h s is)
    (h0 : I h s) : M.Along G' h s is := by
  induction is generalizing h s with
  | nil => trivial
  | cons i is ih => exact ⟨hG _ _ _ h0 ha.1, ih ha.2 (hstep _ _ _ h0 ha.1)⟩

/-- What every step carries over changed only as `R` allows, the run carries over so. -/
theorem Along.exists_rel {α : Type*} {G : History ι ρ → σ → ι → Prop} {f : σ → Option α} {R : α → α → Prop}
    (hrefl : ∀ a, R a a) (htrans : ∀ a b c, R a b → R b c → R a c)
    (hstep : ∀ h s i a, G h s i → f s = some a → ∃ a', f (M s i).2 = some a' ∧ R a a')
    {h : History ι ρ} {s : σ} {is : List ι} (ha : M.Along G h s is) {a : α} (hs : f s = some a) :
    ∃ a', f (M.final s is) = some a' ∧ R a a' := by
  induction is generalizing h s a with
  | nil => exact ⟨a, hs, hrefl a⟩
  | cons i is ih =>
    obtain ⟨a', hs', hrel⟩ := hstep _ _ _ _ ha.1 hs
    obtain ⟨a'', hs'', hrel'⟩ := ih ha.2 hs'
    exact ⟨a'', hs'', htrans _ _ _ hrel hrel'⟩

/-- Two events of a run are related as `R` says when every step's event is
related so to every event before it. -/
theorem Along.pairwise {G : History ι ρ → σ → ι → Prop} {I : History ι ρ → σ → Prop} {R : ι × ρ → ι × ρ → Prop}
    (hstep : ∀ h s i, I h s → G h s i → I (h ++ [(i, (M s i).1)]) (M s i).2)
    (hR : ∀ h s i, I h s → G h s i → ∀ e ∈ h, R e (i, (M s i).1))
    {h : History ι ρ} {s : σ} {is : List ι} (ha : M.Along G h s is) (h0 : I h s) (hp : h.Pairwise R) :
    (h ++ M.trace s is).Pairwise R := by
  refine (ha.inv (I := fun h s => I h s ∧ h.Pairwise R) ?_ ⟨h0, hp⟩).2
  rintro h s i ⟨hi, hp⟩ hg
  refine ⟨hstep h s i hi hg, List.pairwise_append.2 ⟨hp, List.pairwise_singleton _ _, ?_⟩⟩
  intro e he e' he'
  rw [List.mem_singleton.1 he']
  exact hR h s i hi hg e he

/-! ## Two machines side by side -/

/-- A relation that every step under `G` keeps, with equal answers, makes the
two machines answer the whole run alike. It may speak of what has happened so far. -/
theorem Along.trace_eq_of {N : Machine τ ι ρ} {G : History ι ρ → σ → ι → Prop} {R : History ι ρ → σ → τ → Prop}
    (hstep : ∀ h s t i, R h s t → G h s i → (M s i).1 = (N t i).1 ∧ R (h ++ [(i, (M s i).1)]) (M s i).2 (N t i).2)
    {h : History ι ρ} {s : σ} {t : τ} {is : List ι} (ha : M.Along G h s is) (h0 : R h s t) :
    M.trace s is = N.trace t is := by
  induction is generalizing h s t with
  | nil => rfl
  | cons i is ih =>
    obtain ⟨he, hr⟩ := hstep _ _ _ _ h0 ha.1
    simp only [trace, he, ih ha.2 hr]

theorem Along.trace_eq {N : Machine τ ι ρ} {G : History ι ρ → σ → ι → Prop} {R : σ → τ → Prop}
    (hstep : ∀ h s t i, R s t → G h s i → (M s i).1 = (N t i).1 ∧ R (M s i).2 (N t i).2)
    {h : History ι ρ} {s : σ} {t : τ} {is : List ι} (ha : M.Along G h s is) (h0 : R s t) :
    M.trace s is = N.trace t is :=
  ha.trace_eq_of (R := fun _ => R) hstep h0

end Machine

end Lib
