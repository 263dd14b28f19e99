import GmKms.Lib.WriteThrough
import GmKms.Pbac.Engine
/-!
# Policies in memory and in the repository

A change reaches the repository first and the map in a step of its own. This module
says when the map nevertheless is what a restart would load.
-/

namespace GmKms.Pbac

open Lib
open Audit (IterOrder)

variable {F : Type}

/-- The map is what `load_from_repository` would make of the repository. -/
def PBACEngine.Consistent (e : PBACEngine F) : Prop :=
  ∀ t, e.repository = some t → ∀ order, e.policies = (e.replaceAll (t.loadAll order)).policies

/-- A restart changes no policy of a consistent engine. -/
theorem PBACEngine.Consistent.loadFromRepository {e : PBACEngine F} (h : e.Consistent) {order : IterOrder (Policy F)}
    {n : ℕ} {e' : PBACEngine F} (hload : e.loadFromRepository order none = .ok (n, e')) : e'.policies = e.policies := by
  unfold PBACEngine.loadFromRepository at hload
  cases ht : e.repository with
  | none => simp [ht] at hload
  | some t =>
    simp only [ht, Except.ok.injEq, Prod.mk.injEq] at hload
    rw [← hload.2]
    exact (h t ht order).symm

namespace EngineRun

/-- A call changes the map only while the repository holds what it wrote there, or while
another call that wrote what the repository holds has yet to change the map. -/
def InOrder (s : EngineRun F) : EngineInput F → Prop
  | .call _ _ => True
  | .next n _ =>
    match s.calls n with
    | some (.persisted c) => ∀ t, s.engine.repository = some t → t.rows[c.id]? = c.effect ∨
        ∃ m c', m ≠ n ∧ s.calls m = some (.persisted c') ∧ c'.id = c.id ∧ t.rows[c.id]? = c'.effect
    | _ => True

/-- Once all calls have returned, the map and the repository agree. -/
def AgreesAtRest (s : EngineRun F) : Prop := (∀ n, s.calls n = none) → s.engine.Consistent

/-- An engine that has loaded its policies from the repository, without calls. -/
def start (order : IterOrder (Policy F)) (t : PolicyTable F) : EngineRun F :=
  ⟨(PBACEngine.new.withRepository t).replaceAll (t.loadAll order), fun _ => none⟩

end EngineRun

/-! ## What is loaded -/

theorem mem_loadAll {t : PolicyTable F} {order : IterOrder (Policy F)} {p : Policy F} :
    p ∈ t.loadAll order ↔ t.rows[p.id]? = some p := by
  rw [PolicyTable.loadAll, (order.perm _).mem_iff, List.mem_map]
  constructor
  · rintro ⟨⟨id, p⟩, hp, rfl⟩
    have hrow := Std.ExtTreeMap.mem_toList_iff_getElem?_eq_some.1 hp
    rwa [t.ids id p hrow]
  · intro hrow
    exact ⟨(p.id, p), Std.ExtTreeMap.mem_toList_iff_getElem?_eq_some.2 hrow, rfl⟩

theorem pairwise_loadAll (t : PolicyTable F) (order : IterOrder (Policy F)) :
    (t.loadAll order).Pairwise fun p q => p.id ≠ q.id := by
  have hrows : (t.rows.toList.map (·.2)).Pairwise fun p q => p.id ≠ q.id := by
    rw [List.pairwise_map]
    refine Std.ExtTreeMap.distinct_keys_toList.imp_of_mem ?_
    rintro ⟨id, p⟩ ⟨id', p'⟩ hp hp' hne heq
    rw [t.ids id p (Std.ExtTreeMap.mem_toList_iff_getElem?_eq_some.1 hp),
      t.ids id' p' (Std.ExtTreeMap.mem_toList_iff_getElem?_eq_some.1 hp')] at heq
    exact hne (Std.compare_eq_iff_eq.2 heq)
  exact hrows.perm (order.perm _).symm fun hne => hne.symm

/-- A policy is loaded under the text of its id. -/
theorem getElem?_replaceAll {e : PBACEngine F} {t : PolicyTable F} {order : IterOrder (Policy F)} {key : String}
    {p : Policy F} : (e.replaceAll (t.loadAll order)).policies[key]? = some p ↔
      ∃ id : Uuid, id.text = key ∧ t.rows[id]? = some p := by
  have hdistinct : ((t.loadAll order).map fun p => (p.id.text, p)).Pairwise
      fun a b => ¬compare a.1 b.1 = .eq := by
    rw [List.pairwise_map]
    refine (pairwise_loadAll t order).imp fun hne heq => hne ?_
    exact Uuid.text_injective (Std.compare_eq_iff_eq.1 heq)
  rw [PBACEngine.replaceAll]
  constructor
  · intro hp
    by_cases hloaded : ∃ p' ∈ t.loadAll order, p'.id.text = key
    · obtain ⟨p', hmem, rfl⟩ := hloaded
      rw [Std.ExtTreeMap.getElem?_ofList_of_mem (by simp) hdistinct (List.mem_map.2 ⟨p', hmem, rfl⟩)] at hp
      cases hp
      exact ⟨p.id, rfl, mem_loadAll.1 hmem⟩
    · have hkey : (((t.loadAll order).map fun p => (p.id.text, p)).map Prod.fst).contains key = false := by
        simpa [List.contains_eq_mem] using hloaded
      rw [Std.ExtTreeMap.getElem?_ofList_of_contains_eq_false hkey] at hp
      cases hp
  · rintro ⟨id, rfl, hrow⟩
    have hid := t.ids id p hrow
    subst hid
    exact Std.ExtTreeMap.getElem?_ofList_of_mem (by simp) hdistinct (List.mem_map.2 ⟨p, mem_loadAll.2 hrow, rfl⟩)

/-! ## The invariant -/

def CallPhase.pending : CallPhase F → Option (Uuid × Option (Policy F))
  | called _ => none
  | persisted c => some (c.id, c.effect)

namespace EngineRun

/-- What a call has written to the repository and not yet to the map. -/
def pending (s : EngineRun F) (n : ℕ) : Option (Uuid × Option (Policy F)) :=
  (s.calls n).bind CallPhase.pending

/-- The map has policies under texts of ids alone, and lags behind the repository only
where a call has yet to change it. -/
def LagsBehind (s : EngineRun F) (t : PolicyTable F) : Prop :=
  (∀ (key : String) p, s.engine.policies[key]? = some p → ∃ id : Uuid, id.text = key) ∧
    Covered (fun id => t.rows[id]?) (fun id => s.engine.policies[id.text]?) s.pending

end EngineRun

theorem rows_save (t : PolicyTable F) (p : Policy F) :
    (fun id => (t.save p).rows[id]?) = Function.update (fun id => t.rows[id]?) p.id (some p) := by
  funext id
  rw [PolicyTable.save, HashMap.getElem?_insert, Function.update_apply]

theorem rows_delete (t : PolicyTable F) (id : Uuid) :
    (fun id' => (t.delete id).rows[id']?) = Function.update (fun id' => t.rows[id']?) id none := by
  funext id'
  rw [PolicyTable.delete, HashMap.getElem?_erase, Function.update_apply]

namespace PolicyCall

/-- The step on the repository writes what the call says under its id, and nothing else. -/
theorem persist_spec {c : PolicyCall F} {fault : Option PolicyStoreError} {e e' : PBACEngine F} {t : PolicyTable F}
    (ht : e.repository = some t) (h : c.persist fault e = .ok e') :
    e'.policies = e.policies ∧ ∃ t', e'.repository = some t' ∧
      (fun id => t'.rows[id]?) = Function.update (fun id => t.rows[id]?) c.id c.effect := by
  cases c with
  | addPolicy policy =>
    cases fault with
    | none =>
      simp only [persist, ht, Except.ok.injEq] at h
      subst h
      exact ⟨rfl, t.save policy, rfl, rows_save t policy⟩
    | some err =>
      simp only [persist, ht] at h
      cases h
  | removePolicy id =>
    cases fault with
    | none =>
      simp only [persist, ht, Except.ok.injEq] at h
      subst h
      exact ⟨rfl, t.delete id, rfl, rows_delete t id⟩
    | some err =>
      simp only [persist, ht] at h
      cases h

theorem install_repository (c : PolicyCall F) (e : PBACEngine F) :
    (c.install e).repository = e.repository := by
  cases c <;> rfl

/-- The step on the map writes the same there. -/
theorem install_policies (c : PolicyCall F) (e : PBACEngine F) (key : String) :
    (c.install e).policies[key]? = if c.id.text = key then c.effect else e.policies[key]? := by
  cases c with
  | addPolicy policy =>
    rw [install, Std.ExtTreeMap.getElem?_insert]
    exact if_congr Std.compare_eq_iff_eq rfl rfl
  | removePolicy id' =>
    rw [install, Std.ExtTreeMap.getElem?_erase]
    exact if_congr Std.compare_eq_iff_eq rfl rfl

theorem install_policies_text (c : PolicyCall F) (e : PBACEngine F) :
    (fun id : Uuid => (c.install e).policies[id.text]?) =
      Function.update (fun id : Uuid => e.policies[id.text]?) c.id c.effect := by
  funext id
  rw [install_policies, Function.update_apply]
  exact if_congr (Uuid.text_injective.eq_iff.trans eq_comm) rfl rfl

end PolicyCall

namespace EngineRun

theorem pending_setCall (s : EngineRun F) (n : ℕ) (phase : Option (CallPhase F)) :
    (s.setCall n phase).pending = Function.update s.pending n (phase.bind CallPhase.pending) := by
  funext m
  by_cases hm : m = n
  · subst hm
    simp only [pending, setCall, Function.update_self]
  · simp only [pending, setCall, Function.update_of_ne hm]

/-- Every step that no later write has overtaken leaves the map behind only where a call is under way. -/
theorem lagsBehind_step {s : EngineRun F} {i : EngineInput F}
    (hinv : ∃ t, s.engine.repository = some t ∧ s.LagsBehind t) (hin : s.InOrder i) :
    ∃ t, (step s i).2.engine.repository = some t ∧ (step s i).2.LagsBehind t := by
  obtain ⟨t, ht, hkeys, hcov⟩ := hinv
  cases i with
  | call n c =>
    cases hn : s.calls n with
    | some phase =>
      rw [step, hn]
      exact ⟨t, ht, hkeys, hcov⟩
    | none =>
      rw [step, hn]
      refine ⟨t, ht, hkeys, ?_⟩
      rw [pending_setCall]
      exact hcov.skip (by rw [pending, hn]; rfl)
  | next n fault =>
    cases hn : s.calls n with
    | none =>
      rw [step, hn]
      exact ⟨t, ht, hkeys, hcov⟩
    | some phase =>
      cases phase with
      | called c =>
        have hidle : s.pending n = none := by rw [pending, hn]; rfl
        simp only [step, hn]
        cases hp : c.persist fault s.engine with
        | error err =>
          refine ⟨t, ht, hkeys, ?_⟩
          rw [pending_setCall]
          exact hcov.skip hidle
        | ok engine =>
          obtain ⟨hpolicies, t', ht', hrows⟩ := PolicyCall.persist_spec ht hp
          refine ⟨t', ht', ?_, ?_⟩
          · intro key p hkey
            exact hkeys key p (hpolicies ▸ hkey)
          · have := hcov.write hidle c.id c.effect
            rw [← hrows, ← hpolicies] at this
            rw [pending_setCall]
            exact this
      | persisted c =>
        have hwrites : s.pending n = some (c.id, c.effect) := by rw [pending, hn]; rfl
        simp only [step, hn]
        refine ⟨t, (c.install_repository s.engine).trans ht, ?_, ?_⟩
        · intro key p hkey
          by_cases hid : c.id.text = key
          · exact ⟨c.id, hid⟩
          · refine hkeys key p ?_
            have := c.install_policies s.engine key
            rw [if_neg hid] at this
            exact this ▸ hkey
        · have hlast : t.rows[c.id]? = c.effect ∨ ∃ m, m ≠ n ∧ s.pending m = some (c.id, t.rows[c.id]?) := by
            simp only [InOrder, hn] at hin
            rcases hin t ht with heq | ⟨m, c', hne, hm, hid, heq⟩
            · exact .inl heq
            · exact .inr ⟨m, hne, by rw [pending, hm, Option.bind_some, CallPhase.pending, hid, heq]⟩
          have := hcov.catchUp hwrites hlast
          rw [← c.install_policies_text] at this
          rw [pending_setCall]
          exact this

theorem lagsBehind_start (order : IterOrder (Policy F)) (t : PolicyTable F) : (start order t).LagsBehind t := by
  constructor
  · intro key p hp
    obtain ⟨id, hid, -⟩ := getElem?_replaceAll.1 hp
    exact ⟨id, hid⟩
  · intro id
    left
    apply Option.ext
    intro p
    show (start order t).engine.policies[id.text]? = some p ↔ _
    rw [start, getElem?_replaceAll]
    constructor
    · rintro ⟨id', hid, hrow⟩
      rwa [← Uuid.text_injective hid]
    · intro hrow
      exact ⟨id, rfl, hrow⟩

theorem agreesAtRest {s : EngineRun F} (hinv : ∃ t, s.engine.repository = some t ∧ s.LagsBehind t) :
    s.AgreesAtRest := by
  intro hrest t ht order
  obtain ⟨t', ht', hkeys, hcov⟩ := hinv
  obtain rfl : t' = t := Option.some.inj (ht'.symm.trans ht)
  have hmirror := hcov.eq_of_none fun n => by rw [pending, hrest n]; rfl
  apply Std.ExtTreeMap.ext_getElem?
  intro key
  apply Option.ext
  intro p
  rw [getElem?_replaceAll]
  constructor
  · intro hp
    obtain ⟨id, rfl⟩ := hkeys key p hp
    exact ⟨id, rfl, (congrFun hmirror id).symm.trans hp⟩
  · rintro ⟨id, rfl, hrow⟩
    exact (congrFun hmirror id).trans hrow

/-- In a run without overtaken calls, whenever all calls have returned the map is what a
restart would load. -/
theorem agreesAtRest_of_inOrder (order : IterOrder (Policy F)) (t : PolicyTable F) (inputs : List (EngineInput F))
    (hin : step.Along (fun _ s i => s.InOrder i) [] (start order t) inputs) :
    step.Throughout (fun _ s => s.AgreesAtRest) [] (start order t) inputs := by
  have hinv : step.Throughout (fun _ s => ∃ t, s.engine.repository = some t ∧ s.LagsBehind t) []
      (start order t) inputs :=
    hin.throughout (I := fun _ s => ∃ t, s.engine.repository = some t ∧ s.LagsBehind t)
      (fun _ _ _ hs hi => lagsBehind_step hs hi) ⟨t, rfl, lagsBehind_start order t⟩
  exact hinv.mono fun _ _ => agreesAtRest

/-! ## An overtaken call -/

def samplePolicy : Policy ℕ :=
  ⟨1, "p", .allow, ⟨.null, rfl⟩, [], [], none, true⟩

/-- The policy is saved and then deleted before the map sees either; it sees them in the
same order. -/
def overlapping : List (EngineInput ℕ) :=
  [.call 0 (.addPolicy samplePolicy), .call 1 (.removePolicy 1), .next 0 none, .next 1 none, .next 0 none,
    .next 1 none]

theorem agreesAtRest_overlapping :
    step.Throughout (fun _ s => s.AgreesAtRest) [] (start .inserted .empty) overlapping := by
  apply agreesAtRest_of_inOrder
  simp [Machine.Along, overlapping, InOrder, step, setCall, start, PBACEngine.withRepository, PBACEngine.replaceAll,
    PolicyCall.persist, PolicyCall.install, PolicyTable.save, PolicyTable.delete, PolicyTable.empty, PolicyCall.id,
    PolicyCall.effect, samplePolicy]
  -- the first call changes the map while the second has yet to
  exact ⟨0, .removePolicy 1, by simp, rfl, rfl⟩

/-- The policy is saved and then deleted; the map sees the removal first. -/
def overtaking : List (EngineInput ℕ) :=
  [.call 0 (.addPolicy samplePolicy), .call 1 (.removePolicy 1), .next 0 none, .next 1 none, .next 1 none,
    .next 0 none]

theorem not_agreesAtRest_overtaking :
    (step.trace (start .inserted .empty) overtaking).map (·.2) =
        [none, none, none, none, some (.ok ()), some (.ok ())] ∧
      ¬step.Throughout (fun _ s => s.AgreesAtRest) [] (start .inserted .empty) overtaking := by
  constructor
  · simp [Machine.trace, overtaking, step, setCall, start, PBACEngine.withRepository, PBACEngine.replaceAll,
      PolicyCall.persist]
  · intro hagrees
    have hrest : ∀ n, (step.final (start .inserted .empty) overtaking).calls n = none := by
      intro n
      by_cases h0 : n = 0
      · simp [Machine.final, overtaking, step, setCall, start, PBACEngine.withRepository, PBACEngine.replaceAll,
          PolicyCall.persist, h0]
      · by_cases h1 : n = 1 <;>
          simp [Machine.final, overtaking, step, setCall, start, PBACEngine.withRepository, PBACEngine.replaceAll,
            PolicyCall.persist, h0, h1]
    have hempty : ∃ t, (step.final (start .inserted .empty) overtaking).engine.repository = some t ∧
        ∀ id : Uuid, t.rows[id]? = none := by
      simp [Machine.final, overtaking, step, setCall, start, PBACEngine.withRepository, PBACEngine.replaceAll,
        PolicyCall.persist, PolicyCall.install, PolicyTable.save, PolicyTable.delete, PolicyTable.empty, samplePolicy]
    have hkept : (step.final (start .inserted .empty) overtaking).engine.policies[(1 : Uuid).text]? =
        some samplePolicy := by
      simp [Machine.final, overtaking, step, setCall, start, PBACEngine.withRepository, PBACEngine.replaceAll,
        PolicyCall.persist, PolicyCall.install, samplePolicy]
    obtain ⟨t, ht, hrows⟩ := hempty
    rw [hagrees.final hrest t ht .inserted, getElem?_replaceAll] at hkept
    obtain ⟨id, -, hrow⟩ := hkept
    rw [hrows id] at hrow
    cases hrow

end EngineRun

end GmKms.Pbac
