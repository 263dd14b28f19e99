import GmKms.Pbac.Evaluate
import GmKms.Pbac.WriteThrough
/-!
# Deny overrides allow

What a decision should be, without an order of the policies: a policy with effect allow applies and its
condition is true, and no such policy has the effect deny.
-/

namespace GmKms.Pbac

open Lib
open Audit (IterOrder)

variable {F : Type}

/-- The policy is enabled and matches the request's subject, tenant and resource. -/
structure AppliesTo (ctx : AccessContext F) (p : Policy F) : Prop where
  enabled : p.enabled = true
  subject : ∃ pattern ∈ p.subjects, globMatch pattern.toList ctx.subjectId.toList = some true
  tenant : ∀ pattern, p.tenant = some pattern →
    ∃ tenant, ctx.tenantId = some tenant ∧ globMatch pattern.toList tenant.toList = some true
  resource : ∃ pattern ∈ p.resources, globMatch pattern.toList ctx.resourceId.toList = some true

/-- Some policy with the effect applies and has a true condition. -/
def HasEffect (time : TimeSource) (e : PBACEngine F) (ctx : AccessContext F) (effect : PolicyEffect) : Prop :=
  ∃ (id : String) (p : Policy F), e.policies[id]? = some p ∧ AppliesTo ctx p ∧ p.effect = effect ∧
    evaluateCondition time ctx.toPolicyContext p.condition.1 = true

/-- The request is to be allowed. -/
def Allowed (time : TimeSource) (e : PBACEngine F) (ctx : AccessContext F) : Prop :=
  HasEffect time e ctx .allow ∧ ¬ HasEffect time e ctx .deny

def AnyEnabled (e : PBACEngine F) : Prop := ∃ (id : String) (p : Policy F), e.policies[id]? = some p ∧ p.enabled = true

/-- Both calls return a decision, the same one, which is that of the rule; where no policy is enabled there is none
for the second call. -/
structure DecidesByRule (time : TimeSource) (e : PBACEngine F) (ctx : AccessContext F) (order : IterOrder (Policy F)) :
    Prop where
  evaluate : ∃ d, e.evaluate time order ctx = some d ∧ (d = .allow ↔ Allowed time e ctx) ∧
    (AnyEnabled e → e.evaluateIfConfigured time order ctx = some (some d))
  unconfigured : e.evaluateIfConfigured time order ctx = some none ↔ ¬ AnyEnabled e

/-! ## The filter -/

theorem anyGlob_eq_true_iff {patterns : List String} {text : String} (hsome : (anyGlob patterns text).isSome) :
    anyGlob patterns text = some true ↔ ∃ pattern ∈ patterns, globMatch pattern.toList text.toList = some true := by
  induction patterns with
  | nil => simp [anyGlob]
  | cons pattern patterns ih =>
    rw [anyGlob] at hsome ⊢
    rw [List.exists_mem_cons_iff]
    cases hmatch : globMatch pattern.toList text.toList with
    | none => simp [hmatch] at hsome
    | some found =>
      cases found with
      | true => simp
      | false =>
        rw [hmatch] at hsome
        simpa using ih hsome

theorem tenantMatches_eq_true_iff {p : Policy F} {ctx : AccessContext F} : tenantMatches p ctx = some true ↔
    ∀ pattern, p.tenant = some pattern →
      ∃ tenant, ctx.tenantId = some tenant ∧ globMatch pattern.toList tenant.toList = some true := by
  unfold tenantMatches
  cases p.tenant with
  | none => simp
  | some pattern => cases ctx.tenantId <;> simp

theorem policyApplies_eq_true_iff {ctx : AccessContext F} {p : Policy F} (hsome : (policyApplies ctx p).isSome) :
    policyApplies ctx p = some true ↔ AppliesTo ctx p := by
  have hparts : AppliesTo ctx p ↔ p.enabled = true ∧
      (∃ pattern ∈ p.subjects, globMatch pattern.toList ctx.subjectId.toList = some true) ∧
      tenantMatches p ctx = some true ∧
      ∃ pattern ∈ p.resources, globMatch pattern.toList ctx.resourceId.toList = some true := by
    rw [tenantMatches_eq_true_iff]
    exact ⟨fun h => ⟨h.enabled, h.subject, h.tenant, h.resource⟩, fun h => ⟨h.1, h.2.1, h.2.2.1, h.2.2.2⟩⟩
  rw [hparts]
  rw [policyApplies_isSome_iff] at hsome
  unfold policyApplies
  cases henabled : p.enabled with
  | false => simp
  | true =>
    obtain ⟨hsubject, hrest⟩ := safePolicy_iff.1 (hsome henabled)
    rw [← anyGlob_eq_true_iff hsubject]
    cases hsub : anyGlob p.subjects ctx.subjectId with
    | none => simp [hsub] at hsubject
    | some subjectMatch =>
      cases subjectMatch with
      | false => simp
      | true =>
        obtain ⟨htenant, hresource⟩ := hrest hsub
        cases hten : tenantMatches p ctx with
        | none => simp [hten] at htenant
        | some tenantMatch =>
          cases tenantMatch with
          | false => simp
          | true =>
            rw [← anyGlob_eq_true_iff (hresource hten)]
            simp

theorem mem_of_matchingPolicies {ctx : AccessContext F} {ps matching : List (Policy F)}
    (h : matchingPolicies ctx ps = some matching) {p : Policy F} :
    p ∈ matching ↔ p ∈ ps ∧ policyApplies ctx p = some true := by
  induction ps generalizing matching with
  | nil =>
    cases h
    simp
  | cons q ps ih =>
    rw [matchingPolicies] at h
    obtain ⟨applies, happlies, h⟩ := Option.bind_eq_some_iff.1 h
    obtain ⟨rest, hrest, rfl⟩ := Option.map_eq_some_iff.1 h
    cases applies with
    | true =>
      rw [if_pos rfl, List.mem_cons, List.mem_cons, ih hrest]
      constructor
      · rintro (rfl | ⟨hmem, hp⟩)
        · exact ⟨.inl rfl, happlies⟩
        · exact ⟨.inr hmem, hp⟩
      · rintro ⟨rfl | hmem, hp⟩
        · exact .inl rfl
        · exact .inr ⟨hmem, hp⟩
    | false =>
      rw [if_neg (by simp), List.mem_cons, ih hrest]
      constructor
      · rintro ⟨hmem, hp⟩
        exact ⟨.inr hmem, hp⟩
      · rintro ⟨rfl | hmem, hp⟩
        · rw [happlies] at hp
          cases hp
        · exact ⟨hmem, hp⟩

/-! ## The sort and the scan -/

theorem pairwise_denyFirst (ps : List (Policy F)) :
    (ps.mergeSort denyFirst).Pairwise fun a b => denyFirst a b = true := by
  refine List.pairwise_mergeSort (fun a b c => ?_) (fun a b => ?_) ps
  · cases ha : a.effect <;> cases hb : b.effect <;> cases hc : c.effect <;> simp [denyFirst, ha, hb, hc]
  · cases ha : a.effect <;> cases hb : b.effect <;> simp [denyFirst, ha, hb]

/-- The first true condition is that of a denying policy if any is. -/
theorem decision_eq_allow_iff {cond : Policy F → Bool} {ps : List (Policy F)} :
    (match (ps.mergeSort denyFirst).find? cond with
      | some p => p.decision
      | none => Decision.deny) = .allow ↔
    (∃ p ∈ ps, p.effect = .allow ∧ cond p = true) ∧ ¬ ∃ p ∈ ps, p.effect = .deny ∧ cond p = true := by
  cases hfind : (ps.mergeSort denyFirst).find? cond with
  | none =>
    have hnone : ∀ p ∈ ps, ¬ cond p = true := by simpa using hfind
    refine ⟨by rintro ⟨⟩, ?_⟩
    rintro ⟨⟨p, hp, -, hcond⟩, -⟩
    exact absurd hcond (hnone p hp)
  | some p =>
    obtain ⟨hcond, before, after, hsorted, hbefore⟩ := List.find?_eq_some_iff_append.1 hfind
    have hmem : ∀ q, q ∈ ps ↔ q ∈ before ∨ q = p ∨ q ∈ after := by
      intro q
      have hsort : q ∈ ps.mergeSort denyFirst ↔ q ∈ ps := List.mem_mergeSort
      rw [← hsort, hsorted, List.mem_append, List.mem_cons]
    have hp : p ∈ ps := (hmem p).2 (.inr (.inl rfl))
    cases heffect : p.effect with
    | deny =>
      have hdecision : p.decision = .deny := by rw [Policy.decision, heffect]
      simp only [hdecision, reduceCtorEq, false_iff]
      rintro ⟨-, hno⟩
      exact hno ⟨p, hp, heffect, hcond⟩
    | allow =>
      have hdecision : p.decision = .allow := by rw [Policy.decision, heffect]
      simp only [hdecision, true_iff]
      refine ⟨⟨p, hp, heffect, hcond⟩, ?_⟩
      rintro ⟨q, hq, hdeny, hqcond⟩
      -- a denying policy with a true condition stands neither before the first one found nor after it
      rcases (hmem q).1 hq with hq | rfl | hq
      · simpa [hqcond] using hbefore q hq
      · rw [heffect] at hdeny
        cases hdeny
      · have hpairs := pairwise_denyFirst ps
        rw [hsorted, List.pairwise_append, List.pairwise_cons] at hpairs
        have hle := hpairs.2.1.1 q hq
        simp [denyFirst, heffect, hdeny] at hle

namespace PBACEngine

variable {time : TimeSource} {order : IterOrder (Policy F)} {e : PBACEngine F} {ctx : AccessContext F}

theorem evaluate_eq_allow_iff (hsafe : ∀ (id : String) (p : Policy F), e.policies[id]? = some p → p.enabled = true →
    SafePolicy ctx p) : e.evaluate time order ctx = some .allow ↔ Allowed time e ctx := by
  obtain ⟨matching, hmatching⟩ := Option.isSome_iff_exists.1 ((matchingPolicies_values_isSome_iff order e ctx).2 hsafe)
  have heffect : ∀ effect, HasEffect time e ctx effect ↔ ∃ p ∈ matching, p.effect = effect ∧
      evaluateCondition time ctx.toPolicyContext p.condition.1 = true := by
    intro effect
    constructor
    · rintro ⟨id, p, hp, happlies, heffect, hcond⟩
      refine ⟨p, ?_, heffect, hcond⟩
      rw [mem_of_matchingPolicies hmatching, policyApplies_eq_true_iff (policyApplies_isSome_iff.2 (hsafe id p hp))]
      exact ⟨mem_values_iff.2 ⟨id, hp⟩, happlies⟩
    · rintro ⟨p, hmem, heffect, hcond⟩
      obtain ⟨hvalue, happlies⟩ := (mem_of_matchingPolicies hmatching).1 hmem
      obtain ⟨id, hp⟩ := mem_values_iff.1 hvalue
      rw [policyApplies_eq_true_iff (by rw [happlies]; rfl)] at happlies
      exact ⟨id, p, hp, happlies, heffect, hcond⟩
  rw [evaluate, hmatching, Option.map_some, Option.some.injEq, Allowed, heffect, heffect]
  exact decision_eq_allow_iff

theorem all_disabled_iff : ((e.values order).all fun p => !p.enabled) = true ↔ ¬ AnyEnabled e := by
  rw [List.all_eq_true]
  constructor
  · rintro hall ⟨id, p, hp, henabled⟩
    have hdisabled := hall p (mem_values_iff.2 ⟨id, hp⟩)
    rw [henabled] at hdisabled
    cases hdisabled
  · intro hnone p hp
    obtain ⟨id, hid⟩ := mem_values_iff.1 hp
    rw [Bool.not_eq_true', ← Bool.not_eq_true]
    exact fun henabled => hnone ⟨id, p, hid, henabled⟩

/-- The calls decide by the rule where every enabled policy compares the request with patterns it can be sliced for,
and panic where one does not. -/
theorem decidesByRule_iff (time : TimeSource) (e : PBACEngine F) (ctx : AccessContext F) :
    (∀ order, DecidesByRule time e ctx order) ↔
      ∀ (id : String) (p : Policy F), e.policies[id]? = some p → p.enabled = true → SafePolicy ctx p := by
  constructor
  · intro h
    obtain ⟨d, hd, -⟩ := (h .inserted).evaluate
    rw [← evaluate_isSome_iff time .inserted, hd]
    rfl
  · intro hsafe order
    obtain ⟨d, hd⟩ := Option.isSome_iff_exists.1 ((evaluate_isSome_iff time order e ctx).2 hsafe)
    have hnone : ((e.values order).all fun p => !p.enabled) = true ↔ ¬ AnyEnabled e := all_disabled_iff
    refine ⟨⟨d, hd, ?_, fun henabled => ?_⟩, ?_⟩
    · rw [← evaluate_eq_allow_iff hsafe, hd, Option.some.injEq]
    · rw [evaluateIfConfigured, if_neg fun hdisabled => hnone.1 hdisabled henabled, hd]
      rfl
    · rw [← hnone, evaluateIfConfigured]
      split
      · rename_i hdisabled
        exact ⟨fun _ => hdisabled, fun _ => rfl⟩
      · rename_i henabled
        refine ⟨fun h => ?_, fun hdisabled => absurd hdisabled henabled⟩
        obtain ⟨_, -, ⟨⟩⟩ := Option.map_eq_some_iff.1 h

/-- A policy for `bob`, next to which `suffixPolicy` is never decided for him. -/
def bobPolicy : Policy Empty where
  id := 2
  name := "bob"
  effect := .allow
  condition := ⟨.bool true, isValue_true⟩
  resources := ["*"]
  subjects := ["bob"]
  tenant := none
  enabled := true

def bobAndAdmins : PBACEngine Empty :=
  (PolicyCall.addPolicy bobPolicy).install ((PolicyCall.addPolicy suffixPolicy).install .new)

/-- The rule allows what the calls panic at. -/
theorem not_decidesByRule : Allowed ⟨.ok 0, 0⟩ bobAndAdmins (.new "bob" "encrypt" "key:1") ∧
    ¬ ∀ (time : TimeSource) (e : PBACEngine Empty) (ctx : AccessContext Empty) (order : IterOrder (Policy Empty)),
      DecidesByRule time e ctx order := by
  constructor
  · have hpolicies : ∀ id : String, bobAndAdmins.policies[id]? =
        if Uuid.text 2 = id then some bobPolicy else if Uuid.text 1 = id then some suffixPolicy else none := by
      intro id
      rw [bobAndAdmins, PolicyCall.install_policies, PolicyCall.install_policies]
      simp [PolicyCall.id, PolicyCall.effect, bobPolicy, suffixPolicy, new]
    refine ⟨⟨Uuid.text 2, bobPolicy, by rw [hpolicies, if_pos rfl], ⟨rfl, ⟨"bob", by simp [bobPolicy], by decide⟩,
      by rintro _ ⟨⟩, ⟨"*", by simp [bobPolicy], by decide⟩⟩, rfl, by simp [evaluateCondition, bobPolicy]⟩, ?_⟩
    rintro ⟨id, p, hp, happlies, hdeny, -⟩
    rw [hpolicies] at hp
    split_ifs at hp <;> cases hp
    · cases hdeny
    · obtain ⟨pattern, hpattern, hmatch⟩ := happlies.subject
      rw [List.mem_singleton.1 hpattern] at hmatch
      revert hmatch
      decide
  · intro h
    obtain ⟨d, hd, -⟩ := (h ⟨.ok 0, 0⟩ bobAndAdmins (.new "bob" "encrypt" "key:1") .inserted).evaluate
    have hpanics : bobAndAdmins.evaluate ⟨.ok 0, 0⟩ .inserted (.new "bob" "encrypt" "key:1") = none := by decide
    rw [hpanics] at hd
    cases hd

end PBACEngine

end GmKms.Pbac
