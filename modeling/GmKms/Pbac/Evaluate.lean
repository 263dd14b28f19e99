import GmKms.Pbac.Engine
import GmKms.Pbac.Glob
/-!
# Policy evaluation

`PBACEngine::evaluate`: which of the enabled policies match a request, and what
they decide. A call of `glob_match` that panics takes the evaluation with it.
-/

namespace GmKms.Pbac

open Lib
open Audit (Value IterOrder)

inductive Decision where
  | deny | allow
  deriving DecidableEq, Repr

/-- `kms_core::policy::PolicyContext`. -/
structure PolicyContext (F : Type) where
  attributes : HashMap String (Value F)

namespace PolicyContext

variable {F : Type}

def getStr (ctx : PolicyContext F) (key : String) : Option String := ctx.attributes[key]?.bind fun v => v.1.asString?

def getI64 (ctx : PolicyContext F) (key : String) : Option ℤ :=
  ctx.attributes[key]?.bind fun v =>
    match v.1 with
    | .int n => if n < 2 ^ 63 then some n else none
    | _ => none

end PolicyContext

structure AccessContext (F : Type) where
  subjectId : String
  subjectType : String
  subjectRoles : List String
  subjectAttrs : HashMap String (Value F)
  resourceId : String
  resourceType : String
  action : String
  tenantId : Option String
  environment : HashMap String (Value F)

namespace AccessContext

variable {F : Type}

def new (subjectId action resourceId : String) : AccessContext F where
  subjectId := subjectId
  subjectType := "user"
  subjectRoles := []
  subjectAttrs := ∅
  resourceId := resourceId
  resourceType := "key"
  action := action
  tenantId := none
  environment := ∅

/-- `with_tenant`: an empty tenant is no tenant. -/
def withTenant (ctx : AccessContext F) (tenant : String) : AccessContext F :=
  { ctx with tenantId := if tenant.isEmpty then none else some tenant }

def strValue (s : String) : Value F := ⟨.str s, rfl⟩

def rolesValue (roles : List String) : Value F :=
  ⟨.arr (roles.map .str), Json.isValueItems_iff.2 fun j hj => by
    obtain ⟨s, -, rfl⟩ := List.mem_map.1 hj
    rfl⟩

def toPolicyContext (ctx : AccessContext F) : PolicyContext F :=
  let attributes : HashMap String (Value F) := ∅
  let attributes := attributes.insert "subject.id" (strValue ctx.subjectId)
  let attributes := attributes.insert "subject.type" (strValue ctx.subjectType)
  let attributes := attributes.insert "resource.id" (strValue ctx.resourceId)
  let attributes := attributes.insert "resource.type" (strValue ctx.resourceType)
  let attributes := attributes.insert "action" (strValue ctx.action)
  let attributes :=
    match ctx.tenantId with
    | some tenant => attributes.insert "tenant" (strValue tenant)
    | none => attributes
  let attributes := attributes.insert "subject.roles" (rolesValue ctx.subjectRoles)
  let attributes := ctx.subjectAttrs.foldl (fun m k v => m.insert s!"subject.{k}" v) attributes
  let attributes := ctx.environment.foldl (fun m k v => m.insert s!"env.{k}" v) attributes
  ⟨attributes⟩

end AccessContext

/-! ## Conditions -/

/-- What the engine reads of the time: the trusted source, and the system's clock, in seconds. -/
structure TimeSource where
  trusted : Except Error ℤ
  system : ℕ

/-- `str::parse::<u32>`. -/
def parseU32 (t : Text) : Option ℕ :=
  let digits := if t.head? = some '+' then t.tail else t
  if digits.isEmpty || !digits.all Char.isDigit then none
  else
    let n := digits.foldl (fun n c => 10 * n + (c.toNat - '0'.toNat)) 0
    if n < 2 ^ 32 then some n else none

/-- The minutes of a time of day `HH:MM`. -/
def parseTime (t : Text) : Option ℕ :=
  match t.splitOn ':' with
  | [hours, minutes] =>
    (parseU32 hours).bind fun hour =>
      (parseU32 minutes).bind fun minute =>
        if hour < 24 && minute < 60 then some (hour * 60 + minute) else none
  | _ => none

def evaluateTimeRange (time : TimeSource) (startTime endTime : Text) : Bool :=
  let currentTime :=
    match time.trusted with
    | .ok t => (t % 2 ^ 64).toNat
    | .error _ => time.system
  let hours := currentTime % 86400 / 3600
  let minutes := currentTime % 3600 / 60
  let currentMinutes := hours * 60 + minutes
  match parseTime startTime, parseTime endTime with
  | some startMinutes, some endMinutes =>
    if startMinutes ≤ endMinutes then currentMinutes ≥ startMinutes && currentMinutes ≤ endMinutes
    else currentMinutes ≥ startMinutes || currentMinutes ≤ endMinutes
  | _, _ => false

section

variable {F : Type}

/-- The arguments of an operator, under one of two names. -/
def conditionArgs (fields : List (String × Json F)) : Option (Json F) :=
  (Json.field? fields "args").or (Json.field? fields "value")

theorem depth_lt_of_conditionArgs {fields conditions} {c : Json F}
    (h : conditionArgs fields = some (.arr conditions)) (hc : c ∈ conditions) : c.depth < (Json.obj fields).depth := by
  have hfield : ∀ {name : String} {j : Json F}, Json.field? fields name = some j →
      j.depth < (Json.obj fields).depth := by
    intro name j hj
    obtain ⟨f, hf, rfl⟩ := Option.map_eq_some_iff.1 hj
    rw [Json.depth, Nat.lt_succ_iff]
    exact Json.depthFields_le_iff.1 le_rfl f (List.mem_of_find?_eq_some hf)
  have harr : (Json.arr conditions).depth < (Json.obj fields).depth := by
    rcases Option.or_eq_some_iff.1 h with h | ⟨-, h⟩
    · exact hfield h
    · exact hfield h
  have hitem : c.depth ≤ Json.depthItems conditions := Json.depthItems_le_iff.1 le_rfl c hc
  rw [Json.depth] at harr
  omega

def evaluateCondition (time : TimeSource) (ctx : PolicyContext F) : Json F → Bool
  | .bool b => b
  | .obj fields =>
    let args := conditionArgs fields
    let attr := (Json.field? fields "attribute").bind Json.asString?
    match (Json.field? fields "operator").bind Json.asString? with
    | some "always" => true
    | some "never" => false
    | some "eq" | some "==" =>
      match attr, args.bind Json.asString? with
      | some attr, some val => ctx.getStr attr == some val
      | _, _ => false
    | some "in" =>
      match attr, args with
      | some attr, some (.arr arr) =>
        match ctx.getStr attr with
        | some attrVal => arr.any fun v => v.asString? == some attrVal
        | none => false
      | _, _ => false
    | some "and" =>
      match _h : conditionArgs fields with
      | some (.arr conditions) => conditions.attach.all fun c => evaluateCondition time ctx c.1
      | _ => false
    | some "or" =>
      match _h : conditionArgs fields with
      | some (.arr conditions) => conditions.attach.any fun c => evaluateCondition time ctx c.1
      | _ => false
    | some "time_range" =>
      match (Json.field? fields "start").bind Json.asString?, (Json.field? fields "end").bind Json.asString? with
      | some startTime, some endTime => evaluateTimeRange time startTime.toList endTime.toList
      | _, _ => false
    | some "time_between" =>
      match args.bind Json.asString? with
      | some value =>
        match value.toList.splitOn '-' with
        | [startTime, endTime] => evaluateTimeRange time startTime endTime
        | _ => false
      | none => false
    | some "not_expired" =>
      match attr.bind ctx.getI64 with
      | some ts => ts > time.system
      | none => false
    | _ => false
  | _ => false
termination_by j => j.depth
decreasing_by
  all_goals exact depth_lt_of_conditionArgs _h c.2

end

/-! ## Decisions -/

section

variable {F : Type}

/-- `any` over the patterns, which stops at the first that matches. -/
def anyGlob (patterns : List String) (text : String) : Option Bool :=
  match patterns with
  | [] => some false
  | pattern :: patterns =>
    (globMatch pattern.toList text.toList).bind fun found => if found then some true else anyGlob patterns text

def tenantMatches (policy : Policy F) (ctx : AccessContext F) : Option Bool :=
  match policy.tenant with
  | none => some true
  | some pattern =>
    match ctx.tenantId with
    | none => some false
    | some tenant => globMatch pattern.toList tenant.toList

/-- The filter of `evaluate_locked`; `none` is a panic. -/
def policyApplies (ctx : AccessContext F) (p : Policy F) : Option Bool :=
  if !p.enabled then some false
  else
    (anyGlob p.subjects ctx.subjectId).bind fun subjectMatch =>
      if !subjectMatch then some false
      else
        (tenantMatches p ctx).bind fun tenantMatch =>
          if !tenantMatch then some false else anyGlob p.resources ctx.resourceId

def matchingPolicies (ctx : AccessContext F) : List (Policy F) → Option (List (Policy F))
  | [] => some []
  | p :: ps =>
    (policyApplies ctx p).bind fun applies =>
      (matchingPolicies ctx ps).map fun matching => if applies then p :: matching else matching

def Policy.decision (p : Policy F) : Decision :=
  match p.effect with
  | .allow => .allow
  | .deny => .deny

/-- Deny before allow. -/
def denyFirst (a b : Policy F) : Bool := a.effect == .deny || b.effect != .deny

namespace PBACEngine

variable (time : TimeSource) (order : IterOrder (Policy F)) (e : PBACEngine F) (ctx : AccessContext F)

/-- `policies.values()`. -/
def values : List (Policy F) := order.arrange (e.policies.toList.map (·.2))

/-- `evaluate`; `none` is a panic. -/
def evaluate : Option Decision :=
  (matchingPolicies ctx (e.values order)).map fun matching =>
    match (matching.mergeSort denyFirst).find? fun p => evaluateCondition time ctx.toPolicyContext p.condition.1 with
    | some p => p.decision
    | none => .deny

/-- `evaluate_if_configured`. -/
def evaluateIfConfigured : Option (Option Decision) :=
  if (e.values order).all fun p => !p.enabled then some none else (e.evaluate time order ctx).map some

end PBACEngine

/-! ## Evaluation without a panic -/

/-- Each pattern the search reaches, which is each up to the first that matches, is one the text can be sliced for. -/
def AllSliceable (patterns : List String) (text : String) : Prop :=
  ∀ before pattern after, patterns = before ++ pattern :: after →
    (∀ p ∈ before, globMatch p.toList text.toList ≠ some true) → Sliceable pattern.toList text.toList

/-- The same for the patterns a policy compares with the request, in the order in which it does. -/
structure SafePolicy (ctx : AccessContext F) (p : Policy F) : Prop where
  subjects : AllSliceable p.subjects ctx.subjectId
  tenant : anyGlob p.subjects ctx.subjectId = some true → ∀ pattern tenant, p.tenant = some pattern →
    ctx.tenantId = some tenant → Sliceable pattern.toList tenant.toList
  resources : anyGlob p.subjects ctx.subjectId = some true → tenantMatches p ctx = some true →
    AllSliceable p.resources ctx.resourceId

theorem allSliceable_cons_iff {pattern : String} {patterns : List String} {text : String} :
    AllSliceable (pattern :: patterns) text ↔ Sliceable pattern.toList text.toList ∧
      (globMatch pattern.toList text.toList ≠ some true → AllSliceable patterns text) := by
  constructor
  · intro h
    refine ⟨h [] pattern patterns rfl (by simp), fun hne before p after heq hbefore => ?_⟩
    exact h (pattern :: before) p after (by rw [heq]; rfl) (List.forall_mem_cons.2 ⟨hne, hbefore⟩)
  · rintro ⟨hhead, htail⟩ before p after heq hbefore
    cases before with
    | nil =>
      obtain ⟨rfl, rfl⟩ := List.cons.inj heq
      exact hhead
    | cons q before =>
      obtain ⟨rfl, rfl⟩ := List.cons.inj heq
      obtain ⟨hq, hbefore⟩ := List.forall_mem_cons.1 hbefore
      exact htail hq before p after rfl hbefore

theorem anyGlob_isSome_iff {patterns : List String} {text : String} :
    (anyGlob patterns text).isSome ↔ AllSliceable patterns text := by
  induction patterns with
  | nil => simp [anyGlob, AllSliceable]
  | cons pattern patterns ih =>
    rw [allSliceable_cons_iff, ← globMatch_isSome_iff, ← ih, anyGlob]
    cases globMatch pattern.toList text.toList with
    | none => simp
    | some found => cases found <;> simp

theorem tenantMatches_isSome_iff {p : Policy F} {ctx : AccessContext F} : (tenantMatches p ctx).isSome ↔
    ∀ pattern tenant, p.tenant = some pattern → ctx.tenantId = some tenant →
    Sliceable pattern.toList tenant.toList := by
  unfold tenantMatches
  cases p.tenant with
  | none => simp
  | some pattern =>
    cases ctx.tenantId with
    | none => simp
    | some tenant => simp [globMatch_isSome_iff]

theorem safePolicy_iff {ctx : AccessContext F} {p : Policy F} : SafePolicy ctx p ↔
    (anyGlob p.subjects ctx.subjectId).isSome ∧ (anyGlob p.subjects ctx.subjectId = some true →
      (tenantMatches p ctx).isSome ∧
        (tenantMatches p ctx = some true → (anyGlob p.resources ctx.resourceId).isSome)) := by
  rw [anyGlob_isSome_iff, anyGlob_isSome_iff, tenantMatches_isSome_iff]
  constructor
  · intro h
    exact ⟨h.subjects, fun hsub => ⟨h.tenant hsub, h.resources hsub⟩⟩
  · rintro ⟨hsubjects, hrest⟩
    exact ⟨hsubjects, fun hsub => (hrest hsub).1, fun hsub => (hrest hsub).2⟩

theorem policyApplies_isSome_iff {ctx : AccessContext F} {p : Policy F} :
    (policyApplies ctx p).isSome ↔ (p.enabled = true → SafePolicy ctx p) := by
  rw [safePolicy_iff, policyApplies]
  cases p.enabled with
  | false => simp
  | true =>
    cases anyGlob p.subjects ctx.subjectId with
    | none => simp
    | some subjectMatch =>
      cases subjectMatch with
      | false => simp
      | true =>
        cases tenantMatches p ctx with
        | none => simp
        | some tenantMatch => cases tenantMatch <;> simp

theorem matchingPolicies_isSome_iff {ctx : AccessContext F} {ps : List (Policy F)} :
    (matchingPolicies ctx ps).isSome ↔ ∀ p ∈ ps, (policyApplies ctx p).isSome := by
  induction ps with
  | nil => simp [matchingPolicies]
  | cons p ps ih =>
    rw [matchingPolicies, List.forall_mem_cons, ← ih]
    cases policyApplies ctx p with
    | none => simp
    | some applies => simp

namespace PBACEngine

variable {order : IterOrder (Policy F)} {e : PBACEngine F} {p : Policy F}

theorem mem_values_iff : p ∈ e.values order ↔ ∃ id : String, e.policies[id]? = some p := by
  rw [values, (order.perm _).mem_iff, List.mem_map]
  constructor
  · rintro ⟨⟨id, p⟩, hmem, rfl⟩
    exact ⟨id, Std.ExtTreeMap.mem_toList_iff_getElem?_eq_some.1 hmem⟩
  · rintro ⟨id, hp⟩
    exact ⟨(id, p), Std.ExtTreeMap.mem_toList_iff_getElem?_eq_some.2 hp, rfl⟩

theorem matchingPolicies_values_isSome_iff (order : IterOrder (Policy F)) (e : PBACEngine F) (ctx : AccessContext F) :
    (matchingPolicies ctx (e.values order)).isSome ↔
      ∀ (id : String) (p : Policy F), e.policies[id]? = some p → p.enabled = true → SafePolicy ctx p := by
  rw [matchingPolicies_isSome_iff]
  constructor
  · intro h id p hp
    exact policyApplies_isSome_iff.1 (h p (mem_values_iff.2 ⟨id, hp⟩))
  · intro h p hp
    obtain ⟨id, hid⟩ := mem_values_iff.1 hp
    exact policyApplies_isSome_iff.2 (h id p hid)

/-- A request is evaluated without a panic if every enabled policy compares it with patterns it can be sliced for. -/
theorem evaluate_isSome_iff (time : TimeSource) (order : IterOrder (Policy F)) (e : PBACEngine F)
    (ctx : AccessContext F) :
    (e.evaluate time order ctx).isSome ↔
      ∀ (id : String) (p : Policy F), e.policies[id]? = some p → p.enabled = true → SafePolicy ctx p := by
  rw [evaluate, Option.isSome_map]
  exact matchingPolicies_values_isSome_iff order e ctx

theorem isValue_true : (Json.bool true : Json Empty).isValue = true := rfl

/-- The policy a subject shorter than its suffix is compared with. -/
def suffixPolicy : Policy Empty where
  id := 1
  name := "admins"
  effect := .deny
  condition := ⟨.bool true, isValue_true⟩
  resources := ["*"]
  subjects := ["*-admin"]
  tenant := none
  enabled := true

/-- The engine with that policy installed has no decision for `bob`. -/
theorem not_evaluate_isSome : ¬ (((PolicyCall.addPolicy suffixPolicy).install .new).evaluate ⟨.ok 0, 0⟩ .inserted
    (.new "bob" "encrypt" "key:1")).isSome := by
  decide

/-- The same holds of the call that leaves out an engine without policies. -/
theorem evaluateIfConfigured_isSome_iff (time : TimeSource) (order : IterOrder (Policy F)) (e : PBACEngine F)
    (ctx : AccessContext F) : (e.evaluateIfConfigured time order ctx).isSome ↔
      ∀ (id : String) (p : Policy F), e.policies[id]? = some p → p.enabled = true → SafePolicy ctx p := by
  rw [evaluateIfConfigured]
  split
  · rename_i hnone
    refine ⟨fun _ id p hp henabled => ?_, fun _ => rfl⟩
    have hdisabled := List.all_eq_true.1 hnone p (mem_values_iff.2 ⟨id, hp⟩)
    rw [henabled] at hdisabled
    cases hdisabled
  · rw [Option.isSome_map, evaluate, Option.isSome_map]
    exact matchingPolicies_values_isSome_iff order e ctx

end PBACEngine

end

end GmKms.Pbac
