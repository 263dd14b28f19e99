import GmKms.Pbac.Evaluate
/-!
# Typed conditions and their JSON form

The core layer has conditions as a type of its own, with an evaluator of its own. The
engine reads the JSON form of the API, and knows only some of the operators that the
crate documents.
-/

namespace GmKms.Pbac

open Lib

/-- `kms_core::policy::Condition`. -/
inductive Condition where
  | eq (attr value : String)
  | neq (attr value : String)
  | gt (attr : String) (val : ℤ)
  | gte (attr : String) (val : ℤ)
  | lt (attr : String) (val : ℤ)
  | lte (attr : String) (val : ℤ)
  | contains (attr val : String)
  | startsWith (attr val : String)
  | endsWith (attr val : String)
  | regexMatches (attr pattern : String)
  | isIn (attr : String) (values : List String)
  | notIn (attr : String) (values : List String)
  | between (attr lower upper : String)
  | outside (attr lower upper : String)
  | attrExists (attr : String)
  | notExists (attr : String)
  | and (conditions : List Condition)
  | or (conditions : List Condition)
  | not (inner : Condition)

/-- `Condition::evaluate`. `regex` compiles a pattern, and is `none` where `Regex::new` fails. -/
def Condition.evaluate {F : Type} (regex : String → Option (String → Bool)) (ctx : PolicyContext F) : Condition → Bool
  | .eq attr value => ctx.getStr attr == some value
  | .neq attr value => ctx.getStr attr != some value
  | .gt attr val => ((ctx.getI64 attr).map fun v => decide (v > val)).getD false
  | .gte attr val => ((ctx.getI64 attr).map fun v => decide (v ≥ val)).getD false
  | .lt attr val => ((ctx.getI64 attr).map fun v => decide (v < val)).getD false
  | .lte attr val => ((ctx.getI64 attr).map fun v => decide (v ≤ val)).getD false
  | .contains attr val => ((ctx.getStr attr).map fun s => decide (val.toList <:+: s.toList)).getD false
  | .startsWith attr val => ((ctx.getStr attr).map fun s => decide (val.toList <+: s.toList)).getD false
  | .endsWith attr val => ((ctx.getStr attr).map fun s => decide (val.toList <:+ s.toList)).getD false
  | .regexMatches attr pattern =>
    ((ctx.getStr attr).map fun s => ((regex pattern).map fun isMatch => isMatch s).getD false).getD false
  | .isIn attr values => ((ctx.getStr attr).map fun s => values.contains s).getD false
  | .notIn attr values => ((ctx.getStr attr).map fun s => !values.contains s).getD false
  | .between attr lower upper => ((ctx.getStr attr).map fun s => decide (lower ≤ s) && decide (s ≤ upper)).getD false
  | .outside attr lower upper => ((ctx.getStr attr).map fun s => decide (s < lower) || decide (upper < s)).getD false
  | .attrExists attr => (ctx.attributes[attr]?).isSome
  | .notExists attr => (ctx.attributes[attr]?).isNone
  | .and conditions => conditions.attach.all fun c => c.1.evaluate regex ctx
  | .or conditions => conditions.attach.any fun c => c.1.evaluate regex ctx
  | .not inner => !inner.evaluate regex ctx
decreasing_by
  all_goals simp_wf
  · have := List.sizeOf_lt_of_mem c.2
    omega
  · have := List.sizeOf_lt_of_mem c.2
    omega

/-- The conditions that the crate documents as supported, those on the time apart. -/
inductive ConditionTree where
  | always
  | never
  | eq (attr value : String)
  | ne (attr value : String)
  | gt (attr : String) (val : ℤ)
  | lt (attr : String) (val : ℤ)
  | isIn (attr : String) (values : List String)
  | notIn (attr : String) (values : List String)
  | regexMatches (attr pattern : String)
  | and (conditions : List ConditionTree)
  | or (conditions : List ConditionTree)

namespace ConditionTree

/-- Induction with the hypothesis for every condition that is combined. -/
theorem induct {P : ConditionTree → Prop} (always : P always) (never : P never) (eq : ∀ attr value, P (eq attr value))
    (ne : ∀ attr value, P (ne attr value)) (gt : ∀ attr val, P (gt attr val)) (lt : ∀ attr val, P (lt attr val))
    (isIn : ∀ attr values, P (isIn attr values)) (notIn : ∀ attr values, P (notIn attr values))
    (regexMatches : ∀ attr pattern, P (regexMatches attr pattern))
    (and : ∀ conditions, (∀ t ∈ conditions, P t) → P (and conditions))
    (or : ∀ conditions, (∀ t ∈ conditions, P t) → P (or conditions)) : ∀ t, P t :=
  @ConditionTree.rec P (fun conditions => ∀ t ∈ conditions, P t) always never eq ne gt lt isIn notIn regexMatches and or
    (by simp) fun _ _ ht hts => List.forall_mem_cons.2 ⟨ht, hts⟩

/-- The typed condition. Always and never are an empty conjunction and an empty disjunction. -/
def typed : ConditionTree → Condition
  | always => .and []
  | never => .or []
  | eq attr value => .eq attr value
  | ne attr value => .neq attr value
  | gt attr val => .gt attr val
  | lt attr val => .lt attr val
  | isIn attr values => .isIn attr values
  | notIn attr values => .notIn attr values
  | regexMatches attr pattern => .regexMatches attr pattern
  | and conditions => .and (conditions.map typed)
  | or conditions => .or (conditions.map typed)

/-- The documented form of a comparison. -/
def comparison {F : Type} (operator attr : String) (value : Json F) : Json F :=
  .obj [("attribute", .str attr), ("operator", .str operator), ("value", value)]

/-- The documented form of a combination. -/
def combination {F : Type} (operator : String) (args : List (Json F)) : Json F :=
  .obj [("args", .arr args), ("operator", .str operator)]

def json {F : Type} : ConditionTree → Json F
  | always => .obj [("operator", .str "always")]
  | never => .obj [("operator", .str "never")]
  | eq attr value => comparison "eq" attr (.str value)
  | ne attr value => comparison "ne" attr (.str value)
  | gt attr val => comparison "gt" attr (.int val)
  | lt attr val => comparison "lt" attr (.int val)
  | isIn attr values => comparison "in" attr (.arr (values.map .str))
  | notIn attr values => comparison "not_in" attr (.arr (values.map .str))
  | regexMatches attr pattern => comparison "matches" attr (.str pattern)
  | and conditions => combination "and" (conditions.map json)
  | or conditions => combination "or" (conditions.map json)

/-- The tree with `never` in the place of every operator that the engine does not know. -/
def known : ConditionTree → ConditionTree
  | ne _ _ | gt _ _ | lt _ _ | notIn _ _ | regexMatches _ _ => never
  | and conditions => and (conditions.map known)
  | or conditions => or (conditions.map known)
  | t => t

end ConditionTree

/-! ## The two evaluators, operator by operator -/

theorem all_attach {α : Type} (p : α → Bool) (l : List α) : (l.attach.all fun a => p a.1) = l.all p := by
  conv_rhs => rw [← List.attach_map_subtype_val l, List.all_map]
  rfl

theorem any_attach {α : Type} (p : α → Bool) (l : List α) : (l.attach.any fun a => p a.1) = l.any p := by
  conv_rhs => rw [← List.attach_map_subtype_val l, List.any_map]
  rfl

section

variable {F : Type} (time : TimeSource) (regex : String → Option (String → Bool)) (ctx : PolicyContext F)

theorem Condition.evaluate_and (conditions : List Condition) :
    (Condition.and conditions).evaluate regex ctx = conditions.all fun c => c.evaluate regex ctx := by
  rw [Condition.evaluate, all_attach fun c : Condition => c.evaluate regex ctx]

theorem Condition.evaluate_or (conditions : List Condition) :
    (Condition.or conditions).evaluate regex ctx = conditions.any fun c => c.evaluate regex ctx := by
  rw [Condition.evaluate, any_attach fun c : Condition => c.evaluate regex ctx]

namespace ConditionTree

theorem evaluateCondition_always : evaluateCondition time ctx always.json = true := by
  simp [json, evaluateCondition, Json.field?, Json.asString?]

theorem evaluateCondition_never : evaluateCondition time ctx never.json = false := by
  simp [json, evaluateCondition, Json.field?, Json.asString?]

theorem evaluateCondition_eq (attr value : String) :
    evaluateCondition time ctx (eq attr value).json = (ctx.getStr attr == some value) := by
  simp [json, comparison, evaluateCondition, conditionArgs, Json.field?, Json.asString?]

theorem evaluateCondition_isIn (attr : String) (values : List String) :
    evaluateCondition time ctx (isIn attr values).json =
      ((ctx.getStr attr).map fun s => values.contains s).getD false := by
  have hany : ∀ s, ((values.map Json.str : List (Json F)).any fun v => v.asString? == some s) = values.contains s := by
    intro s
    rw [List.any_map, List.contains_eq_any_beq]
    congr 1
    funext v
    simp [Json.asString?, eq_comm]
  cases hattr : ctx.getStr attr with
  | none => simp [json, comparison, evaluateCondition, conditionArgs, Json.field?, Json.asString?, hattr]
  | some s =>
    have hread := hany s
    simpa [json, comparison, evaluateCondition, conditionArgs, Json.field?, Json.asString?, hattr] using hread

/-- The engine does not know the operator. -/
theorem evaluateCondition_comparison {operator : String} (h : operator ∈ ["ne", "gt", "lt", "not_in", "matches"])
    (attr : String) (value : Json F) : evaluateCondition time ctx (comparison operator attr value) = false := by
  simp only [List.mem_cons, List.not_mem_nil, or_false] at h
  rcases h with rfl | rfl | rfl | rfl | rfl <;> simp [comparison, evaluateCondition, Json.field?, Json.asString?]

theorem evaluateCondition_and (conditions : List (Json F)) :
    evaluateCondition time ctx (combination "and" conditions) = conditions.all (evaluateCondition time ctx) := by
  have hargs : conditionArgs [("args", Json.arr conditions), ("operator", Json.str "and")] = some (.arr conditions) :=
    rfl
  have hoperator : (Json.field? [("args", Json.arr conditions), ("operator", Json.str "and")] "operator").bind
      Json.asString? = some "and" := rfl
  rw [combination, evaluateCondition]
  simp only [hoperator]
  split
  · rename_i conditions' hfound
    rw [hargs] at hfound
    cases hfound
    exact all_attach (evaluateCondition time ctx) conditions
  · rename_i hnone
    exact absurd hargs (hnone conditions)

theorem evaluateCondition_or (conditions : List (Json F)) :
    evaluateCondition time ctx (combination "or" conditions) = conditions.any (evaluateCondition time ctx) := by
  have hargs : conditionArgs [("args", Json.arr conditions), ("operator", Json.str "or")] = some (.arr conditions) :=
    rfl
  have hoperator : (Json.field? [("args", Json.arr conditions), ("operator", Json.str "or")] "operator").bind
      Json.asString? = some "or" := rfl
  rw [combination, evaluateCondition]
  simp only [hoperator]
  split
  · rename_i conditions' hfound
    rw [hargs] at hfound
    cases hfound
    exact any_attach (evaluateCondition time ctx) conditions
  · rename_i hnone
    exact absurd hargs (hnone conditions)

theorem evaluate_typed_and (conditions : List ConditionTree) :
    (and conditions).typed.evaluate regex ctx = conditions.all fun t => t.typed.evaluate regex ctx := by
  rw [typed, Condition.evaluate_and, List.all_map]
  rfl

theorem evaluate_typed_or (conditions : List ConditionTree) :
    (or conditions).typed.evaluate regex ctx = conditions.any fun t => t.typed.evaluate regex ctx := by
  rw [typed, Condition.evaluate_or, List.any_map]
  rfl

theorem evaluate_typed_always : always.typed.evaluate regex ctx = true := by
  rw [typed, Condition.evaluate_and]
  rfl

theorem evaluate_typed_never : never.typed.evaluate regex ctx = false := by
  rw [typed, Condition.evaluate_or]
  rfl

/-- The engine takes the operators it does not know for `never`, and agrees on the others. -/
theorem evaluateCondition_json (t : ConditionTree) :
    evaluateCondition time ctx t.json = t.known.typed.evaluate regex ctx := by
  induction t using ConditionTree.induct with
  | always => rw [evaluateCondition_always, known, evaluate_typed_always] <;> simp
  | never => rw [evaluateCondition_never, known, evaluate_typed_never] <;> simp
  | eq attr value => rw [evaluateCondition_eq, known, typed, Condition.evaluate] <;> simp
  | isIn attr values => rw [evaluateCondition_isIn, known, typed, Condition.evaluate] <;> simp
  | ne attr value =>
    rw [json, known, evaluate_typed_never]
    exact evaluateCondition_comparison time ctx (by simp) attr _
  | gt attr val =>
    rw [json, known, evaluate_typed_never]
    exact evaluateCondition_comparison time ctx (by simp) attr _
  | lt attr val =>
    rw [json, known, evaluate_typed_never]
    exact evaluateCondition_comparison time ctx (by simp) attr _
  | notIn attr values =>
    rw [json, known, evaluate_typed_never]
    exact evaluateCondition_comparison time ctx (by simp) attr _
  | regexMatches attr pattern =>
    rw [json, known, evaluate_typed_never]
    exact evaluateCondition_comparison time ctx (by simp) attr _
  | and conditions ih =>
    rw [json, evaluateCondition_and, known, evaluate_typed_and, List.all_map, List.all_map, Bool.eq_iff_iff,
      List.all_eq_true, List.all_eq_true]
    exact forall₂_congr fun t ht => by rw [Function.comp, Function.comp, ih t ht]
  | or conditions ih =>
    rw [json, evaluateCondition_or, known, evaluate_typed_or, List.any_map, List.any_map, Bool.eq_iff_iff,
      List.any_eq_true, List.any_eq_true]
    exact exists_congr fun t => and_congr_right fun ht => by rw [Function.comp, Function.comp, ih t ht]

/-- Nothing is negated, so that what holds with fewer operators holds with all. -/
theorem evaluate_of_known (t : ConditionTree) (h : t.known.typed.evaluate regex ctx = true) :
    t.typed.evaluate regex ctx = true := by
  induction t using ConditionTree.induct with
  | always | never | eq | isIn => simpa [known] using h
  | ne | gt | lt | notIn | regexMatches =>
    rw [known, evaluate_typed_never] at h
    cases h
  | and conditions ih =>
    rw [known, evaluate_typed_and, List.all_map, List.all_eq_true] at h
    rw [evaluate_typed_and, List.all_eq_true]
    intro t ht
    exact ih t ht (h t ht)
  | or conditions ih =>
    rw [known, evaluate_typed_or, List.any_map, List.any_eq_true] at h
    obtain ⟨t, ht, hholds⟩ := h
    rw [evaluate_typed_or, List.any_eq_true]
    exact ⟨t, ht, ih t ht hholds⟩

/-- The two evaluators agree on a condition just if it does not hold because of an operator
that the engine does not know. -/
theorem evaluateCondition_json_eq_iff (t : ConditionTree) :
    evaluateCondition time ctx t.json = t.typed.evaluate regex ctx ↔
      (t.typed.evaluate regex ctx = true → t.known.typed.evaluate regex ctx = true) := by
  rw [evaluateCondition_json time regex ctx t]
  constructor
  · intro h
    rw [h]
    exact id
  · intro h
    cases htyped : t.typed.evaluate regex ctx with
    | true => exact h htyped
    | false =>
      cases hknown : t.known.typed.evaluate regex ctx with
      | false => rfl
      | true =>
        rw [evaluate_of_known regex ctx t hknown] at htyped
        cases htyped

end ConditionTree

end

namespace ConditionTree

/-- A condition on every action but one holds of a request without an action, and is never true for the engine. -/
theorem evaluateCondition_ne_ne :
    evaluateCondition (F := Empty) ⟨.ok 0, 0⟩ ⟨∅⟩ (ne "action" "read").json ≠
      (ne "action" "read").typed.evaluate (F := Empty) (fun _ => none) ⟨∅⟩ := by
  rw [json, evaluateCondition_comparison _ _ (by simp), typed, Condition.evaluate]
  simp [PolicyContext.getStr]

end ConditionTree

end GmKms.Pbac
