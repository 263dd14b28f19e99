import GmKms.Pbac.Evaluate
/-!
# The identity of a request

`to_policy_context` puts what identifies a request and what the caller says of it into
one map. Which of the entries that identify it can be overwritten.
-/

namespace GmKms.Pbac

open Lib
open Audit (Value IterOrder)

/-! ## What a condition reads -/

section

variable {F : Type}

/-- The condition is on these attributes only. -/
inductive ReadsOnly (names : List String) : Json F → Prop
  | obj (fields : List (String × Json F))
      (attr : ∀ name, (Json.field? fields "attribute").bind Json.asString? = some name → name ∈ names)
      (args : ∀ conditions, conditionArgs fields = some (.arr conditions) → ∀ c ∈ conditions, ReadsOnly names c) :
      ReadsOnly names (.obj fields)
  | value (j : Json F) (h : ∀ fields, j ≠ .obj fields) : ReadsOnly names j

/-- It is true in two contexts alike that have the same under these names. -/
theorem evaluateCondition_congr {names : List String} {ctx ctx' : PolicyContext F}
    (h : ∀ name ∈ names, ctx.attributes[name]? = ctx'.attributes[name]?) (time : TimeSource) {j : Json F}
    (hj : ReadsOnly names j) : evaluateCondition time ctx j = evaluateCondition time ctx' j := by
  induction hj with
  | value j hvalue =>
    cases j with
    | obj fields => exact absurd rfl (hvalue fields)
    | _ => simp [evaluateCondition]
  | obj fields hattr _ ih =>
    have hstr : ∀ name, (Json.field? fields "attribute").bind Json.asString? = some name →
        ctx.getStr name = ctx'.getStr name := by
      intro name hname
      rw [PolicyContext.getStr, PolicyContext.getStr, h name (hattr name hname)]
    have hint : ((Json.field? fields "attribute").bind Json.asString?).bind ctx.getI64 =
        ((Json.field? fields "attribute").bind Json.asString?).bind ctx'.getI64 := by
      cases hname : (Json.field? fields "attribute").bind Json.asString? with
      | none => rfl
      | some name =>
        rw [Option.bind_some, Option.bind_some, PolicyContext.getI64, PolicyContext.getI64, h name (hattr name hname)]
    rw [evaluateCondition, evaluateCondition]
    cases (Json.field? fields "operator").bind Json.asString? with
    | none => rfl
    | some operator =>
      split
      case h_1 | h_2 => rfl
      case h_3 | h_4 =>
        split
        · rename_i name _ hname _
          rw [hstr name hname]
        · rfl
      case h_5 =>
        split
        · rename_i name _ hname _
          rw [hstr name hname]
        · rfl
      case h_6 =>
        split
        · rename_i conditions hargs
          exact List.all_congr rfl fun c => ih conditions hargs c.1 c.2
        · rfl
      case h_7 =>
        split
        · rename_i conditions hargs
          exact List.any_congr rfl fun c => ih conditions hargs c.1 c.2
        · rfl
      case h_8 | h_9 => rfl
      case h_10 => rw [hint]
      case h_11 => rfl

end

/-! ## Entries inserted one after the other -/

section

variable {κ κ' ν : Type} [Ord κ'] [Std.TransOrd κ'] [Std.LawfulEqOrd κ'] [DecidableEq κ']

theorem foldl_empty {δ : Type} [Ord κ] [Std.TransOrd κ] (f : δ → κ → ν → δ) (d : δ) :
    (∅ : HashMap κ ν).foldl f d = d := by
  rw [Std.ExtTreeMap.foldl_eq_foldl_toList, Std.ExtTreeMap.toList_eq_nil_iff.2 rfl, List.foldl_nil]

/-- Each entry is inserted under the name that its key becomes. -/
def insertAll (rename : κ → κ') (m : HashMap κ' ν) (entries : List (κ × ν)) : HashMap κ' ν :=
  entries.foldl (fun m entry => m.insert (rename entry.1) entry.2) m

variable {rename : κ → κ'}

theorem getElem?_insertAll_of_ne {entries : List (κ × ν)} {name : κ'} (h : ∀ k, rename k ≠ name) (m : HashMap κ' ν) :
    (insertAll rename m entries)[name]? = m[name]? := by
  induction entries generalizing m with
  | nil => rfl
  | cons entry entries ih =>
    rw [insertAll, List.foldl_cons]
    refine (ih _).trans ?_
    rw [HashMap.getElem?_insert, if_neg (h entry.1).symm]

theorem getElem?_insertAll_of_forall_ne (hinj : rename.Injective) {entries : List (κ × ν)} {k : κ}
    (h : ∀ entry ∈ entries, entry.1 ≠ k) (m : HashMap κ' ν) :
    (insertAll rename m entries)[rename k]? = m[rename k]? := by
  induction entries generalizing m with
  | nil => rfl
  | cons entry entries ih =>
    obtain ⟨hentry, hentries⟩ := List.forall_mem_cons.1 h
    rw [insertAll, List.foldl_cons]
    refine (ih hentries _).trans ?_
    rw [HashMap.getElem?_insert, if_neg fun heq => hentry (hinj heq).symm]

variable [Ord κ] [Std.TransOrd κ] [Std.LawfulEqOrd κ] [DecidableEq κ]

/-- The entries of a map may be inserted in any order. -/
theorem insertAll_perm (hinj : rename.Injective) (m : HashMap κ' ν) {entries : HashMap κ ν} {l : List (κ × ν)}
    (hp : l.Perm entries.toList) : insertAll rename m l = insertAll rename m entries.toList := by
  refine hp.foldl_eq' ?_ m
  intro x hx y hy m
  have hlook : ∀ entry ∈ l, entries[entry.1]? = some entry.2 := by
    intro entry hentry
    exact Std.ExtTreeMap.mem_toList_iff_getElem?_eq_some.1 (hp.subset hentry)
  by_cases hkey : x.1 = y.1
  · -- one key has one value
    have hvalue : x.2 = y.2 := Option.some.inj ((hlook x hx).symm.trans (hkey ▸ hlook y hy))
    rw [hkey, hvalue]
  · have hne : rename x.1 ≠ rename y.1 := fun heq => hkey (hinj heq)
    refine Std.ExtTreeMap.ext_getElem? fun name => ?_
    simp only [HashMap.getElem?_insert]
    by_cases hname : name = rename y.1
    · rw [if_pos hname, if_neg fun h => hne (h.symm.trans hname), if_pos hname]
    · rw [if_neg hname, if_neg hname]

/-- Under the name of a key stands what the map has for it, if it has anything. -/
theorem getElem?_insertAll (hinj : rename.Injective) (m : HashMap κ' ν) (entries : HashMap κ ν) (k : κ) :
    (insertAll rename m entries.toList)[rename k]? = (entries[k]?).or m[rename k]? := by
  cases hk : entries[k]? with
  | none =>
    refine getElem?_insertAll_of_forall_ne hinj ?_ m
    rintro ⟨k', v⟩ hentry rfl
    rw [Std.ExtTreeMap.mem_toList_iff_getElem?_eq_some, hk] at hentry
    cases hentry
  | some v =>
    have hmem : (k, v) ∈ entries.toList := Std.ExtTreeMap.mem_toList_iff_getElem?_eq_some.2 hk
    obtain ⟨before, after, hsplit⟩ := List.append_of_mem hmem
    -- the entry may as well come last
    have hp : (before ++ after ++ [(k, v)]).Perm entries.toList := by
      rw [hsplit, List.append_assoc]
      exact (List.perm_append_singleton (k, v) after).append_left before
    rw [← insertAll_perm hinj m hp, insertAll, List.foldl_append, List.foldl_cons, List.foldl_nil]
    exact Std.ExtTreeMap.getElem?_insert_self

end

/-! ## The entries of a request -/

namespace AccessContext

variable {F : Type}

def withAttr (ctx : AccessContext F) (key : String) (value : Value F) : AccessContext F :=
  { ctx with subjectAttrs := ctx.subjectAttrs.insert key value }

/-- The same request, with nothing said of it. -/
def bare (ctx : AccessContext F) : AccessContext F := { ctx with subjectAttrs := ∅, environment := ∅ }

/-- `to_policy_context` with the two maps iterated over in these orders. -/
def toPolicyContextIn (attrs env : IterOrder (String × Value F)) (ctx : AccessContext F) : PolicyContext F :=
  let attributes : HashMap String (Value F) := ∅
  let attributes := attributes.insert "subject.id" (strValue ctx.subjectId)
  let attributes := attributes.insert "subject.type" (strValue ctx.subjectType)
  let attributes := attributes.insert "resource.id" (strValue ctx.resourceId)
  let attributes := attributes.insert "resource.type" (strValue ctx.resourceType)
  let attributes := attributes.insert "action" (strValue ctx.action)
  let attributes :=
    match ctx.tenantId with
    | some tenant => attributes.insert "tenant" (strValue tenant)
    | none => attributes
  let attributes := attributes.insert "subject.roles" (rolesValue ctx.subjectRoles)
  let attributes := insertAll (fun k => s!"subject.{k}") attributes (attrs.arrange ctx.subjectAttrs.toList)
  let attributes := insertAll (fun k => s!"env.{k}") attributes (env.arrange ctx.environment.toList)
  ⟨attributes⟩

theorem prefixed_injective (part : String) : (fun k => part ++ k).Injective :=
  fun _ _ h => (String.append_right_inj part).1 h

theorem prefixed_ne {part name : String} (h : ¬ part.toList <+: name.toList) (k : String) : part ++ k ≠ name := by
  rintro rfl
  exact h ⟨k.toList, String.toList_append.symm⟩

/-- The orders are not seen. -/
theorem toPolicyContextIn_eq (attrs env : IterOrder (String × Value F)) (ctx : AccessContext F) :
    ctx.toPolicyContextIn attrs env = ctx.toPolicyContext := by
  rw [toPolicyContextIn, toPolicyContext]
  congr 1
  rw [Std.ExtTreeMap.foldl_eq_foldl_toList, Std.ExtTreeMap.foldl_eq_foldl_toList]
  refine (insertAll_perm (prefixed_injective "env.") _ (env.perm _)).trans ?_
  exact congrArg (fun m => insertAll _ m _) (insertAll_perm (prefixed_injective "subject.") _ (attrs.perm _))

/-- What is said of the request is inserted into what it is identified by. -/
theorem attributes_toPolicyContext (ctx : AccessContext F) : ctx.toPolicyContext.attributes =
    insertAll (fun k => "env." ++ k)
      (insertAll (fun k => "subject." ++ k) ctx.bare.toPolicyContext.attributes ctx.subjectAttrs.toList)
      ctx.environment.toList := by
  rw [toPolicyContext, toPolicyContext]
  simp only [bare, foldl_empty]
  rw [Std.ExtTreeMap.foldl_eq_foldl_toList, Std.ExtTreeMap.foldl_eq_foldl_toList]
  rfl

theorem getElem?_toPolicyContext_of_ne (ctx : AccessContext F) {name : String}
    (hsubject : ¬ "subject.".toList <+: name.toList) (henv : ¬ "env.".toList <+: name.toList) :
    ctx.toPolicyContext.attributes[name]? = ctx.bare.toPolicyContext.attributes[name]? := by
  rw [attributes_toPolicyContext, getElem?_insertAll_of_ne (prefixed_ne henv),
    getElem?_insertAll_of_ne (prefixed_ne hsubject)]

/-- An attribute of the subject stands before what the request has under the same name. -/
theorem getElem?_toPolicyContext_subject (ctx : AccessContext F) (k : String) :
    ctx.toPolicyContext.attributes["subject." ++ k]? =
      (ctx.subjectAttrs[k]?).or ctx.bare.toPolicyContext.attributes["subject." ++ k]? := by
  have henv : ¬ "env.".toList <+: ("subject." ++ k).toList := by
    rw [String.toList_append]
    simp
  rw [attributes_toPolicyContext, getElem?_insertAll_of_ne (prefixed_ne henv)]
  exact getElem?_insertAll (prefixed_injective "subject.") _ _ k

end AccessContext

/-! ## What identifies the request is what it has -/

section

variable {F : Type}

open AccessContext

def identityNames : List String :=
  ["subject.id", "subject.type", "subject.roles", "resource.id", "resource.type", "action", "tenant"]

/-- The entries that identify a request are its own fields. -/
structure IdentityKept (ctx : AccessContext F) (pctx : PolicyContext F) : Prop where
  subjectId : pctx.attributes["subject.id"]? = some (strValue ctx.subjectId)
  subjectType : pctx.attributes["subject.type"]? = some (strValue ctx.subjectType)
  subjectRoles : pctx.attributes["subject.roles"]? = some (rolesValue ctx.subjectRoles)
  resourceId : pctx.attributes["resource.id"]? = some (strValue ctx.resourceId)
  resourceType : pctx.attributes["resource.type"]? = some (strValue ctx.resourceType)
  action : pctx.attributes["action"]? = some (strValue ctx.action)
  tenant : pctx.attributes["tenant"]? = ctx.tenantId.map strValue

/-- Nothing that is said of the request changes them, or a condition on them. -/
structure IdentityFixed (attrs env : IterOrder (String × Value F)) (ctx : AccessContext F) : Prop where
  kept : IdentityKept ctx (ctx.toPolicyContextIn attrs env)
  conditions : ∀ (time : TimeSource) (j : Json F), ReadsOnly identityNames j →
    evaluateCondition time (ctx.toPolicyContextIn attrs env) j = evaluateCondition time ctx.bare.toPolicyContext j

/-- The three attributes that would overwrite an entry say what the request has. -/
structure AttrsAgree (ctx : AccessContext F) : Prop where
  id : ∀ v, ctx.subjectAttrs["id"]? = some v → v = strValue ctx.subjectId
  type : ∀ v, ctx.subjectAttrs["type"]? = some v → v = strValue ctx.subjectType
  roles : ∀ v, ctx.subjectAttrs["roles"]? = some v → v = rolesValue ctx.subjectRoles

theorem identityKept_bare (ctx : AccessContext F) : IdentityKept ctx ctx.bare.toPolicyContext := by
  constructor
  all_goals
    simp only [toPolicyContext, bare, foldl_empty]
    cases ctx.tenantId <;> simp only [HashMap.getElem?_insert, String.reduceEq, reduceIte, Option.map] <;> rfl

theorem IdentityKept.of_getElem?_eq {ctx : AccessContext F} {pctx pctx' : PolicyContext F}
    (hkept : IdentityKept ctx pctx)
    (h : ∀ name ∈ identityNames, pctx'.attributes[name]? = pctx.attributes[name]?) : IdentityKept ctx pctx' where
  subjectId := (h _ (by simp [identityNames])).trans hkept.subjectId
  subjectType := (h _ (by simp [identityNames])).trans hkept.subjectType
  subjectRoles := (h _ (by simp [identityNames])).trans hkept.subjectRoles
  resourceId := (h _ (by simp [identityNames])).trans hkept.resourceId
  resourceType := (h _ (by simp [identityNames])).trans hkept.resourceType
  action := (h _ (by simp [identityNames])).trans hkept.action
  tenant := (h _ (by simp [identityNames])).trans hkept.tenant

theorem or_eq_some_iff_forall {α : Type} {o : Option α} {a : α} : o.or (some a) = some a ↔ ∀ v, o = some v → v = a := by
  cases o with
  | none => simp
  | some v => simp

/-- An entry that names the subject is kept if the attribute that overwrites it agrees. -/
theorem getElem?_subject_eq_iff {ctx : AccessContext F} {k : String} {v : Value F}
    (hbare : ctx.bare.toPolicyContext.attributes["subject." ++ k]? = some v) :
    ctx.toPolicyContext.attributes["subject." ++ k]? = some v ↔ ∀ v', ctx.subjectAttrs[k]? = some v' → v' = v := by
  rw [getElem?_toPolicyContext_subject, hbare]
  exact or_eq_some_iff_forall

theorem getElem?_eq_of_attrsAgree {ctx : AccessContext F} (h : AttrsAgree ctx) :
    ∀ name ∈ identityNames, ctx.toPolicyContext.attributes[name]? = ctx.bare.toPolicyContext.attributes[name]? := by
  have hbare := identityKept_bare ctx
  simp only [identityNames, List.forall_mem_cons]
  refine ⟨?_, ?_, ?_, ?_, ?_, ?_, ?_, by simp⟩
  · exact ((getElem?_subject_eq_iff hbare.subjectId).2 h.id).trans hbare.subjectId.symm
  · exact ((getElem?_subject_eq_iff hbare.subjectType).2 h.type).trans hbare.subjectType.symm
  · exact ((getElem?_subject_eq_iff hbare.subjectRoles).2 h.roles).trans hbare.subjectRoles.symm
  all_goals exact ctx.getElem?_toPolicyContext_of_ne (by simp) (by simp)

/-- A request keeps its identity if no attribute of the subject is named `id`, `type` or `roles`, or each that is
says what the request has. -/
theorem identityFixed_iff (attrs env : IterOrder (String × Value F)) (ctx : AccessContext F) :
    IdentityFixed attrs env ctx ↔ AttrsAgree ctx := by
  have hbare := identityKept_bare ctx
  constructor
  · intro h
    have hkept := h.kept
    rw [toPolicyContextIn_eq] at hkept
    exact ⟨(getElem?_subject_eq_iff hbare.subjectId).1 hkept.subjectId,
      (getElem?_subject_eq_iff hbare.subjectType).1 hkept.subjectType,
      (getElem?_subject_eq_iff hbare.subjectRoles).1 hkept.subjectRoles⟩
  · intro h
    have hsame := getElem?_eq_of_attrsAgree h
    constructor
    · rw [toPolicyContextIn_eq]
      exact hbare.of_getElem?_eq hsame
    · intro time j hj
      rw [toPolicyContextIn_eq]
      exact evaluateCondition_congr hsame time hj

/-- The attribute `id` takes the place of the subject. -/
theorem not_identityFixed : ¬ IdentityFixed .inserted .inserted
    ((AccessContext.new "bob" "encrypt" "key:1" : AccessContext Empty).withAttr "id" (strValue "admin")) := by
  intro h
  have hkept := h.kept.subjectId
  rw [toPolicyContextIn_eq] at hkept
  have hagree := (getElem?_subject_eq_iff (k := "id") (identityKept_bare _).subjectId).1 hkept
  have hid := hagree (strValue "admin") Std.ExtTreeMap.getElem?_insert_self
  exact absurd (congrArg (fun v => v.1.asString?) hid) (by simp [strValue, withAttr, AccessContext.new, Json.asString?])

end

end GmKms.Pbac
