import GmKms.Approval.BreakGlass
/-!
# What a tenant sees

The listings of the engine are asked for by a tenant. Those of the approval requests keep to the tenant; that of the
active break-glass requests shows everybody's.
-/

namespace GmKms.Approval

open Lib

namespace ApprovalEngine

/-! ## Listings -/

def listPending (e : ApprovalEngine) (tenantId : String) : List ApprovalRequestEntity :=
  (e.pendingRequests.toList.map (·.2)).filter fun r => r.tenantId = tenantId && r.status = .pending

def listAll (e : ApprovalEngine) (tenantId : String) : List ApprovalRequestEntity :=
  (e.pendingRequests.toList.map (·.2)).filter fun r => r.tenantId = tenantId

def isActive (now : DateTime) (r : BreakGlassRequest) : Bool := r.status = .activated && now ≤ r.expiresAt

/-- The tenant is not looked at. -/
def listActiveBreakGlass (e : ApprovalEngine) (now : DateTime) (_tenantId : String) : List BreakGlassRequest :=
  (e.breakGlassRequests.toList.map (·.2)).filter (isActive now)

/-! ## The requests of a tenant -/

def requestsOf (e : ApprovalEngine) (tenantId : String) : Set ApprovalRequestEntity :=
  {r | r.tenantId = tenantId ∧ ∃ id : Uuid, e.pendingRequests[id]? = some r}

def breakGlassOf (e : ApprovalEngine) (tenantId : String) : Set BreakGlassRequest :=
  {r | r.tenantId = tenantId ∧ ∃ id : Uuid, e.breakGlassRequests[id]? = some r}

/-- Two engines show the tenant the same requests, and the first shows it its own. -/
structure TenantView (e e' : ApprovalEngine) (now : DateTime) (tenantId : String) : Prop where
  pending : ∀ r, r ∈ e.listPending tenantId ↔ r ∈ e'.listPending tenantId
  all : ∀ r, r ∈ e.listAll tenantId ↔ r ∈ e'.listAll tenantId
  activeBreakGlass : ∀ r, r ∈ e.listActiveBreakGlass now tenantId ↔ r ∈ e'.listActiveBreakGlass now tenantId
  own : ∀ r, r ∈ e.listActiveBreakGlass now tenantId ↔
    r ∈ e.breakGlassOf tenantId ∧ r.status = .activated ∧ now ≤ r.expiresAt

/-- No other tenant has an active break-glass request. -/
def OthersInactive (e : ApprovalEngine) (now : DateTime) (tenantId : String) : Prop :=
  ∀ (id : Uuid) (r : BreakGlassRequest), e.breakGlassRequests[id]? = some r → isActive now r = true →
    r.tenantId = tenantId

variable {e e' : ApprovalEngine} {now : DateTime} {tenantId : String}

theorem mem_values {ν : Type} {m : HashMap Uuid ν} {v : ν} : v ∈ m.toList.map (·.2) ↔ ∃ id : Uuid, m[id]? = some v := by
  simp [Std.ExtTreeMap.mem_toList_iff_getElem?_eq_some]

theorem mem_listPending_iff {r : ApprovalRequestEntity} :
    r ∈ e.listPending tenantId ↔ r ∈ e.requestsOf tenantId ∧ r.status = .pending := by
  rw [listPending, List.mem_filter, mem_values]
  simp only [requestsOf, Set.mem_ofPred_eq, Bool.and_eq_true, decide_eq_true_eq]
  tauto

theorem mem_listAll_iff {r : ApprovalRequestEntity} : r ∈ e.listAll tenantId ↔ r ∈ e.requestsOf tenantId := by
  rw [listAll, List.mem_filter, mem_values]
  simp only [requestsOf, Set.mem_ofPred_eq, decide_eq_true_eq]
  tauto

theorem mem_listActiveBreakGlass_iff {r : BreakGlassRequest} :
    r ∈ e.listActiveBreakGlass now tenantId ↔ (∃ id : Uuid, e.breakGlassRequests[id]? = some r) ∧
    isActive now r = true := by
  rw [listActiveBreakGlass, List.mem_filter, mem_values]

theorem isActive_iff {r : BreakGlassRequest} : isActive now r = true ↔ r.status = .activated ∧ now ≤ r.expiresAt := by
  simp [isActive]

/-- A tenant sees its own active requests exactly when nobody else has any. -/
theorem own_iff_othersInactive : (∀ r, r ∈ e.listActiveBreakGlass now tenantId ↔
    r ∈ e.breakGlassOf tenantId ∧ r.status = .activated ∧ now ≤ r.expiresAt) ↔ e.OthersInactive now tenantId := by
  constructor
  · intro hown id r hr hactive
    exact ((hown r).1 (mem_listActiveBreakGlass_iff.2 ⟨⟨id, hr⟩, hactive⟩)).1.1
  · intro hothers r
    rw [mem_listActiveBreakGlass_iff, isActive_iff]
    constructor
    · rintro ⟨⟨id, hr⟩, hactive⟩
      exact ⟨⟨hothers id r hr (isActive_iff.2 hactive), id, hr⟩, hactive⟩
    · rintro ⟨⟨-, hr⟩, hactive⟩
      exact ⟨hr, hactive⟩

/-! ## Whose a request is -/

/-- The tenant of a break-glass request is the one that it was created for. -/
def CreatedForTenant (h : History Call Reply) (e : ApprovalEngine) : Prop :=
  ∀ (id : Uuid) (r : BreakGlassRequest), e.breakGlassRequests[id]? = some r → ∃ ev ∈ h,
    ∃ now operation resourceId resourceType requestorId reason first second minutes,
      ev.1 = .createBreakGlassRequest id now operation resourceId resourceType r.tenantId requestorId reason first
        second minutes

theorem CreatedForTenant.step {h : History Call Reply} (hi : CreatedForTenant h e) (c : Call) :
    CreatedForTenant (h ++ [(c, (call e c).1)]) (call e c).2 := by
  intro id r hr
  have hold : ∀ r₀ : BreakGlassRequest, e.breakGlassRequests[id]? = some r₀ → r₀.tenantId = r.tenantId →
      ∃ ev ∈ h ++ [(c, (call e c).1)], ∃ now operation resourceId resourceType requestorId reason first second minutes,
        ev.1 = .createBreakGlassRequest id now operation resourceId resourceType r.tenantId requestorId reason first
          second minutes := by
    intro r₀ hr₀ htenant
    obtain ⟨ev, hev, hcreated⟩ := hi id r₀ hr₀
    exact ⟨ev, List.mem_append_left _ hev, htenant ▸ hcreated⟩
  have hstep := breakGlass_step e c id
  rw [hr] at hstep
  generalize ho : e.breakGlassRequests[id]? = o at hstep
  cases hstep with
  | same other => exact hold r ho rfl
  | closed r₀ status other inactive => exact hold r₀ ho rfl
  | activated r₀ r' now hcall reply pending live => exact hold r₀ ho rfl
  | created r creates pending distinct =>
    cases c with
    | createBreakGlassRequest uuid now operation resourceId resourceType tenantId requestorId reason first second
        minutes =>
      simp only [call, createBreakGlassRequest] at creates hr ⊢
      split at creates
      · cases creates
      · rename_i hne
        obtain rfl : uuid = id := of_decide_eq_true creates
        rw [if_neg hne, Prod.map_snd, id_eq, breakGlassRequests_putBreakGlass, if_pos rfl] at hr
        cases hr
        exact ⟨_, List.mem_append_right _ List.mem_cons_self, now, operation, resourceId, resourceType, requestorId,
          reason, first, second, minutes, rfl⟩
    | _ => cases creates

theorem createdForTenant_run (calls : List Call) :
    CreatedForTenant (Machine.trace call new calls) (Machine.final call new calls) := by
  have h0 : CreatedForTenant [] new := by
    intro id r hr
    simp [new] at hr
  exact Machine.run_inv (fun _ _ c hi => hi.step c) h0 calls

/-! ## Isolation -/

/-- Engines that agree on a tenant's requests give it the same view of them exactly when no other tenant has an active
break-glass request in either. -/
theorem tenantView_iff (calls calls' : List Call) (now : DateTime) (tenantId : String)
    (hrequests : (Machine.final call new calls).requestsOf tenantId =
      (Machine.final call new calls').requestsOf tenantId)
    (hbreakGlass : (Machine.final call new calls).breakGlassOf tenantId =
      (Machine.final call new calls').breakGlassOf tenantId) :
    TenantView (Machine.final call new calls) (Machine.final call new calls') now tenantId ↔
      (Machine.final call new calls).OthersInactive now tenantId ∧
        (Machine.final call new calls').OthersInactive now tenantId := by
  generalize Machine.final call new calls = e at *
  generalize Machine.final call new calls' = e' at *
  constructor
  · intro hview
    refine ⟨own_iff_othersInactive.1 hview.own, own_iff_othersInactive.1 fun r => ?_⟩
    rw [← hview.activeBreakGlass r, hview.own r, hbreakGlass]
  · rintro ⟨hothers, hothers'⟩
    refine ⟨fun r => ?_, fun r => ?_, fun r => ?_, own_iff_othersInactive.2 hothers⟩
    · rw [mem_listPending_iff, mem_listPending_iff, hrequests]
    · rw [mem_listAll_iff, mem_listAll_iff, hrequests]
    · rw [own_iff_othersInactive.2 hothers r, own_iff_othersInactive.2 hothers' r, hbreakGlass]

theorem breakGlassOf_unaskedFirstApprover : (Machine.final call new []).breakGlassOf "tenant-2" =
    (Machine.final call new unaskedFirstApprover).breakGlassOf "tenant-2" := by
  ext r
  constructor
  · rintro ⟨-, id, hr⟩
    simp [Machine.final, new] at hr
  · rintro ⟨htenant, id, hr⟩
    obtain ⟨ev, hev, _, _, _, _, _, _, _, _, _, hcall⟩ := createdForTenant_run unaskedFirstApprover id r hr
    have hmem : ev.1 ∈ unaskedFirstApprover := by
      rw [← Machine.map_fst_trace call new unaskedFirstApprover]
      exact List.mem_map_of_mem hev
    simp only [hcall, unaskedFirstApprover, List.mem_cons, List.not_mem_nil, or_false,
      Call.createBreakGlassRequest.injEq, reduceCtorEq] at hmem
    rw [hmem.2.2.2.2.2.1] at htenant
    exact absurd htenant (by decide)

theorem tenantView_iff_unaskedFirstApprover :
    TenantView (Machine.final call new []) (Machine.final call new unaskedFirstApprover) 0 "tenant-2" ↔
      (Machine.final call new []).OthersInactive 0 "tenant-2" ∧
        (Machine.final call new unaskedFirstApprover).OthersInactive 0 "tenant-2" :=
  tenantView_iff [] unaskedFirstApprover 0 "tenant-2" rfl breakGlassOf_unaskedFirstApprover

/-- A tenant without requests sees the active one of another. -/
theorem not_tenantView_unaskedFirstApprover :
    (Machine.final call new []).requestsOf "tenant-2" =
      (Machine.final call new unaskedFirstApprover).requestsOf "tenant-2" ∧
    (Machine.final call new []).breakGlassOf "tenant-2" =
      (Machine.final call new unaskedFirstApprover).breakGlassOf "tenant-2" ∧
    ¬ TenantView (Machine.final call new []) (Machine.final call new unaskedFirstApprover) 0 "tenant-2" := by
  refine ⟨rfl, breakGlassOf_unaskedFirstApprover, fun hview => ?_⟩
  have hseen : ∃ r, r ∈ (Machine.final call new unaskedFirstApprover).listActiveBreakGlass 0 "tenant-2" :=
    ⟨_, mem_listActiveBreakGlass_iff.2 ⟨⟨1, rfl⟩, by decide +kernel⟩⟩
  obtain ⟨r, hr⟩ := hseen
  obtain ⟨⟨id, hid⟩, -⟩ := mem_listActiveBreakGlass_iff.1 ((hview.activeBreakGlass r).2 hr)
  simp [Machine.final, new] at hid

end ApprovalEngine

end GmKms.Approval
