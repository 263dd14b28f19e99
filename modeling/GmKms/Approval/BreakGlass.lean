import GmKms.Approval.Engine
/-!
# Dual custody of break-glass access

What an activated break-glass request owes to its two approvers, and under
which order of calls the engine delivers it.
-/

namespace GmKms.Approval

open Lib Lib.History ApprovalEngine

/-- The event creates the break-glass request `id`. -/
def createsBreakGlass (id : Uuid) : Call × Reply → Bool
  | (.createBreakGlassRequest .., .breakGlass (.ok r)) => r.id = id
  | _ => false

/-- Since its creation, `approverId` has confirmed the request as first approver. -/
def FirstConfirmed (h : History Call Reply) (id : Uuid) (approverId : String) : Prop :=
  ∃ now r, (Call.confirmBreakGlassFirst now id approverId, Reply.breakGlass (.ok r)) ∈
    since (createsBreakGlass id) h

/-- Since its creation, `approverId` has confirmed the request as second approver. -/
def SecondConfirmed (h : History Call Reply) (id : Uuid) (approverId : String) : Prop :=
  ∃ now r, (Call.confirmBreakGlassSecond now id approverId, Reply.breakGlass (.ok r)) ∈
    since (createsBreakGlass id) h

/-- Two different people, neither of them the requestor, have confirmed the request. -/
structure DualCustody (h : History Call Reply) (id : Uuid) (r : BreakGlassRequest) : Prop where
  first : FirstConfirmed h id r.firstApproverId
  second : SecondConfirmed h id r.secondApproverId
  distinct : r.firstApproverId ≠ r.secondApproverId
  notFirst : r.requestorId ≠ r.firstApproverId
  notSecond : r.requestorId ≠ r.secondApproverId

/-- Every activated request is under dual custody. -/
def ActivatedInCustody (h : History Call Reply) (e : ApprovalEngine) : Prop :=
  ∀ id r, e.breakGlassRequests[id]? = some r → r.status = .activated → DualCustody h id r

/-- The call, if it is a second confirmation that will activate the request,
comes after the first one and neither approver is the requestor. -/
def SecondAfterFirst (h : History Call Reply) (e : ApprovalEngine) : Call → Prop
  | .confirmBreakGlassSecond now id approverId =>
    ∀ r, e.breakGlassRequests[id]? = some r → r.status = .pendingDualApproval →
      r.secondApproverId = approverId → now ≤ r.expiresAt →
      FirstConfirmed h id r.firstApproverId ∧ r.requestorId ≠ r.firstApproverId ∧
        r.requestorId ≠ r.secondApproverId
  | _ => True

theorem isBreakGlassActive_iff (e : ApprovalEngine) (now : DateTime) (resourceId : String) :
    e.isBreakGlassActive now resourceId = true ↔
      ∃ (id : Uuid) (r : BreakGlassRequest), e.breakGlassRequests[id]? = some r ∧ r.resourceId = resourceId ∧
        r.status = .activated ∧ now ≤ r.expiresAt := by
  simp only [isBreakGlassActive, List.any_eq_true, Prod.exists, Std.ExtTreeMap.mem_toList_iff_getElem?_eq_some,
    Bool.and_eq_true, decide_eq_true_eq, and_assoc]

/-! ## What one call does to one request -/

/-- Every way a call changes what the engine holds under `id`. -/
inductive BreakGlassStep (id : Uuid) (c : Call) (a : Reply) :
    Option BreakGlassRequest → Option BreakGlassRequest → Prop where
  | same {o} (other : createsBreakGlass id (c, a) = false) : BreakGlassStep id c a o o
  | created {o} (r : BreakGlassRequest) (creates : createsBreakGlass id (c, a) = true)
      (pending : r.status = .pendingDualApproval) (distinct : r.firstApproverId ≠ r.secondApproverId) :
      BreakGlassStep id c a o (some r)
  | closed (r : BreakGlassRequest) (status : BreakGlassStatus) (other : createsBreakGlass id (c, a) = false)
      (inactive : status ≠ .activated) : BreakGlassStep id c a (some r) (some { r with status })
  | activated (r r' : BreakGlassRequest) (now : DateTime)
      (call : c = .confirmBreakGlassSecond now id r.secondApproverId)
      (reply : a = .breakGlass (.ok r')) (pending : r.status = .pendingDualApproval) (live : now ≤ r.expiresAt) :
      BreakGlassStep id c a (some r) (some { r with status := .activated })

/-- A call that writes back one request does nothing to the others. -/
theorem BreakGlassStep.put {e : ApprovalEngine} {requestId : Uuid} {r r' : BreakGlassRequest} {c : Call} {a : Reply}
    (hr : e.breakGlassRequests[requestId]? = some r) (hstep : BreakGlassStep requestId c a (some r) (some r'))
    (id : Uuid) (other : createsBreakGlass id (c, a) = false) :
    BreakGlassStep id c a e.breakGlassRequests[id]? (e.putBreakGlass requestId r').breakGlassRequests[id]? := by
  rw [breakGlassRequests_putBreakGlass]
  split
  · subst requestId
    rwa [hr]
  · exact .same other

theorem breakGlass_step (e : ApprovalEngine) (c : Call) (id : Uuid) :
    BreakGlassStep id c (call e c).1 e.breakGlassRequests[id]? (call e c).2.breakGlassRequests[id]? := by
  cases c with
  | createRequest => exact .same rfl
  | approve clock requestId approverId role comment =>
    have h : (e.approve clock requestId approverId role comment).2.breakGlassRequests = e.breakGlassRequests := by
      unfold approve
      grind [breakGlassRequests_putRequest]
    simp only [call, Prod.map_snd, id_eq, h]
    exact .same rfl
  | reject clock requestId rejectorId role reason =>
    have h : (e.reject clock requestId rejectorId role reason).2.breakGlassRequests = e.breakGlassRequests := by
      unfold reject
      grind [breakGlassRequests_putRequest]
    simp only [call, Prod.map_snd, id_eq, h]
    exact .same rfl
  | cancel clock requestId requestorId =>
    have h : (e.cancel clock requestId requestorId).2.breakGlassRequests = e.breakGlassRequests := by
      unfold cancel
      grind [breakGlassRequests_putRequest]
    simp only [call, Prod.map_snd, id_eq, h]
    exact .same rfl
  | cleanupExpired => exact .same rfl
  | createBreakGlassRequest uuid now operation resourceId resourceType tenantId requestorId reason first second
      minutes =>
    simp only [call, createBreakGlassRequest]
    split
    · exact .same rfl
    · rename_i hne
      simp only [Prod.map_apply, id_eq, breakGlassRequests_putBreakGlass]
      by_cases hid : uuid = id
      · rw [if_pos hid]
        exact .created _ (by simp [createsBreakGlass, hid]) rfl hne
      · rw [if_neg hid]
        exact .same (by simp [createsBreakGlass, hid])
  | confirmBreakGlassFirst now requestId approverId =>
    simp only [call, confirmBreakGlassFirst]
    cases hr : e.breakGlassRequests[requestId]? with
    | none => exact .same rfl
    | some r =>
      dsimp only
      split_ifs
      · exact .same rfl
      · exact .same rfl
      · exact .put hr (.closed r .expired rfl (by decide)) id rfl
      · exact .same rfl
  | confirmBreakGlassSecond now requestId approverId =>
    simp only [call, confirmBreakGlassSecond]
    cases hr : e.breakGlassRequests[requestId]? with
    | none => exact .same rfl
    | some r =>
      dsimp only
      split_ifs with hpending happrover hlive
      · exact .same rfl
      · exact .same rfl
      · exact .put hr (.closed r .expired rfl (by decide)) id rfl
      · exact .put hr (.activated r _ now (by rw [not_not.1 happrover]) rfl (not_not.1 hpending) (not_lt.1 hlive))
          id rfl
  | cancelBreakGlass requestId requestorId =>
    simp only [call, cancelBreakGlass]
    cases hr : e.breakGlassRequests[requestId]? with
    | none => exact .same rfl
    | some r =>
      dsimp only
      split_ifs
      · exact .same rfl
      · exact .same rfl
      · exact .put hr (.closed r .cancelled rfl (by decide)) id rfl
  | cleanupExpiredBreakGlass now =>
    simp only [call, cleanupExpiredBreakGlass, Prod.map_apply, id_eq, Std.ExtTreeMap.getElem?_map]
    cases hr : e.breakGlassRequests[id]? with
    | none => exact .same rfl
    | some r =>
      simp only [Option.map_some]
      split
      · exact .closed r .expired rfl (by decide)
      · exact .same rfl

/-- Under the four guards of its source, the second confirmation activates. -/
theorem call_confirmBreakGlassSecond_of_pending {e : ApprovalEngine} {now : DateTime} {id : Uuid}
    {r : BreakGlassRequest} (hr : e.breakGlassRequests[id]? = some r) (hpending : r.status = .pendingDualApproval)
    (hlive : now ≤ r.expiresAt) :
    (call e (.confirmBreakGlassSecond now id r.secondApproverId)).2.breakGlassRequests[id]? =
      some { r with status := .activated } := by
  simp [call, confirmBreakGlassSecond, hr, hpending, not_lt.2 hlive, breakGlassRequests_putBreakGlass]

/-! ## Over a run -/

/-- The approvers named at creation always differ. -/
def ApproversDiffer (e : ApprovalEngine) : Prop :=
  ∀ (id : Uuid) r, e.breakGlassRequests[id]? = some r → r.firstApproverId ≠ r.secondApproverId

theorem approversDiffer_call {e : ApprovalEngine} (hi : ApproversDiffer e) (c : Call) :
    ApproversDiffer (call e c).2 := by
  intro id r hr
  have hstep := breakGlass_step e c id
  rw [hr] at hstep
  generalize ho : e.breakGlassRequests[id]? = o at hstep
  cases hstep with
  | same other => exact hi id r ho
  | created r creates pending distinct => exact distinct
  | closed r status other inactive => exact hi id r ho
  | activated r r' now call reply pending live => exact hi id r ho

/-- An event that does not recreate the request leaves it in custody. -/
theorem DualCustody.append {h : History Call Reply} {id : Uuid} {r : BreakGlassRequest} (hd : DualCustody h id r)
    {ev : Call × Reply} (other : createsBreakGlass id ev = false) : DualCustody (h ++ [ev]) id r := by
  obtain ⟨now₁, r₁, h₁⟩ := hd.first
  obtain ⟨now₂, r₂, h₂⟩ := hd.second
  refine { hd with first := ⟨now₁, r₁, ?_⟩, second := ⟨now₂, r₂, ?_⟩ }
  · rw [since_append_of_neg other]
    exact List.mem_append_left _ h₁
  · rw [since_append_of_neg other]
    exact List.mem_append_left _ h₂

/-- Custody survives exactly the calls taken under the guard. -/
theorem activatedInCustody_call {h : History Call Reply} {e : ApprovalEngine} (hi : ApproversDiffer e)
    (hp : ActivatedInCustody h e) (c : Call) :
    ActivatedInCustody (h ++ [(c, (call e c).1)]) (call e c).2 ↔ SecondAfterFirst h e c := by
  constructor
  · intro hp'
    cases c with
    | confirmBreakGlassSecond now id approverId =>
      rintro r hr hpending rfl hlive
      obtain ⟨⟨now₁, r₁, h₁⟩, -, -, hf, hs⟩ :=
        hp' id _ (call_confirmBreakGlassSecond_of_pending hr hpending hlive) rfl
      refine ⟨⟨now₁, r₁, ?_⟩, hf, hs⟩
      rw [since_append_of_neg rfl] at h₁
      simpa using h₁
    | _ => trivial
  · intro hg id r' hr' hactive
    have hstep := breakGlass_step e c id
    rw [hr'] at hstep
    generalize ho : e.breakGlassRequests[id]? = o at hstep
    cases hstep with
    | same other => exact (hp id r' ho hactive).append other
    | created r creates pending distinct => exact absurd (pending.symm.trans hactive) (by decide)
    | closed r status other inactive => exact absurd hactive inactive
    | activated r r₂ now hcall reply pending live =>
      subst hcall
      obtain ⟨⟨now₁, r₁, h₁⟩, hf, hs⟩ := hg r ho pending rfl live
      refine ⟨⟨now₁, r₁, ?_⟩, ⟨now, r₂, ?_⟩, hi id r ho, hf, hs⟩
      · rw [since_append_of_neg rfl]
        exact List.mem_append_left _ h₁
      · rw [reply, since_append_of_neg rfl]
        simp

/-- Every activation is under dual custody, throughout exactly the runs in which
each second confirmation that activates comes after the first and from people
other than the requestor. The engine itself checks neither. -/
theorem dual_custody_iff_second_after_first (calls : List Call) :
    Machine.Throughout call ActivatedInCustody [] new calls ↔ Machine.Along call SecondAfterFirst [] new calls :=
  Machine.throughout_iff_along (I := fun _ e => ApproversDiffer e) (fun _ _ c hi => approversDiffer_call hi c)
    (fun _ _ c hi hp => activatedInCustody_call hi hp c) (by intro id r hr; simp [new] at hr)
    (by intro id r hr; simp [new] at hr) calls

/-- Alice's request names Bob and Carol; Carol confirms and Bob is never asked. -/
def unaskedFirstApprover : List Call :=
  [.createBreakGlassRequest 1 0 .keyExport "key-1" "key" "tenant-1" "alice" "outage" "bob" "carol" 30,
   .confirmBreakGlassSecond 0 1 "carol"]

/-- Access is active on Carol's word alone. -/
theorem not_dual_custody_unaskedFirstApprover :
    (Machine.final call new unaskedFirstApprover).isBreakGlassActive 0 "key-1" = true ∧
      ¬ ActivatedInCustody (Machine.trace call new unaskedFirstApprover)
        (Machine.final call new unaskedFirstApprover) := by
  refine ⟨by decide +kernel, fun h => ?_⟩
  obtain ⟨⟨now, r, hr⟩, -⟩ := h 1 _ rfl rfl
  have hs : since (createsBreakGlass 1) (Machine.trace call new unaskedFirstApprover) =
      (Machine.trace call new unaskedFirstApprover).drop 1 := rfl
  rw [hs] at hr
  simp only [Machine.trace, unaskedFirstApprover, List.drop_succ_cons, List.drop_zero, List.mem_singleton,
    Prod.mk.injEq, reduceCtorEq, false_and] at hr

end GmKms.Approval
