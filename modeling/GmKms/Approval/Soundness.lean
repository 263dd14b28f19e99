import GmKms.Approval.Engine
/-!
# What an approval stands for

`is_approved` is the gate of the sensitive operations. Whatever calls built the
engine, it opens only for a request that enough distinct people of sufficient
authority, none of them the requestor, voted for.
-/

namespace GmKms.Approval

open Lib Lib.History ApprovalEngine

/-! ## Events of one request -/

/-- The event creates the request `id`. -/
def createsRequest (id : Uuid) : Call × Reply → Bool
  | (.createRequest .., .request (.ok r)) => r.id = id
  | _ => false

/-- The event rejects or cancels the request `id`. -/
def endsRequest (id : Uuid) : Call × Reply → Bool
  | (.reject _ requestId _ _ _, .request (.ok _)) => requestId = id
  | (.cancel _ requestId _, .request (.ok _)) => requestId = id
  | _ => false

/-- Since its creation the request has had the approval `a` from a caller whose
role carries the level the record says. -/
def VoteCast (h : History Call Reply) (id : Uuid) (a : ApprovalRecord) : Prop :=
  ∃ clock role comment r, determineApprovalLevel role = a.level ∧
    (Call.approve clock id a.approverId role comment, Reply.request (.ok r)) ∈ since (createsRequest id) h

/-- The votes a level asks for. -/
def Quorum (approvals : List ApprovalRecord) : ApprovalLevel → Prop
  | .none => True
  | .single => 1 ≤ approvals.length
  | .double => 2 ≤ approvals.length
  | .triple => 3 ≤ approvals.length
  | .manager => ∃ a ∈ approvals, a.level = .manager
  | .admin => ∃ a ∈ approvals, a.level = .admin

theorem checkApprovalComplete_iff (r : ApprovalRequestEntity) :
    checkApprovalComplete r = true ↔ Quorum r.approvals r.requiredLevel := by
  cases hl : r.requiredLevel <;> simp [checkApprovalComplete, Quorum, hl, Nat.one_le_iff_ne_zero]

/-! ## The invariant -/

/-- The request is the one its creation event asked for, as to what never changes. -/
structure Created (ev : Call × Reply) (r : ApprovalRequestEntity) : Prop where
  event : ∃ now justification, ev.1 = .createRequest r.id now r.operation r.resourceId r.resourceType r.tenantId
    r.requestorId justification r.requiredLevel ∧
      r.expiresAt = now + DateTime.hours (timeoutHours r.requiredLevel)

/-- What the engine holds under `id`, against the calls so far. -/
structure RequestInv (h : History Call Reply) (id : Uuid) (r : ApprovalRequestEntity) : Prop where
  created : ∃ ev, last? (createsRequest id) h = some ev ∧ Created ev r
  distinct : (r.approvals.map (·.approverId)).Nodup
  notRequestor : ∀ a ∈ r.approvals, a.approverId ≠ r.requestorId
  authority : ∀ a ∈ r.approvals, r.requiredLevel ≤ a.level
  cast : ∀ a ∈ r.approvals, VoteCast h id a
  ended : ∀ ev ∈ since (createsRequest id) h, endsRequest id ev = true →
    r.status = .rejected ∨ r.status = .cancelled

/-- Every request in the engine satisfies the invariant. -/
def EngineInv (h : History Call Reply) (e : ApprovalEngine) : Prop :=
  ∀ id r, e.pendingRequests[id]? = some r → RequestInv h id r

theorem VoteCast.append {h : History Call Reply} {id : Uuid} {a : ApprovalRecord} (hv : VoteCast h id a)
    {ev : Call × Reply} (other : createsRequest id ev = false) : VoteCast (h ++ [ev]) id a := by
  obtain ⟨clock, role, comment, r, hl, hm⟩ := hv
  refine ⟨clock, role, comment, r, hl, ?_⟩
  rw [since_append_of_neg other]
  exact List.mem_append_left _ hm

/-- An event that does not recreate the request and casts no vote keeps the
invariant, if it marks a request that it ends and leaves the mark on an ended one. -/
theorem RequestInv.append {h : History Call Reply} {id : Uuid} {r : ApprovalRequestEntity} (hi : RequestInv h id r)
    {ev : Call × Reply} (other : createsRequest id ev = false) (rejections : List RejectionRecord)
    (status : ApprovalStatus) (completedAt : Option DateTime)
    (ended : (endsRequest id ev = true ∨ r.status = .rejected ∨ r.status = .cancelled) →
      status = .rejected ∨ status = .cancelled) :
    RequestInv (h ++ [ev]) id { r with rejections, status, completedAt } := by
  obtain ⟨ev₀, hlast, hcreated⟩ := hi.created
  refine ⟨⟨ev₀, ?_, ⟨hcreated.event⟩⟩, hi.distinct, hi.notRequestor, hi.authority, ?_, ?_⟩
  · rw [last?_append_of_neg other, hlast]
  · exact fun a ha => (hi.cast a ha).append other
  · intro ev' hev' hends
    rw [since_append_of_neg other] at hev'
    rcases List.mem_append.1 hev' with hm | hm
    · exact ended (.inr (hi.ended ev' hm hends))
    · rw [List.mem_singleton.1 hm] at hends
      exact ended (.inl hends)

/-! ## What one call does to one request -/

/-- Every way a call changes what the engine holds under `id`. -/
inductive RequestStep (id : Uuid) (c : Call) (a : Reply) :
    Option ApprovalRequestEntity → Option ApprovalRequestEntity → Prop where
  | same {o} (other : createsRequest id (c, a) = false) (alive : endsRequest id (c, a) = false) :
      RequestStep id c a o o
  | created {o} (r : ApprovalRequestEntity) (creates : createsRequest id (c, a) = true) (event : Created (c, a) r)
      (fresh : r.approvals = []) : RequestStep id c a o (some r)
  | approved (r r' : ApprovalRequestEntity) (clock : Clock) (approverId : String) (role : Role)
      (comment : Option String) (call : c = .approve clock id approverId role comment)
      (reply : a = .request (.ok r')) (other : r.requestorId ≠ approverId)
      (authority : r.requiredLevel ≤ determineApprovalLevel role) (open_ : r.status.isTerminal = false)
      (unvoted : ∀ v ∈ r.approvals, v.approverId ≠ approverId) :
      RequestStep id c a (some r)
        (some (recordApproval r clock approverId (determineApprovalLevel role) comment))
  | closed (r : ApprovalRequestEntity) (rejections : List RejectionRecord) (status : ApprovalStatus)
      (completedAt : Option DateTime) (other : createsRequest id (c, a) = false)
      (open_ : r.status.isTerminal = false) (ended : endsRequest id (c, a) = true →
        status = .rejected ∨ status = .cancelled) :
      RequestStep id c a (some r) (some { r with rejections, status, completedAt })

/-- A call that writes back one request does nothing to the others. -/
theorem RequestStep.put {e : ApprovalEngine} {requestId : Uuid} {r r' : ApprovalRequestEntity} {c : Call} {a : Reply}
    (hr : e.pendingRequests[requestId]? = some r) (hstep : RequestStep requestId c a (some r) (some r'))
    (id : Uuid) (other : createsRequest id (c, a) = false) (alive : requestId ≠ id → endsRequest id (c, a) = false) :
    RequestStep id c a e.pendingRequests[id]? (e.putRequest requestId r').pendingRequests[id]? := by
  rw [pendingRequests_putRequest]
  split
  · subst requestId
    rwa [hr]
  · exact .same other (alive ‹_›)

theorem request_step (e : ApprovalEngine) (c : Call) (id : Uuid) :
    RequestStep id c (call e c).1 e.pendingRequests[id]? (call e c).2.pendingRequests[id]? := by
  cases c with
  | createRequest uuid now operation resourceId resourceType tenantId requestorId justification level =>
    simp only [call, createRequest, Prod.map_apply, id_eq, pendingRequests_putRequest]
    by_cases hid : uuid = id
    · rw [if_pos hid]
      exact .created _ (by simp [createsRequest, hid]) ⟨⟨now, justification, rfl, rfl⟩⟩ rfl
    · rw [if_neg hid]
      exact .same (by simp [createsRequest, hid]) rfl
  | approve clock requestId approverId role comment =>
    simp only [call, approve]
    cases hr : e.pendingRequests[requestId]? with
    | none => exact .same rfl rfl
    | some r =>
      dsimp only
      split_ifs with hself hlevel hterminal hexpired hvoted hrejected
      · exact .same rfl rfl
      · exact .same rfl rfl
      · exact .same rfl rfl
      · exact .put hr (.closed r r.rejections .expired _ rfl (by simpa using hterminal) (by simp [endsRequest])) id rfl
          (fun _ => rfl)
      · exact .same rfl rfl
      · exact .same rfl rfl
      · refine .put hr (.approved r _ clock approverId role comment rfl rfl hself (not_lt.1 hlevel)
          (by simpa using hterminal) ?_) id rfl (fun _ => rfl)
        intro v hv hsame
        exact hvoted (List.any_eq_true.2 ⟨v, hv, by simp [hsame]⟩)
  | reject clock requestId rejectorId role reason =>
    simp only [call, reject]
    cases hr : e.pendingRequests[requestId]? with
    | none => exact .same rfl rfl
    | some r =>
      dsimp only
      split_ifs with hself hterminal hexpired hvoted hrejected
      · exact .same rfl rfl
      · exact .same rfl rfl
      · exact .put hr (.closed r r.rejections .expired _ rfl (by simpa using hterminal) (by simp [endsRequest])) id rfl
          (fun _ => rfl)
      · exact .same rfl rfl
      · exact .same rfl rfl
      · exact .put hr (.closed r _ .rejected _ rfl (by simpa using hterminal) (fun _ => .inl rfl)) id rfl
          (fun hne => by simp [endsRequest, hne])
  | cancel clock requestId requestorId =>
    simp only [call, cancel]
    cases hr : e.pendingRequests[requestId]? with
    | none => exact .same rfl rfl
    | some r =>
      dsimp only
      split_ifs with howner hterminal
      · exact .same rfl rfl
      · exact .same rfl rfl
      · exact .put hr (.closed r r.rejections .cancelled _ rfl (by simpa using hterminal) (fun _ => .inr rfl)) id rfl
          (fun hne => by simp [endsRequest, hne])
  | cleanupExpired now =>
    simp only [call, cleanupExpired, Prod.map_apply, id_eq, Std.ExtTreeMap.getElem?_map]
    cases hr : e.pendingRequests[id]? with
    | none => exact .same rfl rfl
    | some r =>
      simp only [Option.map_some]
      split
      · rename_i hdue
        have hpending : r.status = .pending := by simp_all [isOverdue]
        exact .closed r r.rejections .expired _ rfl (by rw [hpending]; rfl) (by simp [endsRequest])
      · exact .same rfl rfl
  | createBreakGlassRequest uuid now operation resourceId resourceType tenantId requestorId reason first second
      minutes =>
    have h : (e.createBreakGlassRequest uuid now operation resourceId resourceType tenantId requestorId reason first
        second minutes).2.pendingRequests = e.pendingRequests := by
      unfold createBreakGlassRequest
      grind [pendingRequests_putBreakGlass]
    simp only [call, Prod.map_snd, id_eq, h]
    exact .same rfl rfl
  | confirmBreakGlassFirst now requestId approverId =>
    have h : (e.confirmBreakGlassFirst now requestId approverId).2.pendingRequests = e.pendingRequests := by
      unfold confirmBreakGlassFirst
      grind [pendingRequests_putBreakGlass]
    simp only [call, Prod.map_snd, id_eq, h]
    exact .same rfl rfl
  | confirmBreakGlassSecond now requestId approverId =>
    have h : (e.confirmBreakGlassSecond now requestId approverId).2.pendingRequests = e.pendingRequests := by
      unfold confirmBreakGlassSecond
      grind [pendingRequests_putBreakGlass]
    simp only [call, Prod.map_snd, id_eq, h]
    exact .same rfl rfl
  | cancelBreakGlass requestId requestorId =>
    have h : (e.cancelBreakGlass requestId requestorId).2.pendingRequests = e.pendingRequests := by
      unfold cancelBreakGlass
      grind [pendingRequests_putBreakGlass]
    simp only [call, Prod.map_snd, id_eq, h]
    exact .same rfl rfl
  | cleanupExpiredBreakGlass => exact .same rfl rfl

/-! ## Over a run -/

theorem recordApproval_fields (r : ApprovalRequestEntity) (clock : Clock) (approverId : String)
    (level : ApprovalLevel) (comment : Option String) :
    ∃ currentLevel status completedAt, recordApproval r clock approverId level comment =
      { r with
        approvals := r.approvals ++ [{ approverId, level, approvedAt := clock 1, comment }]
        currentLevel, status, completedAt } := by
  unfold recordApproval
  dsimp only
  split
  · exact ⟨_, _, _, rfl⟩
  · exact ⟨_, _, _, rfl⟩

theorem not_ended_of_open {status : ApprovalStatus} (h : status.isTerminal = false) :
    ¬ (status = .rejected ∨ status = .cancelled) := by
  rintro (rfl | rfl) <;> simp [ApprovalStatus.isTerminal] at h

/-- A vote of a new voter with enough authority keeps the invariant of an open request. -/
theorem RequestInv.recordApproval {h : History Call Reply} {id : Uuid} {r r' : ApprovalRequestEntity}
    (hi : RequestInv h id r) {clock : Clock} {approverId : String} {role : Role} {comment : Option String}
    (other : r.requestorId ≠ approverId) (authority : r.requiredLevel ≤ determineApprovalLevel role)
    (hopen : r.status.isTerminal = false) (unvoted : ∀ v ∈ r.approvals, v.approverId ≠ approverId) :
    RequestInv (h ++ [(.approve clock id approverId role comment, .request (.ok r'))]) id
      (ApprovalEngine.recordApproval r clock approverId (determineApprovalLevel role) comment) := by
  obtain ⟨level', status, completedAt, heq⟩ :=
    recordApproval_fields r clock approverId (determineApprovalLevel role) comment
  rw [heq]
  obtain ⟨ev₀, hlast, hcreated⟩ := hi.created
  refine ⟨⟨ev₀, ?_, ⟨hcreated.event⟩⟩, ?_, ?_, ?_, ?_, ?_⟩
  · rw [last?_append_of_neg rfl, hlast]
  · rw [List.map_append, List.nodup_append]
    refine ⟨hi.distinct, by simp, ?_⟩
    intro x hx y hy
    obtain ⟨v, hv, rfl⟩ := List.mem_map.1 hx
    rw [List.mem_singleton.1 hy]
    exact unvoted v hv
  · intro v hv
    rcases List.mem_append.1 hv with hv | hv
    · exact hi.notRequestor v hv
    · rw [List.mem_singleton.1 hv]
      exact other.symm
  · intro v hv
    rcases List.mem_append.1 hv with hv | hv
    · exact hi.authority v hv
    · rw [List.mem_singleton.1 hv]
      exact authority
  · intro v hv
    rcases List.mem_append.1 hv with hv | hv
    · exact (hi.cast v hv).append rfl
    · rw [List.mem_singleton.1 hv]
      refine ⟨clock, role, comment, r', rfl, ?_⟩
      rw [since_append_of_neg rfl]
      simp
  · intro ev hev hends
    rw [since_append_of_neg rfl] at hev
    rcases List.mem_append.1 hev with hm | hm
    · exact absurd (hi.ended ev hm hends) (not_ended_of_open hopen)
    · rw [List.mem_singleton.1 hm] at hends
      simp [endsRequest] at hends

theorem engineInv_call {h : History Call Reply} {e : ApprovalEngine} (hi : EngineInv h e) (c : Call) :
    EngineInv (h ++ [(c, (call e c).1)]) (call e c).2 := by
  intro id r' hr'
  have hstep := request_step e c id
  rw [hr'] at hstep
  generalize ho : e.pendingRequests[id]? = o at hstep
  cases hstep with
  | same other alive =>
    exact (hi id r' ho).append other r'.rejections r'.status r'.completedAt (by rw [alive]; simp)
  | created r creates event fresh =>
    refine ⟨⟨_, last?_append_of_pos creates, event⟩, ?_, ?_, ?_, ?_, ?_⟩
    · simp [fresh]
    · simp [fresh]
    · simp [fresh]
    · simp [fresh]
    · simp [since_append_of_pos creates]
  | approved r r₂ clock approverId role comment hcall reply other authority hopen unvoted =>
    rw [reply, hcall]
    exact (hi id r ho).recordApproval other authority hopen unvoted
  | closed r rejections status completedAt other hopen ended =>
    refine (hi id r ho).append other rejections status completedAt ?_
    rintro (hends | hr)
    · exact ended hends
    · exact absurd hr (not_ended_of_open hopen)

/-- What `is_approved` vouches for. -/
structure Vouched (h : History Call Reply) (now : DateTime) (id : Uuid) (operation : OperationType)
    (resourceId : String) (r : ApprovalRequestEntity) : Prop where
  operation_eq : r.operation = operation
  resource_eq : r.resourceId = resourceId
  created : ∃ ev, last? (createsRequest id) h = some ev ∧ Created ev r
  unexpired : now ≤ r.expiresAt
  neverEnded : ∀ ev ∈ since (createsRequest id) h, endsRequest id ev = false
  distinct : (r.approvals.map (·.approverId)).Nodup
  notRequestor : ∀ a ∈ r.approvals, a.approverId ≠ r.requestorId
  authority : ∀ a ∈ r.approvals, r.requiredLevel ≤ a.level
  cast : ∀ a ∈ r.approvals, VoteCast h id a
  quorum : Quorum r.approvals r.requiredLevel

/-- The gate opens only for what it vouches for, after any calls. -/
theorem vouched_of_isApproved (calls : List Call) (now : DateTime) (id : Uuid) (operation : OperationType)
    (resourceId : String) (h : (Machine.final call new calls).isApproved now id operation resourceId = true) :
    ∃ r, (Machine.final call new calls).pendingRequests[id]? = some r ∧
      Vouched (Machine.trace call new calls) now id operation resourceId r := by
  have hinv : EngineInv (Machine.trace call new calls) (Machine.final call new calls) := by
    have := Machine.run_inv (I := EngineInv) (fun _ _ c hi => engineInv_call hi c) (h := []) (s := new)
      (by intro id r hr; simp [new] at hr) calls
    simpa using this
  generalize Machine.final call new calls = e at h hinv
  simp only [isApproved, getRequest] at h
  cases hr : e.pendingRequests[id]? with
  | none => simp [hr] at h
  | some r =>
    simp only [hr, Bool.and_eq_true, decide_eq_true_eq, checkApprovalComplete_iff] at h
    obtain ⟨⟨⟨⟨hop, hres⟩, happroved⟩, hlive⟩, hquorum⟩ := h
    have hi := hinv id r hr
    refine ⟨r, rfl, ⟨hop, hres, hi.created, hlive, ?_, hi.distinct, hi.notRequestor, hi.authority, hi.cast, hquorum⟩⟩
    intro ev hev
    by_contra hends
    rcases hi.ended ev hev (by simpa using hends) with hs | hs <;> rw [happroved] at hs <;> cases hs

/-- Two operators approve the deletion that Alice asks for. -/
def approvedDeletion : List Call :=
  [.createRequest 1 0 .keyDelete "key-1" "key" "tenant-1" "alice" none .double,
   .approve (fun _ => 1) 1 "bob" .operator none,
   .approve (fun _ => 2) 1 "carol" .operator none]

theorem vouched_approvedDeletion :
    ∃ r, (Machine.final call new approvedDeletion).pendingRequests[(1 : Uuid)]? = some r ∧
      Vouched (Machine.trace call new approvedDeletion) 3 1 .keyDelete "key-1" r :=
  vouched_of_isApproved approvedDeletion 3 1 .keyDelete "key-1" (by decide +kernel)

end GmKms.Approval
