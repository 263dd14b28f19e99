import GmKms.Approval.Workflow
import GmKms.Lib.Machine
/-!
# The approval engine

`ApprovalEngine` of `kms-approval`, one definition per method. A method that
takes `&mut self` returns its result and the engine it leaves, which on an
error is not always the engine it found: an expired request is marked before
the error is raised.
-/

namespace GmKms.Approval

/-- The engine's `config` is left out: no method reads it. -/
structure ApprovalEngine where
  pendingRequests : HashMap Uuid ApprovalRequestEntity
  breakGlassRequests : HashMap Uuid BreakGlassRequest

namespace ApprovalEngine

def new : ApprovalEngine := ⟨∅, ∅⟩

/-- Write back a request that `get_mut` lent out. -/
def putRequest (e : ApprovalEngine) (id : Uuid) (r : ApprovalRequestEntity) : ApprovalEngine :=
  { e with pendingRequests := e.pendingRequests.insert id r }

/-- Write back a break-glass request that `get_mut` lent out. -/
def putBreakGlass (e : ApprovalEngine) (id : Uuid) (r : BreakGlassRequest) : ApprovalEngine :=
  { e with breakGlassRequests := e.breakGlassRequests.insert id r }

theorem pendingRequests_putRequest (e : ApprovalEngine) (id id' : Uuid) (r : ApprovalRequestEntity) :
    (e.putRequest id r).pendingRequests[id']? = if id = id' then some r else e.pendingRequests[id']? := by
  simp [putRequest, Std.ExtTreeMap.getElem?_insert]

theorem breakGlassRequests_putBreakGlass (e : ApprovalEngine) (id id' : Uuid) (r : BreakGlassRequest) :
    (e.putBreakGlass id r).breakGlassRequests[id']? =
      if id = id' then some r else e.breakGlassRequests[id']? := by
  simp [putBreakGlass, Std.ExtTreeMap.getElem?_insert]

@[simp] theorem breakGlassRequests_putRequest (e : ApprovalEngine) (id : Uuid) (r : ApprovalRequestEntity) :
    (e.putRequest id r).breakGlassRequests = e.breakGlassRequests := rfl

@[simp] theorem pendingRequests_putBreakGlass (e : ApprovalEngine) (id : Uuid) (r : BreakGlassRequest) :
    (e.putBreakGlass id r).pendingRequests = e.pendingRequests := rfl

/-! ## Approval requests -/

/-- How many hours a request of each level stays open. -/
def timeoutHours : ApprovalLevel → ℕ
  | .none => 0
  | .single => 12
  | .double => 24
  | .triple => 48
  | .manager => 8
  | .admin => 4

def createRequest (e : ApprovalEngine) (id : Uuid) (now : DateTime) (operation : OperationType)
    (resourceId resourceType tenantId requestorId : String) (justification : Option String)
    (requiredLevel : ApprovalLevel) : Except ApprovalError ApprovalRequestEntity × ApprovalEngine :=
  let request : ApprovalRequestEntity :=
    { id, operation, resourceId, resourceType, tenantId, requestorId, justification
      status := .pending
      requiredLevel
      currentLevel := .none
      approvals := []
      rejections := []
      createdAt := now
      expiresAt := now + DateTime.hours (timeoutHours requiredLevel)
      completedAt := none }
  (.ok request, e.putRequest id request)

def determineApprovalLevel : Role → ApprovalLevel
  | .user => .single
  | .operator => .double
  | .manager => .triple
  | .admin => .admin
  | .securityOfficer => .manager

def checkApprovalComplete (request : ApprovalRequestEntity) : Bool :=
  match request.requiredLevel with
  | .none => true
  | .single => !request.approvals.isEmpty
  | .double => 2 ≤ request.approvals.length
  | .triple => 3 ≤ request.approvals.length
  | .manager => request.approvals.any (·.level = .manager)
  | .admin => request.approvals.any (·.level = .admin)

/-- A request as `approve` and `reject` leave it when they find it expired. -/
def expire (request : ApprovalRequestEntity) (now : DateTime) : ApprovalRequestEntity :=
  { request with status := .expired, completedAt := some now }

/-- A request with one more approval recorded and completion checked. -/
def recordApproval (request : ApprovalRequestEntity) (clock : Clock) (approverId : String)
    (approvalLevel : ApprovalLevel) (comment : Option String) : ApprovalRequestEntity :=
  let record : ApprovalRecord := { approverId, level := approvalLevel, approvedAt := clock 1, comment }
  let request := { request with
    approvals := request.approvals ++ [record]
    currentLevel := max request.currentLevel approvalLevel }
  if checkApprovalComplete request then
    { request with status := .approved, completedAt := some (clock 2) }
  else request

def approve (e : ApprovalEngine) (clock : Clock) (requestId : Uuid) (approverId : String) (approverRole : Role)
    (comment : Option String) : Except ApprovalError ApprovalRequestEntity × ApprovalEngine :=
  let approvalLevel := determineApprovalLevel approverRole
  match e.pendingRequests[requestId]? with
  | none => (.error .requestNotFound, e)
  | some request =>
    if request.requestorId = approverId then (.error .selfApproval, e)
    else if approvalLevel < request.requiredLevel then (.error .insufficientApprovalLevel, e)
    else if request.status.isTerminal then (.error .requestAlreadyCompleted, e)
    else if clock 0 > request.expiresAt then
      (.error .requestExpired, e.putRequest requestId (expire request (clock 1)))
    else if request.approvals.any (·.approverId = approverId) then (.error .alreadyVoted, e)
    else if request.rejections.any (·.rejectorId = approverId) then (.error .alreadyVoted, e)
    else
      let request := recordApproval request clock approverId approvalLevel comment
      (.ok request, e.putRequest requestId request)

/-- A request with a rejection recorded, which ends it. -/
def recordRejection (request : ApprovalRequestEntity) (clock : Clock) (rejectorId : String)
    (rejectionLevel : ApprovalLevel) (reason : String) : ApprovalRequestEntity :=
  let record : RejectionRecord := { rejectorId, level := rejectionLevel, rejectedAt := clock 1, reason }
  { request with
    rejections := request.rejections ++ [record]
    status := .rejected
    completedAt := some (clock 2) }

def reject (e : ApprovalEngine) (clock : Clock) (requestId : Uuid) (rejectorId : String) (rejectorRole : Role)
    (reason : String) : Except ApprovalError ApprovalRequestEntity × ApprovalEngine :=
  let rejectionLevel := determineApprovalLevel rejectorRole
  match e.pendingRequests[requestId]? with
  | none => (.error .requestNotFound, e)
  | some request =>
    if request.requestorId = rejectorId then (.error .selfApproval, e)
    else if request.status.isTerminal then (.error .requestAlreadyCompleted, e)
    else if clock 0 > request.expiresAt then
      (.error .requestExpired, e.putRequest requestId (expire request (clock 1)))
    else if request.approvals.any (·.approverId = rejectorId) then (.error .alreadyVoted, e)
    else if request.rejections.any (·.rejectorId = rejectorId) then (.error .alreadyVoted, e)
    else
      let request := recordRejection request clock rejectorId rejectionLevel reason
      (.ok request, e.putRequest requestId request)

def cancel (e : ApprovalEngine) (clock : Clock) (requestId : Uuid) (requestorId : String) :
    Except ApprovalError ApprovalRequestEntity × ApprovalEngine :=
  match e.pendingRequests[requestId]? with
  | none => (.error .requestNotFound, e)
  | some request =>
    if request.requestorId ≠ requestorId then (.error .notAuthorized, e)
    else if request.status.isTerminal then (.error .requestAlreadyCompleted, e)
    else
      let request := { request with status := .cancelled, completedAt := some (clock 0) }
      (.ok request, e.putRequest requestId request)

def getRequest (e : ApprovalEngine) (requestId : Uuid) : Except ApprovalError ApprovalRequestEntity :=
  match e.pendingRequests[requestId]? with
  | some request => .ok request
  | none => .error .requestNotFound

def isApproved (e : ApprovalEngine) (now : DateTime) (requestId : Uuid) (operation : OperationType)
    (resourceId : String) : Bool :=
  match e.getRequest requestId with
  | .ok req =>
    req.operation = operation && req.resourceId = resourceId && req.status = .approved &&
      now ≤ req.expiresAt && checkApprovalComplete req
  | .error _ => false

/-- Whether `cleanup_expired` expires this request. -/
def isOverdue (now : DateTime) (request : ApprovalRequestEntity) : Bool :=
  request.status = .pending && now > request.expiresAt

def cleanupExpired (e : ApprovalEngine) (now : DateTime) : ℕ × ApprovalEngine :=
  (e.pendingRequests.toList.countP (isOverdue now ·.2),
    { e with pendingRequests :=
        e.pendingRequests.map (fun _ r => if isOverdue now r then expire r now else r) })

/-! ## Break-glass requests -/

def maxBreakGlassDurationMins : ℕ := 60

def createBreakGlassRequest (e : ApprovalEngine) (id : Uuid) (now : DateTime) (operation : OperationType)
    (resourceId resourceType tenantId requestorId emergencyReason firstApproverId secondApproverId : String)
    (durationMinutes : ℕ) : Except ApprovalError BreakGlassRequest × ApprovalEngine :=
  if firstApproverId = secondApproverId then
    (.error (.invalidConfig "Dual custody requires two different approvers"), e)
  else
    let duration := min durationMinutes maxBreakGlassDurationMins
    let request : BreakGlassRequest :=
      { id, operation, resourceId, resourceType, tenantId, requestorId, emergencyReason, firstApproverId
        secondApproverId
        durationMinutes := duration
        status := .pendingDualApproval
        createdAt := now
        expiresAt := now + DateTime.minutes duration }
    (.ok request, e.putBreakGlass id request)

def confirmBreakGlassFirst (e : ApprovalEngine) (now : DateTime) (requestId : Uuid) (approverId : String) :
    Except ApprovalError BreakGlassRequest × ApprovalEngine :=
  match e.breakGlassRequests[requestId]? with
  | none => (.error .requestNotFound, e)
  | some request =>
    if request.status ≠ .pendingDualApproval then (.error .requestAlreadyCompleted, e)
    else if request.firstApproverId ≠ approverId then (.error .notAuthorized, e)
    else if now > request.expiresAt then
      (.error .requestExpired, e.putBreakGlass requestId { request with status := .expired })
    -- nothing is recorded: the confirmation is only logged
    else (.ok request, e)

def confirmBreakGlassSecond (e : ApprovalEngine) (now : DateTime) (requestId : Uuid) (approverId : String) :
    Except ApprovalError BreakGlassRequest × ApprovalEngine :=
  match e.breakGlassRequests[requestId]? with
  | none => (.error .requestNotFound, e)
  | some request =>
    if request.status ≠ .pendingDualApproval then (.error .requestAlreadyCompleted, e)
    else if request.secondApproverId ≠ approverId then (.error .notAuthorized, e)
    else if now > request.expiresAt then
      (.error .requestExpired, e.putBreakGlass requestId { request with status := .expired })
    else
      let request := { request with status := .activated }
      (.ok request, e.putBreakGlass requestId request)

def cancelBreakGlass (e : ApprovalEngine) (requestId : Uuid) (requestorId : String) :
    Except ApprovalError BreakGlassRequest × ApprovalEngine :=
  match e.breakGlassRequests[requestId]? with
  | none => (.error .requestNotFound, e)
  | some request =>
    if request.requestorId ≠ requestorId then (.error .notAuthorized, e)
    else if request.status = .activated ∨ request.status = .expired then (.error .requestAlreadyCompleted, e)
    else
      let request := { request with status := .cancelled }
      (.ok request, e.putBreakGlass requestId request)

/-- Whether `cleanup_expired_break_glass` expires this request. -/
def isLapsed (now : DateTime) (request : BreakGlassRequest) : Bool :=
  request.status = .activated && now > request.expiresAt

def cleanupExpiredBreakGlass (e : ApprovalEngine) (now : DateTime) : ℕ × ApprovalEngine :=
  (e.breakGlassRequests.toList.countP (isLapsed now ·.2),
    { e with breakGlassRequests := e.breakGlassRequests.map fun _ r =>
        if isLapsed now r then { r with status := .expired } else r })

def isBreakGlassActive (e : ApprovalEngine) (now : DateTime) (resourceId : String) : Bool :=
  e.breakGlassRequests.toList.any fun ⟨_, r⟩ =>
    r.resourceId = resourceId && r.status = .activated && now ≤ r.expiresAt

/-! ## Calls -/

/-- A call on the engine with what it reads from outside. -/
inductive Call where
  | createRequest (id : Uuid) (now : DateTime) (operation : OperationType)
      (resourceId resourceType tenantId requestorId : String) (justification : Option String)
      (requiredLevel : ApprovalLevel)
  | approve (clock : Clock) (requestId : Uuid) (approverId : String) (approverRole : Role)
      (comment : Option String)
  | reject (clock : Clock) (requestId : Uuid) (rejectorId : String) (rejectorRole : Role) (reason : String)
  | cancel (clock : Clock) (requestId : Uuid) (requestorId : String)
  | cleanupExpired (now : DateTime)
  | createBreakGlassRequest (id : Uuid) (now : DateTime) (operation : OperationType)
      (resourceId resourceType tenantId requestorId emergencyReason firstApproverId secondApproverId : String)
      (durationMinutes : ℕ)
  | confirmBreakGlassFirst (now : DateTime) (requestId : Uuid) (approverId : String)
  | confirmBreakGlassSecond (now : DateTime) (requestId : Uuid) (approverId : String)
  | cancelBreakGlass (requestId : Uuid) (requestorId : String)
  | cleanupExpiredBreakGlass (now : DateTime)

/-- What a call returns. -/
inductive Reply where
  | request (r : Except ApprovalError ApprovalRequestEntity)
  | breakGlass (r : Except ApprovalError BreakGlassRequest)
  | cleaned (n : ℕ)

/-- The engine as a machine that answers calls. -/
def call : Lib.Machine ApprovalEngine Call Reply
  | e, .createRequest uuid now operation resourceId resourceType tenantId requestorId justification level =>
    (e.createRequest uuid now operation resourceId resourceType tenantId requestorId justification level).map
      .request id
  | e, .approve clock requestId approverId role comment =>
    (e.approve clock requestId approverId role comment).map .request id
  | e, .reject clock requestId rejectorId role reason =>
    (e.reject clock requestId rejectorId role reason).map .request id
  | e, .cancel clock requestId requestorId => (e.cancel clock requestId requestorId).map .request id
  | e, .cleanupExpired now => (e.cleanupExpired now).map .cleaned id
  | e, .createBreakGlassRequest uuid now operation resourceId resourceType tenantId requestorId reason first second
      minutes =>
    (e.createBreakGlassRequest uuid now operation resourceId resourceType tenantId requestorId reason first second
      minutes).map .breakGlass id
  | e, .confirmBreakGlassFirst now requestId approverId =>
    (e.confirmBreakGlassFirst now requestId approverId).map .breakGlass id
  | e, .confirmBreakGlassSecond now requestId approverId =>
    (e.confirmBreakGlassSecond now requestId approverId).map .breakGlass id
  | e, .cancelBreakGlass requestId requestorId => (e.cancelBreakGlass requestId requestorId).map .breakGlass id
  | e, .cleanupExpiredBreakGlass now => (e.cleanupExpiredBreakGlass now).map .cleaned id

end ApprovalEngine

end GmKms.Approval
