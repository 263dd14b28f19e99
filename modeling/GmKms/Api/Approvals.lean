import GmKms.Api.Grpc
import GmKms.Api.Rest
import GmKms.Approval.TenantViews
import GmKms.Lib.ProgramPool
/-!
# The approval routes and what they unlock

The handlers of `rest.rs` for approval requests, and those of both channels that ask for an approved request, as
programs over the keystore and the approval engine: the engine is behind a lock that a handler takes for one call at a
time. Audit events and metrics are left out, and so are the fields of the requests that are only logged.
-/

namespace GmKms.Api.Approvals

open Lib Keystore Service Approval

/-! ## Operations, resources and roles -/

def parseOperation (op : String) : Option OperationType :=
  match toLowercase op with
  | "key_delete" => some .keyDelete
  | "key_export" => some .keyExport
  | "key_rotate" => some .keyRotate
  | "policy_change" => some .policyChange
  | "high_value_key_create" => some .highValueKeyCreate
  | "audit_access" => some .auditAccess
  | "mfa_change" => some .mfaChange
  | "tenant_admin" => some .tenantAdmin
  | _ => none

/-- `operation_to_string`. -/
def operationToString : OperationType → String
  | .keyDelete => "key_delete"
  | .keyExport => "key_export"
  | .keyRotate => "key_rotate"
  | .policyChange => "policy_change"
  | .highValueKeyCreate => "high_value_key_create"
  | .auditAccess => "audit_access"
  | .mfaChange => "mfa_change"
  | .tenantAdmin => "tenant_admin"

theorem parseOperation_operationToString (operation : OperationType) :
    parseOperation (operationToString operation) = some operation := by
  cases operation <;> decide +kernel

/-- Derived from the operation, never taken from the request. -/
def resourceTypeFor : OperationType → String
  | .keyDelete | .keyExport | .keyRotate => "key"
  | .highValueKeyCreate => "key-request"
  | .policyChange => "policy"
  | .auditAccess => "audit"
  | .mfaChange => "mfa"
  | .tenantAdmin => "tenant"

def roleFromPermission : ApiKeyPermission → Role
  | .readOnly => .user
  | .operator => .operator
  | .keyAdmin => .manager
  | .securityOfficer => .securityOfficer
  | .auditAdmin => .user
  | .tenantAdmin => .admin

def statusToString : ApprovalStatus → String
  | .pending => "pending"
  | .approved => "approved"
  | .rejected => "rejected"
  | .cancelled => "cancelled"
  | .expired => "expired"
  | .emergencyActivated => "emergency_activated"
  | .emergencyExpired => "emergency_expired"

def levelToString : ApprovalLevel → String
  | .none => "none"
  | .single => "single"
  | .double => "double"
  | .triple => "triple"
  | .manager => "manager"
  | .admin => "admin"

/-- Absent, the tenant is `default`. -/
structure CreateApprovalReq where
  operation : String
  resourceId : String
  tenantId : String
  justification : Option String

/-- The times are written in RFC 3339. -/
structure ApprovalRequestResponse where
  id : String
  operation : String
  resourceId : String
  resourceType : String
  tenantId : String
  requestorId : String
  justification : Option String
  status : String
  requiredLevel : String
  currentLevel : String
  approvalsCount : ℕ
  rejectionsCount : ℕ
  createdAt : DateTime
  expiresAt : DateTime
  completedAt : Option DateTime

/-- `impl From<ApprovalRequestEntity> for ApprovalRequestResponse`. -/
def ApprovalRequestResponse.ofEntity (r : ApprovalRequestEntity) : ApprovalRequestResponse :=
  { id := r.id.text
    operation := operationToString r.operation
    resourceId := r.resourceId
    resourceType := r.resourceType
    tenantId := r.tenantId
    requestorId := r.requestorId
    justification := r.justification
    status := statusToString r.status
    requiredLevel := levelToString r.requiredLevel
    currentLevel := levelToString r.currentLevel
    approvalsCount := r.approvals.length
    rejectionsCount := r.rejections.length
    createdAt := r.createdAt
    expiresAt := r.expiresAt
    completedAt := r.completedAt }

/-! ## Calls on the engine -/

/-- What `ApprovalManager` calls on its engine, each under one hold of the lock. -/
inductive EngineOp where
  | createRequest (operation : OperationType) (resourceId resourceType tenantId requestorId : String)
      (justification : Option String) (requiredLevel : ApprovalLevel)
  | approve (requestId : Uuid) (approverId : String) (approverRole : Role) (comment : Option String)
  | reject (requestId : Uuid) (rejectorId : String) (rejectorRole : Role) (reason : String)
  | cancel (requestId : Uuid) (requestorId : String)
  | getRequest (requestId : Uuid)
  | isApproved (requestId : Uuid) (operation : OperationType) (resourceId : String)
  | listPending (tenantId : String)

@[reducible] def EngineOp.Reply : EngineOp → Type
  | createRequest .. | approve .. | reject .. | cancel .. | getRequest .. => Except ApprovalError ApprovalRequestEntity
  | isApproved .. => Bool
  | listPending .. => List ApprovalRequestEntity

/-- What a call of a handler reads from outside: what the keystore reads, and the readings of the clock. -/
structure HandlerEnv extends Software.UseEnv where
  clock : Clock

def EngineOp.perform (env : HandlerEnv) : (op : EngineOp) → ApprovalEngine → op.Reply × ApprovalEngine
  | .createRequest operation resourceId resourceType tenantId requestorId justification requiredLevel, e =>
    e.createRequest env.uuid (env.clock 0) operation resourceId resourceType tenantId requestorId justification
      requiredLevel
  | .approve requestId approverId approverRole comment, e =>
    e.approve env.clock requestId approverId approverRole comment
  | .reject requestId rejectorId rejectorRole reason, e => e.reject env.clock requestId rejectorId rejectorRole reason
  | .cancel requestId requestorId, e => e.cancel env.clock requestId requestorId
  | .getRequest requestId, e => (e.getRequest requestId, e)
  | .isApproved requestId operation resourceId, e => (e.isApproved (env.clock 0) requestId operation resourceId, e)
  | .listPending tenantId, e => (e.listPending tenantId, e)

/-- A call on the keystore or on the engine. -/
abbrev HandlerOp := BackendOp ⊕ EngineOp

abbrev HandlerOp.Reply : HandlerOp → Type := Sum.elim BackendOp.Reply EngineOp.Reply

/-- What the handlers share: the keystore and the approvals. -/
abbrev Shared := Software.SoftwareKeystore × ApprovalEngine

def perform (crypto : Crypto) (env : HandlerEnv) : (op : HandlerOp) → Shared → HandlerOp.Reply op × Shared :=
  Program.performEither (Software.SoftwareKeystore.perform crypto env.toUseEnv) (EngineOp.perform env)

abbrev Handler (ε α : Type) : Type := Program HandlerOp.Reply ε α

/-- One call on the engine. -/
def engine {ε : Type} (op : EngineOp) : Handler ε op.Reply := .call (.inr op) fun r => .done (.ok r)

/-! ## Handlers of approval requests -/

def approvalErrorToApiError : ApprovalError → ApiError
  | .selfApproval => .forbidden "self-approval is not allowed"
  | .insufficientApprovalLevel => .forbidden "approver authority is insufficient for this operation"
  | .alreadyVoted => .invalidRequest "this approver has already voted on the request"
  | .requestExpired => .invalidRequest "approval request has expired"
  | .requestNotFound | .requestAlreadyCompleted => .notFound "Approval request not found or already completed"
  | .notAuthorized => .internal "not authorized to perform this action"
  | .invalidConfig reason => .internal s!"invalid approval configuration: {reason}"
  | .workflowError reason => .internal s!"approval workflow error: {reason}"

section

variable {F : Type} (srv : Server F) (caller : Caller)

def refuse {α : Type} (e : ApiError) : Handler Rest.Refusal α := Program.fail (.api e)

/-- A key of an operation on keys belongs to the tenant. The type is compared without regard to case, but it is one of
the texts of `resource_type_for`. -/
def ensureResourceTenant (resourceType resourceId tenantId : String) : Handler Rest.Refusal Unit :=
  if resourceType ≠ "key" then pure ()
  else
    match srv.parseUuid resourceId with
    | none => refuse (.invalidRequest "invalid resource_id format")
    | some keyId => .call (.inl (.getKeyMetadata keyId)) fun
      | .error (.panic message) => Program.fail (.panic message)
      | .error (.error _) => refuse (.keyNotFound keyId.text)
      | .ok keyMeta => if keyMeta.tenantId ≠ tenantId then refuse (.keyNotFound keyId.text) else pure ()

/-- A request that does not exist is left to the engine. -/
def ensureApprovalTenant (requestId : Uuid) : Option String → Handler Rest.Refusal Unit
  | none => pure ()
  | some boundTenant => do
    match ← engine (.getRequest requestId) with
    | .ok r => if r.tenantId ≠ boundTenant then refuse (.notFound "Approval request not found") else pure ()
    | .error _ => pure ()

def createApprovalRequest (req : CreateApprovalReq) : Handler Rest.Refusal ApprovalRequestResponse := do
  Program.lift (Rest.requirePermission caller .listKeys)
  match parseOperation req.operation with
  | none =>
    let operation := req.operation
    refuse (.invalidArgument s!"Unknown operation: {operation}")
  | some operation => do
    let resourceType := resourceTypeFor operation
    let tenantId := Rest.resolveTenant caller.tenantId req.tenantId
    ensureResourceTenant srv resourceType req.resourceId tenantId
    match ← engine (.createRequest operation req.resourceId resourceType tenantId caller.keyId req.justification
        operation.defaultRequiredLevel) with
    | .ok r => return .ofEntity r
    | .error _ => refuse (.internal "Failed to create approval request")

def listPendingApprovals (tenantId : String) : Handler Rest.Refusal (List ApprovalRequestResponse) := do
  Program.lift (Rest.requirePermission caller .approveAction)
  if caller.tenantId.any (· ≠ tenantId) then refuse .permissionDenied
  else
    let requests ← engine (.listPending tenantId)
    return requests.map .ofEntity

def getApprovalRequest (requestId : Uuid) : Handler Rest.Refusal ApprovalRequestResponse := do
  Program.lift (Rest.requirePermission caller .listKeys)
  match ← engine (.getRequest requestId) with
  | .error _ => refuse (.notFound "Approval request not found")
  | .ok r =>
    if caller.tenantId.any (r.tenantId ≠ ·) then refuse (.notFound "Approval request not found")
    else return .ofEntity r

/-- What a vote is answered with. -/
def voted : Except ApprovalError ApprovalRequestEntity → Handler Rest.Refusal ApprovalRequestResponse
  | .ok r => return .ofEntity r
  | .error e => refuse (approvalErrorToApiError e)

def approveRequest (requestId : Uuid) (comment : Option String) : Handler Rest.Refusal ApprovalRequestResponse := do
  Program.lift (Rest.requirePermission caller .approveAction)
  ensureApprovalTenant requestId caller.tenantId
  voted (← engine (.approve requestId caller.keyId (roleFromPermission caller.role) comment))

def rejectRequest (requestId : Uuid) (reason : String) : Handler Rest.Refusal ApprovalRequestResponse := do
  Program.lift (Rest.requirePermission caller .approveAction)
  ensureApprovalTenant requestId caller.tenantId
  voted (← engine (.reject requestId caller.keyId (roleFromPermission caller.role) reason))

def cancelRequest (requestId : Uuid) : Handler Rest.Refusal ApprovalRequestResponse := do
  Program.lift (Rest.requirePermission caller .listKeys)
  match ← engine (.cancel requestId caller.keyId) with
  | .ok r => return .ofEntity r
  | .error _ => refuse (.notFound "Approval request not found or not authorized")

end

/-! ## Handlers behind the gate -/

section

variable {F : Type} (srv : Server F) (caller : Caller)

/-- `require_approved` of `rest.rs`, which holds the lock while it asks. -/
def requireApproved (approvalId : Option String) (operation : OperationType) (resourceId action : String) :
    Handler Rest.Refusal Unit :=
  match approvalId.filter (· ≠ "") with
  | none => refuse (.invalidRequest
      s!"{action} requires an approved request. Create one via POST /v1/approvals first")
  | some id =>
    match srv.parseUuid id with
    | none => refuse (.invalidRequest "invalid approval_id format")
    | some approval => do
      if ← engine (.isApproved approval operation resourceId) then pure ()
      else refuse (.forbidden s!"{action} requires a fully approved request bound to this resource")

def rotateKey (id : Uuid) (query : Rest.TenantQuery) : Handler Rest.Refusal Rest.KeyResponse := do
  Program.lift (Rest.requirePermission caller .createKey)
  let tenant ← Program.lift (Rest.checkRestPbac srv caller "rotate_key" id.text query.tenantId)
  requireApproved srv query.approvalId .keyRotate id.text "key rotation"
  let keyMeta ← (KeyService.rotateKey id tenant).inl .ofAbort
  return .ofMeta keyMeta

def deleteKey (id : Uuid) (query : Rest.TenantQuery) : Handler Rest.Refusal Unit := do
  Program.lift (Rest.requirePermission caller .createKey)
  let tenant ← Program.lift (Rest.checkRestPbac srv caller "delete_key" id.text query.tenantId)
  requireApproved srv query.approvalId .keyDelete id.text "key deletion"
  (KeyService.deleteKey id tenant).inl .ofAbort

/-- The rest of the request, read once the gate has opened. -/
def exportTarget (req : Rest.ExportKeyRequest) : Except Rest.Refusal (Bytes × ExportProtection) := do
  let targetPublicKey ← Rest.decodeField req.targetPublicKey "invalid base64 target_public_key"
  let protection ← (ExportProtection.parse req.protectionScheme).mapError .ofAbort
  return (targetPublicKey, protection)

def exportKey (id : Uuid) (query : Rest.TenantQuery) (req : Rest.ExportKeyRequest) :
    Handler Rest.Refusal ExportedKey := do
  Program.lift (Rest.requirePermission caller .createKey)
  let tenant ← Program.lift (Rest.checkRestPbac srv caller "export_key" id.text query.tenantId)
  requireApproved srv req.approvalId .keyExport id.text "key export"
  let (targetPublicKey, protection) ← Program.lift (exportTarget req)
  (KeyService.exportKey srv.crypto srv.env id targetPublicKey tenant ⟨protection, req.version⟩).inl .ofAbort

/-- `require_approved` of `grpc.rs`. -/
def requireApprovedGrpc (approvalId : String) (operation : OperationType) (resourceId action : String) :
    Handler Grpc.Refusal Unit :=
  if approvalId = "" then
    Program.fail (Grpc.refused .failedPrecondition
      s!"{action} requires an approved request. Create one via the approvals API first")
  else
    match srv.parseUuid approvalId with
    | none => Program.fail (Grpc.refused .invalidArgument "invalid approval_id format")
    | some approval => do
      if ← engine (.isApproved approval operation resourceId) then pure ()
      else Program.fail (Grpc.refused .permissionDenied
        s!"{action} requires a fully approved request bound to this resource")

def rotateKeyGrpc (req : Grpc.RotateKeyRequest) : Handler Grpc.Refusal Grpc.Key := do
  let (id, tenant) ← Program.lift (Grpc.admitted srv caller .rotateKey "rotate_key" req.id req.tenantId)
  requireApprovedGrpc srv req.approvalId .keyRotate id.text "key rotation"
  let keyMeta ← (KeyService.rotateKey id tenant).inl .ofAbort
  return .ofMeta keyMeta

def deleteKeyGrpc (req : Grpc.DeleteKeyRequest) : Handler Grpc.Refusal Unit := do
  let (id, tenant) ← Program.lift (Grpc.admitted srv caller .deleteKey "delete_key" req.id req.tenantId)
  requireApprovedGrpc srv req.approvalId .keyDelete id.text "key deletion"
  (KeyService.deleteKey id tenant).inl .ofAbort

/-- The checks of `export_key` before its gate. -/
def exportAdmitted (req : Grpc.ExportKeyRequest) : Except Grpc.Refusal (Uuid × String) := do
  Grpc.checkPermission caller .exportKey
  let id ← Grpc.parseId srv req.id "invalid key id format"
  let tenant ← Grpc.checkPbac srv caller "export_key" id.text req.tenantId
  return (id, tenant)

def exportKeyGrpc (req : Grpc.ExportKeyRequest) : Handler Grpc.Refusal ExportedKey := do
  let (id, tenant) ← Program.lift (exportAdmitted srv caller req)
  requireApprovedGrpc srv req.approvalId .keyExport id.text "key export"
  let protection ← Program.lift ((ExportProtection.parse (some req.protectionScheme)).mapError .ofAbort)
  (KeyService.exportKey srv.crypto srv.env id req.targetPublicKey tenant
    ⟨protection, if req.version ≠ 0 then some req.version else none⟩).inl .ofAbort

end

/-! ## One request alone -/

section

variable {F : Type} {srv : Server F} {env : HandlerEnv}

/-- What the handlers of the channels find: the server as it is, at its time. -/
structure Finds (srv : Server F) (env : HandlerEnv) : Prop where
  outside : env.toUseEnv = srv.env.toUseEnv
  now : env.clock 0 = srv.now

/-- The program on the keystore and the approvals of the server. -/
def runAlone {ε α : Type} (srv : Server F) (env : HandlerEnv) (p : Handler ε α) : Except ε α × Shared :=
  p.run (perform srv.crypto.toCrypto env) (srv.keystore, srv.approvalManager)

/-- What a handler of a channel answers and leaves. -/
def leaves {ε α : Type} (srv : Server F) (h : Handled ε α) : Except ε α × Shared :=
  (h.answer, h.keystore, srv.approvalManager)

theorem runAlone_isApproved {ε α : Type} (h : Finds srv env) (approval : Uuid) (operation : OperationType)
    (resourceId : String) (k : Bool → Handler ε α) :
    runAlone srv env (engine (.isApproved approval operation resourceId) >>= k) =
      runAlone srv env (k (srv.approvalManager.isApproved srv.now approval operation resourceId)) := by
  rw [← h.now]
  rfl

theorem runAlone_requireApproved (h : Finds srv env) (approvalId : Option String) (operation : OperationType)
    (resourceId action : String) : runAlone srv env (requireApproved srv approvalId operation resourceId action) =
      (Rest.requireApproved srv approvalId operation resourceId action, srv.keystore, srv.approvalManager) := by
  unfold requireApproved Rest.requireApproved
  cases approvalId.filter (· ≠ "") with
  | none => rfl
  | some id =>
    dsimp only
    cases srv.parseUuid id with
    | none => rfl
    | some approval =>
      dsimp only
      rw [runAlone_isApproved h]
      split <;> rfl

theorem runAlone_requireApprovedGrpc (h : Finds srv env) (approvalId : String) (operation : OperationType)
    (resourceId action : String) : runAlone srv env (requireApprovedGrpc srv approvalId operation resourceId action) =
      (Grpc.requireApproved srv approvalId operation resourceId action, srv.keystore, srv.approvalManager) := by
  unfold requireApprovedGrpc Grpc.requireApproved
  split
  · rfl
  · cases srv.parseUuid approvalId with
    | none => rfl
    | some approval =>
      dsimp only
      rw [runAlone_isApproved h]
      split <;> rfl

/-- A service call of a handler. -/
theorem runAlone_service {ε α : Type} (h : Finds srv env) (mapErr : ApiAbort → ε) (p : Service α) :
    runAlone srv env (p.inl mapErr) = leaves srv (srv.serveKey mapErr p) := by
  unfold runAlone perform
  rw [Program.run_inl, h.outside]
  rfl

/-- The gate and the rest. -/
theorem runAlone_gated {ε α β : Type} {gate : Handler ε Unit} {gate' : Except ε Unit}
    (hgate : runAlone srv env gate = (gate', srv.keystore, srv.approvalManager)) {k : Handler ε α} {rest : Except ε β}
    {f : β → Handled ε α} (hk : runAlone srv env k = leaves srv (srv.through rest f)) :
    runAlone srv env (do gate; k) = leaves srv (srv.through (do gate'; rest) f) := by
  unfold runAlone at hgate ⊢
  cases gate' with
  | error e =>
    rw [Program.run_bind_error hgate]
    rfl
  | ok u =>
    rw [Program.run_bind_ok hgate]
    exact hk

theorem leaves_map {ε α β : Type} (p : Handler ε α) (f : α → β) {x : Handled ε α}
    (h : runAlone srv env p = leaves srv x) :
    runAlone srv env (do let a ← p; return f a) = leaves srv (x.map f) := by
  unfold runAlone at h ⊢
  obtain ⟨answer, keystore, quota⟩ := x
  cases answer with
  | error e =>
    rw [Program.run_bind_error h]
    rfl
  | ok a =>
    rw [Program.run_bind_ok h]
    rfl

variable (caller : Caller)

theorem runAlone_rotateKey (h : Finds srv env) (id : Uuid) (query : Rest.TenantQuery) :
    runAlone srv env (rotateKey srv caller id query) = leaves srv (Rest.rotateKey srv caller id query) := by
  unfold rotateKey Rest.rotateKey
  cases Rest.requirePermission caller .createKey with
  | error e => rfl
  | ok u =>
    cases Rest.checkRestPbac srv caller "rotate_key" id.text query.tenantId with
    | error e => rfl
    | ok tenant =>
      exact runAlone_gated (runAlone_requireApproved h ..) (leaves_map _ _ (runAlone_service h ..))

theorem runAlone_deleteKey (h : Finds srv env) (id : Uuid) (query : Rest.TenantQuery) :
    runAlone srv env (deleteKey srv caller id query) = leaves srv (Rest.deleteKey srv caller id query) := by
  unfold deleteKey Rest.deleteKey
  cases Rest.requirePermission caller .createKey with
  | error e => rfl
  | ok u =>
    cases Rest.checkRestPbac srv caller "delete_key" id.text query.tenantId with
    | error e => rfl
    | ok tenant => exact runAlone_gated (runAlone_requireApproved h ..) (runAlone_service h ..)

theorem runAlone_exportKey (h : Finds srv env) (id : Uuid) (query : Rest.TenantQuery) (req : Rest.ExportKeyRequest) :
    runAlone srv env (exportKey srv caller id query req) = leaves srv (Rest.exportKey srv caller id query req) := by
  unfold exportKey Rest.exportKey exportTarget
  cases Rest.requirePermission caller .createKey with
  | error e => rfl
  | ok u =>
    cases Rest.checkRestPbac srv caller "export_key" id.text query.tenantId with
    | error e => rfl
    | ok tenant =>
      refine runAlone_gated (runAlone_requireApproved h ..) ?_
      cases Rest.decodeField req.targetPublicKey "invalid base64 target_public_key" with
      | error e => rfl
      | ok targetPublicKey =>
        cases (ExportProtection.parse req.protectionScheme).mapError Rest.Refusal.ofAbort with
        | error e => rfl
        | ok protection => exact runAlone_service h ..

theorem runAlone_rotateKeyGrpc (h : Finds srv env) (req : Grpc.RotateKeyRequest) :
    runAlone srv env (rotateKeyGrpc srv caller req) = leaves srv (Grpc.rotateKey srv caller req) := by
  unfold rotateKeyGrpc Grpc.rotateKey
  cases Grpc.admitted srv caller .rotateKey "rotate_key" req.id req.tenantId with
  | error e => rfl
  | ok a => exact runAlone_gated (runAlone_requireApprovedGrpc h ..) (leaves_map _ _ (runAlone_service h ..))

theorem runAlone_deleteKeyGrpc (h : Finds srv env) (req : Grpc.DeleteKeyRequest) :
    runAlone srv env (deleteKeyGrpc srv caller req) = leaves srv (Grpc.deleteKey srv caller req) := by
  unfold deleteKeyGrpc Grpc.deleteKey
  cases Grpc.admitted srv caller .deleteKey "delete_key" req.id req.tenantId with
  | error e => rfl
  | ok a => exact runAlone_gated (runAlone_requireApprovedGrpc h ..) (runAlone_service h ..)

theorem runAlone_exportKeyGrpc (h : Finds srv env) (req : Grpc.ExportKeyRequest) :
    runAlone srv env (exportKeyGrpc srv caller req) = leaves srv (Grpc.exportKey srv caller req) := by
  unfold exportKeyGrpc Grpc.exportKey exportAdmitted
  cases Grpc.checkPermission caller .exportKey with
  | error e => rfl
  | ok u =>
    cases Grpc.parseId srv req.id "invalid key id format" with
    | error e => rfl
    | ok id =>
      cases htenant : Grpc.checkPbac srv caller "export_key" id.text req.tenantId with
      | error e =>
        simp only [htenant, bind, Except.bind]
        rfl
      | ok tenant =>
        simp only [htenant, bind, Except.bind]
        refine runAlone_gated (runAlone_requireApprovedGrpc h ..) ?_
        cases (ExportProtection.parse (some req.protectionScheme)).mapError Grpc.Refusal.ofAbort with
        | error e => rfl
        | ok protection => exact runAlone_service h ..

end

end GmKms.Api.Approvals
