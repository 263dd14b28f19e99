import GmKms.Api.Approvals
import GmKms.Approval.Soundness
import GmKms.Core.UuidText
import GmKms.Keystore.SoftwareSteps
/-!
# Multi-party control

Requests of both channels and anything else that works on the keystore, interleaved call by call. A handler asks the
keystore to rotate, to delete or to export a key only after enough people of the key's tenant, none of whom asked for
it, have approved just that in time.
-/

namespace GmKms.Api.MultiParty

open Lib Lib.Program Keystore Service Approval Approvals

variable {F : Type}

/-! ## Activities -/

/-- The requests about approvals and the requests that need one. -/
inductive Request where
  | createApproval (req : CreateApprovalReq)
  | listPending (tenantId : String)
  | getApproval (requestId : Uuid)
  | approve (requestId : Uuid) (comment : Option String)
  | reject (requestId : Uuid) (reason : String)
  | cancel (requestId : Uuid)
  | rotateKey (id : Uuid) (query : Rest.TenantQuery)
  | deleteKey (id : Uuid) (query : Rest.TenantQuery)
  | exportKey (id : Uuid) (query : Rest.TenantQuery) (req : Rest.ExportKeyRequest)
  | rotateKeyGrpc (req : Grpc.RotateKeyRequest)
  | deleteKeyGrpc (req : Grpc.DeleteKeyRequest)
  | exportKeyGrpc (req : Grpc.ExportKeyRequest)

/-- A request with its caller and the server as its own checks find it. Of the server, the keystore and the approvals
are not looked at. -/
structure ApiCall (F : Type) where
  srv : Server F
  caller : Caller
  request : Request

/-- How the request ends is not looked at. -/
def ApiCall.program (c : ApiCall F) : Handler Unit Unit :=
  match c.request with
  | .createApproval req => (createApprovalRequest c.srv c.caller req).mapResult (fun _ => ()) fun _ => ()
  | .listPending tenantId => (listPendingApprovals c.caller tenantId).mapResult (fun _ => ()) fun _ => ()
  | .getApproval requestId => (getApprovalRequest c.caller requestId).mapResult (fun _ => ()) fun _ => ()
  | .approve requestId comment => (approveRequest c.caller requestId comment).mapResult (fun _ => ()) fun _ => ()
  | .reject requestId reason => (rejectRequest c.caller requestId reason).mapResult (fun _ => ()) fun _ => ()
  | .cancel requestId => (cancelRequest c.caller requestId).mapResult (fun _ => ()) fun _ => ()
  | .rotateKey id query => (rotateKey c.srv c.caller id query).mapResult (fun _ => ()) fun _ => ()
  | .deleteKey id query => (deleteKey c.srv c.caller id query).mapResult (fun _ => ()) fun _ => ()
  | .exportKey id query req => (exportKey c.srv c.caller id query req).mapResult (fun _ => ()) fun _ => ()
  | .rotateKeyGrpc req => (rotateKeyGrpc c.srv c.caller req).mapResult (fun _ => ()) fun _ => ()
  | .deleteKeyGrpc req => (deleteKeyGrpc c.srv c.caller req).mapResult (fun _ => ()) fun _ => ()
  | .exportKeyGrpc req => (exportKeyGrpc c.srv c.caller req).mapResult (fun _ => ()) fun _ => ()

/-- What works on the keystore and on the approvals: a request, or one call that any other part of the server makes on
the keystore. -/
inductive Activity (F : Type) where
  | request (c : ApiCall F)
  | other (op : BackendOp)

def Activity.program : Activity F → Handler Unit Unit
  | request c => c.program
  | other op => .call (.inl op) fun _ => .done (.ok ())

/-- A call on the keystore or on the engine, with its answer. -/
abbrev Exchange := Σ op : HandlerOp, HandlerOp.Reply op

/-- A call that an activity has made. -/
abbrev Event (F : Type) := Program.Made HandlerOp.Reply (Activity F) HandlerEnv

abbrev Activities (F : Type) := Pool HandlerOp.Reply Unit Unit (Activity F) Shared

def Activities.new : Activities F := ⟨(.new, .new), []⟩

def interleave (crypto : Crypto) : Machine (Activities F) (Move (Activity F) HandlerEnv) (Option (Event F)) :=
  Pool.interleave (perform crypto) Activity.program

/-- The calls of a run. -/
def events (crypto : Crypto) (ms : List (Move (Activity F) HandlerEnv)) : List (Event F) :=
  log ((interleave crypto).trace .new ms)

/-! ## What stands behind an operation -/

/-- The operation on a key of a tenant that the method is called for behind a gate. -/
def gatedBy : BackendOp → Option (OperationType × Uuid × String)
  | .rotateKey keyId tenantId => some (.keyRotate, keyId, tenantId)
  | .deleteKey keyId tenantId => some (.keyDelete, keyId, tenantId)
  | .exportKeyMaterial keyId tenantId | .getKeyMaterial keyId tenantId | .getKeyMaterialVersion keyId _ tenantId =>
    some (.keyExport, keyId, tenantId)
  | _ => none

/-- The operation on a key that a request carries out with the call. -/
def gated? (e : Event F) : Option (OperationType × Uuid × String) :=
  match e.started, e.op with
  | .request _, .inl b => gatedBy b
  | _, _ => none

/-- The caller is not bound to another tenant. -/
def ActsFor (caller : Caller) (tenantId : String) : Prop := ∀ bound ∈ caller.tenantId, bound = tenantId

def Activity.caller? : Activity F → Option Caller
  | request c => some c.caller
  | other _ => none

/-- The caller has raised the request `id`, at that time, for the operation on a key of the tenant. -/
def RaisedBy (l : List (Event F)) (requestor : Caller) (id : Uuid) (operation : OperationType) (keyId : Uuid)
    (tenantId : String) (raisedAt : DateTime) : Prop :=
  ∃ e ∈ l, e.started.caller? = some requestor ∧ e.outside.uuid = id ∧ e.outside.clock 0 = raisedAt ∧
    ∃ justification, e.op = .inr (.createRequest operation keyId.text "key" tenantId requestor.keyId justification
      operation.defaultRequiredLevel)

/-- The caller has approved the request. -/
def ApprovedBy (l : List (Event F)) (approver : Caller) (id : Uuid) : Prop :=
  ∃ e ∈ l, e.started.caller? = some approver ∧ ∃ comment r, (⟨e.op, e.answer⟩ : Exchange) =
    ⟨.inr (.approve id approver.keyId (roleFromPermission approver.role) comment), .ok r⟩

/-- The call rejects or cancels the request. -/
def Ends (id : Uuid) (e : Event F) : Prop :=
  (∃ rejector role reason r, (⟨e.op, e.answer⟩ : Exchange) = ⟨.inr (.reject id rejector role reason), .ok r⟩) ∨
  ∃ requestor r, (⟨e.op, e.answer⟩ : Exchange) = ⟨.inr (.cancel id requestor), .ok r⟩

/-- How many have to approve a deletion, a rotation or an export. -/
def votesFor : OperationType → ℕ
  | .keyExport => 3
  | _ => 2

/-- At the time `now`, after the calls of `l`, the executor may do the operation on the key of the tenant. -/
structure Authorised (l : List (Event F)) (now : DateTime) (executor : Caller) (operation : OperationType)
    (keyId : Uuid)
    (tenantId : String) (id : Uuid) (requestor : Caller) (raisedAt : DateTime) (approvers : List Caller) : Prop where
  raised : RaisedBy l requestor id operation keyId tenantId raisedAt
  unexpired : now ≤ raisedAt + DateTime.hours (ApprovalEngine.timeoutHours operation.defaultRequiredLevel)
  neverEnded : ∀ e ∈ l, ¬ Ends id e
  approved : ∀ a ∈ approvers, ApprovedBy l a id
  quorum : votesFor operation ≤ approvers.length
  distinct : (approvers.map (·.keyId)).Nodup
  notRequestor : ∀ a ∈ approvers, a.keyId ≠ requestor.keyId
  officers : ∀ a ∈ approvers, a.role.satisfies .approveAction = true
  separated : ∀ a ∈ approvers, a.role ≠ executor.role
  tenants : ∀ a ∈ executor :: requestor :: approvers, ActsFor a tenantId

/-- A uuid is read from its text. -/
def ReadsIds (srv : Server F) : Prop := ∀ id : Uuid, srv.parseUuid id.text = some id

/-- The id of a request that the call is about. -/
def requestId? : HandlerOp → Option Uuid
  | .inr (.approve id ..) | .inr (.reject id ..) | .inr (.cancel id _) | .inr (.getRequest id)
  | .inr (.isApproved id ..) => some id
  | _ => none

/-- The call draws an id for what it makes. -/
def draws : HandlerOp → Bool
  | .inl op => op.creates
  | .inr (.createRequest ..) => true
  | _ => false

/-- What the later call draws was not drawn before, and nobody has asked for it: `Uuid::new_v4`. -/
def Unforeseen (earlier later : Event F) : Prop :=
  draws later.op = true →
    (draws earlier.op = true → earlier.outside.uuid ≠ later.outside.uuid) ∧
      requestId? earlier.op ≠ some later.outside.uuid

/-! ## What a handler promises -/

/-- What a handler has found out before an operation that needs an approved request. -/
structure Cleared (caller : Caller) (made : List Exchange) (operation : OperationType) (keyId : Uuid)
    (tenantId : String) : Prop where
  keyAdmin : caller.role = .keyAdmin
  actsFor : ActsFor caller tenantId
  approved : ∃ id, (⟨.inr (.isApproved id operation keyId.text), true⟩ : Exchange) ∈ made
  owned : ∃ m : KeyMeta, (⟨.inl (.getKeyMetadata keyId), .ok m⟩ : Exchange) ∈ made ∧ m.tenantId = tenantId

/-- What a handler has found out before it creates a request. -/
structure Raises (c : ApiCall F) (made : List Exchange) (operation : OperationType) (resourceId resourceType tenantId
    requestorId : String) (level : ApprovalLevel) : Prop where
  requestor : requestorId = c.caller.keyId
  actsFor : ActsFor c.caller tenantId
  type : resourceType = resourceTypeFor operation
  level : level = operation.defaultRequiredLevel
  owned : resourceTypeFor operation = "key" → ∃ keyId, c.srv.parseUuid resourceId = some keyId ∧
    ∃ m : KeyMeta, (⟨.inl (.getKeyMetadata keyId), .ok m⟩ : Exchange) ∈ made ∧ m.tenantId = tenantId

/-- What a handler has found out before it approves a request. -/
structure Votes (caller : Caller) (made : List Exchange) (requestId : Uuid) (approverId : String)
    (role : Role) : Prop where
  approver : approverId = caller.keyId
  role : role = roleFromPermission caller.role
  officer : caller.role.satisfies .approveAction = true
  tenant : ∀ bound ∈ caller.tenantId, ∃ r, (⟨.inr (.getRequest requestId), r⟩ : Exchange) ∈ made ∧
    ∀ request, r = .ok request → request.tenantId = bound

def Allowed : Activity F → List Exchange → HandlerOp → Prop
  | .other op₀, _, op => op = .inl op₀
  | .request c, made, .inl op => ∀ operation keyId tenantId, gatedBy op = some (operation, keyId, tenantId) →
    Cleared c.caller made operation keyId tenantId
  | .request c, made, .inr (.createRequest operation resourceId resourceType tenantId requestorId _ level) =>
    Raises c made operation resourceId resourceType tenantId requestorId level
  | .request c, made, .inr (.approve requestId approverId role _) => Votes c.caller made requestId approverId role
  | .request _, _, _ => True

section

variable {c : ApiCall F} {made : List Exchange} {ε : Type}

theorem keeps_engine (op : EngineOp) {R : List Exchange → op.Reply → Prop} (h : Allowed (.request c) made (.inr op))
    (hR : ∀ r, R (made ++ [⟨.inr op, r⟩]) r) : (engine op : Handler ε op.Reply).Keeps (Allowed (.request c)) R made :=
  ⟨h, hR⟩

/-- What the engine answered is in the log. -/
theorem keeps_engine_logged (op : EngineOp) (h : Allowed (.request c) made (.inr op)) :
    (engine op : Handler ε op.Reply).Keeps (Allowed (.request c)) (fun log r => (⟨.inr op, r⟩ : Exchange) ∈ log) made :=
  keeps_engine op h fun _ => List.mem_append_right made (List.mem_singleton_self _)

theorem role_of_requirePermission {caller : Caller} {required : Permission} {u : Unit}
    (h : Rest.requirePermission caller required = .ok u) : caller.role.satisfies required = true := by
  unfold Rest.requirePermission at h
  split at h
  · assumption
  · cases h

theorem actsFor_resolveTenant (caller : Caller) (selfReported : String) :
    ActsFor caller (Rest.resolveTenant caller.tenantId selfReported) := by
  intro bound hbound
  rw [Option.mem_def.1 hbound, Rest.resolveTenant, Option.getD_some]

theorem actsFor_of_checkRestPbac {srv : Server F} {caller : Caller} {action resourceId selfReported tenant : String}
    (h : Rest.checkRestPbac srv caller action resourceId selfReported = .ok tenant) : ActsFor caller tenant := by
  unfold Rest.checkRestPbac at h
  dsimp only at h
  split at h
  · cases h
    exact actsFor_resolveTenant caller selfReported
  · cases h

theorem keyAdmin_of_satisfies {role : ApiKeyPermission} {required : Permission}
    (hrequired : required ∈ [.createKey, .deleteKey, .rotateKey, .exportKey]) (h : role.satisfies required = true) :
    role = .keyAdmin := by
  revert hrequired h
  cases role <;> cases required <;> decide

theorem actsFor_of_checkPbac {srv : Server F} {caller : Caller} {action resourceId reqTenant tenant : String}
    (h : Grpc.checkPbac srv caller action resourceId reqTenant = .ok tenant) : ActsFor caller tenant := by
  unfold Grpc.checkPbac Grpc.resolveTenant at h
  intro bound hbound
  rw [Option.mem_def.1 hbound] at h
  simp only [Bind.bind, Except.bind] at h
  split at h
  · exact Except.ok.inj h
  · cases h

theorem role_of_checkPermission {caller : Caller} {required : Permission} {u : Unit}
    (h : Grpc.checkPermission caller required = .ok u) : caller.role.satisfies required = true := by
  unfold Grpc.checkPermission at h
  split at h
  · assumption
  · cases h

theorem of_admitted {srv : Server F} {caller : Caller} {required : Permission} {action id reqTenant : String}
    {keyId : Uuid} {tenant : String} (h : Grpc.admitted srv caller required action id reqTenant = .ok (keyId, tenant)) :
    caller.role.satisfies required = true ∧ ActsFor caller tenant := by
  simp only [Grpc.admitted, Bind.bind, Except.bind] at h
  cases hrole : Grpc.checkPermission caller required with
  | error e => simp [hrole] at h
  | ok u =>
    cases hid : Grpc.parseId srv id "invalid key id" with
    | error e => simp [hrole, hid] at h
    | ok parsed =>
      cases htenant : Grpc.checkPbac srv caller action parsed.text reqTenant with
      | error e => simp [hrole, hid, htenant] at h
      | ok t =>
        simp only [hrole, hid, htenant] at h
        cases h
        exact ⟨role_of_checkPermission hrole, actsFor_of_checkPbac htenant⟩

/-! ## The approval routes -/

theorem keeps_ensureResourceTenant {srv : Server F} (resourceType resourceId tenantId : String) :
    (ensureResourceTenant srv resourceType resourceId tenantId).Keeps (Allowed (.request c))
      (fun log _ => resourceType = "key" → ∃ keyId, srv.parseUuid resourceId = some keyId ∧
        ∃ m : KeyMeta, (⟨.inl (.getKeyMetadata keyId), .ok m⟩ : Exchange) ∈ log ∧ m.tenantId = tenantId) made := by
  unfold ensureResourceTenant
  split
  · rename_i hne
    exact fun h => absurd h hne
  · cases hparse : srv.parseUuid resourceId with
    | none => trivial
    | some keyId =>
      refine .call (fun _ _ _ h => by cases h) fun r => ?_
      cases r with
      | error e => cases e <;> trivial
      | ok m =>
        dsimp only
        split
        · trivial
        · rename_i howned
          exact fun _ => ⟨keyId, rfl, m, by simp, not_not.1 howned⟩

theorem keeps_ensureApprovalTenant (requestId : Uuid) (bound : Option String) :
    (ensureApprovalTenant requestId bound).Keeps (Allowed (.request c))
      (fun log _ => ∀ b ∈ bound, ∃ r, (⟨.inr (.getRequest requestId), r⟩ : Exchange) ∈ log ∧
        ∀ request, r = .ok request → request.tenantId = b) made := by
  cases bound with
  | none => exact .pure (by simp)
  | some b =>
    refine (keeps_engine_logged (.getRequest requestId) trivial).bind fun log r hr => ?_
    cases r with
    | error e =>
      intro b' hb'
      obtain rfl := Option.some.inj hb'
      exact ⟨_, hr, fun _ h => by cases h⟩
    | ok request =>
      dsimp only
      split
      · trivial
      · rename_i htenant
        intro b' hb'
        obtain rfl := Option.some.inj hb'
        refine ⟨_, hr, fun request' h => ?_⟩
        cases h
        exact not_not.1 htenant

theorem keeps_createApprovalRequest (req : CreateApprovalReq) :
    (createApprovalRequest c.srv c.caller req).Keeps (Allowed (.request c)) (fun _ _ => True) made := by
  unfold createApprovalRequest
  refine (Keeps.lift (R := fun _ _ => True) fun _ _ => trivial).bind fun log _ _ => ?_
  cases parseOperation req.operation with
  | none => trivial
  | some operation =>
    refine (keeps_ensureResourceTenant _ _ _).bind fun log _ howned => ?_
    refine (keeps_engine (.createRequest ..) (R := fun _ _ => True) ?_ fun _ => trivial).bind fun _ r _ => ?_
    · exact ⟨rfl, actsFor_resolveTenant _ _, rfl, rfl, howned⟩
    · cases r <;> trivial

/-- A vote is cast by whom the API key names, with the authority of its role. -/
theorem keeps_vote (requestId : Uuid) (op : EngineOp)
    (h : ∀ log, Votes c.caller log requestId c.caller.keyId (roleFromPermission c.caller.role) →
      Allowed (.request c) log (.inr op))
    (k : op.Reply → Handler Rest.Refusal ApprovalRequestResponse)
    (hk : ∀ log r, (k r).Keeps (Allowed (.request c)) (fun _ _ => True) log) :
    (do
      Program.lift (Rest.requirePermission c.caller .approveAction)
      ensureApprovalTenant requestId c.caller.tenantId
      k (← engine op)).Keeps (Allowed (.request c)) (fun _ _ => True) made := by
  refine (Keeps.lift (R := fun _ _ => c.caller.role.satisfies .approveAction = true)
    fun _ h => role_of_requirePermission h).bind fun log _ hrole => ?_
  refine (keeps_ensureApprovalTenant requestId c.caller.tenantId).bind fun log _ htenant => ?_
  exact (keeps_engine op (R := fun _ _ => True) (h log ⟨rfl, rfl, hrole, htenant⟩) fun _ => trivial).bind
    fun log r _ => hk log r

theorem keeps_voted (r : Except ApprovalError ApprovalRequestEntity) :
    (voted r).Keeps (Allowed (.request c)) (fun _ _ => True) made := by
  cases r <;> trivial

theorem keeps_approveRequest (requestId : Uuid) (comment : Option String) :
    (approveRequest c.caller requestId comment).Keeps (Allowed (.request c)) (fun _ _ => True) made :=
  keeps_vote requestId (.approve ..) (fun _ h => h) voted fun _ r => keeps_voted r

theorem keeps_rejectRequest (requestId : Uuid) (reason : String) :
    (rejectRequest c.caller requestId reason).Keeps (Allowed (.request c)) (fun _ _ => True) made :=
  keeps_vote requestId (.reject ..) (fun _ _ => trivial) voted fun _ r => keeps_voted r

/-- The other routes ask the engine for something that needs nothing. -/
theorem keeps_plain {α : Type} {required : Permission} (op : EngineOp) (h : ∀ log, Allowed (.request c) log (.inr op))
    {k : op.Reply → Handler Rest.Refusal α} (hk : ∀ log r, (k r).Keeps (Allowed (.request c)) (fun _ _ => True) log) :
    (do
      Program.lift (Rest.requirePermission c.caller required)
      k (← engine op)).Keeps (Allowed (.request c)) (fun _ _ => True) made := by
  refine (Keeps.lift (R := fun _ _ => True) fun _ _ => trivial).bind fun log _ _ => ?_
  exact (keeps_engine op (R := fun _ _ => True) (h log) fun _ => trivial).bind fun log r _ => hk log r

theorem keeps_getApprovalRequest (requestId : Uuid) :
    (getApprovalRequest c.caller requestId).Keeps (Allowed (.request c)) (fun _ _ => True) made := by
  refine keeps_plain (.getRequest requestId) (fun _ => trivial) fun log r => ?_
  cases r with
  | error e => trivial
  | ok request =>
    dsimp only
    split <;> trivial

theorem keeps_cancelRequest (requestId : Uuid) :
    (cancelRequest c.caller requestId).Keeps (Allowed (.request c)) (fun _ _ => True) made := by
  refine keeps_plain (.cancel requestId c.caller.keyId) (fun _ => trivial) fun log r => ?_
  cases r <;> trivial

theorem keeps_listPendingApprovals (tenantId : String) :
    (listPendingApprovals c.caller tenantId).Keeps (Allowed (.request c)) (fun _ _ => True) made := by
  unfold listPendingApprovals
  refine (Keeps.lift (R := fun _ _ => True) fun _ _ => trivial).bind fun log _ _ => ?_
  split
  · trivial
  · exact (keeps_engine (.listPending tenantId) (R := fun _ _ => True) trivial fun _ => trivial).bind fun _ _ _ =>
      trivial

/-! ## The operations behind the gate -/

theorem keeps_requireApproved {srv : Server F} (approvalId : Option String) (operation : OperationType)
    (resourceId action : String) : (requireApproved srv approvalId operation resourceId action).Keeps
      (Allowed (.request c)) (fun log _ => ∃ id, (⟨.inr (.isApproved id operation resourceId), true⟩ : Exchange) ∈ log)
      made := by
  unfold requireApproved
  split
  · trivial
  · split
    · trivial
    · rename_i approval _
      refine (keeps_engine_logged (.isApproved approval operation resourceId) trivial).bind fun log (r : Bool) hr => ?_
      cases r with
      | false => trivial
      | true => exact ⟨approval, hr⟩

theorem keeps_requireApprovedGrpc {srv : Server F} (approvalId : String) (operation : OperationType)
    (resourceId action : String) : (requireApprovedGrpc srv approvalId operation resourceId action).Keeps
      (Allowed (.request c)) (fun log _ => ∃ id, (⟨.inr (.isApproved id operation resourceId), true⟩ : Exchange) ∈ log)
      made := by
  unfold requireApprovedGrpc
  split
  · trivial
  · split
    · trivial
    · rename_i approval _
      refine (keeps_engine_logged (.isApproved approval operation resourceId) trivial).bind fun log (r : Bool) hr => ?_
      cases r with
      | false => trivial
      | true => exact ⟨approval, hr⟩

/-- A method that looks at the owner of the key first and then makes only calls of the approved operation. -/
theorem keeps_owned {α ε : Type} {keyId : Uuid} {tenantId : String} {operation : OperationType} (mapErr : ApiAbort → ε)
    (hadmin : c.caller.role = .keyAdmin) (hacts : ActsFor c.caller tenantId)
    (happroved : ∃ id, (⟨.inr (.isApproved id operation keyId.text), true⟩ : Exchange) ∈ made)
    {f : KeyMeta → Service α}
    (hf : ∀ m, (f m).Calls fun op => gatedBy op = some (operation, keyId, tenantId)) :
    ((KeyService.ownedKeyMeta keyId tenantId >>= f).inl mapErr : Handler ε α).Keeps (Allowed (.request c))
      (fun _ _ => True) made := by
  have hrest : ∀ (log : List Exchange) (m : KeyMeta), (⟨.inl (.getKeyMetadata keyId), .ok m⟩ : Exchange) ∈ log →
      made <+: log → m.tenantId = tenantId →
      ((f m).inl mapErr : Handler ε α).Keeps (Allowed (.request c)) (fun _ _ => True) log := by
    intro log m hm hpre howned
    refine (hf m).keeps mapErr fun log' op hpre' hop => ?_
    intro operation' keyId' tenantId' hgated
    rw [hop] at hgated
    cases hgated
    obtain ⟨id, hid⟩ := happroved
    exact ⟨hadmin, hacts, ⟨id, (hpre.trans hpre').subset hid⟩, m, hpre'.subset hm, howned⟩
  refine .call (fun _ _ _ h => by cases h) fun r => ?_
  cases r with
  | error e => cases e <;> trivial
  | ok m =>
    change (((if m.tenantId ≠ tenantId then fail (.keyNotFound keyId.text) else return m : Service KeyMeta) >>=
      f).inl mapErr : Handler ε α).Keeps _ _ _
    split
    · trivial
    · rename_i howned
      exact hrest _ m (by simp) (List.prefix_append _ _) (not_not.1 howned)

theorem calls_rotate (keyId : Uuid) (tenantId : String) (_ : KeyMeta) :
    (ask (.rotateKey keyId tenantId) apiError : Service KeyMeta).Calls
      fun op => gatedBy op = some (.keyRotate, keyId, tenantId) := ⟨rfl, fun _ => trivial⟩

theorem calls_delete (keyId : Uuid) (tenantId : String) (_ : KeyMeta) :
    (ask (.deleteKey keyId tenantId) apiError : Service Unit).Calls
      fun op => gatedBy op = some (.keyDelete, keyId, tenantId) := ⟨rfl, fun _ => trivial⟩

theorem calls_export (crypto : ServiceCrypto) (env : ServiceEnv) (keyId : Uuid) (targetPublicKey : Bytes)
    (tenantId : String) (opts : ExportOptions) (m : KeyMeta) :
    (KeyService.exportOwned crypto env keyId targetPublicKey tenantId opts m).Calls
      fun op => gatedBy op = some (.keyExport, keyId, tenantId) := by
  unfold KeyService.exportOwned
  refine Calls.bind trivial fun _ => Calls.bind ⟨rfl, fun _ => trivial⟩ fun material => Calls.bind ?_ fun _ => trivial
  unfold KeyService.selectMaterial
  split
  · split
    · exact ⟨rfl, fun _ => trivial⟩
    · trivial
  · trivial

/-- What a handler has found out when its gate opens. -/
structure GateOpen (c : ApiCall F) (log : List Exchange) (operation : OperationType) (keyId : Uuid) (tenant : String) :
    Prop where
  keyAdmin : c.caller.role = .keyAdmin
  actsFor : ActsFor c.caller tenant
  approved : ∃ id, (⟨.inr (.isApproved id operation keyId.text), true⟩ : Exchange) ∈ log

/-- The handlers of the REST channel: permission, policy, gate, and then the rest. -/
theorem keeps_rest {α : Type} {id : Uuid} {action selfReported what : String} {approvalId : Option String}
    {operation : OperationType} {k : String → Handler Rest.Refusal α}
    (hk : ∀ tenant log, GateOpen c log operation id tenant →
      (k tenant).Keeps (Allowed (.request c)) (fun _ _ => True) log) :
    (do
      Program.lift (Rest.requirePermission c.caller .createKey)
      let tenant ← Program.lift (Rest.checkRestPbac c.srv c.caller action id.text selfReported)
      requireApproved c.srv approvalId operation id.text what
      k tenant).Keeps (Allowed (.request c)) (fun _ _ => True) made := by
  refine (Keeps.lift (R := fun _ _ => c.caller.role.satisfies .createKey = true)
    fun _ h => role_of_requirePermission h).bind fun _ _ hrole => ?_
  refine (Keeps.lift (R := fun _ tenant => ActsFor c.caller tenant)
    fun _ h => actsFor_of_checkRestPbac h).bind fun _ tenant hacts => ?_
  refine (keeps_requireApproved approvalId operation id.text what).bind fun log _ happroved => ?_
  exact hk tenant log ⟨keyAdmin_of_satisfies (by simp) hrole, hacts, happroved⟩

/-- Those of the gRPC channel. -/
theorem keeps_grpc {α : Type} {admission : Except Grpc.Refusal (Uuid × String)} {approvalId what : String}
    {operation : OperationType} {k : Uuid × String → Handler Grpc.Refusal α}
    (hadmission : ∀ a, admission = .ok a → c.caller.role = .keyAdmin ∧ ActsFor c.caller a.2)
    (hk : ∀ a log, GateOpen c log operation a.1 a.2 → (k a).Keeps (Allowed (.request c)) (fun _ _ => True) log) :
    (do
      let a ← Program.lift admission
      requireApprovedGrpc c.srv approvalId operation a.1.text what
      k a).Keeps (Allowed (.request c)) (fun _ _ => True) made := by
  refine (Keeps.lift (R := fun _ a => c.caller.role = .keyAdmin ∧ ActsFor c.caller a.2)
    fun a h => hadmission a h).bind fun _ a ha => ?_
  refine (keeps_requireApprovedGrpc approvalId operation a.1.text what).bind fun log _ happroved => ?_
  exact hk a log ⟨ha.1, ha.2, happroved⟩

theorem GateOpen.keeps {α ε : Type} {keyId : Uuid} {tenantId : String} {operation : OperationType}
    (h : GateOpen c made operation keyId tenantId) (mapErr : ApiAbort → ε) {f : KeyMeta → Service α}
    (hf : ∀ m, (f m).Calls fun op => gatedBy op = some (operation, keyId, tenantId)) :
    ((KeyService.ownedKeyMeta keyId tenantId >>= f).inl mapErr : Handler ε α).Keeps (Allowed (.request c))
      (fun _ _ => True) made := keeps_owned mapErr h.keyAdmin h.actsFor h.approved hf

theorem keeps_rotateKey (id : Uuid) (query : Rest.TenantQuery) :
    (rotateKey c.srv c.caller id query).Keeps (Allowed (.request c)) (fun _ _ => True) made :=
  keeps_rest fun tenant _ h => (h.keeps _ (calls_rotate id tenant)).bind fun _ _ _ => trivial

theorem keeps_deleteKey (id : Uuid) (query : Rest.TenantQuery) :
    (deleteKey c.srv c.caller id query).Keeps (Allowed (.request c)) (fun _ _ => True) made :=
  keeps_rest fun tenant _ h => h.keeps _ (calls_delete id tenant)

theorem keeps_exportKey (id : Uuid) (query : Rest.TenantQuery) (req : Rest.ExportKeyRequest) :
    (exportKey c.srv c.caller id query req).Keeps (Allowed (.request c)) (fun _ _ => True) made := by
  refine keeps_rest fun tenant log h => ?_
  refine (Keeps.lift (R := fun log' _ => log' = log) fun _ _ => rfl).bind fun _ b hlog => ?_
  subst hlog
  exact h.keeps _ (calls_export c.srv.crypto c.srv.env id b.1 tenant ⟨b.2, req.version⟩)

theorem keeps_rotateKeyGrpc (req : Grpc.RotateKeyRequest) :
    (rotateKeyGrpc c.srv c.caller req).Keeps (Allowed (.request c)) (fun _ _ => True) made := by
  refine keeps_grpc (fun a h => ?_) fun a _ h => (h.keeps _ (calls_rotate a.1 a.2)).bind fun _ _ _ => trivial
  obtain ⟨hrole, hacts⟩ := of_admitted h
  exact ⟨keyAdmin_of_satisfies (by simp) hrole, hacts⟩

theorem keeps_deleteKeyGrpc (req : Grpc.DeleteKeyRequest) :
    (deleteKeyGrpc c.srv c.caller req).Keeps (Allowed (.request c)) (fun _ _ => True) made := by
  refine keeps_grpc (fun a h => ?_) fun a _ h => h.keeps _ (calls_delete a.1 a.2)
  obtain ⟨hrole, hacts⟩ := of_admitted h
  exact ⟨keyAdmin_of_satisfies (by simp) hrole, hacts⟩

theorem of_exportAdmitted {srv : Server F} {caller : Caller} {req : Grpc.ExportKeyRequest} {a : Uuid × String}
    (h : exportAdmitted srv caller req = .ok a) : caller.role.satisfies .exportKey = true ∧ ActsFor caller a.2 := by
  simp only [exportAdmitted, Bind.bind, Except.bind] at h
  cases hrole : Grpc.checkPermission caller .exportKey with
  | error e => simp [hrole] at h
  | ok u =>
    cases hid : Grpc.parseId srv req.id "invalid key id format" with
    | error e => simp [hrole, hid] at h
    | ok parsed =>
      cases htenant : Grpc.checkPbac srv caller "export_key" parsed.text req.tenantId with
      | error e => simp [hrole, hid, htenant] at h
      | ok t =>
        simp only [hrole, hid, htenant] at h
        cases h
        exact ⟨role_of_checkPermission hrole, actsFor_of_checkPbac htenant⟩

theorem keeps_exportKeyGrpc (req : Grpc.ExportKeyRequest) :
    (exportKeyGrpc c.srv c.caller req).Keeps (Allowed (.request c)) (fun _ _ => True) made := by
  refine keeps_grpc (fun a h => ?_) fun a log h => ?_
  · obtain ⟨hrole, hacts⟩ := of_exportAdmitted h
    exact ⟨keyAdmin_of_satisfies (by simp) hrole, hacts⟩
  · refine (Keeps.lift (R := fun log' _ => log' = log) fun _ _ => rfl).bind fun _ protection hlog => ?_
    subst hlog
    exact h.keeps _ (calls_export c.srv.crypto c.srv.env a.1 req.targetPublicKey a.2
      ⟨protection, if req.version ≠ 0 then some req.version else none⟩)

/-- Whatever an activity is answered, it makes only calls that are allowed after those it has made. -/
theorem keeps_program (a : Activity F) : a.program.Keeps (Allowed a) (fun _ _ => True) [] := by
  cases a with
  | other op => exact ⟨rfl, fun _ => trivial⟩
  | request c =>
    change c.program.Keeps _ _ _
    unfold ApiCall.program
    cases c.request with
    | createApproval req => exact (keeps_createApprovalRequest req).mapResult _ _
    | listPending tenantId => exact (keeps_listPendingApprovals tenantId).mapResult _ _
    | getApproval requestId => exact (keeps_getApprovalRequest requestId).mapResult _ _
    | approve requestId comment => exact (keeps_approveRequest requestId comment).mapResult _ _
    | reject requestId reason => exact (keeps_rejectRequest requestId reason).mapResult _ _
    | cancel requestId => exact (keeps_cancelRequest requestId).mapResult _ _
    | rotateKey id query => exact (keeps_rotateKey id query).mapResult _ _
    | deleteKey id query => exact (keeps_deleteKey id query).mapResult _ _
    | exportKey id query req => exact (keeps_exportKey id query req).mapResult _ _
    | rotateKeyGrpc req => exact (keeps_rotateKeyGrpc req).mapResult _ _
    | deleteKeyGrpc req => exact (keeps_deleteKeyGrpc req).mapResult _ _
    | exportKeyGrpc req => exact (keeps_exportKeyGrpc req).mapResult _ _

end

/-! ## What the calls leave -/

/-- A call on the engine as an event of the engine, where it can change something. -/
def engineEvent? (e : Event F) : Option (ApprovalEngine.Call × ApprovalEngine.Reply) :=
  match e with
  | ⟨_, _, env, .inr (.createRequest operation resourceId resourceType tenantId requestorId justification level), r⟩ =>
    some (.createRequest env.uuid (env.clock 0) operation resourceId resourceType tenantId requestorId justification
      level, .request r)
  | ⟨_, _, env, .inr (.approve requestId approverId role comment), r⟩ =>
    some (.approve env.clock requestId approverId role comment, .request r)
  | ⟨_, _, env, .inr (.reject requestId rejectorId role reason), r⟩ =>
    some (.reject env.clock requestId rejectorId role reason, .request r)
  | ⟨_, _, env, .inr (.cancel requestId requestorId), r⟩ =>
    some (.cancel env.clock requestId requestorId, .request r)
  | _ => none

def engineHistory (l : List (Event F)) : History ApprovalEngine.Call ApprovalEngine.Reply := l.filterMap engineEvent?

/-- The key that a call makes, with its tenant. -/
def createdKey? (e : Event F) : Option (Uuid × String) :=
  match e.op with
  | .inl (.generateKey _ _ tenantId) | .inl (.importKeyMaterial _ _ tenantId _) => some (e.outside.uuid, tenantId)
  | _ => none

/-- Keys and requests come from calls that made them, and requests stay. -/
structure Sound (l : List (Event F)) (s : Shared) : Prop where
  keys : ∀ (id : Uuid) entry, s.1.keys[id]? = some entry → ∃ e ∈ l, createdKey? e = some (id, entry.keyMeta.tenantId)
  engine : EngineInv (engineHistory l) s.2
  stay : ∀ e ∈ l, ∀ ev, engineEvent? e = some ev → ∀ id, createsRequest id ev = true →
    s.2.pendingRequests[id]? ≠ none

theorem step_engine (crypto : Crypto) (s : Shared) {e : Event F}
    (hanswer : e.answer = (perform crypto e.outside e.op s).1) :
    match engineEvent? e with
    | some ev => ev.2 = (ApprovalEngine.call s.2 ev.1).1 ∧
        (perform crypto e.outside e.op s).2.2 = (ApprovalEngine.call s.2 ev.1).2
    | none => (perform crypto e.outside e.op s).2.2 = s.2 := by
  obtain ⟨i, k, env, op, r⟩ := e
  rcases op with op | op
  · rfl
  · change r = (perform crypto env (.inr op) s).1 at hanswer
    subst hanswer
    cases op <;> first | exact ⟨rfl, rfl⟩ | rfl

theorem keyStep_created {env : Software.UseEnv} {id : Uuid} {op : BackendOp} {o o' : Option Software.KeyEntry}
    (h : Software.EntryStep env id op o o') {entry : Software.KeyEntry} (hentry : o' = some entry) :
    (∃ old, o = some old ∧ old.keyMeta.tenantId = entry.keyMeta.tenantId) ∨
      (env.uuid = id ∧ ((∃ spec name, op = .generateKey spec name entry.keyMeta.tenantId) ∨
        ∃ spec name material, op = .importKeyMaterial spec name entry.keyMeta.tenantId material)) := by
  cases h with
  | kept => exact .inl ⟨entry, hentry, rfl⟩
  | generated _ hnew _ =>
    cases hentry
    exact .inr ⟨hnew, .inl ⟨_, _, rfl⟩⟩
  | imported _ hnew _ =>
    cases hentry
    exact .inr ⟨hnew, .inr ⟨_, _, _, rfl⟩⟩
  | rotated =>
    cases hentry
    exact .inl ⟨_, rfl, rfl⟩
  | emptied =>
    cases hentry
    exact .inl ⟨_, rfl, rfl⟩
  | deleted =>
    cases hentry
    exact .inl ⟨_, rfl, rfl⟩
  | destroyed => cases hentry

/-- A request stays, and the call that makes one leaves it there. -/
theorem stays_of_requestStep {id : Uuid} {c : ApprovalEngine.Call} {a : ApprovalEngine.Reply}
    {o o' : Option ApprovalRequestEntity} (h : RequestStep id c a o o')
    (hthere : o ≠ none ∨ createsRequest id (c, a) = true) : o' ≠ none := by
  cases h with
  | same other alive =>
    rcases hthere with h | h
    · exact h
    · rw [other] at h
      cases h
  | created | approved | closed => simp

theorem Sound.step (crypto : Crypto) {l : List (Event F)} {s : Shared} (hs : Sound l s) {e : Event F}
    (hanswer : e.answer = (perform crypto e.outside e.op s).1) :
    Sound (l ++ [e]) (perform crypto e.outside e.op s).2 := by
  have hengine := step_engine crypto s hanswer
  refine ⟨?_, ?_, ?_⟩
  · intro id entry hentry
    have hold : s.1.keys[id]? = some entry ∨ (∃ old, s.1.keys[id]? = some old ∧
        old.keyMeta.tenantId = entry.keyMeta.tenantId) ∨ createdKey? e = some (id, entry.keyMeta.tenantId) := by
      obtain ⟨i, k, env, op, r⟩ := e
      rcases op with op | op
      · have hstep := Software.SoftwareKeystore.perform_entry crypto env.toUseEnv op s.1 id
        rcases keyStep_created hstep hentry with hkept | ⟨rfl, ⟨_, _, rfl⟩ | ⟨_, _, _, rfl⟩⟩
        · exact .inr (.inl hkept)
        · exact .inr (.inr rfl)
        · exact .inr (.inr rfl)
      · exact .inl hentry
    rcases hold with h | ⟨old, h, htenant⟩ | h
    · obtain ⟨e', he', hcreated⟩ := hs.keys id entry h
      exact ⟨e', List.mem_append_left _ he', hcreated⟩
    · obtain ⟨e', he', hcreated⟩ := hs.keys id old h
      exact ⟨e', List.mem_append_left _ he', by rw [hcreated, htenant]⟩
    · exact ⟨e, by simp, h⟩
  · rw [engineHistory, List.filterMap_append, List.filterMap_cons, List.filterMap_nil]
    cases hev : engineEvent? e with
    | none =>
      rw [hev] at hengine
      simp only [List.append_nil, hengine]
      exact hs.engine
    | some ev =>
      rw [hev] at hengine
      obtain ⟨hreply, hnext⟩ := hengine
      have hcall := engineInv_call hs.engine ev.1
      rw [← hreply, ← hnext] at hcall
      exact hcall
  · intro e' he' ev' hev' id hcreates
    have hthere : s.2.pendingRequests[id]? ≠ none ∨ (∃ ev, engineEvent? e = some ev ∧ createsRequest id ev = true) := by
      rcases List.mem_append.1 he' with h | h
      · exact .inl (hs.stay e' h ev' hev' id hcreates)
      · rw [List.mem_singleton.1 h] at hev'
        exact .inr ⟨ev', hev', hcreates⟩
    cases hev : engineEvent? e with
    | none =>
      rw [hev] at hengine
      rcases hthere with h | ⟨ev, h, -⟩
      · rwa [hengine]
      · rw [hev] at h
        cases h
    | some ev =>
      rw [hev] at hengine
      obtain ⟨hreply, hnext⟩ := hengine
      rw [hnext]
      refine stays_of_requestStep (request_step s.2 ev.1 id) (hthere.imp (fun h => h) fun h => ?_)
      obtain ⟨ev₂, hev₂, hcreates₂⟩ := h
      rw [hev] at hev₂
      cases hev₂
      rwa [← hreply]

/-! ## Runs -/

theorem sound_new : Sound ([] : List (Event F)) (.new, .new) := by
  refine ⟨fun id entry h => ?_, fun id r h => ?_, fun e he => by cases he⟩
  · simp [Software.SoftwareKeystore.new] at h
  · simp [ApprovalEngine.new] at h

section

variable {crypto : Crypto} {ms : List (Move (Activity F) HandlerEnv)} {l₁ l₂ : List (Event F)} {e : Event F}

theorem sound_at (h : events crypto ms = l₁ ++ e :: l₂) :
    ∃ s, Sound l₁ s ∧ e.answer = (perform crypto e.outside e.op s).1 :=
  Pool.answered_run (I := Sound) (Q := fun _ _ => True) (fun _ _ _ hs _ hanswer => hs.step crypto hanswer) sound_new ms
    (fun _ _ _ _ => trivial) h

theorem allowed_at (h : events crypto ms = l₁ ++ e :: l₂) : Allowed e.started (madeAt e.index l₁) e.op :=
  (Pool.promised_run (A := Allowed) (R := fun _ _ _ => True) keeps_program _ ms).allowed l₁ e l₂ h

/-- A call of a program is a call of the run. -/
theorem exists_of_made {i : ℕ} {x : Exchange} (h : x ∈ madeAt i l₁) :
    ∃ e : Event F, e ∈ l₁ ∧ e.index = i ∧ (⟨e.op, e.answer⟩ : Exchange) = x := by
  obtain ⟨op, r⟩ := x
  obtain ⟨k, env, hmem⟩ := mem_madeAt h
  exact ⟨_, hmem, rfl, rfl⟩

/-! ## Ids -/

theorem uuid_of_creates (h : events crypto ms = l₁ ++ e :: l₂) {ev : ApprovalEngine.Call × ApprovalEngine.Reply}
    (hev : engineEvent? e = some ev) {id : Uuid} (hcreates : createsRequest id ev = true) :
    e.outside.uuid = id ∧ draws e.op = true := by
  obtain ⟨s, -, hanswer⟩ := sound_at h
  obtain ⟨i, k, env, op, r⟩ := e
  rcases op with op | op
  · cases hev
  · cases op with
    | createRequest =>
      cases hev
      change r = Except.ok _ at hanswer
      rw [hanswer] at hcreates
      exact ⟨of_decide_eq_true hcreates, rfl⟩
    | approve | reject | cancel =>
      cases hev
      cases hcreates
    | getRequest | isApproved | listPending => cases hev

theorem eq_of_draws {l : List (Event F)} (hfresh : l.Pairwise Unforeseen) {e e' : Event F} (he : e ∈ l) (he' : e' ∈ l)
    (hdraws : draws e.op = true) (hdraws' : draws e'.op = true) (huuid : e.outside.uuid = e'.outside.uuid) :
    e = e' := by
  obtain ⟨i, hi, rfl⟩ := List.getElem_of_mem he
  obtain ⟨j, hj, rfl⟩ := List.getElem_of_mem he'
  rcases lt_trichotomy i j with hij | rfl | hij
  · exact absurd huuid ((List.pairwise_iff_getElem.1 hfresh i j hi hj hij hdraws').1 hdraws)
  · rfl
  · exact absurd huuid.symm ((List.pairwise_iff_getElem.1 hfresh j i hj hi hij hdraws).1 hdraws')

theorem draws_of_createdKey {e : Event F} {p : Uuid × String} (h : createdKey? e = some p) :
    draws e.op = true ∧ e.outside.uuid = p.1 := by
  unfold createdKey? at h
  split at h
  · rename_i hop
    cases h
    rw [hop]
    exact ⟨rfl, rfl⟩
  · rename_i hop
    cases h
    rw [hop]
    exact ⟨rfl, rfl⟩
  · cases h

/-- Whoever looks the key up finds the tenant that it was made for. -/
theorem createdKey_of_metadata {keyId : Uuid} {m : KeyMeta} (he : e ∈ events crypto ms)
    (hm : (⟨e.op, e.answer⟩ : Exchange) = ⟨.inl (.getKeyMetadata keyId), .ok m⟩) :
    ∃ e' ∈ events crypto ms, createdKey? e' = some (keyId, m.tenantId) := by
  obtain ⟨l₁, l₂, h⟩ := List.append_of_mem he
  obtain ⟨s, hs, hanswer⟩ := sound_at h
  obtain ⟨i, k, env, op, r⟩ := e
  cases hm
  obtain ⟨entry, hentry, rfl⟩ := Software.SoftwareKeystore.getKeyMetadata_eq_ok_iff.1 hanswer.symm
  obtain ⟨e', he', hcreated⟩ := hs.keys keyId entry hentry
  exact ⟨e', h ▸ List.mem_append_left _ he', hcreated⟩

theorem tenant_unique (hfresh : (events crypto ms).Pairwise Unforeseen) {keyId : Uuid} {m m' : KeyMeta} {e e' : Event F}
    (he : e ∈ events crypto ms) (he' : e' ∈ events crypto ms)
    (hm : (⟨e.op, e.answer⟩ : Exchange) = ⟨.inl (.getKeyMetadata keyId), .ok m⟩)
    (hm' : (⟨e'.op, e'.answer⟩ : Exchange) = ⟨.inl (.getKeyMetadata keyId), .ok m'⟩) : m.tenantId = m'.tenantId := by
  obtain ⟨c, hc, hcreated⟩ := createdKey_of_metadata he hm
  obtain ⟨c', hc', hcreated'⟩ := createdKey_of_metadata he' hm'
  obtain ⟨hdraws, huuid⟩ := draws_of_createdKey hcreated
  obtain ⟨hdraws', huuid'⟩ := draws_of_createdKey hcreated'
  obtain rfl := eq_of_draws hfresh hc hc' hdraws hdraws' (huuid.trans huuid'.symm)
  rw [hcreated] at hcreated'
  exact congrArg Prod.snd (Option.some.inj hcreated')

/-! ## The request behind a gate -/

/-- The call that made the request which the engine holds under `id`. -/
structure MadeRequest (l : List (Event F)) (id : Uuid) (r : ApprovalRequestEntity) (e : Event F)
    (ev : ApprovalEngine.Call × ApprovalEngine.Reply) : Prop where
  event : engineEvent? e = some ev
  creates : createsRequest id ev = true
  uuid : e.outside.uuid = id
  expires : r.expiresAt = e.outside.clock 0 + DateTime.hours (ApprovalEngine.timeoutHours r.requiredLevel)
  op : ∃ justification, e.op = .inr (.createRequest r.operation r.resourceId r.resourceType r.tenantId r.requestorId
    justification r.requiredLevel)

theorem mem_of_last? {ε : Type} {p : ε → Bool} {h : List ε} {x : ε} (hx : History.last? p h = some x) :
    x ∈ h ∧ p x = true :=
  ⟨List.mem_reverse.1 (List.mem_of_find?_eq_some hx), List.find?_some hx⟩

theorem mem_of_since {ε : Type} {p : ε → Bool} {h : List ε} {x : ε} (hx : x ∈ History.since p h) : x ∈ h :=
  (List.rtakeWhile_suffix _ h).subset hx

theorem exists_madeRequest (h : events crypto ms = l₁ ++ l₂) {id : Uuid} {r : ApprovalRequestEntity}
    (hi : RequestInv (engineHistory l₁) id r) : ∃ e ∈ l₁, ∃ ev, MadeRequest l₁ id r e ev := by
  obtain ⟨ev, hlast, ⟨now, justification, hcall, hexpires⟩⟩ := hi.created
  obtain ⟨hmem, hcreates⟩ := mem_of_last? hlast
  obtain ⟨e, he, hev⟩ := List.mem_filterMap.1 hmem
  obtain ⟨la, lb, hsplit⟩ := List.append_of_mem he
  have hat : events crypto ms = la ++ e :: (lb ++ l₂) := by rw [h, hsplit, List.append_assoc, List.cons_append]
  obtain ⟨huuid, -⟩ := uuid_of_creates hat hev hcreates
  refine ⟨e, he, ev, ?_⟩
  obtain ⟨i, k, env, op, a⟩ := e
  rcases op with op | op
  · cases hev
  · cases op with
    | createRequest =>
      cases hev
      simp only [ApprovalEngine.Call.createRequest.injEq] at hcall
      obtain ⟨-, rfl, rfl, rfl, rfl, rfl, rfl, -, rfl⟩ := hcall
      exact ⟨rfl, hcreates, huuid, hexpires, _, rfl⟩
    | approve | reject | cancel =>
      cases hev
      cases hcreates
    | getRequest | isApproved | listPending => cases hev

/-- All that a run holds under an id comes from one call. -/
theorem MadeRequest.unique (hfresh : (events crypto ms).Pairwise Unforeseen) {l l' : List (Event F)} {id : Uuid}
    {r r' : ApprovalRequestEntity} {e e' : Event F} {ev ev' : ApprovalEngine.Call × ApprovalEngine.Reply}
    (h : MadeRequest l id r e ev) (h' : MadeRequest l' id r' e' ev') (he : e ∈ events crypto ms)
    (he' : e' ∈ events crypto ms) : e = e' := by
  obtain ⟨_, hop⟩ := h.op
  obtain ⟨_, hop'⟩ := h'.op
  exact eq_of_draws hfresh he he' (by rw [hop]; rfl) (by rw [hop']; rfl) (h.uuid.trans h'.uuid.symm)

theorem MadeRequest.tenant_eq (hfresh : (events crypto ms).Pairwise Unforeseen) {l l' : List (Event F)} {id : Uuid}
    {r r' : ApprovalRequestEntity} {e e' : Event F} {ev ev' : ApprovalEngine.Call × ApprovalEngine.Reply}
    (h : MadeRequest l id r e ev) (h' : MadeRequest l' id r' e' ev') (he : e ∈ events crypto ms)
    (he' : e' ∈ events crypto ms) : r.tenantId = r'.tenantId := by
  obtain rfl := h.unique hfresh h' he he'
  obtain ⟨_, hop⟩ := h.op
  obtain ⟨_, hop'⟩ := h'.op
  rw [hop] at hop'
  simp only [Sum.inr.injEq, EngineOp.createRequest.injEq] at hop'
  exact hop'.2.2.2.1

/-- Nobody speaks of a request before it is made. -/
theorem made_before (hfresh : (events crypto ms).Pairwise Unforeseen) {id : Uuid} {e e' : Event F}
    (h : events crypto ms = l₁ ++ e :: l₂) (he' : e' ∈ events crypto ms) (hrequest : requestId? e.op = some id)
    (hdraws : draws e'.op = true) (huuid : e'.outside.uuid = id) : e' ∈ l₁ := by
  rw [h] at he' hfresh
  rcases List.mem_append.1 he' with hmem | hmem
  · exact hmem
  · rcases List.mem_cons.1 hmem with rfl | hmem
    · obtain ⟨i, k, env, op, a⟩ := e'
      rcases op with op | op
      · cases hrequest
      · cases op with
        | createRequest => cases hrequest
        | approve | reject | cancel | getRequest | isApproved | listPending => cases hdraws
    · have hrel := List.rel_of_pairwise_cons (List.pairwise_append.1 hfresh).2.1 hmem
      exact absurd (hrequest.trans (congrArg some huuid.symm)) (hrel hdraws).2

theorem draws_of_made {l : List (Event F)} {id : Uuid} {r : ApprovalRequestEntity} {e : Event F}
    {ev : ApprovalEngine.Call × ApprovalEngine.Reply} (h : MadeRequest l id r e ev) : draws e.op = true := by
  obtain ⟨_, hop⟩ := h.op
  rw [hop]
  rfl

/-- A vote that counts is that of somebody who may approve for the tenant. -/
theorem exists_approver (hfresh : (events crypto ms).Pairwise Unforeseen) (h : events crypto ms = l₁ ++ l₂) {id : Uuid}
    {r : ApprovalRequestEntity} {ev : ApprovalEngine.Call × ApprovalEngine.Reply} (hmade : MadeRequest l₁ id r e ev)
    (he : e ∈ l₁) {a : ApprovalRecord} (hcast : VoteCast (engineHistory l₁) id a) : ∃ caller : Caller,
      caller.keyId = a.approverId ∧ ApprovedBy l₁ caller id ∧ caller.role.satisfies .approveAction = true ∧
        ActsFor caller r.tenantId := by
  have hevents : ∀ x ∈ l₁, x ∈ events crypto ms := fun x hx => h ▸ List.mem_append_left _ hx
  obtain ⟨clock, role, comment, r', -, hmem⟩ := hcast
  obtain ⟨v, hv, hvote⟩ := List.mem_filterMap.1 (mem_of_since hmem)
  obtain ⟨la, lb, hsplit⟩ := List.append_of_mem hv
  have hat : events crypto ms = la ++ v :: (lb ++ l₂) := by rw [h, hsplit, List.append_assoc, List.cons_append]
  have hallowed := allowed_at hat
  obtain ⟨i, k, env, op, answer⟩ := v
  rcases op with op | op
  · cases hvote
  · cases op with
    | approve requestId approverId role' comment' =>
      cases hvote
      cases k with
      | other op => cases hallowed
      | request c =>
        obtain ⟨hkey, hrole, hofficer, htenant⟩ := hallowed
        refine ⟨c.caller, hkey.symm, ⟨_, hv, rfl, comment, r', by rw [← hkey, ← hrole]⟩, hofficer, ?_⟩
        intro bound hbound
        obtain ⟨g, hg, hgt⟩ := htenant bound hbound
        obtain ⟨q, hq, -, hlooked⟩ := exists_of_made hg
        have hq' : q ∈ events crypto ms := hat ▸ List.mem_append_left _ hq
        obtain ⟨lc, lq, hatq⟩ := List.append_of_mem hq'
        obtain ⟨s, hs, hanswer⟩ := sound_at hatq
        obtain ⟨i', k', env', op', answer'⟩ := q
        cases hlooked
        -- the request was there already when the voter's tenant was compared
        have hbefore := made_before hfresh hatq (hevents _ he) rfl (draws_of_made hmade) hmade.uuid
        cases hrequest : s.2.pendingRequests[id]? with
        | none => exact absurd hrequest (hs.stay e hbefore ev hmade.event id hmade.creates)
        | some request =>
          have hfound : answer' = .ok request := by
            change answer' = s.2.getRequest id at hanswer
            rw [hanswer, ApprovalEngine.getRequest, hrequest]
          obtain ⟨e', he', ev', hmade'⟩ := exists_madeRequest hatq (hs.engine id request hrequest)
          have hin : e' ∈ events crypto ms := hatq ▸ List.mem_append_left _ he'
          rw [← hgt request hfound]
          exact hmade'.tenant_eq hfresh hmade hin (hevents _ he)
    | createRequest | reject | cancel => cases hvote
    | getRequest | isApproved | listPending => cases hvote

/-- A request that is rejected or cancelled has been ended since it was made. -/
theorem ended_of_ends (hfresh : (events crypto ms).Pairwise Unforeseen) (h : events crypto ms = l₁ ++ l₂) {id : Uuid}
    {r : ApprovalRequestEntity} {ev : ApprovalEngine.Call × ApprovalEngine.Reply} (hmade : MadeRequest l₁ id r e ev)
    (he : e ∈ l₁) {x : Event F} (hx : x ∈ l₁) (hends : Ends id x) :
    ∃ ev' ∈ History.since (createsRequest id) (engineHistory l₁), endsRequest id ev' = true := by
  have hevents : ∀ y ∈ l₁, y ∈ events crypto ms := fun y hy => h ▸ List.mem_append_left _ hy
  obtain ⟨la, lb, hsplit⟩ := List.append_of_mem hx
  have hat : events crypto ms = la ++ x :: (lb ++ l₂) := by rw [h, hsplit, List.append_assoc, List.cons_append]
  have hevent : requestId? x.op = some id ∧ ∃ ev', engineEvent? x = some ev' ∧ endsRequest id ev' = true := by
    obtain ⟨i, k, env, op, answer⟩ := x
    rcases hends with ⟨_, _, _, _, hop⟩ | ⟨_, _, hop⟩
    · cases hop
      exact ⟨rfl, _, rfl, decide_eq_true rfl⟩
    · cases hop
      exact ⟨rfl, _, rfl, decide_eq_true rfl⟩
  obtain ⟨hrequest, ev', hev', hends'⟩ := hevent
  have hbefore := made_before hfresh hat (hevents _ he) hrequest (draws_of_made hmade) hmade.uuid
  obtain ⟨lc, ld, hsplit'⟩ := List.append_of_mem hbefore
  have hl : l₁ = lc ++ e :: (ld ++ x :: lb) := by rw [hsplit, hsplit', List.append_assoc, List.cons_append]
  refine ⟨ev', ?_, hends'⟩
  -- nothing after the call that made the request makes it again
  have hother : ∀ y ∈ engineHistory (ld ++ x :: lb), createsRequest id y = false := by
    intro y hy
    by_contra hcreates
    obtain ⟨z, hz, hzy⟩ := List.mem_filterMap.1 hy
    obtain ⟨lz, lz', hsplitz⟩ := List.append_of_mem hz
    have hatz : events crypto ms = (lc ++ e :: lz) ++ z :: (lz' ++ l₂) := by
      rw [h, hl, hsplitz]
      simp only [List.append_assoc, List.cons_append]
    obtain ⟨huuid, hdraws⟩ := uuid_of_creates hatz hzy (by simpa using hcreates)
    rw [hatz] at hfresh
    have hrel := (List.pairwise_append.1 hfresh).2.2 e (by simp) z List.mem_cons_self
    exact (hrel hdraws).1 (draws_of_made hmade) (hmade.uuid.trans huuid.symm)
  have hhistory : engineHistory l₁ = (engineHistory lc ++ [ev]) ++ engineHistory (ld ++ x :: lb) := by
    rw [hl]
    simp only [engineHistory, List.filterMap_append, List.filterMap_cons, hmade.event, List.append_assoc,
      List.singleton_append]
  rw [hhistory, History.since_append hother, History.since_append_of_pos hmade.creates, List.nil_append]
  exact List.mem_filterMap.2 ⟨x, by simp, hev'⟩

end

theorem votesFor_le_of_quorum {b : BackendOp} {operation : OperationType} {keyId : Uuid} {tenantId : String}
    (h : gatedBy b = some (operation, keyId, tenantId)) {approvals : List ApprovalRecord}
    (hquorum : Quorum approvals operation.defaultRequiredLevel) :
    resourceTypeFor operation = "key" ∧ votesFor operation ≤ approvals.length := by
  cases b <;> cases h <;> exact ⟨rfl, hquorum⟩

theorem request_of_gated {e : Event F} {x : OperationType × Uuid × String} (h : gated? e = some x) :
    ∃ c b, e.started = .request c ∧ e.op = .inl b ∧ gatedBy b = some x := by
  unfold gated? at h
  split at h
  · rename_i c b hc hb
    exact ⟨c, b, hc, hb, h⟩
  · cases h

theorem ne_keyAdmin_of_officer {role : ApiKeyPermission} (h : role.satisfies .approveAction = true) :
    role ≠ .keyAdmin := by
  rintro rfl
  revert h
  decide

/-- Whatever is interleaved with it, a request that asks the keystore to rotate, to delete or to export a key has been
let through by its gate, and at that moment the operation was authorised. -/
theorem authorised_of_gated (crypto : Crypto) (ms : List (Move (Activity F) HandlerEnv))
    (hreads : ∀ c, .start (.request c) ∈ ms → ReadsIds c.srv) (hfresh : (events crypto ms).Pairwise Unforeseen)
    {l₁ l₂ : List (Event F)} {e : Event F} (hrun : events crypto ms = l₁ ++ e :: l₂) {operation : OperationType}
    {keyId : Uuid} {tenantId : String} (hgated : gated? e = some (operation, keyId, tenantId)) :
    ∃ executor, e.started.caller? = some executor ∧ ∃ lg gate lg', l₁ = lg ++ gate :: lg' ∧ gate.index = e.index ∧
      ∃ id requestor raisedAt approvers, Authorised lg (gate.outside.clock 0) executor operation keyId tenantId id
        requestor raisedAt approvers := by
  obtain ⟨c, b, hc, hb, hgated⟩ := request_of_gated hgated
  have hcleared := allowed_at hrun
  rw [hc, hb] at hcleared
  obtain ⟨hadmin, hacts, ⟨id, hopen⟩, m, hm, howned⟩ := hcleared operation keyId tenantId hgated
  obtain ⟨gate, hgate, hindex, hgateop⟩ := exists_of_made hopen
  obtain ⟨lg, lg', hsplit⟩ := List.append_of_mem hgate
  have hatg : events crypto ms = lg ++ gate :: (lg' ++ e :: l₂) := by
    rw [hrun, hsplit, List.append_assoc, List.cons_append]
  have hevents : ∀ x ∈ l₁, x ∈ events crypto ms := fun x hx => hrun ▸ List.mem_append_left _ hx
  have hbefore : ∀ x ∈ lg, x ∈ events crypto ms := fun x hx => hatg ▸ List.mem_append_left _ hx
  refine ⟨c.caller, by rw [hc]; rfl, lg, gate, lg', hsplit, hindex, id, ?_⟩
  -- what the engine held when the gate opened
  obtain ⟨s, hs, hanswer⟩ := sound_at hatg
  obtain ⟨gi, gk, env, gop, ganswer⟩ := gate
  cases hgateop
  change true = s.2.isApproved (env.clock 0) id operation keyId.text at hanswer
  simp only [ApprovalEngine.isApproved, ApprovalEngine.getRequest] at hanswer
  cases hr : s.2.pendingRequests[id]? with
  | none => simp [hr] at hanswer
  | some r =>
    have happroved := hanswer.symm
    simp only [hr, Bool.and_eq_true, decide_eq_true_eq, checkApprovalComplete_iff] at happroved
    obtain ⟨⟨⟨⟨rfl, hresource⟩, hstatus⟩, hlive⟩, hquorum⟩ := happroved
    have hi := hs.engine id r hr
    -- the call that raised the request
    obtain ⟨ce, hce, ev, hmade⟩ := exists_madeRequest hatg hi
    obtain ⟨lc, lc', hatc⟩ := List.append_of_mem (hbefore ce hce)
    have hraises := allowed_at hatc
    obtain ⟨justification, hceop⟩ := hmade.op
    rw [hceop] at hraises
    cases hstarted : ce.started with
    | other b' =>
      rw [hstarted] at hraises
      cases hraises
    | request cr =>
      rw [hstarted] at hraises
      obtain ⟨hrequestor, hactsr, htype, hlevel, hresourceOwned⟩ := hraises
      rw [hlevel] at hquorum
      obtain ⟨hkeyop, hvotes⟩ := votesFor_le_of_quorum hgated hquorum
      have hstart : .start (.request cr) ∈ ms := hstarted ▸ Pool.started_run (hbefore ce hce)
      obtain ⟨keyId', hparse, m', hm', howned'⟩ := hresourceOwned hkeyop
      rw [hresource, hreads cr hstart keyId] at hparse
      obtain rfl := Option.some.inj hparse
      -- both look the key up, and find one tenant
      obtain ⟨x, hx, -, hxop⟩ := exists_of_made hm
      obtain ⟨x', hx', -, hxop'⟩ := exists_of_made hm'
      have hlc : ∀ y ∈ lc, y ∈ events crypto ms := fun y hy => hatc ▸ List.mem_append_left _ hy
      have htenant : r.tenantId = tenantId := by
        rw [← howned, ← howned']
        exact tenant_unique hfresh (hlc x' hx') (hevents x hx) hxop' hxop
      -- the voters
      have hvoters : ∀ a ∈ r.approvals, ∃ caller : Caller, caller.keyId = a.approverId ∧ ApprovedBy lg caller id ∧
          caller.role.satisfies .approveAction = true ∧ ActsFor caller r.tenantId :=
        fun a ha => exists_approver hfresh hatg hmade hce (hi.cast a ha)
      have hinhabited : Nonempty Caller := ⟨cr.caller⟩
      choose! voter hvoter using hvoters
      have hkeys : (r.approvals.map voter).map (·.keyId) = r.approvals.map (·.approverId) := by
        rw [List.map_map]
        exact List.map_congr_left fun a ha => (hvoter a ha).1
      refine ⟨cr.caller, ce.outside.clock 0, r.approvals.map voter, ?_⟩
      exact {
        raised := by
          refine ⟨ce, hce, by rw [hstarted]; rfl, hmade.uuid, rfl, justification, ?_⟩
          rw [hceop, hresource, htype, hkeyop, htenant, hrequestor, hlevel]
        unexpired := by
          rw [← hlevel, ← hmade.expires]
          exact hlive
        neverEnded := by
          intro y hy hends
          obtain ⟨ev', hmem, hends'⟩ := ended_of_ends hfresh hatg hmade hce hy hends
          rcases hi.ended ev' hmem hends' with h | h <;> rw [hstatus] at h <;> cases h
        approved := by
          rw [List.forall_mem_map]
          exact fun a ha => (hvoter a ha).2.1
        quorum := by rwa [List.length_map]
        distinct := by
          rw [hkeys]
          exact hi.distinct
        notRequestor := by
          rw [List.forall_mem_map]
          intro a ha
          rw [(hvoter a ha).1, ← hrequestor]
          exact hi.notRequestor a ha
        officers := by
          rw [List.forall_mem_map]
          exact fun a ha => (hvoter a ha).2.2.1
        separated := by
          rw [List.forall_mem_map, hadmin]
          exact fun a ha => ne_keyAdmin_of_officer (hvoter a ha).2.2.1
        tenants := by
          rw [List.forall_mem_cons, List.forall_mem_cons, List.forall_mem_map, ← htenant]
          exact ⟨htenant ▸ hacts, hactsr, fun a ha => (hvoter a ha).2.2.2⟩ }

/-- Every policy allows, and a uuid is read from the text it is written as. -/
def openServer : Server Unit where
  crypto := .plain
  outside := sampleServiceEnv 7
  keystore := .new
  quotaTracker := false
  evaluatePbac _ _ _ _ := .allowed
  approvalManager := .new
  now := 0
  parseUuid := Uuid.parse
  decodeError _ := "Invalid padding"
  fromStr _ := none

/-- A request of a caller of the tenant `acme`. -/
def requestOf (role : ApiKeyPermission) (keyId : String) (request : Request) : Move (Activity Unit) HandlerEnv :=
  .start (.request ⟨openServer, ⟨role, keyId, some "acme"⟩, request⟩)

def drawing (uuid : Uuid) (now : DateTime) : HandlerEnv :=
  { (sampleServiceEnv 7).toUseEnv with uuid, clock := fun _ => now }

/-- A key is made, an operator asks for its deletion, two officers approve side by side, and an administrator deletes
it. -/
def approvedDeletion : List (Move (Activity Unit) HandlerEnv) :=
  [.start (.other (.generateKey .aes256Gcm "orders" "acme")), .advance 0 (drawing 1 0),
    requestOf .operator "alice" (.createApproval ⟨"key_delete", Uuid.text 1, "acme", none⟩),
    .advance 1 (drawing 2 1), .advance 1 (drawing 2 1),
    requestOf .securityOfficer "bob" (.approve 2 none), requestOf .tenantAdmin "carol" (.approve 2 none),
    .advance 2 (drawing 0 2), .advance 3 (drawing 0 2), .advance 3 (drawing 0 2), .advance 2 (drawing 0 2),
    requestOf .keyAdmin "dave" (.deleteKey 1 ⟨"acme", some (Uuid.text 2)⟩),
    .advance 4 (drawing 0 3), .advance 4 (drawing 0 3), .advance 4 (drawing 0 3)]

instance (e e' : Event F) : Decidable (Unforeseen e e') := inferInstanceAs (Decidable (_ → _ ∧ _))

theorem authorised_approvedDeletion : ∃ l₁ e l₂, events .plain approvedDeletion = l₁ ++ e :: l₂ ∧
    gated? e = some (.keyDelete, 1, "acme") ∧ ∃ executor, e.started.caller? = some executor ∧ ∃ lg gate lg',
      l₁ = lg ++ gate :: lg' ∧ gate.index = e.index ∧ ∃ id requestor raisedAt approvers,
        Authorised lg (gate.outside.clock 0) executor .keyDelete 1 "acme" id requestor raisedAt approvers := by
  have hlast : (events .plain approvedDeletion)[9]?.bind gated? = some (.keyDelete, 1, "acme") := by decide +kernel
  obtain ⟨e, he, hgated⟩ := Option.bind_eq_some_iff.1 hlast
  obtain ⟨l₁, l₂, hrun⟩ := List.append_of_mem (List.mem_of_getElem? he)
  refine ⟨l₁, e, l₂, hrun, hgated, authorised_of_gated .plain approvedDeletion ?_ (by decide +kernel) hrun hgated⟩
  intro c hc
  have hserver : c.srv.parseUuid = Uuid.parse := by
    simp only [approvedDeletion, requestOf, List.mem_cons, Move.start.injEq, Activity.request.injEq, reduceCtorEq,
      List.not_mem_nil, or_false, false_or] at hc
    rcases hc with rfl | rfl | rfl | rfl <;> rfl
  intro id
  rw [hserver, Uuid.parse_text]

end GmKms.Api.MultiParty
