import GmKms.Api.Rest
/-!
# The counters of keys by status

The counters of `KmsMetrics` that follow the life of a key, and the handlers of `rest.rs` that move them. A counter is
atomic, but what a handler does to it takes several operations. No handler calls `record_key_destroyed`.
-/

namespace GmKms.Api.Metrics

open Lib Keystore Service

/-- The counters `keys_by_status_*`. -/
inductive StatusCounter where
  | active | pendingDeletion | obsolete
  deriving DecidableEq, Repr

abbrev KeysByStatus := StatusCounter → UInt64

/-- The methods of `Counter`, each one atomic operation. -/
inductive CounterOp where
  | inc (counter : StatusCounter)
  | dec (counter : StatusCounter)
  | get (counter : StatusCounter)

@[reducible] def CounterOp.Reply : CounterOp → Type
  | inc _ | dec _ => Unit
  | get _ => UInt64

/-- `fetch_add`, `fetch_sub` and `load`. -/
def CounterOp.perform : (op : CounterOp) → KeysByStatus → op.Reply × KeysByStatus
  | .inc counter, keys => ((), Function.update keys counter (keys counter + 1))
  | .dec counter, keys => ((), Function.update keys counter (keys counter - 1))
  | .get counter, keys => (keys counter, keys)

/-! ## Handlers -/

/-- A handler works on the keystore and on the counters. -/
abbrev Handler (α : Type) : Type := Program (Sum.elim BackendOp.Reply CounterOp.Reply) Rest.Refusal α

def inc (counter : StatusCounter) : Handler Unit := .call (.inr (.inc counter)) fun _ => .done (.ok ())

def dec (counter : StatusCounter) : Handler Unit := .call (.inr (.dec counter)) fun _ => .done (.ok ())

def get (counter : StatusCounter) : Handler UInt64 := .call (.inr (.get counter)) fun n => .done (.ok n)

def recordKeyCreated : Handler Unit := inc .active

/-- A key leaves the active ones for others. -/
def recordLeaving (counter : StatusCounter) : Handler Unit := do
  let active ← get .active
  let _ ← if 0 < active then dec .active else pure ()
  inc counter

def recordKeyDeleted : Handler Unit := recordLeaving .pendingDeletion

def recordKeyObsoleted : Handler Unit := recordLeaving .obsolete

/-- What the three handlers answer. -/
inductive Answer where
  | key (response : Rest.KeyResponse)
  | noContent

section

variable {F : Type} (srv : Server F) (caller : Caller)

/-- The checks of `create_key`, with the tenant and the algorithm. -/
def createKeyGate (req : Rest.CreateKeyRequest) : Except Rest.Refusal (String × KeySpec) := do
  Rest.requirePermission caller .createKey
  Rest.validated (Validation.validateCreateKeyRequest req.name req.spec
    (Rest.resolveTenant caller.tenantId req.tenantId))
  let tenant ← Rest.checkRestPbac srv caller "create_key" req.name req.tenantId
  let spec ← (KeyService.parseSpec req.spec).mapError .ofAbort
  return (tenant, spec)

/-- The checks of `rotate_key` and `delete_key`, with the tenant. -/
def approvedGate (action : String) (operation : Approval.OperationType) (what : String) (id : Uuid)
    (query : Rest.TenantQuery) : Except Rest.Refusal String := do
  Rest.requirePermission caller .createKey
  let tenant ← Rest.checkRestPbac srv caller action id.text query.tenantId
  Rest.requireApproved srv query.approvalId operation id.text what
  return tenant

def rotateKeyGate (id : Uuid) (query : Rest.TenantQuery) : Except Rest.Refusal String :=
  approvedGate srv caller "rotate_key" .keyRotate "key rotation" id query

def deleteKeyGate (id : Uuid) (query : Rest.TenantQuery) : Except Rest.Refusal String :=
  approvedGate srv caller "delete_key" .keyDelete "key deletion" id query

def createKey (req : Rest.CreateKeyRequest) : Handler Answer := do
  let (tenant, spec) ← Program.lift (createKeyGate srv caller req)
  let keyMeta ← (KeyService.createKey srv.env spec req.name tenant).inl .ofAbort
  recordKeyCreated
  return .key (.ofMeta keyMeta)

def rotateKey (id : Uuid) (query : Rest.TenantQuery) : Handler Answer := do
  let tenant ← Program.lift (rotateKeyGate srv caller id query)
  let keyMeta ← (KeyService.rotateKey id tenant).inl .ofAbort
  recordKeyObsoleted
  return .key (.ofMeta keyMeta)

def deleteKey (id : Uuid) (query : Rest.TenantQuery) : Handler Answer := do
  let tenant ← Program.lift (deleteKeyGate srv caller id query)
  let _ ← (KeyService.deleteKey id tenant).inl .ofAbort
  recordKeyDeleted
  return .noContent

end

/-! ## Calls -/

inductive KeyRequest where
  | create (req : Rest.CreateKeyRequest)
  | rotate (id : Uuid) (query : Rest.TenantQuery)
  | delete (id : Uuid) (query : Rest.TenantQuery)

/-- A request, with the server as its checks find it. Its keystore is not read. -/
structure KeyCall (F : Type) where
  srv : Server F
  caller : Caller
  request : KeyRequest

namespace KeyCall

variable {F : Type}

def program (c : KeyCall F) : Handler Answer :=
  match c.request with
  | .create req => createKey c.srv c.caller req
  | .rotate id query => rotateKey c.srv c.caller id query
  | .delete id query => deleteKey c.srv c.caller id query

/-- The same request to the handlers without counters. -/
def handled (c : KeyCall F) (ks : Software.SoftwareKeystore) : Handled Rest.Refusal Answer :=
  let srv := { c.srv with keystore := ks }
  match c.request with
  | .create req => (Rest.createKey srv c.caller req).map .key
  | .rotate id query => (Rest.rotateKey srv c.caller id query).map .key
  | .delete id query => (Rest.deleteKey srv c.caller id query).map fun _ => .noContent

end KeyCall

/-- What an operation on the keystore or a counter does. -/
def perform (crypto : Crypto) (env : Software.UseEnv) :=
  Program.performEither (Software.SoftwareKeystore.perform crypto env) CounterOp.perform

/-! ## A call alone -/

/-- The counters after a key left the active ones. -/
def leave (counter : StatusCounter) (keys : KeysByStatus) : KeysByStatus :=
  let keys := if 0 < keys .active then Function.update keys .active (keys .active - 1) else keys
  Function.update keys counter (keys counter + 1)

/-- The counters after a call that succeeds. -/
def KeyRequest.recorded : KeyRequest → KeysByStatus → KeysByStatus
  | create _, keys => Function.update keys .active (keys .active + 1)
  | rotate .., keys => leave .obsolete keys
  | delete .., keys => leave .pendingDeletion keys

section

variable {F α β : Type} {crypto : Crypto} {env : Software.UseEnv} {ks : Software.SoftwareKeystore}

theorem run_recordLeaving (counter : StatusCounter) (keys : KeysByStatus) :
    (recordLeaving counter).run (perform crypto env) (ks, keys) = (.ok (), ks, leave counter keys) := by
  unfold recordLeaving leave
  have hget : (get .active).run (perform crypto env) (ks, keys) = (.ok (keys .active), ks, keys) := rfl
  rw [Program.run_bind_ok hget]
  by_cases hactive : 0 < keys .active
  · simp only [hactive, if_true]
    rfl
  · simp only [hactive, if_false]
    rfl

theorem map_through {ε γ : Type} (srv : Server F) (gate : Except ε β) (f : β → Handled ε α) (g : α → γ) :
    (srv.through gate f).map g = srv.through gate fun b => (f b).map g := by
  cases gate <;> rfl

theorem map_map {ε γ : Type} (h : Handled ε α) (f : α → β) (g : β → γ) : (h.map f).map g = h.map (g ∘ f) := by
  obtain ⟨answer, keystore, quota⟩ := h
  cases answer <;> rfl

/-- A handler makes its checks, asks the service, and records what the service did. -/
theorem run_handler (srv : Server F) (gate : Except Rest.Refusal β) {p : β → Service α}
    {writes : β → Except ApiAbort α → List QuotaWrite} {record : Handler Unit} {recorded : KeysByStatus → KeysByStatus}
    {answer : α → Answer} (hrecord : ∀ ks keys, record.run (perform srv.crypto.toCrypto srv.env.toUseEnv) (ks, keys) =
      (.ok (), ks, recorded keys)) (keys : KeysByStatus) :
    (do
      let b ← Program.lift gate
      let a ← (p b).inl .ofAbort
      record
      return answer a : Handler Answer).run (perform srv.crypto.toCrypto srv.env.toUseEnv) (srv.keystore, keys) =
      let h := srv.through gate fun b => (srv.serve .ofAbort (writes b) (p b)).map answer
      (h.answer, h.keystore, if h.answer.isOk then recorded keys else keys) := by
  cases gate with
  | error e => rfl
  | ok b =>
    have hgate : (Program.lift (.ok b) : Handler β).run (perform srv.crypto.toCrypto srv.env.toUseEnv)
        (srv.keystore, keys) = (.ok b, srv.keystore, keys) := rfl
    rw [Program.run_bind_ok hgate, Server.through, Server.serve]
    cases hservice : runOn srv.crypto.toCrypto srv.env.toUseEnv (p b) srv.keystore with
    | mk r ks' =>
      have hinl : ((p b).inl Rest.Refusal.ofAbort).run (perform srv.crypto.toCrypto srv.env.toUseEnv)
          (srv.keystore, keys) = (r.mapError .ofAbort, ks', keys) := by
        rw [perform, Program.run_inl]
        rw [runOn] at hservice
        rw [hservice]
      cases r with
      | error e =>
        rw [Program.run_bind_error hinl]
        rfl
      | ok a =>
        rw [Program.run_bind_ok hinl, Program.run_bind_ok (hrecord ks' keys)]
        rfl

/-- A call that runs alone answers as the handler without counters, leaves the keystore as it does, and counts if it
succeeds. -/
theorem run_program (c : KeyCall F) (ks : Software.SoftwareKeystore) (keys : KeysByStatus) :
    c.program.run (perform c.srv.crypto.toCrypto c.srv.env.toUseEnv) (ks, keys) =
      ((c.handled ks).answer, (c.handled ks).keystore,
        if (c.handled ks).answer.isOk then c.request.recorded keys else keys) := by
  obtain ⟨srv, caller, request⟩ := c
  cases request with
  | create req =>
    simp only [KeyCall.handled, Rest.createKey, map_through, map_map]
    exact run_handler { srv with keystore := ks } (createKeyGate srv caller req) (fun _ _ => rfl) keys
  | rotate id query =>
    simp only [KeyCall.handled, Rest.rotateKey, map_through, map_map]
    exact run_handler { srv with keystore := ks } (rotateKeyGate srv caller id query)
      (fun _ _ => run_recordLeaving .obsolete _) keys
  | delete id query =>
    simp only [KeyCall.handled, Rest.deleteKey, map_through]
    exact run_handler { srv with keystore := ks } (deleteKeyGate srv caller id query)
      (fun _ _ => run_recordLeaving .pendingDeletion _) keys

end

end GmKms.Api.Metrics
