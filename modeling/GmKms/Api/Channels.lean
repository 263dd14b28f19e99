import GmKms.Api.Grpc
import GmKms.Api.Rest
import GmKms.Lib.ExceptRel
/-!
# The two channels side by side

Pairs of requests that ask for the same on both channels, and when the two handlers are
said to agree on one: the same answer with the same effect, or the same class of error
and no effect. That a request was recorded is not an effect, but it is recorded on both
channels or on none.
-/

namespace GmKms.Api

open Lib Keystore Service

/-- The rows of the table of errors of the two channels, then what it has no row for. -/
inductive FailureClass where
  | notFound | invalid | forbidden | exhausted | internal | notImplemented
  | unprocessable | precondition | panic
  deriving DecidableEq, Repr

def Rest.StatusCode.failureClass : Rest.StatusCode → FailureClass
  | badRequest => .invalid
  | forbidden => .forbidden
  | notFound => .notFound
  | unprocessableEntity => .unprocessable
  | tooManyRequests => .exhausted
  | internalServerError => .internal
  | notImplemented => .notImplemented

def Rest.Refusal.failureClass : Rest.Refusal → FailureClass
  | status code => code.failureClass
  | api e => (Rest.statusCode e).failureClass
  | panic _ => .panic

def Grpc.Code.failureClass : Grpc.Code → FailureClass
  | invalidArgument => .invalid
  | failedPrecondition => .precondition
  | permissionDenied => .forbidden
  | notFound => .notFound
  | resourceExhausted => .exhausted
  | internal => .internal
  | unimplemented => .notImplemented

def Grpc.Refusal.failureClass : Grpc.Refusal → FailureClass
  | status s => s.code.failureClass
  | panic _ => .panic

def SameFailure (e : Rest.Refusal) (e' : Grpc.Refusal) : Prop := e.failureClass = e'.failureClass

/-- An end of a service call is in the same class on both channels. -/
theorem sameFailure_ofAbort (e : ApiAbort) : SameFailure (.ofAbort e) (.ofAbort e) := by
  cases e with
  | panic message => rfl
  | error e => cases e <;> rfl

/-! ## Agreement -/

namespace Server

variable {F ε α β : Type} (srv : Server F)

/-- The keystore is as it was and no key is counted. -/
def Untouched (h : Handled ε α) : Prop := h.keystore = srv.keystore ∧ ∀ tenant, .incrementKeyCount tenant ∉ h.quota

/-- Both handlers succeed with the same effect and answer, or both fail in the same class without effect. -/
def Agreement (same : α → β → Prop) (r : Handled Rest.Refusal α) (g : Handled Grpc.Refusal β) : Prop :=
  match r.answer, g.answer with
  | .ok a, .ok b => same a b ∧ r.keystore = g.keystore ∧ r.quota = g.quota
  | .error e, .error e' => SameFailure e e' ∧ srv.Untouched r ∧ srv.Untouched g ∧ r.quota = g.quota
  | _, _ => False

end Server

/-! ## Corresponding requests -/

/-- The same tenant, and not an empty one. -/
def SameTenant (tenantId tenantId' : String) : Prop := tenantId = tenantId' ∧ tenantId ≠ ""

/-- Two base64 texts of the same bytes. -/
def SameBytes (text text' : String) : Prop := ∃ bytes, Base64.decode text = some bytes ∧
  Base64.decode text' = some bytes

/-- A version of 0 is version 1. -/
def normalizeVersion (version : ℕ) : ℕ := if version = 0 then 1 else version

/-- A REST request and a gRPC request for one operation. -/
inductive RequestPair where
  | createKey (r : Rest.CreateKeyRequest) (g : Grpc.CreateKeyRequest)
  | importKey (r : Rest.ImportKeyRequest) (g : Grpc.ImportKeyRequest)
  | getKey (id : Uuid) (query : Rest.TenantQuery) (g : Grpc.GetKeyRequest)
  | rotateKey (id : Uuid) (query : Rest.TenantQuery) (g : Grpc.RotateKeyRequest)
  | deleteKey (id : Uuid) (query : Rest.TenantQuery) (g : Grpc.DeleteKeyRequest)
  | exportKey (id : Uuid) (query : Rest.TenantQuery) (r : Rest.ExportKeyRequest) (g : Grpc.ExportKeyRequest)
  | encrypt (id : Uuid) (query : Rest.TenantQuery) (r : Rest.EncryptRequest) (g : Grpc.EncryptRequest)
  | decrypt (id : Uuid) (query : Rest.TenantQuery) (r : Rest.DecryptBody) (g : Grpc.DecryptRequest)
  | sign (id : Uuid) (query : Rest.TenantQuery) (r : Rest.SignRequest) (g : Grpc.SignRequest)
  | verify (id : Uuid) (query : Rest.TenantQuery) (r : Rest.VerifyRequest) (g : Grpc.VerifyRequest)
  | hmac (id : Uuid) (query : Rest.TenantQuery) (r : Rest.HmacRequest) (g : Grpc.HmacRequest)
  | hmacVerify (id : Uuid) (query : Rest.TenantQuery) (r : Rest.HmacVerifyRequest) (g : Grpc.HmacVerifyRequest)

namespace RequestPair

variable {F : Type} (srv : Server F) (caller : Caller)

/-- The two requests ask for the same: key id, decoded bytes, version, format version, tenant, and no
additional data. -/
def Corresponds : RequestPair → Prop
  | createKey r g => r.name = g.name ∧ r.spec = g.spec ∧ SameTenant r.tenantId g.tenantId
  | importKey r g => r.name = g.name ∧ r.spec = g.spec ∧ SameTenant r.tenantId g.tenantId ∧
      Base64.decode r.wrappedKey = some g.keyMaterial ∧ (Base64.decode r.encryptedTransportKey).isSome
  | getKey id query g => srv.parseUuid g.id = some id ∧ SameTenant query.tenantId g.tenantId
  | rotateKey id query g => srv.parseUuid g.id = some id ∧ SameTenant query.tenantId g.tenantId ∧
      query.approvalId.getD "" = g.approvalId
  | deleteKey id query g => srv.parseUuid g.id = some id ∧ SameTenant query.tenantId g.tenantId ∧
      query.approvalId.getD "" = g.approvalId
  | exportKey id query r g => srv.parseUuid g.id = some id ∧ SameTenant query.tenantId g.tenantId ∧
      r.approvalId.getD "" = g.approvalId ∧ Base64.decode r.targetPublicKey = some g.targetPublicKey ∧
      r.protectionScheme.getD "" = g.protectionScheme ∧ r.version.getD 0 = g.version
  | encrypt id query r g => srv.parseUuid g.keyId = some id ∧ SameTenant query.tenantId g.tenantId ∧
      Base64.decode r.plaintext = some g.plaintext ∧ r.aad = none
  | decrypt id query r g => srv.parseUuid g.keyId = some id ∧ SameTenant query.tenantId g.tenantId ∧
      SameBytes r.ciphertext g.ciphertext ∧ SameBytes r.nonce g.nonce ∧ SameBytes r.tag g.tag ∧ r.aad = none ∧
      normalizeVersion (r.version.getD 1) = normalizeVersion g.version.toNat ∧
      r.formatVersion.getD 2 = (g.formatVersion.getD 2).toNat
  | sign id query r g =>
    srv.parseUuid g.keyId = some id ∧ SameTenant query.tenantId g.tenantId ∧ SameBytes r.data g.data
  | verify id query r g => srv.parseUuid g.keyId = some id ∧ SameTenant query.tenantId g.tenantId ∧
      SameBytes r.data g.data ∧ SameBytes r.signature g.signature
  | hmac id query r g => srv.parseUuid g.keyId = some id ∧ SameTenant query.tenantId g.tenantId ∧
      Base64.decode r.data = some g.data ∧ r.aad = none ∧ g.aad = []
  | hmacVerify id query r g => srv.parseUuid g.keyId = some id ∧ SameTenant query.tenantId g.tenantId ∧
      Base64.decode r.data = some g.data ∧ Base64.decode r.mac = some g.mac ∧ r.aad = none ∧ g.aad = []

/-- The metadata of one key on both channels. -/
def SameKey (a : Rest.KeyResponse) (b : Grpc.Key) : Prop :=
  a.id.text = b.id ∧ a.tenantId = b.tenantId ∧ a.name = b.name ∧ a.spec = b.spec ∧ a.status = b.status ∧
    a.version = b.version ∧ a.createdAt = b.createdAt

/-- What the two handlers leave agrees. -/
def Agree : RequestPair → Prop
  | createKey r g => srv.Agreement SameKey (Rest.createKey srv caller r) (Grpc.createKey srv caller g)
  -- the REST answer to an import has less of the key
  | importKey r g => srv.Agreement (fun a b => a.id = b.id ∧ a.spec = b.spec) (Rest.importKey srv caller r)
      (Grpc.importKey srv caller g)
  | getKey id query g => srv.Agreement SameKey (Rest.getKey srv caller id query) (Grpc.getKey srv caller g)
  | rotateKey id query g => srv.Agreement SameKey (Rest.rotateKey srv caller id query) (Grpc.rotateKey srv caller g)
  | deleteKey id query g => srv.Agreement Eq (Rest.deleteKey srv caller id query) (Grpc.deleteKey srv caller g)
  | exportKey id query r g => srv.Agreement Eq (Rest.exportKey srv caller id query r) (Grpc.exportKey srv caller g)
  | encrypt id query r g => srv.Agreement
      (fun a b => a.ciphertext = b.ciphertext ∧ a.nonce = b.nonce ∧ a.tag = b.tag ∧ a.version = b.version ∧
        a.formatVersion.toUInt32 = b.formatVersion) (Rest.encrypt srv caller id query r) (Grpc.encrypt srv caller g)
  | decrypt id query r g => srv.Agreement (fun a b => Base64.decode a.plaintext = some b.plaintext)
      (Rest.decrypt srv caller id query r) (Grpc.decrypt srv caller g)
  | sign id query r g => srv.Agreement (fun a b => a.signature = b.signature ∧ a.version = b.version)
      (Rest.sign srv caller id query r) (Grpc.sign srv caller g)
  | verify id query r g => srv.Agreement (fun a b => a.valid = b.valid) (Rest.verify srv caller id query r)
      (Grpc.verify srv caller g)
  | hmac id query r g => srv.Agreement (fun a b => Base64.decode a.mac = some b.mac ∧ a.version = b.version)
      (Rest.hmac srv caller id query r) (Grpc.hmac srv caller g)
  | hmacVerify id query r g => srv.Agreement (fun a b => a.valid = b.valid) (Rest.hmacVerify srv caller id query r)
      (Grpc.hmacVerify srv caller g)

end RequestPair

/-! ## Steps that the handlers share -/

section

variable {F α β γ δ ζ : Type} {srv : Server F} {caller : Caller} {same : α → β → Prop}

theorem through_ok_bind {ε : Type} (b : γ) (k : γ → Except ε δ) (f : δ → Handled ε α) :
    srv.through ((.ok b : Except ε γ) >>= k) f = srv.through (k b) f := rfl

theorem through_error_bind {ε : Type} (e : ε) (k : γ → Except ε δ) (f : δ → Handled ε α) :
    srv.through ((.error e : Except ε γ) >>= k) f = srv.refuse e := rfl

theorem untouched_refuse {ε : Type} (e : ε) : srv.Untouched (srv.refuse e : Handled ε α) :=
  ⟨rfl, fun _ => List.not_mem_nil⟩

theorem agreement_refuse {e : Rest.Refusal} {e' : Grpc.Refusal} (h : SameFailure e e') :
    srv.Agreement same (srv.refuse e) (srv.refuse e') :=
  ⟨h, untouched_refuse e, untouched_refuse e', rfl⟩

theorem agreement_errors {e : Rest.Refusal} {e' : Grpc.Refusal} {quota : List QuotaWrite} (h : SameFailure e e')
    (hquota : quota = []) : srv.Agreement same ⟨.error e, srv.keystore, quota⟩ ⟨.error e', srv.keystore, []⟩ := by
  subst hquota
  exact agreement_refuse h

/-- Where REST refuses before it calls a service, gRPC agrees only by failing alike, with nothing written. -/
theorem agreement_refuse_left {e : Rest.Refusal} {g : Handled Grpc.Refusal β} :
    srv.Agreement same (srv.refuse e) g ↔
      ∃ e', g.answer = .error e' ∧ SameFailure e e' ∧ g.keystore = srv.keystore ∧ g.quota = [] := by
  obtain ⟨answer, keystore, quota⟩ := g
  cases answer with
  | ok b =>
    constructor
    · intro h
      exact h.elim
    · rintro ⟨e', h, -⟩
      cases h
  | error e' =>
    constructor
    · rintro ⟨hclass, -, hg, hquota⟩
      exact ⟨e', rfl, hclass, hg.1, hquota.symm⟩
    · rintro ⟨e'', h, hclass, hkeystore, hquota⟩
      cases h
      change quota = [] at hquota
      subst hquota
      exact ⟨hclass, untouched_refuse e, ⟨hkeystore, fun _ => List.not_mem_nil⟩, rfl⟩

theorem agreement_map {r : Handled Rest.Refusal γ} {g : Handled Grpc.Refusal δ} {f : γ → α} {f' : δ → β} :
    srv.Agreement same (r.map f) (g.map f') ↔ srv.Agreement (fun a b => same (f a) (f' b)) r g := by
  obtain ⟨answer, keystore, quota⟩ := r
  obtain ⟨answer', keystore', quota'⟩ := g
  cases answer <;> cases answer' <;> exact Iff.rfl

theorem agreement_through {gr : Except Rest.Refusal γ} {gg : Except Grpc.Refusal δ} {R : γ → δ → Prop}
    {f : γ → Handled Rest.Refusal α} {f' : δ → Handled Grpc.Refusal β} (hgate : ExceptRel SameFailure R gr gg)
    (h : ∀ c d, R c d → srv.Agreement same (f c) (f' d)) : srv.Agreement same (srv.through gr f)
    (srv.through gg f') := by
  cases hgate with
  | ok hr => exact h _ _ hr
  | error he => exact agreement_refuse he

/-- One service call on both channels: they agree unless it fails and leaves the keystore changed. -/
theorem agreement_serve_iff {same : α → α → Prop} (hsame : ∀ a, same a a) {writes : Except ApiAbort α → List QuotaWrite}
    (hwrites : ∀ e tenant, .incrementKeyCount tenant ∉ writes (.error e)) (p : Service α) :
    srv.Agreement same (srv.serve .ofAbort writes p) (srv.serve .ofAbort writes p) ↔
      ∀ e, (runOn srv.crypto.toCrypto srv.env.toUseEnv p srv.keystore).1 = .error e →
        (runOn srv.crypto.toCrypto srv.env.toUseEnv p srv.keystore).2 = srv.keystore := by
  unfold Server.serve
  cases hrun : runOn srv.crypto.toCrypto srv.env.toUseEnv p srv.keystore with
  | mk r keystore =>
    cases r with
    | ok a =>
      constructor
      · intro _ e h
        cases h
      · intro _
        exact ⟨hsame a, rfl, rfl⟩
    | error e =>
      have hquota : ∀ tenant, .incrementKeyCount tenant ∉ if srv.quotaTracker then writes (.error e) else [] := by
        intro tenant
        split
        · exact hwrites e tenant
        · exact List.not_mem_nil
      constructor
      · rintro ⟨-, ⟨hkeystore, -⟩, -⟩ _ _
        exact hkeystore
      · intro h
        have hkeystore := h e rfl
        exact ⟨sameFailure_ofAbort e, ⟨hkeystore, hquota⟩, ⟨hkeystore, hquota⟩, rfl⟩

/-! ### Gates -/

/-- The role is asked for permissions that it has both of or none. -/
theorem agreement_permission {p q : Permission} (hpq : caller.role.satisfies q = caller.role.satisfies p)
    {k : Except Rest.Refusal γ} {l : Except Grpc.Refusal δ} {f : γ → Handled Rest.Refusal α}
    {f' : δ → Handled Grpc.Refusal β} :
    srv.Agreement same (srv.through (Rest.requirePermission caller p >>= fun _ => k) f)
        (srv.through (Grpc.checkPermission caller q >>= fun _ => l) f') ↔
      caller.role.satisfies p = false ∨ srv.Agreement same (srv.through k f) (srv.through l f') := by
  unfold Rest.requirePermission Grpc.checkPermission
  rw [hpq]
  cases hrole : caller.role.satisfies p with
  | true =>
    simp only [if_true, through_ok_bind, Bool.true_eq_false, false_or]
  | false =>
    simp only [Bool.false_eq_true, if_false, through_error_bind, true_or, iff_true]
    exact agreement_refuse rfl

theorem grpc_resolveTenant {bound : Option String} {tenant tenant' : String} (h : SameTenant tenant tenant') :
    Grpc.resolveTenant bound tenant' = .ok (Rest.resolveTenant bound tenant) := by
  obtain ⟨rfl, hne⟩ := h
  cases bound with
  | some b => rfl
  | none =>
    unfold Grpc.resolveTenant
    rw [if_neg hne]
    rfl

theorem grpc_checkPbac {action resourceId tenant tenant' : String} (ht : SameTenant tenant tenant') :
    Grpc.checkPbac srv caller action resourceId tenant' =
      match srv.evaluatePbac caller.keyId (Rest.resolveTenant caller.tenantId tenant) action resourceId with
      | .allowed => .ok (Rest.resolveTenant caller.tenantId tenant)
      | .denied => .error (Grpc.refused .permissionDenied "access denied by policy") := by
  unfold Grpc.checkPbac
  rw [grpc_resolveTenant ht]
  rfl

/-- The policy decides the same for both. -/
theorem agreement_pbac {action resourceId tenant tenant' : String} (ht : SameTenant tenant tenant')
    {k : String → Except Rest.Refusal γ} {l : String → Except Grpc.Refusal δ} {f : γ → Handled Rest.Refusal α}
    {f' : δ → Handled Grpc.Refusal β} :
    srv.Agreement same (srv.through (Rest.checkRestPbac srv caller action resourceId tenant >>= k) f)
        (srv.through (Grpc.checkPbac srv caller action resourceId tenant' >>= l) f') ↔
      srv.evaluatePbac caller.keyId (Rest.resolveTenant caller.tenantId tenant) action resourceId = .denied ∨
        srv.Agreement same (srv.through (k (Rest.resolveTenant caller.tenantId tenant)) f)
          (srv.through (l (Rest.resolveTenant caller.tenantId tenant)) f') := by
  have hrest : Rest.checkRestPbac srv caller action resourceId tenant =
      match srv.evaluatePbac caller.keyId (Rest.resolveTenant caller.tenantId tenant) action resourceId with
      | .allowed => .ok (Rest.resolveTenant caller.tenantId tenant)
      | .denied => .error (.api .permissionDenied) := rfl
  rw [grpc_checkPbac ht, hrest]
  cases srv.evaluatePbac caller.keyId (Rest.resolveTenant caller.tenantId tenant) action resourceId with
  | allowed => simp only [through_ok_bind, reduceCtorEq, false_or]
  | denied =>
    simp only [through_error_bind, true_or, iff_true]
    exact agreement_refuse rfl

/-- The gRPC checks of a key whose id can be read. -/
theorem admitted_bind {p : Permission} {action id tenant : String} {keyId : Uuid} (hid : srv.parseUuid id = some keyId)
    (l : Uuid × String → Except Grpc.Refusal δ) :
    Grpc.admitted srv caller p action id tenant >>= l =
      Grpc.checkPermission caller p >>= fun _ => Grpc.checkPbac srv caller action keyId.text tenant >>= fun t =>
        l (keyId, t) := by
  unfold Grpc.admitted Grpc.parseId
  rw [hid]
  cases Grpc.checkPermission caller p with
  | error e => rfl
  | ok u =>
    change (Grpc.checkPbac srv caller action keyId.text tenant >>= fun t => pure (keyId, t)) >>= l = _
    cases Grpc.checkPbac srv caller action keyId.text tenant <;> rfl

end

end GmKms.Api
