import GmKms.Api.Auth
import GmKms.Api.KeyImport
import GmKms.Api.Validation
import GmKms.Approval.Engine
/-!
# The server behind the two channels

`KmsState` as far as the handlers of keys read it, and what a handler leaves behind. The
policy engine is its decision, which cannot fail. Metrics, audit events and the backup of
a new key are left out.
-/

namespace GmKms.Api

open Lib Keystore Service

/-- A write to the tenant quotas. -/
inductive QuotaWrite where
  | recordRequest (tenantId : String)
  | incrementKeyCount (tenantId : String)
  deriving DecidableEq

/-- `F` is the floating-point type of the JSON library. -/
structure Server (F : Type) where
  crypto : ServiceCrypto
  /-- What a call reads from outside; what it says of quotas counts where a tracker is configured. -/
  outside : ServiceEnv
  keystore : Software.SoftwareKeystore
  /-- `quota_tracker.is_some()`. -/
  quotaTracker : Bool
  /-- `auth::evaluate_pbac` for subject, tenant, action and resource. -/
  evaluatePbac (subjectId tenant action resourceId : String) : PbacOutcome
  approvalManager : Approval.ApprovalEngine
  now : DateTime
  /-- `Uuid::parse_str`. -/
  parseUuid (s : String) : Option Uuid
  /-- The text of `base64::DecodeError`. -/
  decodeError (text : String) : String
  /-- `serde_json::from_str`. -/
  fromStr (text : String) : Option (Json F)

/-- What a handler leaves: its answer, the keystore, and its writes to the quotas. -/
structure Handled (ε α : Type) where
  answer : Except ε α
  keystore : Software.SoftwareKeystore
  quota : List QuotaWrite

def Handled.map {ε α β : Type} (f : α → β) (h : Handled ε α) : Handled ε β := { h with answer := h.answer.map f }

namespace Server

variable {F : Type} (srv : Server F)

/-- What a service reads from outside; without a tracker every request is admitted. -/
def env : ServiceEnv :=
  if srv.quotaTracker then srv.outside else { srv.outside with recordRequest := none, canCreateKey := true }

section

variable {ε α β : Type}

/-- A request that is refused before any service is called. -/
def refuse (e : ε) : Handled ε α := ⟨.error e, srv.keystore, []⟩

/-- The checks of a handler, then the rest of it. -/
def through (gate : Except ε β) (f : β → Handled ε α) : Handled ε α :=
  match gate with
  | .error e => srv.refuse e
  | .ok b => f b

/-- A service call, its error mapped; `writes` are the writes of its quota tracker. -/
def serve (mapErr : ApiAbort → ε) (writes : Except ApiAbort α → List QuotaWrite) (p : Service α) : Handled ε α :=
  let (r, keystore) := runOn srv.crypto.toCrypto srv.env.toUseEnv p srv.keystore
  { answer := r.mapError mapErr
    keystore
    quota := if srv.quotaTracker then writes r else [] }

/-- A method of `KeyService` that does not look at quotas. -/
def serveKey (mapErr : ApiAbort → ε) (p : Service α) : Handled ε α := srv.serve mapErr (fun _ => []) p

/-- A method of `CryptoService`, which records the request before anything else. -/
def serveCrypto (mapErr : ApiAbort → ε) (tenantId : String) (p : Service α) : Handled ε α :=
  srv.serve mapErr (fun _ => [.recordRequest tenantId]) p

/-- A method of `KeyService` that counts the key it made. -/
def serveNewKey (mapErr : ApiAbort → ε) (tenantId : String) (p : Service α) : Handled ε α :=
  srv.serve mapErr (fun r => if r.isOk then [.incrementKeyCount tenantId] else []) p

end

end Server

/-! ## Data with the caller's additional data

`SoftwareKeystore` implements the two methods with `_aad`, which they do not read. -/

namespace CryptoService

/-- `keystore.encrypt(key_id, plaintext, aad, tenant_id)`. -/
def askEncrypt (keyId : Uuid) (plaintext : Bytes) (_aad : Option Bytes) (tenantId : String) : Service Ciphertext :=
  ask (.encrypt keyId plaintext tenantId) apiError

/-- `keystore.decrypt(key_id, ciphertext, aad, tenant_id)`. -/
def askDecrypt (keyId : Uuid) (ciphertext : Ciphertext) (_aad : Option Bytes) (tenantId : String) : Service Bytes :=
  ask (.decrypt keyId ciphertext tenantId) apiError

/-- `encrypt` with the parameter `aad`. -/
def encryptAad (env : ServiceEnv) (keyId : Uuid) (plaintext : Bytes) (aad : Option Bytes) (tenantId : String) :
    Service Ciphertext := do
  checkQuota env
  let _ ← fetchOwnedKeyMeta keyId tenantId
  askEncrypt keyId plaintext aad tenantId

/-- `decrypt` with the parameter `aad`. -/
def decryptAad (env : ServiceEnv) (keyId : Uuid) (ciphertext : Ciphertext) (aad : Option Bytes) (tenantId : String) :
    Service Bytes := do
  checkQuota env
  let _ ← fetchOwnedKeyMeta keyId tenantId
  askDecrypt keyId ciphertext aad tenantId

end CryptoService

end GmKms.Api
