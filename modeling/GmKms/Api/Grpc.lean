import GmKms.Api.Server
/-!
# The gRPC channel

The handlers of `grpc.rs` for keys and data, behind the interceptor that attaches the
caller to a request.
-/

namespace GmKms.Api.Grpc

open Lib Keystore Service

inductive Code where
  | invalidArgument | failedPrecondition | permissionDenied | notFound | resourceExhausted | internal | unimplemented
  deriving DecidableEq, Repr

/-- `tonic::Status`. -/
structure Status where
  code : Code
  message : String
  deriving DecidableEq, Repr

/-- How a request ends without an answer. -/
inductive Refusal where
  | status (s : Status)
  | panic (message : String)

/-- `api_error_to_status`. -/
def apiErrorToStatus : ApiError → Status
  | .keyNotFound _ => ⟨.notFound, "key not found"⟩
  | .invalidRequest msg => ⟨.invalidArgument, msg⟩
  | .forbidden msg => ⟨.permissionDenied, msg⟩
  | .quotaExceeded resource current limit =>
    ⟨.resourceExhausted, s!"quota exceeded for {resource}: {current}/{limit}"⟩
  | .internal _ => ⟨.internal, "internal server error"⟩
  | .notFound msg => ⟨.notFound, msg⟩
  | .invalidArgument msg => ⟨.invalidArgument, msg⟩
  | .permissionDenied => ⟨.permissionDenied, "permission denied"⟩
  | .badRequest msg => ⟨.invalidArgument, msg⟩
  | .tooManyRequests msg => ⟨.resourceExhausted, msg⟩
  | .notImplemented => ⟨.unimplemented, "not implemented"⟩

def Refusal.ofAbort : ApiAbort → Refusal
  | .error e => .status (apiErrorToStatus e)
  | .panic message => .panic message

/-! ## Requests and responses -/

structure CreateKeyRequest where
  name : String
  spec : String
  tenantId : String

structure GetKeyRequest where
  id : String
  tenantId : String

structure EncryptRequest where
  keyId : String
  plaintext : Bytes
  tenantId : String

structure DecryptRequest where
  keyId : String
  ciphertext : String
  nonce : String
  tag : String
  version : UInt32
  tenantId : String
  formatVersion : Option UInt32

structure RotateKeyRequest where
  id : String
  tenantId : String
  approvalId : String

structure DeleteKeyRequest where
  id : String
  tenantId : String
  approvalId : String

structure SignRequest where
  keyId : String
  data : String
  tenantId : String

structure VerifyRequest where
  keyId : String
  data : String
  signature : String
  tenantId : String

structure HmacRequest where
  keyId : String
  data : Bytes
  aad : Bytes
  tenantId : String

structure HmacVerifyRequest where
  keyId : String
  data : Bytes
  mac : Bytes
  aad : Bytes
  tenantId : String

structure ImportKeyRequest where
  name : String
  spec : String
  keyMaterial : Bytes
  tenantId : String

/-- The purpose is only logged. -/
structure ExportKeyRequest where
  id : String
  tenantId : String
  approvalId : String
  targetPublicKey : Bytes
  protectionScheme : String
  version : UInt32

/-- The time of creation is written in RFC 3339. -/
structure Key where
  id : String
  tenantId : String
  name : String
  spec : String
  status : String
  version : UInt32
  createdAt : DateTime

/-- The `Key` of a response. -/
def Key.ofMeta (m : KeyMeta) : Key :=
  { id := m.id.text
    tenantId := m.tenantId
    name := m.name
    spec := m.spec.debug
    status := m.status.debug
    version := m.version
    createdAt := m.createdAt }

structure EncryptResponse where
  ciphertext : String
  nonce : String
  tag : String
  version : UInt32
  formatVersion : UInt32

structure DecryptResponse where
  plaintext : Bytes

structure SignResponse where
  signature : String
  version : UInt32

structure VerifyResponse where
  valid : Bool

structure HmacResponse where
  mac : Bytes
  version : UInt32

/-! ## Checks -/

def refused (code : Code) (message : String) : Refusal := .status ⟨code, message⟩

def resolveTenant (bound : Option String) (reqTenant : String) : Except Refusal String :=
  match bound with
  | some b => .ok b
  | none =>
    if reqTenant = "" then
      .error (refused .invalidArgument "tenant_id is required: set it in the request or bind it to the API key")
    else .ok reqTenant

def decodeField (text message : String) : Except Refusal Bytes :=
  match Base64.decode text with
  | none => .error (refused .invalidArgument message)
  | some bytes => .ok bytes

/-- An empty `aad` is none. -/
def presentAad (aad : Bytes) : Option Bytes := if aad.isEmpty then none else some aad

section

variable {F : Type} (srv : Server F) (caller : Caller)

def checkPermission (required : Permission) : Except Refusal Unit :=
  if caller.role.satisfies required then .ok ()
  else
    let name := required.debug
    .error (refused .permissionDenied s!"insufficient permissions: {name} required")

def parseId (id message : String) : Except Refusal Uuid :=
  match srv.parseUuid id with
  | none => .error (refused .invalidArgument message)
  | some keyId => .ok keyId

/-- `resolve_tenant` and `check_pbac`, which follow each other in every handler. -/
def checkPbac (action resourceId reqTenant : String) : Except Refusal String := do
  let tenant ← resolveTenant caller.tenantId reqTenant
  match srv.evaluatePbac caller.keyId tenant action resourceId with
  | .allowed => .ok tenant
  | .denied => .error (refused .permissionDenied "access denied by policy")

def requireApproved (approvalId : String) (operation : Approval.OperationType) (resourceId action : String) :
    Except Refusal Unit :=
  if approvalId = "" then
    .error (refused .failedPrecondition
      s!"{action} requires an approved request. Create one via the approvals API first")
  else
    match srv.parseUuid approvalId with
    | none => .error (refused .invalidArgument "invalid approval_id format")
    | some approval =>
      if srv.approvalManager.isApproved srv.now approval operation resourceId then .ok ()
      else .error (refused .permissionDenied s!"{action} requires a fully approved request bound to this resource")

/-- What the handlers of one key start with. -/
def admitted (required : Permission) (action id reqTenant : String) : Except Refusal (Uuid × String) := do
  checkPermission caller required
  let keyId ← parseId srv id "invalid key id"
  let tenant ← checkPbac srv caller action keyId.text reqTenant
  return (keyId, tenant)

/-! ## Handlers -/

def createKey (req : CreateKeyRequest) : Handled Refusal Key :=
  srv.through (do
    checkPermission caller .createKey
    let tenant ← checkPbac srv caller "create_key" req.name req.tenantId
    let spec ← (KeyService.parseSpec req.spec).mapError .ofAbort
    return (tenant, spec)) fun (tenant, spec) =>
  (srv.serveNewKey .ofAbort tenant (KeyService.createKey srv.env spec req.name tenant)).map .ofMeta

def getKey (req : GetKeyRequest) : Handled Refusal Key :=
  srv.through (admitted srv caller .getKey "get_key" req.id req.tenantId) fun (id, tenant) =>
  (srv.serveKey .ofAbort (KeyService.getKey id tenant)).map .ofMeta

def encrypt (req : EncryptRequest) : Handled Refusal EncryptResponse :=
  srv.through (admitted srv caller .encrypt "encrypt" req.keyId req.tenantId) fun (id, tenant) =>
  (srv.serveCrypto .ofAbort tenant (CryptoService.encryptAad srv.env id req.plaintext none tenant)).map fun c =>
    { ciphertext := Base64.encode c.ciphertext
      nonce := Base64.encode c.nonce
      tag := Base64.encode c.tag
      version := c.version
      formatVersion := c.formatVersion.toUInt32 }

/-- The ciphertext of a request; version 0 is version 1, and the format version is cut to a byte. -/
def decodeCiphertext (id : Uuid) (req : DecryptRequest) : Except Refusal Ciphertext := do
  let nonce ← decodeField req.nonce "invalid base64 nonce"
  let ciphertext ← decodeField req.ciphertext "invalid base64 ciphertext"
  let tag ← decodeField req.tag "invalid base64 tag"
  return {
    keyId := id
    version := if req.version = 0 then 1 else req.version
    formatVersion := (req.formatVersion.getD 2).toUInt8
    nonce, ciphertext, tag }

def decrypt (req : DecryptRequest) : Handled Refusal DecryptResponse :=
  srv.through (do
    let (id, tenant) ← admitted srv caller .decrypt "decrypt" req.keyId req.tenantId
    let ciphertext ← decodeCiphertext id req
    return (id, tenant, ciphertext)) fun (id, tenant, ciphertext) =>
  (srv.serveCrypto .ofAbort tenant (CryptoService.decryptAad srv.env id ciphertext none tenant)).map .mk

def rotateKey (req : RotateKeyRequest) : Handled Refusal Key :=
  srv.through (do
    let (id, tenant) ← admitted srv caller .rotateKey "rotate_key" req.id req.tenantId
    requireApproved srv req.approvalId .keyRotate id.text "key rotation"
    return (id, tenant)) fun (id, tenant) =>
  (srv.serveKey .ofAbort (KeyService.rotateKey id tenant)).map .ofMeta

def deleteKey (req : DeleteKeyRequest) : Handled Refusal Unit :=
  srv.through (do
    let (id, tenant) ← admitted srv caller .deleteKey "delete_key" req.id req.tenantId
    requireApproved srv req.approvalId .keyDelete id.text "key deletion"
    return (id, tenant)) fun (id, tenant) =>
  srv.serveKey .ofAbort (KeyService.deleteKey id tenant)

def sign (req : SignRequest) : Handled Refusal SignResponse :=
  srv.through (do
    let (id, tenant) ← admitted srv caller .sign "sign" req.keyId req.tenantId
    let data ← decodeField req.data "invalid base64 data"
    return (id, tenant, data)) fun (id, tenant, data) =>
  (srv.serveCrypto .ofAbort tenant (CryptoService.sign srv.env id data tenant)).map fun s =>
    { signature := Base64.encode s.signature, version := s.version }

def verify (req : VerifyRequest) : Handled Refusal VerifyResponse :=
  srv.through (do
    let (id, tenant) ← admitted srv caller .verify "verify" req.keyId req.tenantId
    let data ← decodeField req.data "invalid base64 data"
    let signature ← decodeField req.signature "invalid base64 signature"
    return (id, tenant, data, signature)) fun (id, tenant, data, signature) =>
  (srv.serveCrypto .ofAbort tenant (CryptoService.verify srv.env id data ⟨id, 1, signature⟩ tenant)).map .mk

def hmac (req : HmacRequest) : Handled Refusal HmacResponse :=
  srv.through (admitted srv caller .encrypt "hmac" req.keyId req.tenantId) fun (id, tenant) =>
  (srv.serveCrypto .ofAbort tenant
    (CryptoService.hmac srv.env srv.crypto id req.data (presentAad req.aad) tenant)).map fun (mac, version) =>
    { mac, version }

def hmacVerify (req : HmacVerifyRequest) : Handled Refusal VerifyResponse :=
  srv.through (admitted srv caller .encrypt "hmac_verify" req.keyId req.tenantId) fun (id, tenant) =>
  (srv.serveCrypto .ofAbort tenant
    (CryptoService.hmacVerify srv.env srv.crypto id req.data (presentAad req.aad) req.mac tenant)).map .mk

/-- How `import_key` maps the errors of the keystore. -/
def importError : Abort → Refusal
  | .error (.keyNotFound _) => refused .notFound "key not found"
  | .error e => refused .internal e.text
  | .panic message => .panic message

/-- The material goes to the keystore as it is, past `KeyService`. -/
def importKey (req : ImportKeyRequest) : Handled Refusal Key :=
  srv.through (do
    checkPermission caller .importKey
    let tenant ← checkPbac srv caller "import_key" req.name req.tenantId
    let spec ← (KeyService.parseSpec req.spec).mapError .ofAbort
    return (tenant, spec)) fun (tenant, spec) =>
  let (r, keystore) := srv.keystore.importKeyMaterial srv.env.toEnv spec req.name tenant req.keyMaterial
  Handled.map .ofMeta { answer := r.mapError importError, keystore, quota := [] }

def exportKey (req : ExportKeyRequest) : Handled Refusal ExportedKey :=
  srv.through (do
    checkPermission caller .exportKey
    let id ← parseId srv req.id "invalid key id format"
    let tenant ← checkPbac srv caller "export_key" id.text req.tenantId
    requireApproved srv req.approvalId .keyExport id.text "key export"
    let protection ← (ExportProtection.parse (some req.protectionScheme)).mapError .ofAbort
    return (id, tenant, protection)) fun (id, tenant, protection) =>
  srv.serveKey .ofAbort (KeyService.exportKey srv.crypto srv.env id req.targetPublicKey tenant
    ⟨protection, if req.version ≠ 0 then some req.version else none⟩)

end

end GmKms.Api.Grpc
