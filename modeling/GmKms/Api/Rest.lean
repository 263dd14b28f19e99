import GmKms.Api.Server
/-!
# The REST channel

The handlers of `rest.rs` for keys and data, with the permission layer of their routes
and the extractors that read their requests. The rate limiter in front of the routes is
left out, and so are the routes without a gRPC method of the same name.
-/

namespace GmKms.Api.Rest

open Lib Keystore Service

inductive StatusCode where
  | badRequest | forbidden | notFound | unprocessableEntity | tooManyRequests | internalServerError | notImplemented
  deriving DecidableEq, Repr

/-- The status of `impl IntoResponse for ApiError`. -/
def statusCode : ApiError → StatusCode
  | .keyNotFound _ | .notFound _ => .notFound
  | .permissionDenied | .forbidden _ => .forbidden
  | .invalidRequest _ | .invalidArgument _ | .badRequest _ => .badRequest
  | .internal _ => .internalServerError
  | .quotaExceeded .. | .tooManyRequests _ => .tooManyRequests
  | .notImplemented => .notImplemented

/-- How a request ends without an answer: a status of a layer or an extractor, an error of
the handler, or a panic. -/
inductive Refusal where
  | status (code : StatusCode)
  | api (e : ApiError)
  | panic (message : String)

def Refusal.ofAbort : ApiAbort → Refusal
  | .error e => .api e
  | .panic message => .panic message

/-! ## Requests and responses -/

structure CreateKeyRequest where
  name : String
  spec : String
  tenantId : String

/-- Absent, the tenant is `default`. -/
structure TenantQuery where
  tenantId : String
  approvalId : Option String

structure EncryptRequest where
  plaintext : String
  aad : Option String

structure DecryptRequest where
  ciphertext : String
  nonce : String
  tag : String
  aad : Option String
  formatVersion : UInt8
  version : UInt32

/-- The JSON of a `DecryptRequest`, its numbers as they are written. -/
structure DecryptBody where
  ciphertext : String
  nonce : String
  tag : String
  aad : Option String
  formatVersion : Option ℕ
  version : Option ℕ

/-- `default_format_version` and `default_decrypt_version`, and a number that does not fit is refused. -/
def DecryptBody.deserialize (body : DecryptBody) : Except Refusal DecryptRequest :=
  let formatVersion := body.formatVersion.getD 2
  let version := body.version.getD 1
  if formatVersion < 2 ^ 8 ∧ version < 2 ^ 32 then
    .ok { body with formatVersion := .ofNat formatVersion, version := .ofNat version }
  else .error (.status .unprocessableEntity)

structure SignRequest where
  data : String

structure VerifyRequest where
  data : String
  signature : String

structure HmacRequest where
  data : String
  aad : Option String

structure HmacVerifyRequest where
  data : String
  mac : String
  aad : Option String

/-- Absent, the format is `pkcs8`. -/
structure ImportKeyRequest where
  name : String
  spec : String
  format : String
  wrappedKey : String
  encryptedTransportKey : String
  sourceFingerprint : String
  tenantId : String

/-- The target system and the purpose are only logged. -/
structure ExportKeyRequest where
  targetPublicKey : String
  approvalId : Option String
  protectionScheme : Option String
  version : Option UInt32

/-- The time of creation is written in RFC 3339. -/
structure KeyResponse where
  id : Uuid
  tenantId : String
  name : String
  spec : String
  status : String
  version : UInt32
  createdAt : DateTime

/-- `impl From<KeyMeta> for KeyResponse`. -/
def KeyResponse.ofMeta (m : KeyMeta) : KeyResponse :=
  { id := m.id
    tenantId := m.tenantId
    name := m.name
    spec := m.spec.debug
    status := m.status.debug
    version := m.version
    createdAt := m.createdAt }

structure EncryptResponse where
  ciphertext : String
  nonce : String
  tag : String
  formatVersion : UInt8
  version : UInt32

structure DecryptResponse where
  plaintext : String

structure SignResponse where
  signature : String
  version : UInt32

structure VerifyResponse where
  valid : Bool

structure HmacResponse where
  mac : String
  version : UInt32

structure ImportKeyResponse where
  id : String
  spec : String
  imported : Bool
  sourceFingerprint : String

/-! ## Checks -/

/-- The bound tenant, or the one that the request reports. -/
def resolveTenant (bound : Option String) (selfReported : String) : String := bound.getD selfReported

def decodeField (text message : String) : Except Refusal Bytes :=
  match Base64.decode text with
  | none => .error (.api (.invalidRequest message))
  | some bytes => .ok bytes

/-- `aad.as_deref().map(..).transpose()`. -/
def decodeAad : Option String → Except Refusal (Option Bytes)
  | none => .ok none
  | some text => (decodeField text "invalid base64 aad").map some

def validated : Except Validation.ValidationError Unit → Except Refusal Unit
  | .error e => .error (.api (.invalidRequest e.message))
  | .ok _ => .ok ()

section

variable {F : Type} (srv : Server F) (caller : Caller)

/-- `require_permission`, the layer of a route. -/
def requirePermission (required : Permission) : Except Refusal Unit :=
  if caller.role.satisfies required then .ok () else .error (.status .forbidden)

/-- The tenant, once `check_rest_pbac` allows the action. -/
def checkRestPbac (action resourceId selfReported : String) : Except Refusal String :=
  let tenant := resolveTenant caller.tenantId selfReported
  match srv.evaluatePbac caller.keyId tenant action resourceId with
  | .allowed => .ok tenant
  | .denied => .error (.api .permissionDenied)

def requireApproved (approvalId : Option String) (operation : Approval.OperationType) (resourceId action : String) :
    Except Refusal Unit :=
  match approvalId.filter (· ≠ "") with
  | none => .error (.api (.invalidRequest
      s!"{action} requires an approved request. Create one via POST /v1/approvals first"))
  | some id =>
    match srv.parseUuid id with
    | none => .error (.api (.invalidRequest "invalid approval_id format"))
    | some approval =>
      if srv.approvalManager.isApproved srv.now approval operation resourceId then .ok ()
      else .error (.api (.forbidden s!"{action} requires a fully approved request bound to this resource"))

/-! ## Handlers -/

def createKey (req : CreateKeyRequest) : Handled Refusal KeyResponse :=
  srv.through (do
    requirePermission caller .createKey
    validated (Validation.validateCreateKeyRequest req.name req.spec (resolveTenant caller.tenantId req.tenantId))
    let tenant ← checkRestPbac srv caller "create_key" req.name req.tenantId
    let spec ← (KeyService.parseSpec req.spec).mapError .ofAbort
    return (tenant, spec)) fun (tenant, spec) =>
  (srv.serveNewKey .ofAbort tenant (KeyService.createKey srv.env spec req.name tenant)).map .ofMeta

def getKey (id : Uuid) (query : TenantQuery) : Handled Refusal KeyResponse :=
  srv.through (do
    requirePermission caller .listKeys
    checkRestPbac srv caller "get_key" id.text query.tenantId) fun tenant =>
  (srv.serveKey .ofAbort (KeyService.getKey id tenant)).map .ofMeta

def encrypt (id : Uuid) (query : TenantQuery) (req : EncryptRequest) : Handled Refusal EncryptResponse :=
  srv.through (do
    requirePermission caller .encrypt
    let tenant ← checkRestPbac srv caller "encrypt" id.text query.tenantId
    validated (Validation.validateEncryptRequest srv.decodeError req.plaintext req.aad)
    let plaintext ← decodeField req.plaintext "invalid base64 plaintext"
    return (tenant, plaintext)) fun (tenant, plaintext) =>
  -- the text of `aad` goes on, not what it encodes
  (srv.serveCrypto .ofAbort tenant
    (CryptoService.encryptAad srv.env id plaintext (req.aad.map (·.toUTF8.toList)) tenant)).map fun c =>
      { ciphertext := Base64.encode c.ciphertext
        nonce := Base64.encode c.nonce
        tag := Base64.encode c.tag
        formatVersion := c.formatVersion
        version := c.version }

/-- The ciphertext of a request; version 0 is version 1. -/
def decodeCiphertext (id : Uuid) (req : DecryptRequest) : Except Refusal Ciphertext := do
  let nonce ← decodeField req.nonce "invalid base64 nonce"
  let ciphertext ← decodeField req.ciphertext "invalid base64 ciphertext"
  let tag ← decodeField req.tag "invalid base64 tag"
  return {
    keyId := id
    version := if req.version = 0 then 1 else req.version
    formatVersion := req.formatVersion
    nonce, ciphertext, tag }

def decrypt (id : Uuid) (query : TenantQuery) (body : DecryptBody) : Handled Refusal DecryptResponse :=
  srv.through (do
    requirePermission caller .encrypt
    let req ← body.deserialize
    let tenant ← checkRestPbac srv caller "decrypt" id.text query.tenantId
    validated (Validation.validateDecryptRequest srv.decodeError req.ciphertext req.nonce req.tag req.aad)
    let ciphertext ← decodeCiphertext id req
    return (tenant, ciphertext, req.aad)) fun (tenant, ciphertext, aad) =>
  (srv.serveCrypto .ofAbort tenant
    (CryptoService.decryptAad srv.env id ciphertext (aad.map (·.toUTF8.toList)) tenant)).map fun plaintext =>
      { plaintext := Base64.encode plaintext }

def rotateKey (id : Uuid) (query : TenantQuery) : Handled Refusal KeyResponse :=
  srv.through (do
    requirePermission caller .createKey
    let tenant ← checkRestPbac srv caller "rotate_key" id.text query.tenantId
    requireApproved srv query.approvalId .keyRotate id.text "key rotation"
    return tenant) fun tenant =>
  (srv.serveKey .ofAbort (KeyService.rotateKey id tenant)).map .ofMeta

def deleteKey (id : Uuid) (query : TenantQuery) : Handled Refusal Unit :=
  srv.through (do
    requirePermission caller .createKey
    let tenant ← checkRestPbac srv caller "delete_key" id.text query.tenantId
    requireApproved srv query.approvalId .keyDelete id.text "key deletion"
    return tenant) fun tenant =>
  srv.serveKey .ofAbort (KeyService.deleteKey id tenant)

def sign (id : Uuid) (query : TenantQuery) (req : SignRequest) : Handled Refusal SignResponse :=
  srv.through (do
    requirePermission caller .encrypt
    let tenant ← checkRestPbac srv caller "sign" id.text query.tenantId
    let data ← decodeField req.data "invalid base64 data"
    return (tenant, data)) fun (tenant, data) =>
  (srv.serveCrypto .ofAbort tenant (CryptoService.sign srv.env id data tenant)).map fun s =>
    { signature := Base64.encode s.signature, version := s.version }

def verify (id : Uuid) (query : TenantQuery) (req : VerifyRequest) : Handled Refusal VerifyResponse :=
  srv.through (do
    requirePermission caller .encrypt
    let tenant ← checkRestPbac srv caller "verify" id.text query.tenantId
    let data ← decodeField req.data "invalid base64 data"
    let signature ← decodeField req.signature "invalid base64 signature"
    return (tenant, data, signature)) fun (tenant, data, signature) =>
  (srv.serveCrypto .ofAbort tenant (CryptoService.verify srv.env id data ⟨id, 1, signature⟩ tenant)).map .mk

def hmac (id : Uuid) (query : TenantQuery) (req : HmacRequest) : Handled Refusal HmacResponse :=
  srv.through (do
    requirePermission caller .encrypt
    let tenant ← checkRestPbac srv caller "hmac" id.text query.tenantId
    let data ← decodeField req.data "invalid base64 data"
    let aad ← decodeAad req.aad
    return (tenant, data, aad)) fun (tenant, data, aad) =>
  (srv.serveCrypto .ofAbort tenant (CryptoService.hmac srv.env srv.crypto id data aad tenant)).map fun (mac, version) =>
    { mac := Base64.encode mac, version }

def hmacVerify (id : Uuid) (query : TenantQuery) (req : HmacVerifyRequest) : Handled Refusal VerifyResponse :=
  srv.through (do
    requirePermission caller .encrypt
    let tenant ← checkRestPbac srv caller "hmac_verify" id.text query.tenantId
    let data ← decodeField req.data "invalid base64 data"
    let expectedMac ← decodeField req.mac "invalid base64 mac"
    let aad ← decodeAad req.aad
    return (tenant, data, expectedMac, aad)) fun (tenant, data, expectedMac, aad) =>
  (srv.serveCrypto .ofAbort tenant (CryptoService.hmacVerify srv.env srv.crypto id data aad expectedMac tenant)).map .mk

def importKey (req : ImportKeyRequest) : Handled Refusal ImportKeyResponse :=
  srv.through (do
    requirePermission caller .createKey
    let tenant ← checkRestPbac srv caller "import_key" req.name req.tenantId
    let spec ← (KeyService.parseSpec req.spec).mapError .ofAbort
    let wrappedKey ← decodeField req.wrappedKey "invalid base64 wrapped_key"
    let encryptedTransportKey ← decodeField req.encryptedTransportKey "invalid base64 encrypted_transport_key"
    return (tenant, spec, wrappedKey, encryptedTransportKey)) fun (tenant, spec, wrappedKey, encryptedTransportKey) =>
  (srv.serveNewKey .ofAbort tenant
    (KeyService.importKey srv.fromStr srv.env spec req.name req.format wrappedKey encryptedTransportKey
      req.sourceFingerprint tenant)).map fun m =>
    { id := m.id.text
      spec := m.spec.debug
      imported := true
      sourceFingerprint := req.sourceFingerprint }

def exportKey (id : Uuid) (query : TenantQuery) (req : ExportKeyRequest) : Handled Refusal ExportedKey :=
  srv.through (do
    requirePermission caller .createKey
    let tenant ← checkRestPbac srv caller "export_key" id.text query.tenantId
    requireApproved srv req.approvalId .keyExport id.text "key export"
    let targetPublicKey ← decodeField req.targetPublicKey "invalid base64 target_public_key"
    let protection ← (ExportProtection.parse req.protectionScheme).mapError .ofAbort
    return (tenant, targetPublicKey, protection)) fun (tenant, targetPublicKey, protection) =>
  srv.serveKey .ofAbort (KeyService.exportKey srv.crypto srv.env id targetPublicKey tenant ⟨protection, req.version⟩)

end

end GmKms.Api.Rest
