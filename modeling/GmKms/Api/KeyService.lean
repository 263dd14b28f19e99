import GmKms.Api.CryptoService
import GmKms.Lib.Base64
/-!
# The key service

`KeyService`: the lifecycle of the keys of a tenant and the wrapped export of their
material. The import has a module of its own.
-/

namespace GmKms.Api

open Lib Keystore Service

/-- How an export protects its transport key. -/
inductive ExportProtection where
  | rsaOaep | sm2
  deriving DecidableEq, Repr

/-- No version, or version 0, is the current one. -/
structure ExportOptions where
  protection : ExportProtection
  version : Option UInt32

structure ExportedKey where
  wrappedKey : String
  encryptedTransportKey : String
  keyFingerprint : String
  deriving DecidableEq

namespace KeyService

def createKey (env : ServiceEnv) (spec : KeySpec) (name tenantId : String) : Service KeyMeta :=
  if !spec.isGeneratable then
    let algorithm := spec.algorithmName
    fail (.invalidRequest (s!"{algorithm} cannot be generated; generatable specs are AES-256-GCM, SM4, SM2, " ++
      "Ed25519, HMAC-SHA256, HMAC-SM3. Importable-only specs (ECDSA/Ed448/RSA) must use the import endpoint."))
  else if !env.canCreateKey then fail (.quotaExceeded "keys" 0 0)
  else ask (.generateKey spec name tenantId) apiError

/-- The check that the methods on one key start with. -/
def ownedKeyMeta (keyId : Uuid) (tenantId : String) : Service KeyMeta :=
  CryptoService.fetchOwnedKeyMeta keyId tenantId

def rotateKey (keyId : Uuid) (tenantId : String) : Service KeyMeta := do
  let _ ← ownedKeyMeta keyId tenantId
  ask (.rotateKey keyId tenantId) apiError

def deleteKey (keyId : Uuid) (tenantId : String) : Service Unit := do
  let _ ← ownedKeyMeta keyId tenantId
  ask (.deleteKey keyId tenantId) apiError

def getKey (keyId : Uuid) (tenantId : String) : Service KeyMeta := ownedKeyMeta keyId tenantId

def listKeys (filter : KeyFilter) (tenantId : String) : Service (List KeyMeta) :=
  ask (.listKeys { filter with tenantId := some tenantId }) apiError

/-! ## Export -/

/-- The check of the public key, made before any material is read. -/
def checkTarget (protection : ExportProtection) (targetPublicKey : Bytes) : Except ApiAbort Unit :=
  match protection with
  | .rsaOaep =>
    if targetPublicKey.length < 256 then
      .error (.error (.invalidRequest "target_public_key too small, expected at least 2048-bit RSA"))
    else .ok ()
  | .sm2 =>
    if targetPublicKey.length ≠ 65 ∨ targetPublicKey.head? ≠ some 0x04 then
      .error (.error (.invalidRequest
        "SM2 export requires a 65-byte uncompressed SEC1 public key (0x04 prefix)"))
    else .ok ()

/-- The mapping around `export_key_material`. -/
def exportError (keyId : Uuid) : Error → ApiError
  | .keyNotFound _ =>
    let id := keyId.text
    .notFound s!"key {id} not found"
  | .keyOperationNotAllowed _ =>
    let id := keyId.text
    .forbidden s!"key {id} cannot be exported"
  | e => apiError e

/-- The mapping around `get_key_material_version`. -/
def exportVersionError (keyId : Uuid) (version : UInt32) : Error → ApiError
  | .keyNotFound _ =>
    let id := keyId.text
    let v := version.toNat
    .notFound s!"key {id} version {v} not found"
  | e => apiError e

/-- The material of the requested version. -/
def selectMaterial (keyId : Uuid) (tenantId : String) (version : Option UInt32) (keyMeta : KeyMeta)
    (currentMaterial : Bytes) : Service Bytes :=
  match version.filter (· ≠ 0) with
  | some v =>
    if v ≠ keyMeta.version then ask (.getKeyMaterialVersion keyId v tenantId) (exportVersionError keyId v)
    else return currentMaterial
  | none => return currentMaterial

/-- What the wrapping of the material takes from elsewhere, over whatever stands for bytes. The public key is that of
the target. -/
structure WrapPrimitives (β : Type) where
  fill (n len : ℕ) (what : String) : Except ApiAbort β
  append (a b : β) : β
  sha256 (a : β) : β
  aesUnboundKey (key : β) : Except String Unit
  aesSeal (key nonce aad plaintext : β) : Except String (β × β)
  rsaPublicKey : Bool
  rsaEncrypt (plaintext : β) : Except String β
  sm4Cipher (key : β) : Except String Unit
  sm4Encrypt (key nonce aad plaintext : β) : Except String (β × β)
  sm2PublicKey : Bool
  sm2EncryptTo (plaintext : β) : Except String β

/-- The fields of `ExportedKey` before they are encoded. -/
structure WrapFields (β : Type) where
  wrappedKey : β
  encryptedTransportKey : β
  keyFingerprint : β

section

variable {β : Type} (P : WrapPrimitives β)

/-- The `RsaOaep` arm: the wrapped key is ciphertext and tag. -/
def wrapRsa (exportAad keyMaterial : β) : Except ApiAbort (β × β) := do
  let transportKey ← P.fill 0 32 "transport key"
  match P.aesUnboundKey transportKey with
  | .error e => .error (.error (.internal s!"failed to create KEK: {e}"))
  | .ok _ =>
    let nonce ← P.fill 1 12 "nonce"
    match P.aesSeal transportKey nonce exportAad keyMaterial with
    | .error e => .error (.error (.internal s!"failed to wrap key: {e}"))
    | .ok (ciphertext, tag) =>
      if !P.rsaPublicKey then .error (.error (.invalidRequest "invalid RSA public key format"))
      else
        match P.rsaEncrypt transportKey with
        | .error e => .error (.error (.internal s!"failed to encrypt transport key: {e}"))
        | .ok encryptedTransportKey => .ok (P.append ciphertext tag, encryptedTransportKey)

/-- The `Sm2` arm: the wrapped key is nonce, ciphertext and tag. -/
def wrapSm2 (exportAad keyMaterial : β) : Except ApiAbort (β × β) := do
  let transportKey ← P.fill 0 16 "transport key"
  let nonce ← P.fill 1 12 "nonce"
  match P.sm4Cipher transportKey with
  | .error e => .error (.error (.internal s!"sm4 cipher init failed: {e}"))
  | .ok _ =>
    match P.sm4Encrypt transportKey nonce exportAad keyMaterial with
    | .error e => .error (.error (.internal s!"sm4-gcm wrap failed: {e}"))
    | .ok (ciphertext, tag) =>
      if !P.sm2PublicKey then .error (.error (.invalidRequest "invalid SM2 public key format"))
      else
        match P.sm2EncryptTo transportKey with
        | .error e => .error (.error (.internal s!"sm2 transport-key encryption failed: {e}"))
        | .ok encryptedTransportKey => .ok (P.append (P.append nonce ciphertext) tag, encryptedTransportKey)

def wrapFields (protection : ExportProtection) (exportAad keyMaterial : β) : Except ApiAbort (WrapFields β) := do
  let (wrappedKey, encryptedTransportKey) ← match protection with
    | .rsaOaep => wrapRsa P exportAad keyMaterial
    | .sm2 => wrapSm2 P exportAad keyMaterial
  return { wrappedKey, encryptedTransportKey, keyFingerprint := P.sha256 keyMaterial }

end

section

variable (crypto : ServiceCrypto) (env : ServiceEnv)

def WrapPrimitives.ofBytes (targetPublicKey : Bytes) : WrapPrimitives Bytes where
  fill := Service.fill env
  append := (· ++ ·)
  sha256 := crypto.sha256
  aesUnboundKey := crypto.aesUnboundKey
  aesSeal := crypto.aesSeal
  rsaPublicKey := crypto.rsaPublicKey targetPublicKey
  rsaEncrypt := crypto.rsaEncrypt env.seed targetPublicKey
  sm4Cipher := crypto.sm4Cipher
  sm4Encrypt := crypto.sm4Encrypt
  sm2PublicKey := crypto.sm2PublicKey targetPublicKey
  sm2EncryptTo := crypto.sm2EncryptTo env.seed targetPublicKey

/-- What `export_key` does with the material. -/
def wrapMaterial (keyId : Uuid) (tenantId : String) (protection : ExportProtection)
    (targetPublicKey keyMaterial : Bytes) : Except ApiAbort ExportedKey := do
  let exportAad := exportWrapAad crypto.toCrypto keyId tenantId
  let fields ← wrapFields (.ofBytes crypto env targetPublicKey) protection exportAad keyMaterial
  return {
    wrappedKey := Base64.encode fields.wrappedKey
    encryptedTransportKey := Base64.encode fields.encryptedTransportKey
    keyFingerprint := hexEncode fields.keyFingerprint }

/-- `export_key` once the tenant is known to own the key. -/
def exportOwned (keyId : Uuid) (targetPublicKey : Bytes) (tenantId : String) (opts : ExportOptions)
    (keyMeta : KeyMeta) : Service ExportedKey := do
  Program.lift (checkTarget opts.protection targetPublicKey)
  let currentMaterial ← ask (.exportKeyMaterial keyId tenantId) (exportError keyId)
  let keyMaterial ← selectMaterial keyId tenantId opts.version keyMeta currentMaterial
  Program.lift (wrapMaterial crypto env keyId tenantId opts.protection targetPublicKey keyMaterial)

def exportKey (keyId : Uuid) (targetPublicKey : Bytes) (tenantId : String) (opts : ExportOptions) :
    Service ExportedKey := do
  let keyMeta ← ownedKeyMeta keyId tenantId
  exportOwned crypto env keyId targetPublicKey tenantId opts keyMeta

end

end KeyService

end GmKms.Api
