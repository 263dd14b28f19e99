import GmKms.Keystore.Crypto
import GmKms.Keystore.Software
/-!
# Using keys of the software keystore

The methods of `SoftwareKeystore` that read a key: accessors to its metadata and
material, encryption and decryption, signatures, shared secrets and listing. None
of them changes the store.
-/

namespace GmKms.Keystore.Software

/-- What these methods read from outside besides: the seed of the primitives that draw
for themselves, and the order in which `HashMap::values` yields the keys. -/
structure UseEnv extends Env where
  seed : ℕ
  rank : Uuid → ℕ

/-- The material of a version: the current one, or the first of its number in the history. -/
def KeyEntry.materialAt (entry : KeyEntry) (version : UInt32) : Option Bytes :=
  if version = entry.keyMeta.version then some entry.material
  else (entry.versions.find? fun v => v.1 = version).map (·.2)

namespace SoftwareKeystore

/-- `verify_tenant`, then the lookup that every method repeats under its own lock. -/
def entryFor (ks : SoftwareKeystore) (keyId : Uuid) (tenantId : String) (missing : Error) : Except Abort KeyEntry :=
  match ks.verifyTenant keyId tenantId with
  | .error e => .error e
  | .ok _ =>
    match ks.keys[keyId]? with
    | none => .error (.error missing)
    | some entry => .ok entry

/-! ## Accessors -/

def getKeyMetadata (ks : SoftwareKeystore) (keyId : Uuid) : Except Abort KeyMeta :=
  match ks.keys[keyId]? with
  | none => .error (.error (.keyNotFound keyId.text))
  | some entry => .ok entry.keyMeta

def exportKeyMaterial (ks : SoftwareKeystore) (keyId : Uuid) (tenantId : String) : Except Abort Bytes := do
  let entry ← ks.entryFor keyId tenantId (.keyNotFound keyId.text)
  if entry.keyMeta.status ≠ .active then
    let id := keyId.text
    .error (.error (.keyOperationNotAllowed s!"Key {id} is not active for export"))
  else .ok entry.material

def getKeyMaterial (ks : SoftwareKeystore) (keyId : Uuid) (tenantId : String) : Except Abort Bytes := do
  let entry ← ks.entryFor keyId tenantId (.keyNotFound keyId.text)
  .ok entry.material

def getKeyMaterialVersion (ks : SoftwareKeystore) (keyId : Uuid) (version : UInt32) (tenantId : String) :
    Except Abort Bytes := do
  let entry ← ks.entryFor keyId tenantId (.keyVersionNotFound keyId.text)
  if version = 0 ∨ version = entry.keyMeta.version then .ok entry.material
  else
    match entry.versions.find? fun v => v.1 = version with
    | some (_, material) => .ok material
    | none =>
      let id := keyId.text
      let n := version.toNat
      .error (.error (.keyVersionNotFound s!"{id} (version {n})"))

section

variable (crypto : Crypto)

/-! ## Encryption -/

/-- The `match entry.meta.spec` of `encrypt`. -/
def encryptWith (env : UseEnv) (keyId : Uuid) (entry : KeyEntry) (plaintext : Bytes) : Except Abort Ciphertext :=
  let version := entry.keyMeta.version
  match entry.keyMeta.spec with
  | .aes256Gcm | .hmacSha256 =>
    match crypto.aesUnboundKey entry.material with
    | .error e => .error (.error (.encryptionFailed e))
    | .ok _ =>
      -- the nonce of the first and only call is the counter's low 12 bytes
      let startingCounter := env.fillBytes 16
      let aad := userDataAad crypto keyId entry.keyMeta.tenantId version
      match crypto.aesSeal entry.material (startingCounter.drop 4) aad plaintext with
      | .error e => .error (.error (.encryptionFailed e))
      | .ok (ciphertext, tag) => .ok { keyId, version, formatVersion := 2, nonce := startingCounter, ciphertext, tag }
  | .sm4 =>
    match crypto.sm4Cipher entry.material with
    | .error e => .error (.error (.encryptionFailed e))
    | .ok _ =>
      let nonce := env.fillBytes 12
      let aad := userDataAad crypto keyId entry.keyMeta.tenantId version
      match crypto.sm4Encrypt entry.material nonce aad plaintext with
      | .error e => .error (.error (.encryptionFailed e))
      | .ok (ciphertext, tag) => .ok { keyId, version, formatVersion := 2, nonce, ciphertext, tag }
  | .sm2 =>
    match crypto.sm2KeyPair entry.material with
    | .error e => .error (.error (.encryptionFailed e))
    | .ok _ =>
      match crypto.sm2Encrypt env.seed entry.material plaintext with
      | .error e => .error (.error (.encryptionFailed e))
      | .ok encrypted =>
        -- C1 (65 bytes), C3 (32 bytes), C2
        if encrypted.length < 97 then .error (.panic "range end index out of range for slice")
        else .ok
          { keyId, version
            formatVersion := 1
            nonce := encrypted.take 65
            ciphertext := encrypted.drop 97
            tag := (encrypted.drop 65).take 32 }
  | spec =>
    let name := spec.debug
    .error (.error (.invalidAlgorithm s!"Encryption not supported for {name}"))

def encrypt (ks : SoftwareKeystore) (env : UseEnv) (keyId : Uuid) (plaintext : Bytes) (tenantId : String) :
    Except Abort Ciphertext := do
  let entry ← ks.entryFor keyId tenantId (.keyNotFound keyId.text)
  if entry.keyMeta.status ≠ .active then
    let id := keyId.text
    .error (.error (.keyOperationNotAllowed s!"Key {id} is not active"))
  else encryptWith crypto env keyId entry plaintext

/-- The additional data by the format version, which the client may choose. -/
def decryptAad (keyId : Uuid) (tenantId : String) (ciphertext : Ciphertext) : Except Abort Bytes :=
  if ciphertext.formatVersion = 0 ∨ ciphertext.formatVersion = 1 then .ok []
  else if ciphertext.formatVersion = 2 then .ok (userDataAad crypto keyId tenantId ciphertext.version)
  else .error (.error .invalidCiphertext)

/-- The nonce of the counter that `decrypt` rebuilds. -/
def decryptNonce (ciphertext : Ciphertext) : Bytes :=
  if ciphertext.nonce.length = 16 then ciphertext.nonce.drop 4 else List.replicate 12 0

/-- The `match entry.meta.spec` of `decrypt`. -/
def decryptWith (keyId : Uuid) (keyMeta : KeyMeta) (material : Bytes) (ciphertext : Ciphertext) : Except Abort Bytes :=
  match keyMeta.spec with
  | .aes256Gcm | .hmacSha256 =>
    match crypto.aesUnboundKey material with
    | .error e => .error (.error (.decryptionFailed e))
    | .ok _ =>
      match decryptAad crypto keyId keyMeta.tenantId ciphertext with
      | .error e => .error e
      | .ok aad =>
        match crypto.aesOpen material (decryptNonce ciphertext) aad (ciphertext.ciphertext ++ ciphertext.tag) with
        | none => .error (.error .invalidCiphertext)
        | some plaintext => .ok plaintext
  | .sm4 =>
    match crypto.sm4Cipher material with
    | .error e => .error (.error (.decryptionFailed e))
    | .ok _ =>
      match decryptAad crypto keyId keyMeta.tenantId ciphertext with
      | .error e => .error e
      | .ok aad =>
        match crypto.sm4Decrypt material ciphertext.nonce aad ciphertext.ciphertext ciphertext.tag with
        | none => .error (.error .invalidCiphertext)
        | some plaintext => .ok plaintext
  | .sm2 =>
    match crypto.sm2KeyPair material with
    | .error e => .error (.error (.decryptionFailed e))
    | .ok _ =>
      if ciphertext.nonce.length ≠ 65 ∨ ciphertext.tag.length ≠ 32 then .error (.error .invalidCiphertext)
      else
        match crypto.sm2Decrypt material (ciphertext.nonce ++ ciphertext.tag ++ ciphertext.ciphertext) with
        | none => .error (.error .invalidCiphertext)
        | some plaintext => .ok plaintext
  | spec =>
    let name := spec.debug
    .error (.error (.invalidAlgorithm s!"Decryption not supported for {name}"))

def decrypt (ks : SoftwareKeystore) (keyId : Uuid) (ciphertext : Ciphertext) (tenantId : String) :
    Except Abort Bytes := do
  let entry ← ks.entryFor keyId tenantId (.keyNotFound keyId.text)
  if !entry.keyMeta.status.canDecrypt then
    let id := keyId.text
    .error (.error (.keyOperationNotAllowed s!"Key {id} cannot decrypt"))
  else
    match entry.materialAt ciphertext.version with
    | none =>
      let id := keyId.text
      let n := ciphertext.version.toNat
      .error (.error (.keyVersionNotFound s!"{id} (version {n})"))
    | some material => decryptWith crypto keyId entry.keyMeta material ciphertext

/-! ## Signatures -/

/-- The `match entry.meta.spec` of `sign`. -/
def signWith (env : UseEnv) (keyId : Uuid) (entry : KeyEntry) (data : Bytes) : Except Abort Signature :=
  let version := entry.keyMeta.version
  match entry.keyMeta.spec with
  | .ed25519 =>
    match crypto.ed25519KeyPair entry.material with
    | .error e => .error (.error (.signatureFailed e))
    | .ok _ => .ok { keyId, version, signature := crypto.ed25519Sign entry.material data }
  | .sm2 =>
    match crypto.sm2KeyPair entry.material with
    | .error e => .error (.error (.signatureFailed e))
    | .ok _ =>
      match crypto.sm2Sign env.seed entry.material data with
      | .error e => .error (.error (.signatureFailed e))
      | .ok signature => .ok { keyId, version, signature }
  | spec =>
    let name := spec.debug
    .error (.error (.invalidAlgorithm s!"Signing not supported for {name}"))

def sign (ks : SoftwareKeystore) (env : UseEnv) (keyId : Uuid) (data : Bytes) (tenantId : String) :
    Except Abort Signature := do
  let entry ← ks.entryFor keyId tenantId (.keyNotFound keyId.text)
  if entry.keyMeta.status ≠ .active then
    let id := keyId.text
    .error (.error (.keyOperationNotAllowed s!"Key {id} is not active"))
  else signWith crypto env keyId entry data

/-- The `match entry.meta.spec` of `verify`. -/
def verifyWith (entry : KeyEntry) (data : Bytes) (sig : Signature) : Except Abort Bool :=
  match entry.keyMeta.spec with
  | .ed25519 =>
    match crypto.ed25519KeyPair entry.material with
    | .error e => .error (.error (.verificationFailed e))
    | .ok _ => .ok (crypto.ed25519Verify entry.material data sig.signature)
  | .sm2 =>
    match crypto.sm2KeyPair entry.material, crypto.sm2Verifier entry.material with
    | .error e, _ => .error (.error (.verificationFailed e))
    | .ok _, .error e => .error (.error (.verificationFailed e))
    | .ok _, .ok _ => .ok (crypto.sm2Verify entry.material data sig.signature)
  | spec =>
    let name := spec.debug
    .error (.error (.invalidAlgorithm s!"Verification not supported for {name}"))

/-- The version that the signature records is not read. -/
def verify (ks : SoftwareKeystore) (keyId : Uuid) (data : Bytes) (sig : Signature) (tenantId : String) :
    Except Abort Bool := do
  let entry ← ks.entryFor keyId tenantId (.keyNotFound keyId.text)
  verifyWith crypto entry data sig

/-! ## Shared secrets -/

def deriveEcdhP256 (env : UseEnv) (_privateKey peerPublicKey : Bytes) : Except Abort Bytes :=
  match crypto.p256Ecdh env.seed peerPublicKey with
  | .error e => .error (.error (.keyExchangeFailed s!"invalid P-256 public key: {e}"))
  | .ok secret => .ok secret

def deriveEcdhP384 (env : UseEnv) (_privateKey peerPublicKey : Bytes) : Except Abort Bytes :=
  match crypto.p384Ecdh env.seed peerPublicKey with
  | .error e => .error (.error (.keyExchangeFailed s!"invalid P-384 public key: {e}"))
  | .ok secret => .ok secret

def deriveX25519 (privateKey peerPublicKey : Bytes) : Except Abort Bytes :=
  if privateKey.length < 32 then .error (.error (.keyExchangeFailed "X25519 private key must be at least 32 bytes"))
  else if peerPublicKey.length ≠ 32 then
    .error (.error (.keyExchangeFailed "X25519 public key must be exactly 32 bytes"))
  else .ok (crypto.x25519 (privateKey.take 32) peerPublicKey)

def deriveSm2Kex (_privateKey _peerPublicKey : Bytes) : Except Abort Bytes :=
  .error (.error (.keyExchangeFailed ("SM2-KEX requires session-based API. Use create_sm2_kex_session and " ++
    "process_sm2_kex_message")))

def deriveSharedSecret (ks : SoftwareKeystore) (env : UseEnv) (keyId : Uuid) (peerPublicKey : Bytes)
    (algorithm : DhAlgorithm) (tenantId : String) : Except Abort SharedSecret := do
  let entry ← ks.entryFor keyId tenantId (.keyNotFound keyId.text)
  if entry.keyMeta.status ≠ .active then
    let id := keyId.text
    .error (.error (.keyOperationNotAllowed s!"Key {id} is not active"))
  else
    let secret ← match algorithm with
      | .ecdsaP256 => deriveEcdhP256 crypto env entry.material peerPublicKey
      | .ecdsaP384 => deriveEcdhP384 crypto env entry.material peerPublicKey
      | .x25519 => deriveX25519 crypto entry.material peerPublicKey
      | .sm2Kex => deriveSm2Kex entry.material peerPublicKey
    .ok { secret, kdf := some "HKDF-SHA256" }

end

/-! ## Listing -/

/-- The closure that `list_keys` filters with. -/
def listed (filter : KeyFilter) (keyMeta : KeyMeta) : Bool :=
  (filter.tenantId.all fun t => keyMeta.tenantId = t) && (filter.status.all fun s => keyMeta.status = s) &&
    filter.spec.all fun s => keyMeta.spec = s

def listKeys (ks : SoftwareKeystore) (env : UseEnv) (filter : KeyFilter) : Except Abort (List KeyMeta) :=
  let values := ks.keys.toList.mergeSort fun a b => env.rank a.1 ≤ env.rank b.1
  let result := (values.map (·.2.keyMeta)).filter (listed filter)
  let result := filter.offset.elim result result.drop
  .ok (filter.limit.elim result result.take)

end SoftwareKeystore

end GmKms.Keystore.Software
