import GmKms.Keystore.BoundedCache
import GmKms.Keystore.Crypto
import GmKms.Keystore.Repository
import GmKms.Keystore.Validation
import GmKms.Lib.Effect
import GmKms.Lib.Machine
/-!
# The PostgreSQL keystore

`PostgresKeystore`: keys live in the database, encrypted under a key encryption
key, and those in use also in a bounded cache. A method is a program over both;
where it fails, what it has already written stays written.
-/

namespace GmKms.Keystore.Postgres

open Lib Lib.Effect

/-- The calls the repository makes on the database, each with the key it is about. -/
inductive RepoCall where
  | insert (id : Uuid)
  | findById (id : Uuid)
  | findEncryptedMaterial (id : Uuid)
  | updateEncryptedMaterial (id : Uuid)
  | list
  | listAllTenants
  | updateStatus (id : Uuid)
  | softDelete (id : Uuid)
  | insertVersion (id : Uuid)
  | getVersion (id : Uuid)
  | updateVersionRotatedAt (id : Uuid)
  deriving DecidableEq

/-- What one call reads from outside: successive uuids, clock readings and fills
of the random generator (`none` where the generator fails), the seed of the
primitives that draw for themselves, the order in which the database returns
rows of equal time, and the repository calls that fail. -/
structure Env where
  uuid : ℕ → Uuid
  now : Clock
  dbNow : DateTime
  random : ℕ → Option (ℕ → UInt8)
  seed : ℕ
  rank : Uuid → ℕ
  fault : RepoCall → Option String

/-- The database with the keystore process on it. `kek` is the key encryption key. -/
structure Store where
  db : Db
  keys : BoundedKeyCache
  kek : Bytes
  keysReady : Bool

/-- A method of `PostgresKeystore`. -/
abbrev M (α : Type) := EStateM Abort Store α

/-- A keystore process just started with the given capacity over an empty database. -/
def Store.start (capacity : Option ℕ) (kek : Bytes) : Store := ⟨.empty, .new capacity, kek, false⟩

def fail {α : Type} (e : Error) : M α := throw (.error e)

/-- A repository call: the tables change as its statement says, or it fails. -/
def repo {α : Type} (env : Env) (c : RepoCall) (f : Db → Except String (α × Db)) : M α := fun s =>
  match env.fault c with
  | some e => .error (.error (.internal e)) s
  | none =>
    match f s.db with
    | .error e => .error (.error (.internal e)) s
    | .ok (a, db) => .ok a { s with db }

/-- `.map_err(|e| Error::Internal(e.to_string()))`. -/
def mapInternal {α : Type} (x : M α) : M α := fun s =>
  match x s with
  | .error (.error e) s' => .error (.error (.internal e.text)) s'
  | r => r

theorem outcome_mapInternal {α : Type} (x : M α) (s : Store) : outcome (mapInternal x) s = match outcome x s with
    | (.error (.error e), s') => (.error (.error (.internal e.text)), s')
    | r => r := by
  simp only [outcome, mapInternal]
  split <;> rename_i heq
  · cases hx : x s with
    | ok a s' =>
      rw [hx] at heq
      cases heq
      rfl
    | error e s' => cases e <;> simp_all
  · cases hx : x s with
    | ok a s' => simp_all
    | error e s' => cases e <;> simp_all

/-- `self.kek`. -/
def kekOf : M Bytes := fun s => .ok s.kek s

@[simp] theorem outcome_kekOf (s : Store) : outcome kekOf s = (.ok s.kek, s) := rfl

/-- An operation on the cache. -/
def modifyKeys (f : BoundedKeyCache → BoundedKeyCache) : M Unit := modify fun s => { s with keys := f s.keys }

/-- `SystemRandom::fill` of `len` bytes, as the `n`-th fill of the call. -/
def fill (env : Env) (n len : ℕ) : Option Bytes := (env.random n).map fun bytes => (List.range len).map bytes

/-! ## The repository's methods -/

def Repo.insert (env : Env) (m : KeyMeta) : M Unit :=
  repo env (.insert m.id) fun db => (db.insert m).map fun db => ((), db)

def Repo.findById (env : Env) (id : Uuid) : M (Option KeyMeta) :=
  repo env (.findById id) fun db => .ok (db.findById id, db)

def Repo.findEncryptedMaterial (env : Env) (id : Uuid) : M (Option Bytes) :=
  repo env (.findEncryptedMaterial id) fun db => .ok (db.findEncryptedMaterial id, db)

def Repo.updateEncryptedMaterial (env : Env) (id : Uuid) (encrypted : Bytes) : M Unit :=
  repo env (.updateEncryptedMaterial id) fun db => .ok ((), db.updateEncryptedMaterial id encrypted)

def Repo.list (env : Env) (tenantId : String) (limit offset : Option ℤ) : M (List KeyMeta) :=
  repo env .list fun db => (db.list env.rank tenantId limit offset).map (·, db)

def Repo.listAllTenants (env : Env) (limit offset : Option ℤ) : M (List KeyMeta) :=
  repo env .listAllTenants fun db => (db.listAllTenants env.rank limit offset).map (·, db)

def Repo.updateStatus (env : Env) (id : Uuid) (status : KeyStatus) : M Unit :=
  repo env (.updateStatus id) fun db => .ok ((), db.updateStatus id status)

def Repo.softDelete (env : Env) (id : Uuid) (deletedBy : String) : M Unit :=
  repo env (.softDelete id) fun db => .ok ((), db.softDelete id env.dbNow deletedBy)

def Repo.insertVersion (env : Env) (rowId : Uuid) (now : DateTime) (id : Uuid) (version : UInt32)
    (encryptedDek : Option Bytes) (status : String) : M Unit :=
  repo env (.insertVersion id) fun db => (db.insertVersion rowId now id version encryptedDek status).map fun db =>
  ((), db)

def Repo.getVersion (env : Env) (id : Uuid) (version : UInt32) : M (Option KeyVersionEntity) :=
  repo env (.getVersion id) fun db => .ok (db.getVersion id version, db)

def Repo.updateVersionRotatedAt (env : Env) (now : DateTime) (id : Uuid) (version : UInt32) : M Unit :=
  repo env (.updateVersionRotatedAt id) fun db => .ok ((), db.updateVersionRotatedAt now id version)

section

variable (crypto : Crypto) (env : Env)

/-! ## Material under the key encryption key -/

/-- `encrypt_material`, whose nonce is the `n`-th fill of the call. -/
def encryptMaterial (n : ℕ) (kek : Bytes) (keyId : Uuid) (material : Bytes) : Except Abort Bytes :=
  match crypto.aesUnboundKey kek with
  | .error e => .error (.error (.encryptionFailed e))
  | .ok _ =>
    match fill env n 12 with
    | none => .error (.error (.encryptionFailed "failed to generate nonce"))
    | some nonce =>
      match crypto.aesSeal kek nonce (kekWrapAad keyId) material with
      | .error e => .error (.error (.encryptionFailed e))
      | .ok (ciphertext, tag) => .ok (nonce ++ ciphertext ++ tag)

/-- `decrypt_material_static`. -/
def decryptMaterial (kek : Bytes) (keyId : Uuid) (encrypted : Bytes) : Except Abort Bytes :=
  if encrypted.length < 12 + 16 then .error (.error (.decryptionFailed "Encrypted material too short"))
  else
    match crypto.aesUnboundKey kek with
    | .error e => .error (.error (.decryptionFailed e))
    | .ok _ =>
      match crypto.aesOpen kek (encrypted.take 12) (kekWrapAad keyId) (encrypted.drop 12) with
      | none => .error (.error .invalidCiphertext)
      | some plaintext => .ok plaintext

/-- A result computed without the store. -/
def lift {α : Type} (r : Except Abort α) : M α := fun s =>
  match r with
  | .ok a => .ok a s
  | .error e => .error e s

/-- How many random bytes `generate_key_material` takes, or its refusal. -/
def materialLen (spec : KeySpec) : Except Abort ℕ :=
  match spec with
  | .aes256Gcm | .hmacSha256 | .sm3Hmac => .ok 32
  | .ecdsaP256 | .ecdsaP384 | .ed25519 | .ed448 => .ok 32
  | .sm4 => .ok 16
  | .sm2 => .ok 32
  | .sm9Signing | .sm9Encryption => .error (.error (.notImplemented "SM9 not yet implemented"))
  | .rsa4096 => .error (.error (.notImplemented "RSA not yet implemented"))

/-- The material is the first fill of the call. -/
def generateKeyMaterial (spec : KeySpec) : Except Abort Bytes :=
  match materialLen spec with
  | .error e => .error e
  | .ok len =>
    match fill env 0 len with
    | none => .error (.error (.internal "failed to generate random key material"))
    | some key => .ok key

/-! ## Resolving a key -/

def loadEntryFromDb (keyId : Uuid) : M KeyEntry := do
  match ← Repo.findById env keyId with
  | none => fail (.keyNotFound keyId.text)
  | some keyMeta =>
    match ← Repo.findEncryptedMaterial env keyId with
    | none =>
      let id := keyId.text
      fail (.internal (s!"key {id} found in DB but has no encrypted material " ++
        "(may predate persistence; skip via load_keys restart)"))
    | some encrypted =>
      match decryptMaterial crypto (← kekOf) keyId encrypted with
      | .error (.error e) =>
        let id := keyId.text
        let reason := e.text
        fail (.internal (s!"lazy-load KEK decrypt failed for {id}: {reason}. " ++
          "This likely indicates the KEK has changed since startup."))
      | .error (.panic message) => throw (.panic message)
      | .ok material => return { keyMeta, material }

def entryFor (keyId : Uuid) (tenantId : String) : M KeyEntry := do
  match (← get).keys.getCloned keyId with
  | some entry =>
    if entry.keyMeta.tenantId ≠ tenantId then fail (.keyNotFound keyId.text) else return entry
  | none =>
    -- the source rebuilds a `KeyNotFound` from the same id and passes on any other error
    let entry ← loadEntryFromDb crypto env keyId
    if entry.keyMeta.tenantId ≠ tenantId then fail (.keyNotFound keyId.text)
    else
      modifyKeys (·.insertWithEviction keyId entry)
      return entry

/-! ## Creating keys -/

def newMeta (spec : KeySpec) (name tenantId : String) (description : Option String) : KeyMeta :=
  { id := env.uuid 0
    tenantId, name, spec
    status := .active
    createdAt := env.now 0
    rotatedAt := none
    version := 1
    description
    metadata := .default }

/-- Persist a key's metadata, then its encrypted material. -/
def persistKey (keyMeta : KeyMeta) (encrypted : Bytes) : M Unit := do
  mapInternal (Repo.insert env keyMeta)
  mapInternal (Repo.updateEncryptedMaterial env keyMeta.id encrypted)

/-- The common end of `generate_key` and `import_key_material`: cache, then persist. -/
def storeNew (keyMeta : KeyMeta) (material encrypted : Bytes) : M KeyMeta := do
  modifyKeys (·.insertWithEviction keyMeta.id { keyMeta, material })
  persistKey env keyMeta encrypted
  return keyMeta

def generateKey (spec : KeySpec) (name tenantId : String) : M KeyMeta := do
  let material ← lift (generateKeyMaterial env spec)
  let encrypted ← lift (encryptMaterial crypto env 1 (← kekOf) (env.uuid 0) material)
  storeNew env (newMeta env spec name tenantId none) material encrypted

def importKeyMaterial (spec : KeySpec) (name tenantId : String) (material : Bytes) : M KeyMeta := do
  lift (checkImport spec material)
  let encrypted ← lift (encryptMaterial crypto env 0 (← kekOf) (env.uuid 0) material)
  storeNew env (newMeta env spec name tenantId (some "imported")) material encrypted

/-! ## Changing keys -/

/-- The metadata `rotate_key` gives the new key. -/
def rotatedMeta (old : KeyMeta) : KeyMeta :=
  { id := env.uuid 0
    tenantId := old.tenantId
    name := old.name
    spec := old.spec
    status := .active
    createdAt := env.now 0
    rotatedAt := some old.createdAt
    version := old.version + 1
    description := old.description
    metadata := old.metadata }

/-- What `rotate_key` writes to the database: the new key, the status of the old
one and, encrypted with the third fill of the call, its material as a version. -/
def persistRotation (oldMeta : KeyMeta) (oldMaterial : Bytes) (newMeta : KeyMeta) (encryptedNew : Bytes) : M Unit := do
  persistKey env newMeta encryptedNew
  mapInternal (Repo.updateStatus env oldMeta.id .obsolete)
  let encryptedDek ← lift (encryptMaterial crypto env 2 (← kekOf) oldMeta.id oldMaterial)
  mapInternal (Repo.insertVersion env (env.uuid 1) (env.now 1) oldMeta.id oldMeta.version (some encryptedDek)
    "Rotated")
  mapInternal (Repo.updateVersionRotatedAt env (env.now 2) oldMeta.id oldMeta.version)

def rotateKey (keyId : Uuid) (tenantId : String) : M KeyMeta := do
  let entry ← entryFor crypto env keyId tenantId
  if !entry.keyMeta.status.canRotate then
    let id := keyId.text
    fail (.keyOperationNotAllowed s!"Key {id} cannot be rotated")
  else
    let newMaterial ← lift (generateKeyMaterial env entry.keyMeta.spec)
    let oldMeta := entry.keyMeta
    let newMeta := rotatedMeta env oldMeta
    let encryptedNew ← lift (encryptMaterial crypto env 1 (← kekOf) newMeta.id newMaterial)
    persistRotation crypto env oldMeta entry.material newMeta encryptedNew
    modifyKeys (·.mutate keyId (·.withStatus .obsolete))
    modifyKeys (·.insertWithEviction newMeta.id { keyMeta := newMeta, material := newMaterial })
    return newMeta

def deleteKey (keyId : Uuid) (tenantId : String) : M Unit := do
  let _ ← entryFor crypto env keyId tenantId
  mapInternal (Repo.softDelete env keyId "kms-system")
  modifyKeys (·.mutate keyId (·.withStatus .pendingDeletion))

/-- `keys.remove(key_id).ok_or_else(KeyNotFound)`. -/
def removeKey (keyId : Uuid) : M KeyEntry := do
  match (← get).keys.remove keyId with
  | (none, _) => fail (.keyNotFound keyId.text)
  | (some entry, keys) =>
    modify fun s => { s with keys }
    return entry

def destroyKey (keyId : Uuid) : M Unit := do
  let _ ← removeKey keyId
  return ()

def destroyKeyWithProof (keyId : Uuid) : M DestructionProof := do
  let entry ← removeKey keyId
  return .new (env.now 0) keyId (hexEncode (crypto.sha256 entry.material)) entry.material.length true none

/-! ## Using keys -/

def cryptoEncrypt (material : Bytes) (spec : KeySpec) (keyId : Uuid) (tenantId : String) (version : UInt32)
    (plaintext : Bytes) : Except Abort Ciphertext :=
  match spec with
  | .aes256Gcm | .hmacSha256 =>
    match crypto.aesUnboundKey material, fill env 0 12 with
    | .error e, _ => .error (.error (.encryptionFailed e))
    | .ok _, none => .error (.error (.encryptionFailed "failed to generate nonce"))
    | .ok _, some nonce =>
      match crypto.aesSeal material nonce (userDataAad crypto keyId tenantId version) plaintext with
      | .error e => .error (.error (.encryptionFailed e))
      | .ok (ciphertext, tag) => .ok { keyId, version, formatVersion := 2, nonce, ciphertext, tag }
  | .sm4 =>
    match crypto.sm4Cipher material, fill env 0 12 with
    | .error e, _ => .error (.error (.encryptionFailed e))
    | .ok _, none => .error (.error (.encryptionFailed "failed to generate nonce"))
    | .ok _, some nonce =>
      match crypto.sm4Encrypt material nonce (userDataAad crypto keyId tenantId version) plaintext with
      | .error e => .error (.error (.encryptionFailed e))
      | .ok (ciphertext, tag) => .ok { keyId, version, formatVersion := 2, nonce, ciphertext, tag }
  | .sm2 =>
    match crypto.sm2KeyPair material with
    | .error e => .error (.error (.encryptionFailed e))
    | .ok _ =>
      match crypto.sm2Encrypt env.seed material plaintext with
      | .error e => .error (.error (.encryptionFailed e))
      | .ok encrypted =>
        if encrypted.length < 97 then .error (.panic "range end index out of range for slice")
        else .ok
          { keyId, version
            formatVersion := 1
            nonce := encrypted.take 65
            ciphertext := encrypted.drop 97
            tag := (encrypted.drop 65).take 32 }
  | spec =>
    let name := spec.debug
    .error (.error (.invalidAlgorithm s!"Encryption not supported for {name}"))

/-- The additional data a ciphertext was sealed with, by its format version. -/
def ciphertextAad (ciphertext : Ciphertext) (tenantId : String) : Except Abort Bytes :=
  if ciphertext.formatVersion = 0 ∨ ciphertext.formatVersion = 1 then .ok []
  else if ciphertext.formatVersion = 2 then
    .ok (userDataAad crypto ciphertext.keyId tenantId ciphertext.version)
  else .error (.error .invalidCiphertext)

def cryptoDecrypt (material : Bytes) (spec : KeySpec) (ciphertext : Ciphertext) (tenantId : String) :
    Except Abort Bytes :=
  match spec with
  | .aes256Gcm | .hmacSha256 =>
    match crypto.aesUnboundKey material with
    | .error e => .error (.error (.decryptionFailed e))
    | .ok _ =>
      if ciphertext.nonce.length ≠ 12 then .error (.error .invalidCiphertext)
      else
        match ciphertextAad crypto ciphertext tenantId with
        | .error e => .error e
        | .ok aad =>
          match crypto.aesOpen material ciphertext.nonce aad (ciphertext.ciphertext ++ ciphertext.tag) with
          | none => .error (.error .invalidCiphertext)
          | some plaintext => .ok plaintext
  | .sm4 =>
    match crypto.sm4Cipher material with
    | .error e => .error (.error (.decryptionFailed e))
    | .ok _ =>
      match ciphertextAad crypto ciphertext tenantId with
      | .error e => .error e
      | .ok aad =>
        match crypto.sm4Decrypt material ciphertext.nonce aad ciphertext.ciphertext ciphertext.tag with
        | none => .error (.error .invalidCiphertext)
        | some plaintext => .ok plaintext
  | .sm2 =>
    match crypto.sm2KeyPair material with
    | .error e => .error (.error (.decryptionFailed e))
    | .ok _ =>
      if ciphertext.nonce.length ≠ 65 ∨ ciphertext.tag.length ≠ 32 then .error (.error .invalidCiphertext)
      else
        match crypto.sm2Decrypt material (ciphertext.nonce ++ ciphertext.tag ++ ciphertext.ciphertext) with
        | none => .error (.error .invalidCiphertext)
        | some plaintext => .ok plaintext
  | spec =>
    let name := spec.debug
    .error (.error (.invalidAlgorithm s!"Decryption not supported for {name}"))

def cryptoSign (material : Bytes) (spec : KeySpec) (keyId : Uuid) (version : UInt32) (data : Bytes) :
    Except Abort Signature :=
  match spec with
  | .ed25519 =>
    match crypto.ed25519KeyPair material with
    | .error e => .error (.error (.signatureFailed e))
    | .ok _ => .ok { keyId, version, signature := crypto.ed25519Sign material data }
  | .sm2 =>
    match crypto.sm2KeyPair material with
    | .error e => .error (.error (.signatureFailed e))
    | .ok _ =>
      match crypto.sm2Sign env.seed material data with
      | .error e => .error (.error (.signatureFailed e))
      | .ok signature => .ok { keyId, version, signature }
  | spec =>
    let name := spec.debug
    .error (.error (.invalidAlgorithm s!"Signing not supported for {name}"))

def cryptoVerify (material : Bytes) (spec : KeySpec) (data : Bytes) (sig : Signature) : Except Abort Bool :=
  match spec with
  | .ed25519 =>
    match crypto.ed25519KeyPair material with
    | .error e => .error (.error (.verificationFailed e))
    | .ok _ => .ok (crypto.ed25519Verify material data sig.signature)
  | .sm2 =>
    match crypto.sm2KeyPair material, crypto.sm2Verifier material with
    | .error e, _ => .error (.error (.verificationFailed e))
    | .ok _, .error e => .error (.error (.verificationFailed e))
    | .ok _, .ok _ => .ok (crypto.sm2Verify material data sig.signature)
  | spec =>
    let name := spec.debug
    .error (.error (.invalidAlgorithm s!"Verification not supported for {name}"))

/-- The four derivations of `SoftwareKeystore`. The two ECDH ones draw a fresh
ephemeral secret and leave the key's material unread. -/
def deriveSecret (material peerPublicKey : Bytes) (algorithm : DhAlgorithm) : Except Abort Bytes :=
  match algorithm with
  | .ecdsaP256 =>
    match crypto.p256Ecdh env.seed peerPublicKey with
    | .error e => .error (.error (.keyExchangeFailed s!"invalid P-256 public key: {e}"))
    | .ok secret => .ok secret
  | .ecdsaP384 =>
    match crypto.p384Ecdh env.seed peerPublicKey with
    | .error e => .error (.error (.keyExchangeFailed s!"invalid P-384 public key: {e}"))
    | .ok secret => .ok secret
  | .x25519 =>
    if material.length < 32 then
      .error (.error (.keyExchangeFailed "X25519 private key must be at least 32 bytes"))
    else if peerPublicKey.length ≠ 32 then
      .error (.error (.keyExchangeFailed "X25519 public key must be exactly 32 bytes"))
    else .ok (crypto.x25519 (material.take 32) peerPublicKey)
  | .sm2Kex =>
    .error (.error (.keyExchangeFailed ("SM2-KEX requires session-based API. Use create_sm2_kex_session and " ++
      "process_sm2_kex_message")))

def getKeyMetadata (keyId : Uuid) : M KeyMeta := do
  match (← get).keys.getCloned keyId with
  | some entry => return entry.keyMeta
  | none =>
    match ← Repo.findById env keyId with
    | some keyMeta => return keyMeta
    | none => fail (.keyNotFound keyId.text)

/-- The material of a historical version, from `key_versions`. -/
def materialForVersion (keyId : Uuid) (version : UInt32) : M Bytes := do
  let id := keyId.text
  let n := version.toNat
  match ← mapInternal (Repo.getVersion env keyId version) with
  | none => fail (.keyVersionNotFound s!"{id} (version {n})")
  | some row =>
    match row.encryptedDek with
    | none => fail (.keyVersionNotFound s!"{id} (version {n} has no stored material)")
    | some encrypted => lift (decryptMaterial crypto (← kekOf) keyId encrypted)

def encrypt (keyId : Uuid) (plaintext : Bytes) (tenantId : String) : M Ciphertext := do
  let entry ← entryFor crypto env keyId tenantId
  if entry.keyMeta.status ≠ .active then
    let id := keyId.text
    fail (.keyOperationNotAllowed s!"Key {id} is not active")
  else
    lift (cryptoEncrypt crypto env entry.material entry.keyMeta.spec keyId tenantId entry.keyMeta.version plaintext)

def decrypt (keyId : Uuid) (ciphertext : Ciphertext) (tenantId : String) : M Bytes := do
  let entry ← entryFor crypto env keyId tenantId
  if !entry.keyMeta.status.canDecrypt then
    let id := keyId.text
    fail (.keyOperationNotAllowed s!"Key {id} cannot decrypt")
  else
    let keyMaterial ← (if ciphertext.version = entry.keyMeta.version then pure entry.material
      else materialForVersion crypto env keyId ciphertext.version : M Bytes)
    lift (cryptoDecrypt crypto keyMaterial entry.keyMeta.spec ciphertext entry.keyMeta.tenantId)

def sign (keyId : Uuid) (data : Bytes) (tenantId : String) : M Signature := do
  let entry ← entryFor crypto env keyId tenantId
  if entry.keyMeta.status ≠ .active then
    let id := keyId.text
    fail (.keyOperationNotAllowed s!"Key {id} is not active")
  else lift (cryptoSign crypto env entry.material entry.keyMeta.spec keyId entry.keyMeta.version data)

def verify (keyId : Uuid) (data : Bytes) (sig : Signature) (tenantId : String) : M Bool := do
  let entry ← entryFor crypto env keyId tenantId
  lift (cryptoVerify crypto entry.material entry.keyMeta.spec data sig)

def exportKeyMaterial (keyId : Uuid) (tenantId : String) : M Bytes := do
  let entry ← entryFor crypto env keyId tenantId
  if entry.keyMeta.status ≠ .active then
    let id := keyId.text
    fail (.keyOperationNotAllowed s!"Key {id} is not active for export")
  else return entry.material

def getKeyMaterial (keyId : Uuid) (tenantId : String) : M Bytes := do
  let entry ← entryFor crypto env keyId tenantId
  return entry.material

def getKeyMaterialVersion (keyId : Uuid) (version : UInt32) (tenantId : String) : M Bytes := do
  let entry ← entryFor crypto env keyId tenantId
  if version = 0 ∨ version = entry.keyMeta.version then return entry.material
  else materialForVersion crypto env keyId version

def deriveSharedSecret (keyId : Uuid) (peerPublicKey : Bytes) (algorithm : DhAlgorithm) (tenantId : String) :
    M SharedSecret := do
  let entry ← entryFor crypto env keyId tenantId
  let secret ← lift (deriveSecret crypto env entry.material peerPublicKey algorithm)
  return { secret, kdf := some "HKDF-SHA256" }

def listKeys (filter : KeyFilter) : M (List KeyMeta) :=
  match filter.tenantId with
  | none => fail (.internal "list_keys called without tenant_id — tenant isolation violated")
  | some tenantId => mapInternal (Repo.list env tenantId (filter.limit.map Db.asI64) (filter.offset.map Db.asI64))

/-! ## Startup -/

/-- `load_one_into_cache`: whether the key was inserted. -/
def loadOneIntoCache (keyMeta : KeyMeta) : M Bool := do
  match ← Repo.findEncryptedMaterial env keyMeta.id with
  | none => return false
  | some encrypted =>
    match decryptMaterial crypto (← kekOf) keyMeta.id encrypted with
    | .error (.error e) =>
      let id := keyMeta.id.text
      let reason := e.text
      fail (.internal (s!"Failed to decrypt key {id} from database: {reason}. " ++
        "This may indicate the KEK has changed."))
    | .error (.panic message) => throw (.panic message)
    | .ok material =>
      modifyKeys (·.insertWithEviction keyMeta.id { keyMeta, material })
      return true

/-- The loop of both preloads: a key that cannot be loaded is skipped. Returns how many were. -/
def preload : List KeyMeta → M ℕ
  | [] => pure 0
  | keyMeta :: metas => fun s =>
    match loadOneIntoCache crypto env keyMeta s with
    | .ok true s' => (do return (← preload metas) + 1 : M ℕ) s'
    | .ok false s' => preload metas s'
    | .error (.error _) s' => preload metas s'
    | .error (.panic message) s' => .error (.panic message) s'

/-- The task of `spawn_load_keys`, run to its end. -/
def spawnLoadKeys : M ℕ := do
  let metas ← Repo.listAllTenants env none none
  let loaded ← preload crypto env metas
  modify fun s => { s with keysReady := true }
  return loaded

def loadKeys : M Unit := do
  let _ ← spawnLoadKeys crypto env
  return ()

def health : M HealthStatus := fun s =>
  match Repo.listAllTenants env (some 1) none s with
  | .ok _ s' => .ok (if s'.keysReady then .healthy else .unknown) s'
  | .error _ s' => .ok .degraded s'

/-- A new process over the same database, with the key encryption key it loads. -/
def restart (kek : Bytes) : M Unit :=
  modify fun s => { s with keys := .new s.keys.capacity, kek, keysReady := false }

end

end GmKms.Keystore.Postgres
