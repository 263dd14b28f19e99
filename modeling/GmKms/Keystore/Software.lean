import GmKms.Core.Key
import GmKms.Keystore.Validation
import GmKms.Lib.Machine
/-!
# The software keystore

`SoftwareKeystore`: keys in memory, each with its current material and the
materials it had before. The methods that change the store are modelled; each
returns its result and the store it leaves, also where it fails.
-/

namespace GmKms.Keystore.Software

open Lib

structure KeyEntry where
  keyMeta : KeyMeta
  material : Bytes
  versions : List (UInt32 × Bytes)
  deriving DecidableEq

/-- The SM2 key exchange sessions are left out. -/
structure SoftwareKeystore where
  keys : HashMap Uuid KeyEntry

/-- What a call reads from outside. -/
structure Env where
  uuid : Uuid
  now : DateTime
  /-- The bytes of `rand::rng`. -/
  random : ℕ → UInt8
  /-- The private key of `Sm2KeyPair::generate`, or its error. -/
  sm2KeyPair : Except String Bytes

/-- `fill_bytes` of a fresh buffer. -/
def Env.fillBytes (env : Env) (len : ℕ) : Bytes := (List.range len).map env.random

namespace SoftwareKeystore

def new : SoftwareKeystore := ⟨∅⟩

def put (ks : SoftwareKeystore) (id : Uuid) (entry : KeyEntry) : SoftwareKeystore :=
  ⟨ks.keys.insert id entry⟩

theorem keys_put (ks : SoftwareKeystore) (id id' : Uuid) (entry : KeyEntry) :
    (ks.put id entry).keys[id']? = if id = id' then some entry else ks.keys[id']? := by
  simp [put, Std.ExtTreeMap.getElem?_insert]

def verifyTenant (ks : SoftwareKeystore) (keyId : Uuid) (tenantId : String) : Except Abort Unit :=
  match ks.keys[keyId]? with
  | none => .error (.error (.keyNotFound keyId.text))
  | some entry => if entry.keyMeta.tenantId ≠ tenantId then .error (.error (.keyNotFound keyId.text)) else .ok ()

def generateAesKey (env : Env) : Bytes := env.fillBytes 32

def generateEd25519Key (env : Env) : Bytes := env.fillBytes 32

def generateSm4Key (env : Env) : Bytes := env.fillBytes 16

def generateSm2Key (env : Env) : Except Abort Bytes :=
  match env.sm2KeyPair with
  | .error e => .error (.error (.signatureFailed s!"Sm2KeyPair::generate failed: {e}"))
  | .ok bytes =>
    match sm2ScalarInRange bytes with
    | .error e =>
      let reason := e.text
      .error (.error (.signatureFailed s!"Sm2KeyPair::generate produced out-of-range scalar: {reason}"))
    | .ok _ => .ok bytes

/-! ## Creating keys -/

/-- The `match spec` of `generate_key`. -/
def generatedMaterial (spec : KeySpec) (env : Env) : Except Abort Bytes :=
  match spec with
  | .aes256Gcm | .hmacSha256 | .sm3Hmac => .ok (generateAesKey env)
  | .ed25519 => .ok (generateEd25519Key env)
  | .sm4 => .ok (generateSm4Key env)
  | .sm2 => generateSm2Key env
  | .sm9Signing | .sm9Encryption =>
    .error (.error (.notImplemented ("SM9 user-key generation requires KMS-SM9 master-key " ++
      "management infrastructure (not yet integrated). Use RSA / SM2 / SM4 / AES instead.")))
  | .rsa4096 => .error (.error (.notImplemented "RSA key generation not yet implemented"))
  | spec =>
    let name := spec.algorithmName
    .error (.error (.notImplemented (s!"{name} key generation is not supported; this algorithm can only be " ++
      "imported (importable) — not generated by the software keystore")))

def newMeta (env : Env) (spec : KeySpec) (name tenantId : String) (description : Option String) : KeyMeta :=
  { id := env.uuid
    tenantId, name, spec
    status := .active
    createdAt := env.now
    rotatedAt := none
    version := 1
    description
    metadata := .default }

def generateKey (ks : SoftwareKeystore) (env : Env) (spec : KeySpec) (name tenantId : String) :
    Except Abort KeyMeta × SoftwareKeystore :=
  match generatedMaterial spec env with
  | .error e => (.error e, ks)
  | .ok material =>
    let keyMeta := newMeta env spec name tenantId none
    (.ok keyMeta, ks.put env.uuid { keyMeta, material, versions := [] })

def importKeyMaterial (ks : SoftwareKeystore) (env : Env) (spec : KeySpec) (name tenantId : String)
    (material : Bytes) : Except Abort KeyMeta × SoftwareKeystore :=
  match checkImport spec material with
  | .error e => (.error e, ks)
  | .ok _ =>
    let keyMeta := newMeta env spec name tenantId (some "imported")
    (.ok keyMeta, ks.put env.uuid { keyMeta, material, versions := [] })

/-! ## Rotation -/

/-- The `match entry.meta.spec` of `rotate_key`. -/
def rotationMaterial (spec : KeySpec) (env : Env) : Except Abort Bytes :=
  match spec with
  | .aes256Gcm | .hmacSha256 | .sm3Hmac => .ok (generateAesKey env)
  | .sm4 => .ok (generateSm4Key env)
  | .sm2 => generateSm2Key env
  | .sm9Signing | .sm9Encryption =>
    .error (.error (.keyOperationNotAllowed ("SM9 key rotation must go through Sm9RotationAdapter. " ++
      "Configure RotationService with .with_sm9_adapter()")))
  | .rsa4096 => .error (.error (.notImplemented "RSA key rotation not yet implemented"))
  | .ed25519 => .ok (generateEd25519Key env)
  | spec =>
    let name := spec.algorithmName
    .error (.error (.notImplemented (s!"{name} key rotation is not supported; the software keystore cannot " ++
      "generate material for this algorithm")))

/-- `mem::take` of the material and the push onto the history. -/
def archive (entry : KeyEntry) : KeyEntry :=
  { entry with material := [], versions := entry.versions ++ [(entry.keyMeta.version, entry.material)] }

def rotateKey (ks : SoftwareKeystore) (env : Env) (keyId : Uuid) (tenantId : String) :
    Except Abort KeyMeta × SoftwareKeystore :=
  match ks.verifyTenant keyId tenantId with
  | .error e => (.error e, ks)
  | .ok _ =>
    match ks.keys[keyId]? with
    | none => (.error (.error (.keyNotFound keyId.text)), ks)
    | some entry =>
      if !entry.keyMeta.status.canRotate then
        let id := keyId.text
        (.error (.error (.keyOperationNotAllowed s!"Key {id} cannot be rotated")), ks)
      else
        let oldVersion := entry.keyMeta.version
        let entry := archive entry
        match rotationMaterial entry.keyMeta.spec env with
        -- the early return leaves the entry archived and without material
        | .error e => (.error e, ks.put keyId entry)
        | .ok newMaterial =>
          let keyMeta := { entry.keyMeta with
            status := .active
            version := oldVersion + 1
            rotatedAt := some entry.keyMeta.createdAt
            createdAt := env.now }
          (.ok keyMeta, ks.put keyId { entry with keyMeta, material := newMaterial })

/-! ## Deletion and destruction -/

def deleteKey (ks : SoftwareKeystore) (keyId : Uuid) (tenantId : String) : Except Abort Unit × SoftwareKeystore :=
  match ks.verifyTenant keyId tenantId with
  | .error e => (.error e, ks)
  | .ok _ =>
    match ks.keys[keyId]? with
    | none => (.error (.error (.keyNotFound keyId.text)), ks)
    | some entry => (.ok (), ks.put keyId { entry with keyMeta := { entry.keyMeta with status := .pendingDeletion } })

def destroyKey (ks : SoftwareKeystore) (keyId : Uuid) : Except Abort Unit × SoftwareKeystore :=
  match ks.keys[keyId]? with
  | none => (.error (.error (.keyNotFound keyId.text)), ks)
  | some _ => (.ok (), ⟨ks.keys.erase keyId⟩)

/-! ## Calls -/

inductive Call where
  | generateKey (env : Env) (spec : KeySpec) (name tenantId : String)
  | importKeyMaterial (env : Env) (spec : KeySpec) (name tenantId : String) (material : Bytes)
  | rotateKey (env : Env) (keyId : Uuid) (tenantId : String)
  | deleteKey (keyId : Uuid) (tenantId : String)
  | destroyKey (keyId : Uuid)

inductive Reply where
  | keyMeta (r : Except Abort KeyMeta)
  | done (r : Except Abort Unit)

/-- The keystore as a machine that answers calls. -/
def call : Machine SoftwareKeystore Call Reply
  | ks, .generateKey env spec name tenantId => (ks.generateKey env spec name tenantId).map .keyMeta id
  | ks, .importKeyMaterial env spec name tenantId material =>
    (ks.importKeyMaterial env spec name tenantId material).map .keyMeta id
  | ks, .rotateKey env keyId tenantId => (ks.rotateKey env keyId tenantId).map .keyMeta id
  | ks, .deleteKey keyId tenantId => (ks.deleteKey keyId tenantId).map .done id
  | ks, .destroyKey keyId => (ks.destroyKey keyId).map .done id

end SoftwareKeystore

end GmKms.Keystore.Software
