import GmKms.Core.Error
import GmKms.Core.Key
import GmKms.Lib.Machine
/-!
# SM9 master keys

`Sm9RotationAdapter`: each tenant has a `KeyRotationManager` with the versions of its signing
and of its encryption key, and a registry says which of them an id stands for.
-/

namespace GmKms.Sm9

open Lib

instance transOrd_tenant : Std.TransOrd String := inferInstance

inductive Sm9KeyType where
  | signing | encryption
  deriving DecidableEq

namespace Sm9KeyType

def text : Sm9KeyType → String
  | signing => "signing"
  | encryption => "encryption"

/-- The abbreviation in the messages of failed calls. -/
def short : Sm9KeyType → String
  | signing => "sign"
  | encryption => "enc"

def spec : Sm9KeyType → KeySpec
  | signing => .sm9Signing
  | encryption => .sm9Encryption

end Sm9KeyType

structure RotationRecord where
  fromVersion : UInt32
  toVersion : UInt32

/-- The `gm-sm9-rs` crate: `SignMasterKey` and `EncMasterKey` with what is serialized of them, and
its `KeyRotationManager`, whose operations come once for each type of key. -/
structure Sm9Crate (MasterKey : Sm9KeyType → Type) (Manager : Type) where
  scalarBytes : ∀ t, MasterKey t → Bytes
  toAffine : ∀ t, MasterKey t → Option (Bytes × Bytes)
  new : Manager
  register : ∀ t, Manager → MasterKey t → Except String UInt32 × Manager
  rotate : ∀ t, Manager → MasterKey t → UInt64 → Except String RotationRecord × Manager
  get : ∀ t, Manager → UInt32 → Option (MasterKey t)
  currentVersion : Sm9KeyType → Manager → UInt32
  current : ∀ t, Manager → Option (MasterKey t)

structure Sm9KeyEntry where
  tenantId : String
  keyType : Sm9KeyType
  version : UInt32
  kmsKeyId : Uuid
  deriving DecidableEq

structure Sm9RotationResult where
  newVersion : UInt32
  oldVersion : UInt32
  gracePeriodSecs : UInt64
  metadata : KeyMeta

/-- What a call reads from outside: the clock, a fresh id, a generated master key, and the answer of
the store that encrypts under the KEK. -/
structure Sm9Env (MasterKey : Sm9KeyType → Type) where
  now : Clock
  uuid : Uuid
  generated : ∀ t, Except String (MasterKey t)
  kekEncrypt : Bytes → Except Error Unit

structure Sm9RotationAdapter (Manager : Type) where
  managers : HashMap String Manager
  keyRegistry : HashMap Uuid Sm9KeyEntry

namespace Sm9RotationAdapter

variable {MasterKey : Sm9KeyType → Type} {Manager : Type}

def new : Sm9RotationAdapter Manager := ⟨∅, ∅⟩

section

variable (sm9 : Sm9Crate MasterKey Manager)

def serializeMasterKey (t : Sm9KeyType) (key : MasterKey t) : Except Error Bytes :=
  match sm9.toAffine t key with
  | none => .error (.masterKeyError "Identity point cannot be serialized")
  | some (x, y) => .ok (sm9.scalarBytes t key ++ x ++ y)

/-- The new key material is encrypted under the KEK, and what that returns is dropped. -/
def persist (env : Sm9Env MasterKey) (t : Sm9KeyType) (key : MasterKey t) : Except Error Unit :=
  match serializeMasterKey sm9 t key with
  | .error e => .error e
  | .ok keyBytes => env.kekEncrypt keyBytes

def registerKey (t : Sm9KeyType) (s : Sm9RotationAdapter Manager) (env : Sm9Env MasterKey) (tenantId : String)
    (key : MasterKey t) : Except Error (Uuid × UInt32) × Sm9RotationAdapter Manager :=
  let keyId := env.uuid
  let (r, manager) := sm9.register t (s.managers[tenantId]?.getD sm9.new) key
  let s := { s with managers := s.managers.insert tenantId manager }
  match r with
  | .error e =>
    let type := t.short
    (.error (.masterKeyError s!"SM9 {type} key registration failed: {e}"), s)
  | .ok version =>
    match persist sm9 env t key with
    | .error e => (.error e, s)
    | .ok () =>
      let entry := { tenantId, keyType := t, version, kmsKeyId := keyId }
      (.ok (keyId, version), { s with keyRegistry := s.keyRegistry.insert keyId entry })

def registerSignKey := registerKey sm9 .signing

def registerEncKey := registerKey sm9 .encryption

def getEntry (s : Sm9RotationAdapter Manager) (keyId : Uuid) : Except Error Sm9KeyEntry :=
  match s.keyRegistry[keyId]? with
  | none => .error (.keyNotFound keyId.text)
  | some entry => .ok entry

def updateRegistryVersion (s : Sm9RotationAdapter Manager) (now : Clock) (keyId : Uuid) (newVersion : UInt32) :
    Except Error KeyMeta × Sm9RotationAdapter Manager :=
  match s.keyRegistry[keyId]? with
  | none => (.error (.keyNotFound keyId.text), s)
  | some entry =>
    let type := entry.keyType.text
    let n := newVersion.toNat
    (.ok
      { id := entry.kmsKeyId
        tenantId := entry.tenantId
        name := s!"sm9-{type}-v{n}"
        spec := entry.keyType.spec
        status := .active
        createdAt := now 0
        rotatedAt := some (now 1)
        version := newVersion
        description := some s!"SM9 {type} master key (rotated)"
        metadata := .default },
      { s with keyRegistry := s.keyRegistry.insert keyId { entry with version := newVersion } })

/-- `article` is how the message of a wrong type names the right one. -/
def rotateKey (t : Sm9KeyType) (article : String) (s : Sm9RotationAdapter Manager) (env : Sm9Env MasterKey)
    (keyId : Uuid) (gracePeriodSecs : UInt64) : Except Error Sm9RotationResult × Sm9RotationAdapter Manager :=
  match s.getEntry keyId with
  | .error e => (.error e, s)
  | .ok entry =>
    if entry.keyType ≠ t then (.error (.masterKeyError s!"Key is not {article} key"), s)
    else match env.generated t with
      | .error e => (.error (.masterKeyError s!"SM9 key generation failed: {e}"), s)
      | .ok newKey =>
        match s.managers[entry.tenantId]? with
        | none => (.error (.masterKeyError "No rotation manager for tenant"), s)
        | some manager =>
          let (r, manager) := sm9.rotate t manager newKey gracePeriodSecs
          let s := { s with managers := s.managers.insert entry.tenantId manager }
          match r with
          | .error e =>
            let type := t.short
            (.error (.masterKeyError s!"SM9 {type} key rotation failed: {e}"), s)
          | .ok rotation =>
            match persist sm9 env t newKey with
            | .error e => (.error e, s)
            | .ok () =>
              match s.updateRegistryVersion env.now keyId rotation.toVersion with
              | (.error e, s) => (.error e, s)
              | (.ok keyMeta, s) =>
                (.ok
                  { newVersion := rotation.toVersion
                    oldVersion := rotation.fromVersion
                    gracePeriodSecs
                    metadata := keyMeta }, s)

def rotateSignKey := rotateKey sm9 .signing "a signing"

def rotateEncKey := rotateKey sm9 .encryption "an encryption"

/-- `current_sign_key` and `current_enc_key`. -/
def currentKey (t : Sm9KeyType) (s : Sm9RotationAdapter Manager) (tenantId : String) : Option (MasterKey t) :=
  s.managers[tenantId]?.bind (sm9.current t)

/-- `sign_key_version` and `enc_key_version`. -/
def keyVersion (t : Sm9KeyType) (s : Sm9RotationAdapter Manager) (tenantId : String) (version : UInt32) :
    Option (MasterKey t) :=
  s.managers[tenantId]?.bind (sm9.get t · version)

end

def keyMeta (s : Sm9RotationAdapter Manager) (now : Clock) (keyId : Uuid) : Except Error KeyMeta :=
  match s.getEntry keyId with
  | .error e => .error e
  | .ok entry =>
    let type := entry.keyType.text
    let n := entry.version.toNat
    .ok
      { id := entry.kmsKeyId
        tenantId := entry.tenantId
        name := s!"sm9-{type}-v{n}"
        spec := entry.keyType.spec
        status := .active
        createdAt := now 0
        rotatedAt := none
        version := entry.version
        description := some s!"SM9 {type} master key"
        metadata := .default }

/-! ## Calls -/

inductive Call (MasterKey : Sm9KeyType → Type) where
  | registerSignKey (env : Sm9Env MasterKey) (tenantId : String) (key : MasterKey .signing)
  | registerEncKey (env : Sm9Env MasterKey) (tenantId : String) (key : MasterKey .encryption)
  | rotateSignKey (env : Sm9Env MasterKey) (keyId : Uuid) (gracePeriodSecs : UInt64)
  | rotateEncKey (env : Sm9Env MasterKey) (keyId : Uuid) (gracePeriodSecs : UInt64)

inductive Reply where
  | registered (r : Except Error (Uuid × UInt32))
  | rotated (r : Except Error Sm9RotationResult)

/-- The adapter as a machine that answers calls. -/
def call (sm9 : Sm9Crate MasterKey Manager) : Machine (Sm9RotationAdapter Manager) (Call MasterKey) Reply
  | s, .registerSignKey env tenantId key => (registerSignKey sm9 s env tenantId key).map .registered id
  | s, .registerEncKey env tenantId key => (registerEncKey sm9 s env tenantId key).map .registered id
  | s, .rotateSignKey env keyId gracePeriodSecs => (rotateSignKey sm9 s env keyId gracePeriodSecs).map .rotated id
  | s, .rotateEncKey env keyId gracePeriodSecs => (rotateEncKey sm9 s env keyId gracePeriodSecs).map .rotated id

end Sm9RotationAdapter

end GmKms.Sm9
