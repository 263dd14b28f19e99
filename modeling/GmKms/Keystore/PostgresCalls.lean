import GmKms.Keystore.Postgres
/-!
# Calls on the PostgreSQL keystore

The methods of `KeystoreBackend` with the preloads and the restart, as one
machine: a call carries its arguments and what it reads from outside, and
answers with the value or the error of the method.
-/

namespace GmKms.Keystore.Postgres

open Lib Lib.Effect

inductive Op where
  | generateKey (spec : KeySpec) (name tenantId : String)
  | importKeyMaterial (spec : KeySpec) (name tenantId : String) (material : Bytes)
  | rotateKey (keyId : Uuid) (tenantId : String)
  | deleteKey (keyId : Uuid) (tenantId : String)
  | destroyKey (keyId : Uuid)
  | destroyKeyWithProof (keyId : Uuid)
  | getKeyMetadata (keyId : Uuid)
  | encrypt (keyId : Uuid) (plaintext : Bytes) (tenantId : String)
  | decrypt (keyId : Uuid) (ciphertext : Ciphertext) (tenantId : String)
  | sign (keyId : Uuid) (data : Bytes) (tenantId : String)
  | verify (keyId : Uuid) (data : Bytes) (sig : Signature) (tenantId : String)
  | exportKeyMaterial (keyId : Uuid) (tenantId : String)
  | getKeyMaterial (keyId : Uuid) (tenantId : String)
  | getKeyMaterialVersion (keyId : Uuid) (version : UInt32) (tenantId : String)
  | deriveSharedSecret (keyId : Uuid) (peerPublicKey : Bytes) (algorithm : DhAlgorithm) (tenantId : String)
  | listKeys (filter : KeyFilter)
  | health
  | loadKeys
  | spawnLoadKeys
  | restart (kek : Bytes)

inductive Value where
  | unit
  | count (n : ℕ)
  | flag (b : Bool)
  | bytes (b : Bytes)
  | keyMeta (m : KeyMeta)
  | keyMetas (ms : List KeyMeta)
  | ciphertext (c : Ciphertext)
  | signature (s : Signature)
  | proof (p : DestructionProof)
  | secret (s : SharedSecret)
  | health (h : HealthStatus)
  deriving DecidableEq

/-- A call and what it reads from outside. -/
structure Call where
  env : Env
  op : Op

namespace Op

variable (crypto : Crypto) (env : Env)

def run : Op → M Value
  | generateKey spec name tenantId => do return .keyMeta (← Postgres.generateKey crypto env spec name tenantId)
  | importKeyMaterial spec name tenantId material => do
    return .keyMeta (← Postgres.importKeyMaterial crypto env spec name tenantId material)
  | rotateKey keyId tenantId => do return .keyMeta (← Postgres.rotateKey crypto env keyId tenantId)
  | deleteKey keyId tenantId => do
    Postgres.deleteKey crypto env keyId tenantId
    return .unit
  | destroyKey keyId => do
    Postgres.destroyKey keyId
    return .unit
  | destroyKeyWithProof keyId => do return .proof (← Postgres.destroyKeyWithProof crypto env keyId)
  | getKeyMetadata keyId => do return .keyMeta (← Postgres.getKeyMetadata env keyId)
  | encrypt keyId plaintext tenantId => do
    return .ciphertext (← Postgres.encrypt crypto env keyId plaintext tenantId)
  | decrypt keyId ciphertext tenantId => do return .bytes (← Postgres.decrypt crypto env keyId ciphertext tenantId)
  | sign keyId data tenantId => do return .signature (← Postgres.sign crypto env keyId data tenantId)
  | verify keyId data sig tenantId => do return .flag (← Postgres.verify crypto env keyId data sig tenantId)
  | exportKeyMaterial keyId tenantId => do return .bytes (← Postgres.exportKeyMaterial crypto env keyId tenantId)
  | getKeyMaterial keyId tenantId => do return .bytes (← Postgres.getKeyMaterial crypto env keyId tenantId)
  | getKeyMaterialVersion keyId version tenantId => do
    return .bytes (← Postgres.getKeyMaterialVersion crypto env keyId version tenantId)
  | deriveSharedSecret keyId peerPublicKey algorithm tenantId => do
    return .secret (← Postgres.deriveSharedSecret crypto env keyId peerPublicKey algorithm tenantId)
  | listKeys filter => do return .keyMetas (← Postgres.listKeys env filter)
  | health => do return .health (← Postgres.health env)
  | loadKeys => do
    Postgres.loadKeys crypto env
    return .unit
  | spawnLoadKeys => do return .count (← Postgres.spawnLoadKeys crypto env)
  | restart kek => do
    Postgres.restart kek
    return .unit

/-- The key and the tenant of an operation that acts for a tenant on a key. -/
def tenantKey? : Op → Option (Uuid × String)
  | rotateKey keyId tenantId | deleteKey keyId tenantId | encrypt keyId _ tenantId | decrypt keyId _ tenantId
  | sign keyId _ tenantId | verify keyId _ _ tenantId | exportKeyMaterial keyId tenantId
  | getKeyMaterial keyId tenantId | getKeyMaterialVersion keyId _ tenantId
  | deriveSharedSecret keyId _ _ tenantId => some (keyId, tenantId)
  | _ => none

/-- The key that an operation destroys. -/
def destroys? : Op → Option Uuid
  | destroyKey keyId | destroyKeyWithProof keyId => some keyId
  | _ => none

end Op

/-- The keystore as a machine that answers calls. -/
def call (crypto : Crypto) : Machine Store Call (Except Abort Value) := fun s c =>
  outcome (c.op.run crypto c.env) s

/-- A call that draws the id `uuid`, at time 0, over a database that answers. -/
def sampleEnv (uuid : Uuid) : Env where
  uuid _ := uuid
  now _ := 0
  dbNow := 0
  random _ := some fun _ => 7
  seed := 0
  rank _ := 0
  fault _ := none

end GmKms.Keystore.Postgres
