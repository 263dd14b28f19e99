import GmKms.Keystore.SoftwareUse
/-!
# The keystore interface

The methods of the trait `KeystoreBackend` as operations with the type of what they
answer, and the software keystore as one implementation of them. The health check
and the SM2 key exchange are left out.
-/

namespace GmKms.Keystore

open Lib

inductive BackendOp where
  | generateKey (spec : KeySpec) (name tenantId : String)
  | getKeyMetadata (keyId : Uuid)
  | encrypt (keyId : Uuid) (plaintext : Bytes) (tenantId : String)
  | decrypt (keyId : Uuid) (ciphertext : Ciphertext) (tenantId : String)
  | sign (keyId : Uuid) (data : Bytes) (tenantId : String)
  | verify (keyId : Uuid) (data : Bytes) (sig : Signature) (tenantId : String)
  | rotateKey (keyId : Uuid) (tenantId : String)
  | deleteKey (keyId : Uuid) (tenantId : String)
  | destroyKey (keyId : Uuid)
  | destroyKeyWithProof (keyId : Uuid)
  | listKeys (filter : KeyFilter)
  | importKeyMaterial (spec : KeySpec) (name tenantId : String) (material : Bytes)
  | exportKeyMaterial (keyId : Uuid) (tenantId : String)
  | getKeyMaterial (keyId : Uuid) (tenantId : String)
  | getKeyMaterialVersion (keyId : Uuid) (version : UInt32) (tenantId : String)
  | deriveSharedSecret (keyId : Uuid) (peerPublicKey : Bytes) (algorithm : DhAlgorithm) (tenantId : String)

namespace BackendOp

/-- What the method returns when it succeeds. -/
@[reducible] def Value : BackendOp → Type
  | generateKey .. | getKeyMetadata .. | rotateKey .. | importKeyMaterial .. => KeyMeta
  | encrypt .. => Ciphertext
  | sign .. => Signature
  | verify .. => Bool
  | deleteKey .. | destroyKey .. => Unit
  | destroyKeyWithProof .. => DestructionProof
  | listKeys .. => List KeyMeta
  | decrypt .. | exportKeyMaterial .. | getKeyMaterial .. | getKeyMaterialVersion .. => Bytes
  | deriveSharedSecret .. => SharedSecret

abbrev Reply (op : BackendOp) : Type := Except Abort op.Value

/-- The key that an operation destroys. -/
def destroys? : BackendOp → Option Uuid
  | destroyKey keyId | destroyKeyWithProof keyId => some keyId
  | _ => none

/-- The operation makes a key under a new id. -/
def creates : BackendOp → Bool
  | generateKey .. | importKeyMaterial .. => true
  | _ => false

end BackendOp

namespace Software

/-- A call and what it reads from outside. -/
structure UseCall where
  env : UseEnv
  op : BackendOp

namespace SoftwareKeystore

variable (crypto : Crypto)

def destroyKeyWithProof (ks : SoftwareKeystore) (env : Env) (keyId : Uuid) :
    Except Abort DestructionProof × SoftwareKeystore :=
  match ks.keys[keyId]? with
  | none => (.error (.error (.keyNotFound keyId.text)), ks)
  | some entry =>
    let materialHash := hexEncode (crypto.sha256 entry.material)
    (.ok (.new env.now keyId materialHash entry.material.length true none), ⟨ks.keys.erase keyId⟩)

/-- `impl KeystoreBackend for SoftwareKeystore`. -/
def perform (env : UseEnv) : (op : BackendOp) → SoftwareKeystore → op.Reply × SoftwareKeystore
  | .generateKey spec name tenantId, ks => ks.generateKey env.toEnv spec name tenantId
  | .getKeyMetadata keyId, ks => (ks.getKeyMetadata keyId, ks)
  | .encrypt keyId plaintext tenantId, ks => (ks.encrypt crypto env keyId plaintext tenantId, ks)
  | .decrypt keyId ciphertext tenantId, ks => (ks.decrypt crypto keyId ciphertext tenantId, ks)
  | .sign keyId data tenantId, ks => (ks.sign crypto env keyId data tenantId, ks)
  | .verify keyId data sig tenantId, ks => (ks.verify crypto keyId data sig tenantId, ks)
  | .rotateKey keyId tenantId, ks => ks.rotateKey env.toEnv keyId tenantId
  | .deleteKey keyId tenantId, ks => ks.deleteKey keyId tenantId
  | .destroyKey keyId, ks => ks.destroyKey keyId
  | .destroyKeyWithProof keyId, ks => ks.destroyKeyWithProof crypto env.toEnv keyId
  | .listKeys filter, ks => (ks.listKeys env filter, ks)
  | .importKeyMaterial spec name tenantId material, ks => ks.importKeyMaterial env.toEnv spec name tenantId material
  | .exportKeyMaterial keyId tenantId, ks => (ks.exportKeyMaterial keyId tenantId, ks)
  | .getKeyMaterial keyId tenantId, ks => (ks.getKeyMaterial keyId tenantId, ks)
  | .getKeyMaterialVersion keyId version tenantId, ks => (ks.getKeyMaterialVersion keyId version tenantId, ks)
  | .deriveSharedSecret keyId peerPublicKey algorithm tenantId, ks =>
    (ks.deriveSharedSecret crypto env keyId peerPublicKey algorithm tenantId, ks)

/-- The keystore as a machine that answers every method of the trait. -/
def use : Machine SoftwareKeystore UseCall (Σ op : BackendOp, op.Reply) := fun ks c =>
  (⟨c.op, (perform crypto c.env c.op ks).1⟩, (perform crypto c.env c.op ks).2)

end SoftwareKeystore

end Software

end GmKms.Keystore
