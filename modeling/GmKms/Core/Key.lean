import GmKms.Core.Error
import GmKms.Core.Types
/-!
# Keys

The key types of `kms-core`: specifications, statuses and metadata, and what
the cryptographic operations exchange.
-/

namespace GmKms

inductive KeySpec where
  | aes256Gcm | rsa4096 | ecdsaP256 | ecdsaP384 | ed25519 | ed448 | hmacSha256 | sm3Hmac | sm2 | sm4
  | sm9Signing | sm9Encryption
  deriving DecidableEq, Repr

namespace KeySpec

def algorithmName : KeySpec → String
  | aes256Gcm => "AES-256-GCM"
  | rsa4096 => "RSA-4096"
  | ecdsaP256 => "ECDSA-P256"
  | ecdsaP384 => "ECDSA-P384"
  | ed25519 => "Ed25519"
  | ed448 => "Ed448"
  | hmacSha256 => "HMAC-SHA256"
  | sm3Hmac => "HMAC-SM3"
  | sm2 => "SM2"
  | sm4 => "SM4"
  | sm9Signing => "SM9-Signing"
  | sm9Encryption => "SM9-Encryption"

/-- The derived `Debug` text, which the repository stores. -/
def debug : KeySpec → String
  | aes256Gcm => "Aes256Gcm"
  | rsa4096 => "Rsa4096"
  | ecdsaP256 => "EcdsaP256"
  | ecdsaP384 => "EcdsaP384"
  | ed25519 => "Ed25519"
  | ed448 => "Ed448"
  | hmacSha256 => "HmacSha256"
  | sm3Hmac => "Sm3Hmac"
  | sm2 => "Sm2"
  | sm4 => "Sm4"
  | sm9Signing => "Sm9Signing"
  | sm9Encryption => "Sm9Encryption"

def isGeneratable : KeySpec → Bool
  | aes256Gcm | hmacSha256 | sm3Hmac | sm4 | sm2 | ed25519 => true
  | _ => false

end KeySpec

inductive KeyStatus where
  | active | pendingDeletion | obsolete | destroyed
  deriving DecidableEq, Repr

namespace KeyStatus

def canDecrypt : KeyStatus → Bool
  | active | pendingDeletion | obsolete => true
  | destroyed => false

def canRotate : KeyStatus → Bool
  | active | obsolete => true
  | _ => false

/-- The derived `Debug` text, which the repository stores. -/
def debug : KeyStatus → String
  | active => "Active"
  | pendingDeletion => "PendingDeletion"
  | obsolete => "Obsolete"
  | destroyed => "Destroyed"

end KeyStatus

/-- `kms_core::key::KeyMetadata`; `labels` in iteration order. -/
structure KeyMetadata where
  tags : List String
  labels : List (String × String)
  maxUsageCount : Option ℕ
  currentUsageCount : ℕ
  allowedOperations : List String
  deriving DecidableEq

/-- `KeyMetadata::default`. -/
def KeyMetadata.default : KeyMetadata := ⟨[], [], none, 0, []⟩

structure KeyMeta where
  id : Uuid
  tenantId : String
  name : String
  spec : KeySpec
  status : KeyStatus
  createdAt : DateTime
  rotatedAt : Option DateTime
  version : UInt32
  description : Option String
  metadata : KeyMetadata
  deriving DecidableEq

/-- `KeyFilter`; no keystore reads the `tags`. -/
structure KeyFilter where
  tenantId : Option String
  status : Option KeyStatus
  spec : Option KeySpec
  tags : Option (List String)
  limit : Option ℕ
  offset : Option ℕ

structure Ciphertext where
  keyId : Uuid
  version : UInt32
  formatVersion : UInt8
  nonce : Bytes
  ciphertext : Bytes
  tag : Bytes
  deriving DecidableEq

structure Signature where
  keyId : Uuid
  version : UInt32
  signature : Bytes
  deriving DecidableEq

structure DestructionProof where
  keyId : Uuid
  materialHash : String
  destroyedAt : DateTime
  hashAlgorithm : String
  keySizeBytes : ℕ
  zeroizationVerified : Bool
  hmacSignature : Option String
  deriving DecidableEq

/-- `DestructionProof::new`. -/
def DestructionProof.new (now : DateTime) (keyId : Uuid) (materialHash : String) (keySizeBytes : ℕ)
    (zeroizationVerified : Bool) (hmacSignature : Option String) : DestructionProof :=
  { keyId, materialHash
    destroyedAt := now
    hashAlgorithm := "SHA256"
    keySizeBytes, zeroizationVerified, hmacSignature }

inductive DhAlgorithm where
  | ecdsaP256 | ecdsaP384 | x25519 | sm2Kex
  deriving DecidableEq, Repr

structure SharedSecret where
  secret : Bytes
  kdf : Option String
  deriving DecidableEq

inductive HealthStatus where
  | healthy | degraded | unhealthy | unknown
  deriving DecidableEq, Repr

/-! ## The SM2 private scalar range -/

/-- `SM2_CURVE_ORDER_N`. -/
def sm2CurveOrderN : Bytes :=
  [0xFF, 0xFF, 0xFF, 0xFE, 0xFF, 0xFF, 0xFF, 0xFF, 0xFF, 0xFF, 0xFF, 0xFF, 0xFF, 0xFF, 0xFF, 0xFF,
   0x72, 0x03, 0xDF, 0x6B, 0x21, 0xC6, 0x05, 0x2B, 0x53, 0xBB, 0xF4, 0x09, 0x39, 0xD5, 0x41, 0x23]

/-- The loop of `sm2_scalar_in_range` over the zipped bytes. -/
def sm2CompareWithOrder : Bytes → Bytes → Except Error Unit
  | a :: as, b :: bs =>
    if a < b then .ok ()
    else if b < a then .error (.invalidSm2Scalar "SM2 private scalar must be < n (got > n)")
    else sm2CompareWithOrder as bs
  | _, _ => .error (.invalidSm2Scalar "SM2 private scalar must be < n (got exactly n)")

def sm2ScalarInRange (scalar : Bytes) : Except Error Unit :=
  if scalar.length ≠ 32 then
    let n := scalar.length
    .error (.invalidSm2Scalar s!"scalar must be 32 bytes, got {n}")
  else if scalar.all (· = 0) then
    .error (.invalidSm2Scalar "SM2 private scalar must be >= 1 (got 0)")
  else sm2CompareWithOrder scalar sm2CurveOrderN

end GmKms
