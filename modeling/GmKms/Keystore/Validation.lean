import GmKms.Core.Error
import GmKms.Core.Key
/-!
# Validation of imported key material

`validation.rs`: a format check for each specification. The checks read lengths
and leading bytes; the SM2 check indexes a table that is shorter than its loop
assumes, so a panic is one of its outcomes.
-/

namespace GmKms.Keystore

/-- `validation::KeyMetadata`. -/
structure ValidationMetadata where
  curve : Option String
  usage : Option String
  deriving DecidableEq, Repr

structure KeyValidationResult where
  valid : Bool
  error : Option String
  metadata : ValidationMetadata
  deriving DecidableEq, Repr

namespace KeyValidationResult

def accept (curve : Option String) (usage : String) : KeyValidationResult :=
  { valid := true, error := none, metadata := { curve, usage := some usage } }

def reject (error : String) : KeyValidationResult :=
  { valid := false, error := some error, metadata := { curve := none, usage := none } }

end KeyValidationResult

open KeyValidationResult

/-- `validate_pkcs8_ed25519`. -/
def validatePkcs8Ed25519 (material : Bytes) : Except Abort Unit :=
  if material.length < 48 then .error (.error (.invalidAlgorithm "PKCS#8 Ed25519 key too short"))
  else if material.head? ≠ some 0x30 then
    .error (.error (.invalidAlgorithm "Invalid PKCS#8: expected SEQUENCE"))
  else .ok ()

def validateEd25519Key (material : Bytes) : Except Abort KeyValidationResult :=
  if material.length = 32 then .ok (accept (some "Ed25519") "signing")
  else if 48 ≤ material.length then do
    validatePkcs8Ed25519 material
    .ok (accept (some "Ed25519") "signing")
  else
    let n := material.length
    .ok (reject s!"Ed25519 private key must be 32 bytes (raw) or 48+ bytes (PKCS#8), got {n} bytes")

def validateEd448Key (material : Bytes) : Except Abort KeyValidationResult :=
  if material.length = 57 then .ok (accept (some "Ed448") "signing")
  else if 64 ≤ material.length then .ok (accept (some "Ed448") "signing")
  else
    let n := material.length
    .ok (reject s!"Ed448 private key must be 57 bytes (raw), got {n} bytes")

/-- `validate_pkcs8_ec`. -/
def validatePkcs8Ec (curve : String) (material : Bytes) : Except Abort Unit :=
  if material.length < 40 then .error (.error (.invalidAlgorithm "PKCS#8 EC key too short"))
  else if material.head? ≠ some 0x30 then
    .error (.error (.invalidAlgorithm "Invalid PKCS#8: expected SEQUENCE"))
  else if curve = "P-256" ∨ curve = "P-384" then .ok ()
  else .error (.error (.invalidAlgorithm s!"Unknown curve: {curve}"))

def validateEcdsaKey (material : Bytes) (curve : String) : Except Abort KeyValidationResult := do
  let expectedSize ←
    if curve = "P-256" then pure 32
    else if curve = "P-384" then pure 48
    else .error (.error (.invalidAlgorithm s!"Unknown curve: {curve}"))
  if material.length = expectedSize then .ok (accept (some curve) "signing")
  else if expectedSize + 8 ≤ material.length then do
    validatePkcs8Ec curve material
    .ok (accept (some curve) "signing")
  else
    let pkcs8 := expectedSize + 8
    let n := material.length
    .ok (reject (s!"{curve} private key must be {expectedSize} bytes (raw) or {pkcs8} bytes (PKCS#8), " ++
      s!"got {n} bytes"))

/-- The constant `SM2_N` of `validate_sm2_key`: 28 bytes, where the loop expects 32. -/
def sm2N : Bytes :=
  [0xFF, 0xFF, 0xFE, 0xFF, 0xFF, 0xFF, 0xFF, 0xFF, 0xFF, 0xFF, 0xFF, 0xFF, 0x72, 0x03, 0xDF, 0x6B, 0x21,
   0xC6, 0x05, 0x2B, 0x53, 0xBB, 0xF4, 0x09, 0x39, 0xD5, 0x41, 0x23]

/-- The loop of `validate_sm2_key`, from key byte `i - 1` down to byte 0 against
`SM2_N[31 - i]`: `false` when the key is found too large. -/
def sm2BelowOrder (key : Bytes) : ℕ → Except Abort Bool
  | 0 => .ok true
  | i + 1 =>
    match sm2N[31 - i]? with
    | none =>
      let index := 31 - i
      .error (.panic s!"index out of bounds: the len is 28 but the index is {index}")
    | some nByte =>
      let keyByte := key.getD i 0
      if nByte < keyByte then .ok false
      else if keyByte < nByte then .ok true
      else sm2BelowOrder key i

def validateSm2Key (material : Bytes) : Except Abort KeyValidationResult :=
  if material.length ≠ 32 then
    let n := material.length
    .ok (reject s!"SM2 private key must be 32 bytes, got {n} bytes")
  else if material.all (· = 0) then .ok (reject "SM2 private key cannot be zero")
  else do
    if ← sm2BelowOrder material 32 then .ok (accept (some "SM2") "signing/encryption")
    else .ok (reject "SM2 private key >= curve order (invalid)")

def rsa4096Min : ℕ := 2300

def rsa4096Max : ℕ := 5000

def validateRsaKey (material : Bytes) : Except Abort KeyValidationResult :=
  if ¬ (rsa4096Min ≤ material.length ∧ material.length ≤ rsa4096Max) then
    let n := material.length
    .ok (reject (s!"RSA-4096 private key (DER PKCS#1/PKCS#8) must be {rsa4096Min}-{rsa4096Max} bytes, " ++
      s!"got {n} bytes"))
  else if material.head? ≠ some 0x30 then .ok (reject "Invalid RSA key: expected SEQUENCE (PKCS#8)")
  else .ok (accept none "signing/encryption")

def validateSymmetricKey (material : Bytes) (expectedSize : ℕ) : Except Abort KeyValidationResult :=
  if material.length ≠ expectedSize then
    let n := material.length
    .ok (reject s!"Symmetric key must be {expectedSize} bytes, got {n} bytes")
  else if material.all (· = 0) then .ok (reject "Weak key detected: all zeros")
  else if material.all (· = 0xFF) then .ok (reject "Weak key detected: all 0xFF")
  else .ok { valid := true, error := none, metadata := { curve := none, usage := none } }

def validateKeyMaterial (spec : KeySpec) (material : Bytes) : Except Abort KeyValidationResult :=
  match spec with
  | .ed25519 => validateEd25519Key material
  | .ecdsaP256 => validateEcdsaKey material "P-256"
  | .ecdsaP384 => validateEcdsaKey material "P-384"
  | .sm2 => validateSm2Key material
  | .rsa4096 => validateRsaKey material
  | .aes256Gcm | .hmacSha256 | .sm3Hmac => validateSymmetricKey material 32
  | .sm4 => validateSymmetricKey material 16
  | .sm9Signing | .sm9Encryption =>
    let name := spec.algorithmName
    .ok (reject (s!"{name} is not importable; SM9 requires KMS-SM9 master-key management " ++
      "(not yet supported)"))
  | .ed448 => validateEd448Key material

/-- The two checks `import_key_material` makes of the validator's answer, shared
word for word by both keystores. -/
def checkImport (spec : KeySpec) (material : Bytes) : Except Abort Unit :=
  match validateKeyMaterial spec material with
  | .error (.error e) =>
    let reason := e.text
    .error (.error (.invalidAlgorithm s!"key validation failed: {reason}"))
  | .error (.panic message) => .error (.panic message)
  | .ok validation =>
    if !validation.valid then
      let name := spec.debug
      let reason := validation.error.getD "unknown error"
      .error (.error (.invalidAlgorithm s!"invalid key material for {name}: {reason}"))
    else .ok ()

end GmKms.Keystore
