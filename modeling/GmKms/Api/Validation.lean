import GmKms.Api.Auth
import GmKms.Core.Types
import GmKms.Lib.Base64
/-!
# Validation of requests

`validation.rs`: the checks of names, specifications, tenants and sizes that the REST
handlers make. The text of an error of the base64 decoder is a parameter.
-/

namespace GmKms.Api.Validation

open Lib

def maxKeyNameLength : ℕ := 256

/-- 16 MiB. -/
def maxDataLength : ℕ := 16 * 1024 * 1024

/-- 64 KiB. -/
def maxAadLength : ℕ := 64 * 1024

def supportedSpecs : List String :=
  ["aes-256-gcm", "ed25519", "ecdsa-p256", "ecdsa-p384", "sm4", "sm2", "sm9-signing", "sm9-encryption", "hmac-sha256",
    "hmac-sm3", "ed448", "rsa4096"]

/-- `KEY_NAME_REGEX`. -/
def isKeyName (name : String) : Bool :=
  match name.toList with
  | [] => false
  | c :: cs => c.isAlphanum && cs.length ≤ 255 && cs.all fun c => c.isAlphanum || c = '.' || c = '_' || c = '-'

inductive ValidationError where
  | invalidSpec (value : String)
  | invalidKeyName (value reason : String)
  | dataTooLarge (size max : ℕ)
  | invalidBase64 (reason : String)
  | invalidTenantId (value : String)
  | emptyField (field : String)
  deriving DecidableEq, Repr

/-- The `Debug` text of a list of plain strings. -/
def debugList (items : List String) : String :=
  "[" ++ ", ".intercalate (items.map fun s => "\x22" ++ s ++ "\x22") ++ "]"

def ValidationError.message : ValidationError → String
  | invalidSpec value =>
    let specs := debugList supportedSpecs
    s!"unsupported spec: '{value}'. Supported: {specs}"
  | invalidKeyName value reason => s!"invalid key name '{value}': {reason}"
  | dataTooLarge size max => s!"data size {size} exceeds maximum {max}"
  | invalidBase64 reason => s!"invalid base64 encoding: {reason}"
  | invalidTenantId value => s!"invalid tenant ID: '{value}'. Tenant IDs must be 1-128 alphanumeric characters"
  | emptyField field => s!"{field} cannot be empty"

def validateSpec (spec : String) : Except ValidationError Unit :=
  if toLowercase spec ∉ supportedSpecs then .error (.invalidSpec spec) else .ok ()

def validateKeyName (name : String) : Except ValidationError Unit :=
  if name = "" then .error (.emptyField "name")
  else if maxKeyNameLength < name.utf8ByteSize then
    .error (.invalidKeyName name s!"exceeds maximum length of {maxKeyNameLength} characters")
  else if !isKeyName name then
    .error (.invalidKeyName name
      "must start with alphanumeric and contain only alphanumeric, dash, underscore, or period")
  else .ok ()

def validateTenantId (tenantId : String) : Except ValidationError Unit :=
  if tenantId = "" then .error (.emptyField "tenant_id")
  else if 128 < tenantId.utf8ByteSize then .error (.invalidTenantId tenantId)
  else if !tenantId.toList.all fun c => c.isAlphanum || c = '-' || c = '_' then .error (.invalidTenantId tenantId)
  else .ok ()

def validateDataLength (data : String) (max : ℕ) : Except ValidationError Unit :=
  if max < data.utf8ByteSize then .error (.dataTooLarge data.utf8ByteSize max) else .ok ()

section

variable (decodeError : String → String)

def validateBase64 (data : String) (maxDecodedLen : ℕ) : Except ValidationError ℕ :=
  match Base64.decode data with
  | none => .error (.invalidBase64 (decodeError data))
  | some decoded => if maxDecodedLen < decoded.length then .error (.dataTooLarge decoded.length maxDecodedLen)
    else .ok decoded.length

/-- The check of `aad` that both requests for data make last. -/
def validateAad : Option String → Except ValidationError Unit
  | none => .ok ()
  | some aad => do
    validateDataLength aad maxAadLength
    let _ ← validateBase64 decodeError aad maxAadLength

def validateCreateKeyRequest (name spec tenantId : String) : Except ValidationError Unit := do
  validateKeyName name
  validateSpec spec
  validateTenantId tenantId

def validateEncryptRequest (plaintext : String) (aad : Option String) : Except ValidationError Unit := do
  validateDataLength plaintext maxDataLength
  let decodedLen ← validateBase64 decodeError plaintext maxDataLength
  if decodedLen = 0 then .error (.emptyField "plaintext")
  else validateAad decodeError aad

def validateDecryptRequest (ciphertext nonce tag : String) (aad : Option String) : Except ValidationError Unit := do
  validateDataLength ciphertext maxDataLength
  let _ ← validateBase64 decodeError ciphertext maxDataLength
  validateDataLength nonce 1024
  let _ ← validateBase64 decodeError nonce 1024
  validateDataLength tag 1024
  let _ ← validateBase64 decodeError tag 1024
  validateAad decodeError aad

end

end GmKms.Api.Validation
