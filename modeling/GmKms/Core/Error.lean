import Mathlib
/-!
# Errors of the key management crates

`kms_core::error::Error`, less the variants of the TPM and policy code, and the
other way a call can end: a panic.
-/

namespace GmKms

inductive Error where
  | keyNotFound (id : String)
  | keyVersionNotFound (id : String)
  | invalidAlgorithm (reason : String)
  | encryptionFailed (reason : String)
  | decryptionFailed (reason : String)
  | signatureFailed (reason : String)
  | verificationFailed (reason : String)
  | keyExchangeFailed (reason : String)
  | invalidCiphertext
  | invalidSm2Scalar (reason : String)
  | keyOperationNotAllowed (reason : String)
  | internal (reason : String)
  | notImplemented (reason : String)
  | masterKeyError (reason : String)
  deriving DecidableEq, Repr

/-- The `Display` text. -/
def Error.text : Error → String
  | keyNotFound id => s!"key not found: {id}"
  | keyVersionNotFound id => s!"key version not found: {id}"
  | invalidAlgorithm reason => s!"invalid algorithm: {reason}"
  | encryptionFailed reason => s!"encryption failed: {reason}"
  | decryptionFailed reason => s!"decryption failed: {reason}"
  | signatureFailed reason => s!"signature failed: {reason}"
  | verificationFailed reason => s!"verification failed: {reason}"
  | keyExchangeFailed reason => s!"key exchange failed: {reason}"
  | invalidCiphertext => "invalid ciphertext"
  | invalidSm2Scalar reason => s!"invalid SM2 private scalar: {reason}"
  | keyOperationNotAllowed reason => s!"key operation not allowed: {reason}"
  | internal reason => s!"internal error: {reason}"
  | notImplemented reason => s!"not implemented: {reason}"
  | masterKeyError reason => s!"master key error: {reason}"

/-- How a call ends when it returns no value: an `Err`, or a panic. -/
inductive Abort where
  | error (e : Error)
  | panic (message : String)
  deriving DecidableEq, Repr

end GmKms
