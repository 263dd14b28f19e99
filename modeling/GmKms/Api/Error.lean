import GmKms.Core.Error
/-!
# Errors of the API

`ServiceError`, `ApiError` and the way an error of the keystore becomes one of the API.
-/

namespace GmKms.Api

inductive ApiError where
  | keyNotFound (id : String)
  | notFound (reason : String)
  | permissionDenied
  | forbidden (reason : String)
  | invalidRequest (reason : String)
  | invalidArgument (reason : String)
  | badRequest (reason : String)
  | internal (reason : String)
  | quotaExceeded (resource : String) (current limit : ℕ)
  | tooManyRequests (reason : String)
  | notImplemented
  deriving DecidableEq, Repr

/-- The variants of `ApiError`, which the handlers turn into a status. -/
inductive ErrorClass where
  | keyNotFound | notFound | permissionDenied | forbidden | invalidRequest | invalidArgument | badRequest | internal
  | quotaExceeded | tooManyRequests | notImplemented
  deriving DecidableEq, Repr

def ApiError.errorClass : ApiError → ErrorClass
  | keyNotFound _ => .keyNotFound
  | notFound _ => .notFound
  | permissionDenied => .permissionDenied
  | forbidden _ => .forbidden
  | invalidRequest _ => .invalidRequest
  | invalidArgument _ => .invalidArgument
  | badRequest _ => .badRequest
  | internal _ => .internal
  | quotaExceeded .. => .quotaExceeded
  | tooManyRequests _ => .tooManyRequests
  | notImplemented => .notImplemented

/-- How a service call ends when it returns no value. -/
inductive ApiAbort where
  | error (e : ApiError)
  | panic (message : String)
  deriving DecidableEq, Repr

/-- The call comes back, with a value or with an error. -/
def Returns {α : Type} : Except ApiAbort α → Prop
  | .error (.panic _) => False
  | _ => True

section

variable {α β : Type}

@[simp] theorem returns_ok (a : α) : Returns (.ok a) := trivial

@[simp] theorem returns_error (e : ApiError) : Returns (.error (.error e) : Except ApiAbort α) := trivial

@[simp] theorem not_returns_panic (message : String) : ¬ Returns (.error (.panic message) : Except ApiAbort α) := id

/-- A computation comes back if its first part does, and what follows the value of the first part. -/
theorem returns_bind_iff {x : Except ApiAbort α} {f : α → Except ApiAbort β} :
    Returns (x >>= f) ↔ Returns x ∧ ∀ a, x = .ok a → Returns (f a) := by
  cases x with
  | ok a =>
    constructor
    · intro h
      refine ⟨trivial, ?_⟩
      intro b hb
      cases hb
      exact h
    · rintro ⟨-, h⟩
      exact h a rfl
  | error e =>
    constructor
    · intro h
      refine ⟨?_, ?_⟩
      · cases e with
        | error e => trivial
        | panic message => exact h
      · intro b hb
        cases hb
    · rintro ⟨h, -⟩
      cases e with
      | error e => trivial
      | panic message => exact h

end

/-- `ServiceError`, less the variants that nothing constructs. -/
inductive ServiceError where
  | keyNotFound (id : String)
  | keyVersionNotFound (id : String)
  | keyOperationNotAllowed (msg : String)
  | invalidCiphertext
  | invalidAlgorithm (msg : String)
  | encryptionFailed (msg : String)
  | decryptionFailed (msg : String)
  | signatureFailed (msg : String)
  | internal (msg : String)
  deriving DecidableEq, Repr

/-- `impl From<Error> for ServiceError`. -/
def ServiceError.ofError : Error → ServiceError
  | .keyNotFound id => keyNotFound id
  | .keyVersionNotFound id => keyVersionNotFound id
  | .keyOperationNotAllowed msg => keyOperationNotAllowed msg
  | .invalidCiphertext => invalidCiphertext
  | .invalidAlgorithm msg => invalidAlgorithm msg
  | .encryptionFailed msg => encryptionFailed msg
  | .decryptionFailed msg => decryptionFailed msg
  | .signatureFailed msg => signatureFailed msg
  | .verificationFailed msg => signatureFailed msg
  | .notImplemented msg => internal msg
  | .internal msg => internal msg
  | e => internal e.text

def ServiceError.intoApiError : ServiceError → ApiError
  | keyNotFound id => .keyNotFound id
  | keyVersionNotFound id => .keyNotFound id
  | keyOperationNotAllowed msg => .forbidden msg
  | invalidCiphertext => .invalidRequest "invalid ciphertext"
  | invalidAlgorithm msg => .invalidRequest msg
  | encryptionFailed msg => .internal msg
  | decryptionFailed msg => .internal msg
  | signatureFailed msg => .internal msg
  | internal msg => .internal msg

/-- `ServiceError::from(e).into_api_error()`. -/
def apiError (e : Error) : ApiError := (ServiceError.ofError e).intoApiError

end GmKms.Api
