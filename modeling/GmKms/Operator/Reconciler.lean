import GmKms.Core.Types
import GmKms.Lib.Machine
/-!
# The reconciler of the Kubernetes operator

`KmsKeyReconciler` keeps a key of the KMS and a secret for one `KmsKey` resource. A run reads the resource and calls
the KMS and the Kubernetes API one after another; which of these calls fail comes from outside. The reconciler also
reads a name and a rotation policy that the type of the resource does not declare; what it would find there is a
parameter.
-/

namespace GmKms.Operator

open Lib

/-! ## The resource -/

structure KmsKeyRotationPolicy where
  enabled : Bool
  rotationPeriod : String
  deriving DecidableEq

structure KmsKeySpec where
  tenantId : String
  spec : String
  secretName : String
  secretType : String
  keyId : String
  version : UInt32
  deriving DecidableEq

/-- `Spec.Name` and `Spec.Rotation`, which `KmsKeySpec` does not have. -/
structure UndeclaredFields where
  name : KmsKeySpec → String
  rotation : KmsKeySpec → Option KmsKeyRotationPolicy

structure KmsKeyStatus where
  keyId : String
  version : UInt32
  status : String
  message : String
  lastRotation : Option DateTime
  deriving DecidableEq

/-- The status of a resource that no run has written to. -/
def KmsKeyStatus.empty : KmsKeyStatus := ⟨"", 0, "", "", none⟩

structure KmsKey where
  namespaceName : String
  name : String
  deletionTimestamp : Option DateTime
  spec : KmsKeySpec
  status : KmsKeyStatus
  deriving DecidableEq

/-- `getSecretName`. -/
def KmsKey.secretName (kmsKey : KmsKey) : String :=
  if kmsKey.spec.secretName ≠ "" then kmsKey.spec.secretName else kmsKey.name

/-- A secret of the namespace of the resource. Either map can be nil. -/
structure Secret where
  secretType : String
  labels : Option (HashMap String String)
  data : Option (HashMap String String)

/-! ## The KMS -/

structure KeyResponse where
  id : String
  name : String
  spec : String
  tenantId : String
  version : UInt32
  deriving DecidableEq

structure CreateKeyRequest where
  name : String
  spec : String
  tenantId : String
  deriving DecidableEq

structure KmsRecord where
  key : KeyResponse
  createdAt : DateTime
  rotatedAt : Option DateTime

/-- When the key was created or last rotated. -/
def KmsRecord.lastChange (record : KmsRecord) : DateTime :=
  max record.createdAt (record.rotatedAt.getD record.createdAt)

abbrev Kms := HashMap String KmsRecord

namespace Kms

variable (kms : Kms)

/-- The server finds no key under an empty or unknown id. -/
def getKey (keyId : String) : Option KmsRecord :=
  if keyId = "" then none else kms[keyId]?

def createKey (id : Uuid) (now : DateTime) (req : CreateKeyRequest) : KeyResponse × Kms :=
  let key : KeyResponse := { id := id.text, name := req.name, spec := req.spec, tenantId := req.tenantId, version := 1 }
  (key, kms.insert id.text ⟨key, now, none⟩)

def rotateKey (now : DateTime) (keyId : String) : Option (KeyResponse × Kms) :=
  (kms.getKey keyId).map fun record =>
    let key := { record.key with version := record.key.version + 1 }
    (key, kms.insert keyId { record with key, rotatedAt := some now })

end Kms

/-- A call of the KMS client that reached the server. -/
inductive KmsCall where
  | getKey (keyId : String)
  | createKey (req : CreateKeyRequest)
  | rotateKey (keyId : String)
  deriving DecidableEq

/-! ## Runs -/

/-- How a write to the Kubernetes API ends. One that fails can have been applied. -/
inductive ApiOutcome where
  | ok
  | failed (error : String) (applied : Bool)

namespace ApiOutcome

def applies : ApiOutcome → Bool
  | ok => true
  | failed _ applied => applied

def error? : ApiOutcome → Option String
  | ok => none
  | failed e _ => some e

end ApiOutcome

/-- What a run reads from outside: clocks, the id of a new key, and the calls that fail. A call of the KMS client that
fails has not been performed. -/
structure ReconcileEnv where
  now : Clock
  kmsNow : DateTime
  newKeyId : Uuid
  getKmsKey : Option String
  getKey : Option String
  createKey : Option String
  rotateKey : Option String
  updateKmsKey : ApiOutcome
  updateStatus : ApiOutcome
  getSecret : Option String
  createSecret : ApiOutcome
  updateSecret : ApiOutcome
  deleteSecret : ApiOutcome

structure OperatorState where
  kmsKey : Option KmsKey
  secrets : HashMap String Secret
  kms : Kms

inductive ReconcileError where
  | failed (error : String)
  | panicked (message : String)

/-- `ctrl.Result`: after how many seconds to run again. -/
structure ReconcileResult where
  requeueAfter : Option ℕ

structure Reply where
  calls : List KmsCall
  result : Except ReconcileError ReconcileResult

abbrev SecretOutcome := Except ReconcileError Unit × OperatorState

abbrev RunOutcome := Except ReconcileError ReconcileResult × OperatorState

namespace OperatorState

variable (s : OperatorState)

/-- `client.Update`. The status is a subresource, which it leaves alone. -/
def putSpec (spec : KmsKeySpec) : OperatorState :=
  { s with kmsKey := s.kmsKey.map fun k => { k with spec } }

/-- `client.Status().Update`. The API keeps times to the second. -/
def putStatus (status : KmsKeyStatus) : OperatorState :=
  let stored := { status with lastRotation := status.lastRotation.map fun t => t / 1000000000 * 1000000000 }
  { s with kmsKey := s.kmsKey.map fun k => { k with status := stored } }

def putSecret (name : String) (secret : Secret) : OperatorState :=
  { s with secrets := s.secrets.insert name secret }

end OperatorState

namespace KmsKeyReconciler

section

variable (env : ReconcileEnv)

/-! ## Secrets -/

def keyVersionLabel : String := "kms.example.com/key-version"

def newSecret (kmsKey : KmsKey) (key : KeyResponse) : Secret :=
  let labels : HashMap String String := (∅ : HashMap String String)
    |>.insert "kms.example.com/managed" "true"
    |>.insert "kms.example.com/key-id" key.id
    |>.insert keyVersionLabel (toString key.version.toNat)
  let metadata := "\x7b\"name\":\"" ++ key.name ++ "\",\"spec\":\"" ++ key.spec ++ "\",\"tenant_id\":\"" ++
    key.tenantId ++ "\"\x7d"
  let data : HashMap String String := (∅ : HashMap String String)
    |>.insert "key_id" key.id
    |>.insert "version" (toString key.version.toNat)
    |>.insert "metadata" metadata
  { secretType := if kmsKey.spec.secretType = "kubernetes.io/tls" then "kubernetes.io/tls" else "Opaque"
    labels, data }

def createSecret (s : OperatorState) (kmsKey : KmsKey) (key : KeyResponse) : SecretOutcome :=
  let secret := newSecret kmsKey key
  match s.secrets[kmsKey.secretName]? with
  | some _ =>
    let name := kmsKey.secretName
    (.error (.failed (env.createSecret.error?.getD s!"secrets \"{name}\" already exists")), s)
  | none =>
    let s := if env.createSecret.applies then s.putSecret kmsKey.secretName secret else s
    match env.createSecret.error? with
    | some e => (.error (.failed e), s)
    | none => (.ok (), s)

/-- A stale secret is written to in place, which a nil map does not allow. -/
def ensureSecret (s : OperatorState) (kmsKey : KmsKey) (key : KeyResponse) : SecretOutcome :=
  match env.getSecret, s.secrets[kmsKey.secretName]? with
  | some e, _ => (.error (.failed e), s)
  | none, none => createSecret env s kmsKey key
  | none, some secret =>
    let currentVersion := (secret.labels.bind fun labels => labels[keyVersionLabel]?).getD ""
    if currentVersion = toString key.version.toNat then (.ok (), s)
    else
      match secret.data, secret.labels with
      | some data, some labels =>
        let secret := { secret with
          data := some (data.insert "version" (toString key.version.toNat))
          labels := some (labels.insert keyVersionLabel (toString key.version.toNat)) }
        let s := if env.updateSecret.applies then s.putSecret kmsKey.secretName secret else s
        match env.updateSecret.error? with
        | some e => (.error (.failed e), s)
        | none => (.ok (), s)
      | _, _ => (.error (.panicked "assignment to entry in nil map"), s)

/-! ## The status -/

def updateStatusWithTime (s : OperatorState) (kmsKey : KmsKey) (keyId : String) (version : UInt32)
    (status message : String) (lastRotation : Option DateTime) : RunOutcome :=
  let newStatus : KmsKeyStatus := { keyId, version, status, message, lastRotation }
  let result : ReconcileResult := ⟨if status = "Error" then some 30 else none⟩
  if kmsKey.status = newStatus then (.ok result, s)
  else
    let s := if env.updateStatus.applies then s.putStatus newStatus else s
    match env.updateStatus.error? with
    | some e => (.error (.failed e), s)
    | none => (.ok result, s)

def updateStatus (s : OperatorState) (kmsKey : KmsKey) (keyId : String) (version : UInt32)
    (status message : String) : RunOutcome :=
  updateStatusWithTime env s kmsKey keyId version status message none

/-- The status after the secret has been seen to. -/
def finish (secret : SecretOutcome) (kmsKey : KmsKey) (key : KeyResponse) (onError message : String)
    (lastRotation : Option DateTime) : RunOutcome :=
  match secret with
  | (.ok (), s) => updateStatusWithTime env s kmsKey key.id key.version "Ready" message lastRotation
  | (.error (.failed e), s) => updateStatus env s kmsKey key.id key.version onError e
  | (.error (.panicked m), s) => (.error (.panicked m), s)

/-! ## Rotation -/

section

-- `time.ParseDuration`, in nanoseconds; it reads fractions in floating point
variable (undeclared : UndeclaredFields) (parseDuration : String → Option Int)

def shouldRotate (kmsKey : KmsKey) : Bool :=
  match kmsKey.status.lastRotation, undeclared.rotation kmsKey.spec with
  | none, _ | _, none => false
  | some lastRotation, some rotation =>
    if !rotation.enabled then false
    else
      match parseDuration rotation.rotationPeriod with
      | none => false
      | some period => env.now 0 > lastRotation + period

end

def rotateKey (s : OperatorState) (kmsKey : KmsKey) : List KmsCall × RunOutcome :=
  if kmsKey.spec.keyId = "" then ([], (.error (.failed "no key ID to rotate"), s))
  else
    match env.rotateKey with
    | some e => ([], updateStatus env s kmsKey kmsKey.spec.keyId kmsKey.spec.version "Rotating" e)
    | none =>
      match s.kms.rotateKey env.kmsNow kmsKey.spec.keyId with
      | none =>
        ([.rotateKey kmsKey.spec.keyId],
          updateStatus env s kmsKey kmsKey.spec.keyId kmsKey.spec.version "Rotating" "unexpected status code: 404")
      | some (newKey, kms) =>
        ([.rotateKey kmsKey.spec.keyId],
          finish env (ensureSecret env { s with kms } kmsKey newKey) kmsKey newKey "Rotating" "Key rotated"
            (some (env.now 1)))

/-! ## Reconciling -/

variable (undeclared : UndeclaredFields)

/-- The part of `reconcileKey` for a key that the KMS does not have. -/
def createKey (s : OperatorState) (kmsKey : KmsKey) : List KmsCall × RunOutcome :=
  let ns := kmsKey.namespaceName
  let name := kmsKey.name
  let specName := undeclared.name kmsKey.spec
  let keyName := if specName = "" then s!"k8s-{ns}-{name}" else specName
  let createReq : CreateKeyRequest := { name := keyName, spec := kmsKey.spec.spec, tenantId := kmsKey.spec.tenantId }
  match env.createKey with
  | some e => ([], updateStatus env s kmsKey "" 0 "Creating" e)
  | none =>
    let (newKey, kms) := s.kms.createKey env.newKeyId env.kmsNow createReq
    let kmsKey := { kmsKey with spec := { kmsKey.spec with keyId := newKey.id, version := newKey.version } }
    let s := { s with kms }
    -- an update that fails is only logged
    let s := if env.updateKmsKey.applies then s.putSpec kmsKey.spec else s
    ([.createKey createReq],
      finish env (createSecret env s kmsKey newKey) kmsKey newKey "Error" "Key created and secret synced" none)

variable (parseDuration : String → Option Int)

/-- The part of `reconcileKey` for a key that the KMS has. -/
def keepKey (s : OperatorState) (kmsKey : KmsKey) (existingKey : KeyResponse) : List KmsCall × RunOutcome :=
  match ensureSecret env s kmsKey existingKey with
  | (.ok (), s) =>
    if shouldRotate env undeclared parseDuration kmsKey then rotateKey env s kmsKey
    else ([], updateStatus env s kmsKey existingKey.id existingKey.version "Ready" "Key and secret in sync")
  | (.error (.failed e), s) => ([], updateStatus env s kmsKey existingKey.id existingKey.version "Error" e)
  | (.error (.panicked m), s) => ([], (.error (.panicked m), s))

def reconcileKey (s : OperatorState) (kmsKey : KmsKey) : List KmsCall × RunOutcome :=
  match env.getKey with
  | some e => ([], updateStatus env s kmsKey "" 0 "Error" e)
  | none =>
    let (calls, outcome) :=
      match s.kms.getKey kmsKey.spec.keyId with
      | none => createKey env undeclared s kmsKey
      | some existing => keepKey env undeclared parseDuration s kmsKey existing.key
    (.getKey kmsKey.spec.keyId :: calls, outcome)

/-- The key stays in the KMS. -/
def handleDeletion (s : OperatorState) (kmsKey : KmsKey) : RunOutcome :=
  match env.getSecret, s.secrets[kmsKey.secretName]? with
  | some e, _ => (.error (.failed e), s)
  | none, none => (.ok ⟨none⟩, s)
  | none, some _ =>
    let s := if env.deleteSecret.applies then { s with secrets := s.secrets.erase kmsKey.secretName } else s
    match env.deleteSecret.error? with
    | some e => (.error (.failed e), s)
    | none => (.ok ⟨none⟩, s)

end

variable (undeclared : UndeclaredFields) (parseDuration : String → Option Int)
  (watchNamespace requestNamespace : String)

/-- `Reconcile` for the resource. -/
def reconcile : Machine OperatorState ReconcileEnv Reply := fun s env =>
  if watchNamespace ≠ "" ∧ requestNamespace ≠ watchNamespace then (⟨[], .ok ⟨none⟩⟩, s)
  else
    match env.getKmsKey, s.kmsKey with
    | some e, _ => (⟨[], .error (.failed e)⟩, s)
    | none, none => (⟨[], .ok ⟨none⟩⟩, s)
    | none, some kmsKey =>
      if kmsKey.deletionTimestamp.isSome then
        let (result, s) := handleDeletion env s kmsKey
        (⟨[], result⟩, s)
      else
        let (calls, result, s) := reconcileKey env undeclared parseDuration s kmsKey
        (⟨calls, result⟩, s)

end KmsKeyReconciler

end GmKms.Operator
