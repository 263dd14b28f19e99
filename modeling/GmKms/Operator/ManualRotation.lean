import GmKms.Operator.Steps
import GmKms.Lib.Json
/-!
# Manual rotation

A manifest can ask for a rotation policy. The type of the resource has no such field, so that what is read from the
manifest does not depend on it, and no run of the reconciler rotates a key.
-/

namespace GmKms.Operator

open Lib

/-! ## Manifests -/

section

variable {F : Type}

/-- A string field without a value is empty. -/
def stringField (fields : List (String × Json F)) (name : String) : Option String :=
  match Json.field? fields name with
  | none | some .null => some ""
  | some j => j.asString?

def versionField (fields : List (String × Json F)) : Option UInt32 :=
  match Json.field? fields "version" with
  | none | some .null => some 0
  | some j => (j.asUnsigned? 32).map .ofNat

/-- What `encoding/json` reads of a spec: the fields that the type declares. -/
def KmsKeySpec.ofFields? (fields : List (String × Json F)) : Option KmsKeySpec := do
  let tenantId ← stringField fields "tenantId"
  let spec ← stringField fields "spec"
  let secretName ← stringField fields "secretName"
  let secretType ← stringField fields "secretType"
  let keyId ← stringField fields "keyId"
  let version ← versionField fields
  return { tenantId, spec, secretName, secretType, keyId, version }

def KmsKeyRotationPolicy.ofJson? : Json F → Option KmsKeyRotationPolicy
  | .obj fields => do
    let .bool enabled ← Json.field? fields "enabled" | none
    let rotationPeriod ← stringField fields "rotationPeriod"
    return { enabled, rotationPeriod }
  | _ => none

/-- What a user writes for a resource. -/
structure Manifest (F : Type) where
  namespaceName : String
  name : String
  spec : List (String × Json F)

namespace Manifest

variable (m : Manifest F)

/-- The rotation policy that the manifest asks for. -/
def rotation? : Option KmsKeyRotationPolicy := (Json.field? m.spec "rotation").bind KmsKeyRotationPolicy.ofJson?

def withRotation (rotation : Json F) : Manifest F := { m with spec := ("rotation", rotation) :: m.spec }

/-- The new resource, which has no status. -/
def kmsKey? : Option KmsKey :=
  (KmsKeySpec.ofFields? m.spec).map fun spec => ⟨m.namespaceName, m.name, none, spec, .empty⟩

end Manifest

theorem field?_cons_of_ne {k name : String} {j : Json F} {fields : List (String × Json F)} (h : k ≠ name) :
    Json.field? ((k, j) :: fields) name = Json.field? fields name := by
  rw [Json.field?, List.find?_cons_of_neg (by simpa using h), Json.field?]

/-- A field that the type does not declare is not read. -/
theorem KmsKeySpec.ofFields?_cons {k : String} {j : Json F} {fields : List (String × Json F)}
    (h : k ∉ ["tenantId", "spec", "secretName", "secretType", "keyId", "version"]) :
    ofFields? ((k, j) :: fields) = ofFields? fields := by
  simp only [List.mem_cons, List.not_mem_nil, or_false, not_or] at h
  obtain ⟨htenantId, hspec, hsecretName, hsecretType, hkeyId, hversion⟩ := h
  simp only [ofFields?, stringField, versionField, field?_cons_of_ne htenantId, field?_cons_of_ne hspec,
    field?_cons_of_ne hsecretName, field?_cons_of_ne hsecretType, field?_cons_of_ne hkeyId,
    field?_cons_of_ne hversion]

end

/-! ## Rotations -/

namespace OperatorState

/-- A resource that no run has seen. -/
def start (kmsKey : KmsKey) (secrets : HashMap String Secret) (kms : Kms) : OperatorState :=
  ⟨some { kmsKey with status := .empty }, secrets, kms⟩

/-- More than the period has passed since the key was created or last rotated. -/
def Due (period : Int) (s : OperatorState) (now : DateTime) : Prop :=
  ∃ kmsKey record, s.kmsKey = some kmsKey ∧ s.kms.getKey kmsKey.spec.keyId = some record ∧
    record.lastChange + period < now

/-- No time of a rotation is recorded. -/
def Unrotated (s : OperatorState) : Prop :=
  ∀ kmsKey, s.kmsKey = some kmsKey → kmsKey.status.lastRotation = none

theorem unrotated_start (kmsKey : KmsKey) (secrets : HashMap String Secret) (kms : Kms) :
    (start kmsKey secrets kms).Unrotated := by
  intro k hk
  cases hk
  rfl

end OperatorState

def KmsCall.isRotation : KmsCall → Bool
  | .rotateKey _ => true
  | _ => false

/-- How often the runs so far have rotated a key. -/
def rotations (h : History ReconcileEnv Reply) : ℕ := (h.flatMap (·.2.calls)).countP KmsCall.isRotation

theorem rotations_append (h : History ReconcileEnv Reply) (e : ReconcileEnv × Reply) :
    rotations (h ++ [e]) = rotations h + e.2.calls.countP KmsCall.isRotation := by
  simp [rotations]

open OperatorState

variable {s s' : OperatorState}

theorem Touched.unrotated (h : Touched s s' none) (hs : s.Unrotated) : s'.Unrotated := by
  intro k' hk'
  rcases h.lastRotation k' hk' with ⟨k, hk, hstatus⟩ | hnone
  · rw [hstatus, hs k hk]
  · exact hnone.2 rfl

namespace KmsKeyReconciler

variable {undeclared : UndeclaredFields} {parseDuration : String → Option Int} {env : ReconcileEnv}

theorem shouldRotate_of_unrotated {kmsKey : KmsKey} (h : kmsKey.status.lastRotation = none) :
    shouldRotate env undeclared parseDuration kmsKey = false := by
  simp [shouldRotate, h]

theorem unrotated_withNewKey {kmsKey : KmsKey} {req : CreateKeyRequest} (hs : s.Unrotated) :
    (withNewKey env s kmsKey req).Unrotated := by
  intro k hk
  simp only [withNewKey] at hk
  split at hk
  · obtain ⟨k₀, hk₀, rfl⟩ := Option.map_eq_some_iff.1 hk
    exact hs k₀ hk₀
  · exact hs k hk

/-- Without a time recorded there is no rotation, and none gets recorded. -/
theorem Ran.unrotated {calls : List KmsCall} (h : Ran undeclared parseDuration env s calls s') (hs : s.Unrotated) :
    s'.Unrotated ∧ calls.countP KmsCall.isRotation = 0 := by
  cases h with
  | looked hcalls hs' =>
    refine ⟨hs'.unrotated hs, List.countP_eq_zero.2 fun c hc => ?_⟩
    obtain ⟨keyId, rfl⟩ := hcalls c hc
    simp [KmsCall.isRotation]
  | created hkey hnone hs' => exact ⟨hs'.unrotated (unrotated_withNewKey hs), rfl⟩
  | rotated hkey hrecord hdue hkms hs' =>
    rw [shouldRotate_of_unrotated (hs _ hkey)] at hdue
    cases hdue

section

variable {F : Type} (undeclared) (parseDuration) (watchNamespace requestNamespace : String)

/-- The resource does not depend on the rotation that its manifest asks for, and no run over it rotates a key. -/
theorem manualRotation_run (m : Manifest F) (rotation : Json F) (kmsKey : KmsKey) (secrets : HashMap String Secret)
    (kms : Kms) (runs : List ReconcileEnv) :
    (m.withRotation rotation).kmsKey? = m.kmsKey? ∧
    rotations ((reconcile undeclared parseDuration watchNamespace requestNamespace).trace (start kmsKey secrets kms)
      runs) = 0 := by
  constructor
  · rw [Manifest.kmsKey?, Manifest.withRotation, KmsKeySpec.ofFields?_cons (by decide)]
    rfl
  · -- no run records the time of a rotation, which the next would need
    have hinv := (reconcile undeclared parseDuration watchNamespace requestNamespace).run_inv
      (I := fun h s => rotations h = 0 ∧ s.Unrotated) (h := []) ?_ ⟨rfl, unrotated_start kmsKey secrets kms⟩ runs
    · simpa using hinv.1
    · rintro h s env ⟨hzero, hs⟩
      have hran := ran_reconcile undeclared parseDuration watchNamespace requestNamespace s env
      rw [rotations_append, hzero, (hran.unrotated hs).2]
      exact ⟨rfl, (hran.unrotated hs).1⟩

/-- The run rotates the key once when that is due, and not before. -/
structure OnSchedule (period : Int) (s : OperatorState) (env : ReconcileEnv) : Prop where
  due : s.Due period (env.now 0) →
    (reconcile undeclared parseDuration watchNamespace requestNamespace s env).1.calls.countP KmsCall.isRotation = 1
  early : ¬ s.Due period (env.now 0) →
    (reconcile undeclared parseDuration watchNamespace requestNamespace s env).1.calls.countP KmsCall.isRotation = 0

end

/-- A run in which no call fails. -/
def sampleRun (now : DateTime) : ReconcileEnv where
  now := fun _ => now
  kmsNow := now
  newKeyId := 1
  getKmsKey := none
  getKey := none
  createKey := none
  rotateKey := none
  updateKmsKey := .ok
  updateStatus := .ok
  getSecret := none
  createSecret := .ok
  updateSecret := .ok
  deleteSecret := .ok

def sampleManifest : Manifest Unit where
  namespaceName := "default"
  name := "my-app-key"
  spec :=
    [("tenantId", .str "tenant-1"), ("spec", .str "aes-256-gcm"), ("secretName", .str "my-app-encryption-key"),
      ("rotation", .obj [("enabled", .bool true), ("rotationPeriod", .str "1h")])]

def sampleKey : KmsKey where
  namespaceName := "default"
  name := "my-app-key"
  deletionTimestamp := none
  spec :=
    { tenantId := "tenant-1"
      spec := "aes-256-gcm"
      secretName := "my-app-encryption-key"
      secretType := ""
      keyId := ""
      version := 0 }
  status := .empty

/-- What `time.ParseDuration` makes of one period. -/
def parseHour (s : String) : Option Int := if s = "1h" then some (DateTime.hours 1) else none

/-- Two hours after it was created the key has not been rotated. -/
theorem not_onSchedule_sampleManifest :
    sampleManifest.rotation? = some ⟨true, "1h"⟩ ∧ sampleManifest.kmsKey? = some sampleKey ∧
    ∀ undeclared, ¬ (reconcile undeclared parseHour "" "default").Along
      (fun _ s env => OnSchedule undeclared parseHour "" "default" (DateTime.hours 1) s env) []
      (start sampleKey ∅ ∅) [sampleRun 0, sampleRun (DateTime.hours 2)] := by
  refine ⟨by decide, by decide, ?_⟩
  rintro undeclared ⟨-, hschedule, -⟩
  -- the first run creates the key, under the id that it records
  have hfound (key : KeyResponse) : Kms.getKey ((∅ : Kms).insert (Uuid.text 1) ⟨key, 0, none⟩) (Uuid.text 1) =
      some ⟨key, 0, none⟩ := Kms.getKey_insert_self (Kms.text_ne_empty 1)
  have hlate : max (0 : DateTime) ((none : Option DateTime).getD 0) + DateTime.hours 1 < DateTime.hours 2 := by decide
  have hdue : ((reconcile undeclared parseHour "" "default") (start sampleKey ∅ ∅) (sampleRun 0)).2.Due
      (DateTime.hours 1) (DateTime.hours 2) := ⟨_, _, rfl, hfound _, hlate⟩
  have hunrotated := ((ran_reconcile undeclared parseHour "" "default" _ (sampleRun 0)).unrotated
    (unrotated_start sampleKey ∅ ∅)).1
  have hone := hschedule.due hdue
  rw [((ran_reconcile undeclared parseHour "" "default" _ _).unrotated hunrotated).2] at hone
  cases hone

end KmsKeyReconciler

end GmKms.Operator
