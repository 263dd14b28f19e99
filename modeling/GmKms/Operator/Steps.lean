import GmKms.Operator.Reconciler
/-!
# What a run of the reconciler does

A run looks, creates a key or rotates it, and then writes at most the secret and the status.
-/

namespace GmKms.Operator

open Lib

/-! ## The server -/

namespace Kms

variable {kms : Kms} {keyId : String}

theorem text_ne_empty (id : Uuid) : id.text ≠ "" := by
  intro h
  have := congrArg String.toList h
  simp [Uuid.text] at this

theorem getKey_insert {keyId' : String} {record : KmsRecord} (hne : keyId ≠ "") :
    getKey (kms.insert keyId record) keyId' = if keyId' = keyId then some record else kms.getKey keyId' := by
  unfold getKey
  rw [HashMap.getElem?_insert]
  split
  · next h => simp [h, hne.symm]
  · rfl

theorem getKey_insert_self {record : KmsRecord} (hne : keyId ≠ "") :
    getKey (kms.insert keyId record) keyId = some record := by
  rw [getKey_insert hne, if_pos rfl]

theorem getKey_createKey (kms : Kms) (id : Uuid) (now : DateTime) (req : CreateKeyRequest) (keyId : String) :
    ((kms.createKey id now req).2.getKey keyId).isSome = (keyId = id.text || (kms.getKey keyId).isSome) := by
  simp only [createKey]
  rw [getKey_insert (text_ne_empty id)]
  split <;> simp_all

theorem getKey_rotateKey {now : DateTime} {keyId' : String} {key : KeyResponse} {kms' : Kms}
    (h : kms.rotateKey now keyId = some (key, kms')) : (kms'.getKey keyId').isSome = (kms.getKey keyId').isSome := by
  obtain ⟨record, hrecord, heq⟩ := Option.map_eq_some_iff.1 h
  cases heq
  have hne : keyId ≠ "" := by
    rintro rfl
    simp [getKey] at hrecord
  rw [getKey_insert hne]
  split
  · next heq => simp [heq, hrecord]
  · rfl

end Kms

/-! ## The resource -/

def KmsKey.withoutStatus (kmsKey : KmsKey) : KmsKey := { kmsKey with status := .empty }

/-- At most the secrets and the status have been written to; a new status has this time of the last rotation. -/
structure Touched (s s' : OperatorState) (lastRotation : Option DateTime) : Prop where
  resource : s'.kmsKey.map KmsKey.withoutStatus = s.kmsKey.map KmsKey.withoutStatus
  kms : s'.kms = s.kms
  lastRotation : ∀ k', s'.kmsKey = some k' → (∃ k, s.kmsKey = some k ∧ k'.status = k.status) ∨
    (k'.status.lastRotation = none ↔ lastRotation = none)

namespace Touched

variable {s s' s'' : OperatorState} {lastRotation : Option DateTime}

theorem of_kmsKey (hkey : s'.kmsKey = s.kmsKey) (hkms : s'.kms = s.kms) : Touched s s' lastRotation where
  resource := by rw [hkey]
  kms := hkms
  lastRotation k' hk' := .inl ⟨k', hkey ▸ hk', rfl⟩

theorem putStatus (status : KmsKeyStatus) : Touched s (s.putStatus status) status.lastRotation where
  resource := by
    cases hkey : s.kmsKey <;> simp [OperatorState.putStatus, KmsKey.withoutStatus, hkey]
  kms := rfl
  lastRotation k' hk' := by
    obtain ⟨k, -, rfl⟩ := Option.map_eq_some_iff.1 hk'
    exact .inr (by simp)

theorem trans_of_kmsKey (h : Touched s s' lastRotation) (hkey : s.kmsKey = s''.kmsKey) (hkms : s.kms = s''.kms) :
    Touched s'' s' lastRotation where
  resource := by rw [h.resource, hkey]
  kms := h.kms.trans hkms
  lastRotation k' hk' := by
    rw [← hkey]
    exact h.lastRotation k' hk'

/-- The resource is the one there was, but for its status. -/
theorem exists_kmsKey {k' : KmsKey} (h : Touched s s' lastRotation) (hk' : s'.kmsKey = some k') :
    ∃ k, s.kmsKey = some k ∧ k'.spec = k.spec ∧ k'.deletionTimestamp = k.deletionTimestamp := by
  have hresource := h.resource
  rw [hk', Option.map_some, eq_comm] at hresource
  obtain ⟨k, hk, heq⟩ := Option.map_eq_some_iff.1 hresource
  exact ⟨k, hk, (congrArg KmsKey.spec heq).symm, (congrArg KmsKey.deletionTimestamp heq).symm⟩

theorem exists_kmsKey' {k : KmsKey} (h : Touched s s' lastRotation) (hk : s.kmsKey = some k) :
    ∃ k', s'.kmsKey = some k' ∧ k'.spec = k.spec ∧ k'.deletionTimestamp = k.deletionTimestamp := by
  have hresource := h.resource
  rw [hk, Option.map_some] at hresource
  obtain ⟨k', hk', heq⟩ := Option.map_eq_some_iff.1 hresource
  exact ⟨k', hk', (congrArg KmsKey.spec heq :), (congrArg KmsKey.deletionTimestamp heq :)⟩

end Touched

namespace KmsKeyReconciler

variable {env : ReconcileEnv} {s : OperatorState} {kmsKey : KmsKey} {key : KeyResponse}

/-! ## Secrets and status -/

theorem createSecret_keeps : (createSecret env s kmsKey key).2.kmsKey = s.kmsKey ∧
    (createSecret env s kmsKey key).2.kms = s.kms := by
  unfold createSecret
  dsimp only
  split
  · exact ⟨rfl, rfl⟩
  · split <;> split <;> exact ⟨rfl, rfl⟩

theorem ensureSecret_keeps : (ensureSecret env s kmsKey key).2.kmsKey = s.kmsKey ∧
    (ensureSecret env s kmsKey key).2.kms = s.kms := by
  unfold ensureSecret
  dsimp only
  split
  · exact ⟨rfl, rfl⟩
  · exact createSecret_keeps
  · split
    · exact ⟨rfl, rfl⟩
    · split
      · split <;> split <;> exact ⟨rfl, rfl⟩
      · exact ⟨rfl, rfl⟩

theorem touched_updateStatusWithTime {keyId status message : String} {version : UInt32}
    {lastRotation : Option DateTime} : Touched s
      (updateStatusWithTime env s kmsKey keyId version status message lastRotation).2 lastRotation := by
  unfold updateStatusWithTime
  dsimp only
  split
  · exact .of_kmsKey rfl rfl
  · have hwritten : Touched s (if env.updateStatus.applies then
        s.putStatus { keyId, version, status, message, lastRotation } else s) lastRotation := by
      split
      · exact .putStatus _
      · exact .of_kmsKey rfl rfl
    cases env.updateStatus.error? with
    | none => exact hwritten
    | some e => exact hwritten

/-- The status is written after the secret, without a time where the secret was not. -/
theorem touched_finish {secret : SecretOutcome} {onError message : String} {lastRotation : Option DateTime}
    (hkey : secret.2.kmsKey = s.kmsKey) (hkms : secret.2.kms = s.kms) :
    Touched s (finish env secret kmsKey key onError message lastRotation).2 lastRotation ∨
      Touched s (finish env secret kmsKey key onError message lastRotation).2 none := by
  unfold finish
  split
  · exact .inl (touched_updateStatusWithTime.trans_of_kmsKey hkey hkms)
  · exact .inr (touched_updateStatusWithTime.trans_of_kmsKey hkey hkms)
  · exact .inr (.of_kmsKey hkey hkms)

/-! ## Runs -/

/-- The spec that records a new key. -/
def recorded (env : ReconcileEnv) (spec : KmsKeySpec) : KmsKeySpec :=
  { spec with keyId := env.newKeyId.text, version := 1 }

/-- The state between the creation of a key and its secret. -/
def withNewKey (env : ReconcileEnv) (s : OperatorState) (kmsKey : KmsKey) (req : CreateKeyRequest) : OperatorState :=
  let s := { s with kms := (s.kms.createKey env.newKeyId env.kmsNow req).2 }
  if env.updateKmsKey.applies then s.putSpec (recorded env kmsKey.spec) else s

/-- What a run does, with the calls it makes of the KMS. -/
inductive Ran (undeclared : UndeclaredFields) (parseDuration : String → Option Int) (env : ReconcileEnv)
    (s : OperatorState) :
    List KmsCall → OperatorState → Prop where
  | looked {calls s'} (hcalls : ∀ c ∈ calls, ∃ keyId, c = .getKey keyId) (hs' : Touched s s' none) :
      Ran undeclared parseDuration env s calls s'
  | created {kmsKey req s'} (hkey : s.kmsKey = some kmsKey) (hnone : s.kms.getKey kmsKey.spec.keyId = none)
      (hs' : Touched (withNewKey env s kmsKey req) s' none) :
      Ran undeclared parseDuration env s [.getKey kmsKey.spec.keyId, .createKey req] s'
  | rotated {kmsKey record key kms lastRotation s'} (hkey : s.kmsKey = some kmsKey)
      (hrecord : s.kms.getKey kmsKey.spec.keyId = some record)
      (hdue : shouldRotate env undeclared parseDuration kmsKey = true)
      (hkms : s.kms.rotateKey env.kmsNow kmsKey.spec.keyId = some (key, kms))
      (hs' : Touched { s with kms } s' lastRotation) :
      Ran undeclared parseDuration env s [.getKey kmsKey.spec.keyId, .rotateKey kmsKey.spec.keyId] s'

variable {undeclared : UndeclaredFields} {parseDuration : String → Option Int}

theorem ran_createKey (hkey : s.kmsKey = some kmsKey) (hnone : s.kms.getKey kmsKey.spec.keyId = none) :
    Ran undeclared parseDuration env s (.getKey kmsKey.spec.keyId :: (createKey env undeclared s kmsKey).1)
      (createKey env undeclared s kmsKey).2.2 := by
  unfold createKey
  dsimp only
  cases env.createKey with
  | some e => exact .looked (by simp) touched_updateStatusWithTime
  | none =>
    rcases touched_finish createSecret_keeps.1 createSecret_keeps.2 with htouched | htouched
    · exact .created hkey hnone htouched
    · exact .created hkey hnone htouched

theorem ran_rotateKey {record : KmsRecord} (hkey : s.kmsKey = some kmsKey)
    (hrecord : s.kms.getKey kmsKey.spec.keyId = some record)
    (hdue : shouldRotate env undeclared parseDuration kmsKey = true) :
    Ran undeclared parseDuration env s (.getKey kmsKey.spec.keyId :: (rotateKey env s kmsKey).1)
      (rotateKey env s kmsKey).2.2 := by
  unfold rotateKey
  split
  · exact .looked (by simp) (.of_kmsKey rfl rfl)
  · cases env.rotateKey with
    | some e => exact .looked (by simp) touched_updateStatusWithTime
    | none =>
      cases hkms : s.kms.rotateKey env.kmsNow kmsKey.spec.keyId with
      | none =>
        -- the KMS rotates every key that it has
        simp [Kms.rotateKey, hrecord] at hkms
      | some result =>
        obtain ⟨newKey, kms⟩ := result
        rcases touched_finish ensureSecret_keeps.1 ensureSecret_keeps.2 with htouched | htouched
        · exact .rotated hkey hrecord hdue hkms htouched
        · exact .rotated hkey hrecord hdue hkms htouched

/-- A secret that has been seen to does not show in the rest of the run. -/
theorem Ran.of_secret {s' : OperatorState} {calls : List KmsCall} {s'' : OperatorState}
    (h : Ran undeclared parseDuration env s' calls s'') (hkey : s'.kmsKey = s.kmsKey) (hkms : s'.kms = s.kms) :
    Ran undeclared parseDuration env s calls s'' := by
  cases h with
  | looked hcalls hs' => exact .looked hcalls (hs'.trans_of_kmsKey hkey hkms)
  | created hk hnone hs' =>
    refine .created (hkey ▸ hk) (hkms ▸ hnone) ?_
    refine hs'.trans_of_kmsKey ?_ ?_
    · simp only [withNewKey, hkms]
      split <;> simp [OperatorState.putSpec, hkey]
    · simp only [withNewKey, hkms]
      split <;> rfl
  | rotated hk hrecord hdue hrotate hs' =>
    rw [hkms] at hrecord hrotate
    exact .rotated (hkey ▸ hk) hrecord hdue hrotate (hs'.trans_of_kmsKey hkey rfl)

theorem ran_keepKey {record : KmsRecord} (hkey : s.kmsKey = some kmsKey)
    (hrecord : s.kms.getKey kmsKey.spec.keyId = some record) :
    Ran undeclared parseDuration env s
      (.getKey kmsKey.spec.keyId :: (keepKey env undeclared parseDuration s kmsKey record.key).1)
      (keepKey env undeclared parseDuration s kmsKey record.key).2.2 := by
  have hkeeps : (ensureSecret env s kmsKey record.key).2.kmsKey = s.kmsKey ∧
      (ensureSecret env s kmsKey record.key).2.kms = s.kms := ensureSecret_keeps
  unfold keepKey
  generalize ensureSecret env s kmsKey record.key = secret at hkeeps ⊢
  obtain ⟨result, s'⟩ := secret
  obtain ⟨hkey', hkms'⟩ := hkeeps
  rcases result with (e | m) | ⟨⟩
  · exact .looked (by simp) (touched_updateStatusWithTime.trans_of_kmsKey hkey' hkms')
  · exact .looked (by simp) (.of_kmsKey hkey' hkms')
  · dsimp only
    split
    · next hdue =>
      exact (ran_rotateKey (hkey'.trans hkey) (hkms' ▸ hrecord) hdue).of_secret hkey' hkms'
    · exact .looked (by simp) (touched_updateStatusWithTime.trans_of_kmsKey hkey' hkms')

theorem ran_reconcileKey (hkey : s.kmsKey = some kmsKey) :
    Ran undeclared parseDuration env s (reconcileKey env undeclared parseDuration s kmsKey).1
      (reconcileKey env undeclared parseDuration s kmsKey).2.2 := by
  unfold reconcileKey
  cases env.getKey with
  | some e => exact .looked (by simp) touched_updateStatusWithTime
  | none =>
    cases hrecord : s.kms.getKey kmsKey.spec.keyId with
    | none => exact ran_createKey hkey hrecord
    | some record => exact ran_keepKey hkey hrecord

theorem touched_handleDeletion : Touched s (handleDeletion env s kmsKey).2 none := by
  unfold handleDeletion
  split
  · exact .of_kmsKey rfl rfl
  · exact .of_kmsKey rfl rfl
  · cases env.deleteSecret with
    | ok => exact .of_kmsKey rfl rfl
    | failed e applied => cases applied <;> exact .of_kmsKey rfl rfl

theorem ran_reconcile (undeclared : UndeclaredFields) (parseDuration : String → Option Int)
    (watchNamespace requestNamespace : String) (s : OperatorState) (env : ReconcileEnv) :
    Ran undeclared parseDuration env s
      (reconcile undeclared parseDuration watchNamespace requestNamespace s env).1.calls
      (reconcile undeclared parseDuration watchNamespace requestNamespace s env).2 := by
  unfold reconcile
  split
  · exact .looked (by simp) (.of_kmsKey rfl rfl)
  · split
    · exact .looked (by simp) (.of_kmsKey rfl rfl)
    · exact .looked (by simp) (.of_kmsKey rfl rfl)
    · next hkey =>
      split
      · exact .looked (by simp) touched_handleDeletion
      · exact ran_reconcileKey hkey

end KmsKeyReconciler

end GmKms.Operator
