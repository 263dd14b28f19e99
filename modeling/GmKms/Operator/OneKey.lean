import GmKms.Operator.ManualRotation
/-!
# One key for a resource

A run creates a key and then records its id in the resource. The next run looks for the key under the id that is
recorded.
-/

namespace GmKms.Operator

open Lib OperatorState

/-- The KMS has the key whose id the resource records. -/
def OperatorState.HasKey (s : OperatorState) : Prop :=
  ∀ kmsKey, s.kmsKey = some kmsKey → (s.kms.getKey kmsKey.spec.keyId).isSome

def KmsCall.isCreation : KmsCall → Bool
  | .createKey _ => true
  | _ => false

/-- How many keys the runs so far have created. -/
def createdKeys (h : History ReconcileEnv Reply) : ℕ := (h.flatMap (·.2.calls)).countP KmsCall.isCreation

theorem createdKeys_append (h : History ReconcileEnv Reply) (e : ReconcileEnv × Reply) :
    createdKeys (h ++ [e]) = createdKeys h + e.2.calls.countP KmsCall.isCreation := by
  simp [createdKeys]

theorem Touched.hasKey_iff {s s' : OperatorState} {lastRotation : Option DateTime} (h : Touched s s' lastRotation) :
    s'.HasKey ↔ s.HasKey := by
  constructor
  · intro hs k hk
    obtain ⟨k', hk', hspec, -⟩ := h.exists_kmsKey' hk
    rw [← hspec, ← h.kms]
    exact hs k' hk'
  · intro hs k' hk'
    obtain ⟨k, hk, hspec, -⟩ := h.exists_kmsKey hk'
    rw [hspec, h.kms]
    exact hs k hk

namespace KmsKeyReconciler

/-- The run gets as far as creating a key. -/
structure Creates (watchNamespace requestNamespace : String) (s : OperatorState) (env : ReconcileEnv) : Prop where
  watched : watchNamespace = "" ∨ requestNamespace = watchNamespace
  getKmsKey : env.getKmsKey = none
  getKey : env.getKey = none
  createKey : env.createKey = none
  missing : ∃ kmsKey, s.kmsKey = some kmsKey ∧ kmsKey.deletionTimestamp = none ∧
    s.kms.getKey kmsKey.spec.keyId = none

variable {undeclared : UndeclaredFields} {parseDuration : String → Option Int}
  {watchNamespace requestNamespace : String} {env : ReconcileEnv} {s s' : OperatorState} {kmsKey : KmsKey}

theorem countP_isCreation_rotateKey : (rotateKey env s kmsKey).1.countP KmsCall.isCreation = 0 := by
  unfold rotateKey
  split
  · rfl
  · split
    · rfl
    · split <;> rfl

theorem countP_isCreation_keepKey {key : KeyResponse} :
    (keepKey env undeclared parseDuration s kmsKey key).1.countP KmsCall.isCreation = 0 := by
  unfold keepKey
  split
  · split
    · exact countP_isCreation_rotateKey
    · rfl
  · rfl
  · rfl

theorem countP_isCreation_createKey :
    (createKey env undeclared s kmsKey).1.countP KmsCall.isCreation = if env.createKey = none then 1 else 0 := by
  unfold createKey
  cases env.createKey <;> rfl

theorem countP_isCreation_reconcileKey :
    (reconcileKey env undeclared parseDuration s kmsKey).1.countP KmsCall.isCreation =
    if env.getKey = none ∧ env.createKey = none ∧ s.kms.getKey kmsKey.spec.keyId = none then 1 else 0 := by
  unfold reconcileKey
  cases env.getKey with
  | some e => rfl
  | none =>
    cases s.kms.getKey kmsKey.spec.keyId with
    | some record => simpa [List.countP_cons, KmsCall.isCreation] using countP_isCreation_keepKey
    | none => simpa [List.countP_cons, KmsCall.isCreation] using countP_isCreation_createKey

/-- A run creates a key exactly when it gets as far as that. -/
theorem countP_isCreation_pos_iff :
    0 < (reconcile undeclared parseDuration watchNamespace requestNamespace s env).1.calls.countP KmsCall.isCreation ↔
      Creates watchNamespace requestNamespace s env := by
  unfold reconcile
  split
  · next h =>
    refine iff_of_false (by simp) fun hc => ?_
    rcases hc.watched with hw | hw
    · exact h.1 hw
    · exact h.2 hw
  · next hwatched =>
    have hwatched : watchNamespace = "" ∨ requestNamespace = watchNamespace := by tauto
    split
    · next e hget => exact iff_of_false (by simp) fun hc => by cases hget.symm.trans hc.getKmsKey
    · next hget hkey =>
      refine iff_of_false (by simp) fun hc => ?_
      obtain ⟨kmsKey, hsome, -⟩ := hc.missing
      cases hkey.symm.trans hsome
    · next kmsKey hget hkey =>
      split
      · next hdeleted =>
        refine iff_of_false (by simp) fun hc => ?_
        obtain ⟨k, hsome, hnot, -⟩ := hc.missing
        cases hkey.symm.trans hsome
        simp [hnot] at hdeleted
      · next hdeleted =>
        dsimp only
        rw [countP_isCreation_reconcileKey]
        constructor
        · intro hpos
          split at hpos
          · next hc => exact ⟨hwatched, hget, hc.1, hc.2.1, kmsKey, hkey, by simpa using hdeleted, hc.2.2⟩
          · exact absurd hpos (lt_irrefl 0)
        · intro hc
          obtain ⟨k, hsome, -, hnone⟩ := hc.missing
          cases hkey.symm.trans hsome
          simp [hc.getKey, hc.createKey, hnone]

theorem hasKey_withNewKey {req : CreateKeyRequest} (happlies : env.updateKmsKey.applies = true) :
    (withNewKey env s kmsKey req).HasKey := by
  intro k hk
  simp only [withNewKey, happlies, if_true] at hk ⊢
  obtain ⟨k₀, -, rfl⟩ := Option.map_eq_some_iff.1 hk
  have hfound : ((s.kms.createKey env.newKeyId env.kmsNow req).2.getKey env.newKeyId.text).isSome := by
    simp [Kms.getKey_createKey]
  exact hfound

/-- What a run that creates a key, and one that does not, do to the key that the resource records. -/
theorem Ran.hasKey {calls : List KmsCall} (h : Ran undeclared parseDuration env s calls s') :
    calls.countP KmsCall.isCreation = 0 ∧ (s.HasKey → s'.HasKey) ∨
      calls.countP KmsCall.isCreation = 1 ∧ ¬ s.HasKey ∧ (env.updateKmsKey.applies = true → s'.HasKey) := by
  cases h with
  | looked hcalls hs' =>
    refine .inl ⟨List.countP_eq_zero.2 fun c hc => ?_, hs'.hasKey_iff.2⟩
    obtain ⟨keyId, rfl⟩ := hcalls c hc
    simp [KmsCall.isCreation]
  | created hkey hnone hs' =>
    refine .inr ⟨rfl, fun hs => ?_, fun happlies => hs'.hasKey_iff.2 (hasKey_withNewKey happlies)⟩
    simpa [hnone] using hs _ hkey
  | rotated hkey hrecord hdue hkms hs' =>
    refine .inl ⟨rfl, fun hs => hs'.hasKey_iff.2 fun k hk => ?_⟩
    exact (Kms.getKey_rotateKey hkms).trans (hs k hk)

/-- At most one key is created in every run of the reconciler in which each update that records a new key is applied. -/
theorem oneKey_run (undeclared : UndeclaredFields) (parseDuration : String → Option Int)
    (watchNamespace requestNamespace : String) (s : OperatorState) (runs : List ReconcileEnv)
    (h : (reconcile undeclared parseDuration watchNamespace requestNamespace).Along
      (fun _ s env => Creates watchNamespace requestNamespace s env → env.updateKmsKey.applies = true) [] s runs) :
    (reconcile undeclared parseDuration watchNamespace requestNamespace).Throughout (fun h _ => createdKeys h ≤ 1) [] s
      runs := by
  have hinv := h.throughout (I := fun h s => createdKeys h = 0 ∨ createdKeys h = 1 ∧ s.HasKey) ?_ (.inl rfl)
  · refine hinv.mono fun h s hi => ?_
    rcases hi with hzero | ⟨hone, -⟩
    · exact hzero.trans_le zero_le_one
    · exact hone.le
  · -- a key that was created is recorded, and no later run misses it
    intro h s env hi hrecorded
    rw [createdKeys_append]
    rcases (ran_reconcile undeclared parseDuration watchNamespace requestNamespace s env).hasKey with
      ⟨hcalls, hkept⟩ | ⟨hcalls, hmissing, hkey⟩
    · rw [hcalls]
      exact hi.imp id fun hone => ⟨hone.1, hkept hone.2⟩
    · rcases hi with hzero | ⟨-, hhas⟩
      · refine .inr ⟨?_, hkey (hrecorded (countP_isCreation_pos_iff.1 (hcalls.symm ▸ Nat.one_pos)))⟩
        rw [hzero, hcalls]
      · exact absurd hhas hmissing

/-- No name and no rotation policy. -/
def unnamed : UndeclaredFields := ⟨fun _ => "", fun _ => none⟩

theorem oneKey_run_sampleKey :
    (reconcile unnamed parseHour "" "default").Along
      (fun _ s env => Creates "" "default" s env → env.updateKmsKey.applies = true) [] (start sampleKey ∅ ∅)
      [sampleRun 0, sampleRun 1] ∧
    (reconcile unnamed parseHour "" "default").Throughout (fun h _ => createdKeys h ≤ 1) [] (start sampleKey ∅ ∅)
      [sampleRun 0, sampleRun 1] :=
  ⟨⟨fun _ => rfl, fun _ => rfl, trivial⟩,
    oneKey_run unnamed parseHour "" "default" _ _ ⟨fun _ => rfl, fun _ => rfl, trivial⟩⟩

/-- The first run cannot record its key, and the second creates another. -/
theorem not_oneKey_sampleKey :
    ¬ (reconcile unnamed parseHour "" "default").Throughout (fun h _ => createdKeys h ≤ 1) [] (start sampleKey ∅ ∅)
      [{ sampleRun 0 with updateKmsKey := .failed "conflict" false }, { sampleRun 1 with newKeyId := 2 }] := by
  intro h
  have htwo : createdKeys _ ≤ 1 := h.final
  exact absurd htwo (by decide)

/-- A key whose id is not recorded is lost: the next run that gets as far creates another. -/
theorem creates_again {env' : ReconcileEnv} (h : Creates watchNamespace requestNamespace s env)
    (hlost : env.updateKmsKey.applies = false)
    (hnew : ∀ kmsKey, s.kmsKey = some kmsKey → kmsKey.spec.keyId ≠ env.newKeyId.text)
    (hget : env'.getKmsKey = none) (hgetKey : env'.getKey = none) (hcreate : env'.createKey = none) :
    Creates watchNamespace requestNamespace
      (reconcile undeclared parseDuration watchNamespace requestNamespace s env).2 env' := by
  obtain ⟨kmsKey, hkey, hdeleted, hnone⟩ := h.missing
  have hpos : 0 < (reconcile undeclared parseDuration watchNamespace requestNamespace s env).1.calls.countP
      KmsCall.isCreation := countP_isCreation_pos_iff.2 h
  have hran := ran_reconcile undeclared parseDuration watchNamespace requestNamespace s env
  generalize reconcile undeclared parseDuration watchNamespace requestNamespace s env = outcome at hpos hran ⊢
  obtain ⟨⟨calls, result⟩, s'⟩ := outcome
  refine ⟨h.watched, hget, hgetKey, hcreate, ?_⟩
  cases hran with
  | looked hcalls hs' =>
    obtain ⟨c, hc, hcreation⟩ := List.countP_pos_iff.1 hpos
    obtain ⟨keyId, rfl⟩ := hcalls c hc
    cases hcreation
  | rotated => cases hpos
  | @created _ req _ hk hn hs' =>
    -- the KMS has the new key, and the resource still names another
    have hwith : (withNewKey env s kmsKey req).kmsKey = some kmsKey := by
      simp [withNewKey, hlost, hkey]
    cases hk.symm.trans hkey
    obtain ⟨k', hk', hspec, hdeletion⟩ := hs'.exists_kmsKey' hwith
    refine ⟨k', hk', hdeletion.trans hdeleted, ?_⟩
    have hkms : s'.kms = (s.kms.createKey env.newKeyId env.kmsNow req).2 := by
      rw [hs'.kms]
      simp [withNewKey, hlost]
    have hfound := Kms.getKey_createKey s.kms env.newKeyId env.kmsNow req kmsKey.spec.keyId
    rw [← hkms] at hfound
    dsimp only at hspec ⊢
    rw [hspec]
    simpa [hnew kmsKey hkey, hnone] using hfound

end KmsKeyReconciler

end GmKms.Operator
