import GmKms.Keystore.SoftwareSteps
import GmKms.Sm9.Registry
/-!
# The rotation service

`RotationService` over the software keystore: a policy reads the age, the operation count and the version of a key,
and a key that reaches a limit is rotated. A rotation moves the age back, and leaves the count as it is and the version
higher.
-/

namespace GmKms.Api

open Lib
open Keystore Keystore.Software
open Sm9 (Sm9Crate Sm9Env Sm9KeyType Sm9RotationAdapter)

inductive RotationPolicy where
  | timeBased (days : UInt32)
  | usageBased (maxOperations : UInt64)
  | versionBased (maxVersions : UInt32)
  | combined (timeDays : UInt32) (maxOperations : UInt64) (maxVersions : UInt32)

/-- `chrono::Duration::days`. -/
def durationDays (n : UInt32) : ℤ := n.toNat * 86400 * 1000000000

namespace RotationPolicy

/-- `impl Default`. -/
def default : RotationPolicy := .combined 90 1000000 10

/-- The clock stands at `now`. -/
def needsRotation (policy : RotationPolicy) (now : DateTime) (keyMeta : KeyMeta) (operationCount : UInt64) : Bool :=
  let age := now - keyMeta.createdAt
  match policy with
  | .timeBased days => durationDays days < age
  | .usageBased maxOperations => maxOperations ≤ operationCount
  | .versionBased maxVersions => maxVersions ≤ keyMeta.version
  | .combined timeDays maxOperations maxVersions =>
    durationDays timeDays < age || maxOperations ≤ operationCount || maxVersions ≤ keyMeta.version

end RotationPolicy

inductive RotationReason where
  | timeLimit (days : UInt32) (keyAgeDays : UInt64)
  | usageLimit (maxOperations actualOperations : UInt64)
  | versionLimit (maxVersions currentVersion : UInt32)
  | manual
  deriving DecidableEq

structure RotationCheckResult where
  keyId : Uuid
  needsRotation : Bool
  reason : Option RotationReason

inductive RotationError where
  | keystoreError (text : String)
  | keyNotFound (keyId : Uuid)
  | policyNotTriggered
  | operationNotAllowed (text : String)
  deriving DecidableEq

/-- How a call ends without a result. -/
inductive RotationAbort where
  | error (e : RotationError)
  | panic (message : String)
  deriving DecidableEq

/-- `.map_err(|e| RotationError::KeystoreError(e.to_string()))`. -/
def RotationAbort.ofKeystore : Abort → RotationAbort
  | .error e => .error (.keystoreError e.text)
  | .panic message => .panic message

/-- What a call reads from outside: the clock of the policy, and what the keystore and the SM9 adapter read. -/
structure RotationEnv (MasterKey : Sm9KeyType → Type) where
  clock : Clock
  keystore : UseEnv
  sm9 : Sm9Env MasterKey

/-- `opCounter` is what `get_count` answers. -/
structure RotationService (Manager : Type) where
  keystore : SoftwareKeystore
  policy : RotationPolicy
  opCounter : Option (Uuid → UInt64)
  sm9Adapter : Option (Sm9RotationAdapter Manager)

namespace RotationService

variable {MasterKey : Sm9KeyType → Type} {Manager : Type}

def operationCount (s : RotationService Manager) (keyId : Uuid) : UInt64 := s.opCounter.elim 0 (· keyId)

/-- Whole days, cast to `u64`; the clock stands at `now`. -/
def determineReason (s : RotationService Manager) (now : DateTime) (keyMeta : KeyMeta) (operationCount : UInt64) :
    RotationReason :=
  let age := UInt64.ofInt ((now - keyMeta.createdAt).tdiv (86400 * 1000000000))
  match s.policy with
  | .timeBased days => .timeLimit days age
  | .usageBased maxOperations => .usageLimit maxOperations operationCount
  | .versionBased maxVersions => .versionLimit maxVersions keyMeta.version
  | .combined .. => .manual

def checkRotation (s : RotationService Manager) (env : RotationEnv MasterKey) (keyId : Uuid) :
    Except RotationAbort RotationCheckResult :=
  match s.keystore.getKeyMetadata keyId with
  | .error e => .error (.ofKeystore e)
  | .ok keyMeta =>
    let operationCount := s.operationCount keyId
    let needsRotation := s.policy.needsRotation (env.clock 0) keyMeta operationCount
    let reason := if needsRotation then some (s.determineReason (env.clock 1) keyMeta operationCount) else none
    .ok { keyId, needsRotation, reason }

/-- `DEFAULT_GRACE_PERIOD_SECS`. -/
def defaultGracePeriodSecs : UInt64 := 86400

section

variable (sm9 : Sm9Crate MasterKey Manager)

/-- The branch of an SM9 key: the adapter rotates it, and tells its metadata. -/
def rotateSm9 (s : RotationService Manager) (env : RotationEnv MasterKey) (adapter : Sm9RotationAdapter Manager)
    (t : Sm9KeyType) (keyId : Uuid) : Except RotationAbort KeyMeta × RotationService Manager :=
  let (r, adapter) :=
    match t with
    | .signing => adapter.rotateSignKey sm9 env.sm9 keyId defaultGracePeriodSecs
    | .encryption => adapter.rotateEncKey sm9 env.sm9 keyId defaultGracePeriodSecs
  let s := { s with sm9Adapter := some adapter }
  match r with
  | .error e => (.error (.error (.keystoreError e.text)), s)
  | .ok _ =>
    match adapter.keyMeta (fun n => env.sm9.now (n + 2)) keyId with
    | .error e => (.error (.error (.keystoreError e.text)), s)
    | .ok keyMeta => (.ok keyMeta, s)

/-- The end of `rotate_key`, which every other key comes to. -/
def rotateInKeystore (s : RotationService Manager) (env : RotationEnv MasterKey) (keyId : Uuid) (tenantId : String) :
    Except RotationAbort KeyMeta × RotationService Manager :=
  match s.keystore.rotateKey env.keystore.toEnv keyId tenantId with
  | (.error e, keystore) => (.error (.ofKeystore e), { s with keystore })
  | (.ok keyMeta, keystore) => (.ok keyMeta, { s with keystore })

def rotateKey (s : RotationService Manager) (env : RotationEnv MasterKey) (keyId : Uuid) (tenantId : String) :
    Except RotationAbort KeyMeta × RotationService Manager :=
  match s.sm9Adapter with
  | none => s.rotateInKeystore env keyId tenantId
  | some adapter =>
    match s.keystore.getKeyMetadata keyId with
    | .error e => (.error (.ofKeystore e), s)
    | .ok keyMeta =>
      match keyMeta.spec with
      | .sm9Signing => s.rotateSm9 sm9 env adapter .signing keyId
      | .sm9Encryption => s.rotateSm9 sm9 env adapter .encryption keyId
      | _ => s.rotateInKeystore env keyId tenantId

def checkAndRotate (s : RotationService Manager) (env : RotationEnv MasterKey) (keyId : Uuid) :
    Except RotationAbort KeyMeta × RotationService Manager :=
  match s.checkRotation env keyId with
  | .error e => (.error e, s)
  | .ok check =>
    match s.keystore.getKeyMetadata keyId with
    | .error e => (.error (.ofKeystore e), s)
    | .ok keyMeta =>
      if check.needsRotation then s.rotateKey sm9 env keyId keyMeta.tenantId
      else (.error (.error .policyNotTriggered), s)

end

/-! ## When a rotation settles -/

/-- The key is generatable if it is there. -/
def Generatable (s : RotationService Manager) (keyId : Uuid) : Prop :=
  ∀ entry, s.keystore.keys[keyId]? = some entry → entry.keyMeta.spec.isGeneratable = true

/-- Nothing has happened to the key from one state to the other. -/
structure Untouched (keyId : Uuid) (s t : RotationService Manager) : Prop where
  policy : t.policy = s.policy
  entry : t.keystore.keys[keyId]? = s.keystore.keys[keyId]?
  count : t.operationCount keyId = s.operationCount keyId

/-- If the check rotates the key, and then nothing happens to it and no time passes, the next check does not. -/
def Settles (sm9 : Sm9Crate MasterKey Manager) (s : RotationService Manager) (env : RotationEnv MasterKey)
    (keyId : Uuid) :
    Prop :=
  ∀ keyMeta, (s.checkAndRotate sm9 env keyId).1 = .ok keyMeta →
  ∀ t env', Untouched keyId (s.checkAndRotate sm9 env keyId).2 t →
    env'.clock 0 = env.keystore.now → (t.checkAndRotate sm9 env' keyId).1 = .error (.error .policyNotTriggered)

/-- The limits that a rotation does not move the key away from are not reached at the version and the count. -/
def BelowLimits (version : UInt32) (count : UInt64) : RotationPolicy → Prop
  | .timeBased _ => True
  | .usageBased maxOperations => count < maxOperations
  | .versionBased maxVersions => version < maxVersions
  | .combined _ maxOperations maxVersions => count < maxOperations ∧ version < maxVersions

/-- The key is there and reaches a limit, and the keystore can rotate it. -/
structure Rotates (s : RotationService Manager) (env : RotationEnv MasterKey) (keyId : Uuid)
    (entry : Software.KeyEntry) : Prop where
  stored : s.keystore.keys[keyId]? = some entry
  reached : s.policy.needsRotation (env.clock 0) entry.keyMeta (s.operationCount keyId) = true
  rotatable : entry.keyMeta.status.canRotate = true
  generates : SoftwareKeystore.CanGenerate entry.keyMeta.spec env.keystore.toEnv

section

variable {sm9 : Sm9Crate MasterKey Manager} {s : RotationService Manager} {env : RotationEnv MasterKey} {keyId : Uuid}

/-- The age of a key that has just been rotated reaches no limit. -/
theorem needsRotation_rotatedMeta (policy : RotationPolicy) (now : DateTime) (keyMeta : KeyMeta) (count : UInt64) :
    policy.needsRotation now (rotatedMeta keyMeta now) count = false ↔
    BelowLimits (keyMeta.version + 1) count policy := by
  have hage : ∀ days : UInt32, ¬ durationDays days < now - (rotatedMeta keyMeta now).createdAt := by
    intro days
    rw [rotatedMeta, Int.sub_self, durationDays]
    omega
  have hversion : (rotatedMeta keyMeta now).version = keyMeta.version + 1 := rfl
  cases policy with
  | timeBased days => simp [RotationPolicy.needsRotation, BelowLimits, hage]
  | usageBased maxOperations => simp [RotationPolicy.needsRotation, BelowLimits]
  | versionBased maxVersions => simp [RotationPolicy.needsRotation, BelowLimits, hversion]
  | combined timeDays maxOperations maxVersions => simp [RotationPolicy.needsRotation, BelowLimits, hage, hversion]

theorem checkAndRotate_of_none (h : s.keystore.keys[keyId]? = none) :
    ∃ e, (s.checkAndRotate sm9 env keyId).1 = .error e := by
  rw [checkAndRotate, checkRotation, SoftwareKeystore.getKeyMetadata, h]
  exact ⟨_, rfl⟩

/-- The check of a generatable key goes to the keystore. -/
theorem checkAndRotate_eq {entry : Software.KeyEntry} (hentry : s.keystore.keys[keyId]? = some entry)
    (hspec : entry.keyMeta.spec.isGeneratable = true) : s.checkAndRotate sm9 env keyId =
      if s.policy.needsRotation (env.clock 0) entry.keyMeta (s.operationCount keyId) then
        s.rotateInKeystore env keyId entry.keyMeta.tenantId
      else (.error (.error .policyNotTriggered), s) := by
  have hmeta : s.keystore.getKeyMetadata keyId = .ok entry.keyMeta := by
    rw [SoftwareKeystore.getKeyMetadata, hentry]
  have hrotate : s.rotateKey sm9 env keyId entry.keyMeta.tenantId =
      s.rotateInKeystore env keyId entry.keyMeta.tenantId := by
    unfold rotateKey
    cases s.sm9Adapter with
    | none => rfl
    | some adapter =>
      simp only [hmeta]
      split
      · rename_i hsm9
        rw [hsm9] at hspec
        cases hspec
      · rename_i hsm9
        rw [hsm9] at hspec
        cases hspec
      · rfl
  rw [checkAndRotate, checkRotation, hmeta]
  simp only [hrotate]

variable (sm9) in
/-- A check that rotates leaves the rotated entry under the id. -/
theorem Rotates.checkAndRotate {entry : Software.KeyEntry} (h : Rotates s env keyId entry) :
    ∃ material, (s.checkAndRotate sm9 env keyId).1 = .ok (rotatedMeta entry.keyMeta env.keystore.now) ∧
      (s.checkAndRotate sm9 env keyId).2 =
        { s with keystore := s.keystore.put keyId (rotatedEntry entry env.keystore.now material) } := by
  obtain ⟨material, hmaterial⟩ := (SoftwareKeystore.rotationMaterial_isOk_iff _ _).2 h.generates
  rw [checkAndRotate_eq h.stored h.generates.1, if_pos h.reached, rotateInKeystore,
    SoftwareKeystore.rotateKey_of_owned h.stored rfl h.rotatable, hmaterial]
  exact ⟨material, rfl, rfl⟩

/-- Only a check that rotates the key returns Ok. -/
theorem rotates_of_checkAndRotate (hgeneratable : s.Generatable keyId) {keyMeta : KeyMeta}
    (h : (s.checkAndRotate sm9 env keyId).1 = .ok keyMeta) : ∃ entry, Rotates s env keyId entry := by
  cases hentry : s.keystore.keys[keyId]? with
  | none =>
    have hnone : ∃ e, (s.checkAndRotate sm9 env keyId).1 = .error e := checkAndRotate_of_none hentry
    obtain ⟨e, he⟩ := hnone
    rw [he] at h
    cases h
  | some entry =>
    have hspec := hgeneratable entry hentry
    rw [checkAndRotate_eq hentry hspec] at h
    split at h
    · rename_i hreached
      unfold rotateInKeystore at h
      cases hrotated : s.keystore.rotateKey env.keystore.toEnv keyId entry.keyMeta.tenantId with
      | mk r keystore =>
        rw [hrotated] at h
        cases r with
        | error e => cases h
        | ok rotated =>
          by_cases hstatus : entry.keyMeta.status.canRotate = true
          · refine ⟨entry, hentry, hreached, hstatus, ?_⟩
            rw [SoftwareKeystore.rotateKey_of_owned hentry rfl hstatus] at hrotated
            rw [← SoftwareKeystore.rotationMaterial_isOk_iff]
            cases hmade : SoftwareKeystore.rotationMaterial entry.keyMeta.spec env.keystore.toEnv with
            | error e =>
              rw [hmade] at hrotated
              cases hrotated
            | ok material => exact ⟨material, rfl⟩
          · have hrefused : ∀ entry', s.keystore.keys[keyId]? = some entry' →
                entry'.keyMeta.tenantId = entry.keyMeta.tenantId → entry'.keyMeta.status.canRotate = false := by
              intro entry' hentry' _
              rw [hentry, Option.some.injEq] at hentry'
              subst hentry'
              exact Bool.eq_false_iff.2 hstatus
            obtain ⟨-, e, he⟩ := SoftwareKeystore.rotateKey_refused hrefused
            rw [hrotated] at he
            cases he
    · cases h

/-- What the next check answers at the time of the rotation. -/
theorem checkAndRotate_untouched {entry : Software.KeyEntry} (h : Rotates s env keyId entry)
    {t : RotationService Manager}
    {env' : RotationEnv MasterKey} (ht : Untouched keyId (s.checkAndRotate sm9 env keyId).2 t)
    (hclock : env'.clock 0 = env.keystore.now) :
    (t.checkAndRotate sm9 env' keyId).1 = .error (.error .policyNotTriggered) ↔
      BelowLimits (entry.keyMeta.version + 1) (s.operationCount keyId) s.policy := by
  obtain ⟨material, -, hleft⟩ := h.checkAndRotate sm9
  rw [hleft] at ht
  have hentry : t.keystore.keys[keyId]? = some (rotatedEntry entry env.keystore.now material) := by
    rw [ht.entry, SoftwareKeystore.keys_put, if_pos rfl]
  have hcount : t.operationCount keyId = s.operationCount keyId := ht.count
  rw [checkAndRotate_eq hentry h.generates.1, ht.policy, hcount, hclock, ← needsRotation_rotatedMeta s.policy
    env.keystore.now]
  change (if s.policy.needsRotation env.keystore.now (rotatedMeta entry.keyMeta env.keystore.now)
    (s.operationCount keyId) then _ else _ : Except RotationAbort KeyMeta × RotationService Manager).1 = _ ↔ _
  cases hneeds : s.policy.needsRotation env.keystore.now (rotatedMeta entry.keyMeta env.keystore.now)
    (s.operationCount keyId) with
  | false => simp
  | true =>
    simp only [if_true, Bool.true_eq_false, iff_false]
    unfold rotateInKeystore
    split
    · rename_i e _ _
      cases e <;> simp [RotationAbort.ofKeystore]
    · simp

end

/-- In any state, a rotation settles exactly where neither the operation count nor the version after the rotation
reaches its limit. -/
theorem settles_iff (sm9 : Sm9Crate MasterKey Manager) (s : RotationService Manager) (env : RotationEnv MasterKey)
    (keyId : Uuid) (hgeneratable : s.Generatable keyId) : Settles sm9 s env keyId ↔
      ∀ entry, Rotates s env keyId entry →
        BelowLimits (entry.keyMeta.version + 1) (s.operationCount keyId) s.policy := by
  constructor
  · intro h entry hrotates
    obtain ⟨material, hok, -⟩ := hrotates.checkAndRotate sm9
    have hnext := h _ hok _ { env with clock := fun _ => env.keystore.now } ⟨rfl, rfl, rfl⟩ rfl
    exact (checkAndRotate_untouched hrotates ⟨rfl, rfl, rfl⟩ rfl).1 hnext
  · intro h keyMeta hok t env' ht hclock
    obtain ⟨entry, hrotates⟩ := rotates_of_checkAndRotate hgeneratable hok
    exact (checkAndRotate_untouched hrotates ht hclock).2 (h entry hrotates)

/-! ## One key under two policies -/

/-- The clock stands at `now`, in days since the epoch. -/
def sampleEnv (days : ℕ) : RotationEnv fun _ => Bytes where
  clock _ := days * 86400 * 1000000000
  keystore :=
    { uuid := 1, now := days * 86400 * 1000000000, random := fun _ => 7, sm2KeyPair := .error "no entropy", seed := 0
      rank := fun _ => 0 }
  sm9 := { now := fun _ => 0, uuid := 2, generated := fun _ => .error "no entropy", kekEncrypt := fun _ => .ok () }

/-- A keystore with one key, made at the epoch, that has been used `count` times. -/
def oneKey (policy : RotationPolicy) (count : UInt64) : RotationService (Sm9KeyType → List Bytes) where
  keystore := (SoftwareKeystore.new.generateKey (sampleEnv 0).keystore.toEnv .aes256Gcm "key" "tenant-1").2
  policy
  opCounter := some fun _ => count
  sm9Adapter := none

def oneKeyEntry : Software.KeyEntry where
  keyMeta := SoftwareKeystore.newMeta (sampleEnv 0).keystore.toEnv .aes256Gcm "key" "tenant-1" none
  material := List.replicate 32 7
  versions := []

theorem entry_oneKey (policy : RotationPolicy) (count : UInt64) :
    (oneKey policy count).keystore.keys[(1 : Uuid)]? = some oneKeyEntry := by
  exact (SoftwareKeystore.keys_put ..).trans (if_pos rfl)

theorem generatable_oneKey (policy : RotationPolicy) (count : UInt64) : (oneKey policy count).Generatable 1 := by
  intro entry hentry
  rw [entry_oneKey, Option.some.injEq] at hentry
  subst hentry
  rfl

theorem canGenerate_oneKey (env : Env) : SoftwareKeystore.CanGenerate oneKeyEntry.keyMeta.spec env := by
  refine ⟨rfl, ?_⟩
  rintro ⟨⟩

/-- Thirty-one days old under a limit of thirty days. -/
theorem settles_iff_oneKey :
    (∃ entry, Rotates (oneKey (.timeBased 30) 5) (sampleEnv 31) 1 entry) ∧
      Settles Sm9RotationAdapter.countingCrate (oneKey (.timeBased 30) 5) (sampleEnv 31) 1 :=
  ⟨⟨oneKeyEntry, entry_oneKey _ _, by decide +kernel, rfl, canGenerate_oneKey _⟩,
    (settles_iff Sm9RotationAdapter.countingCrate _ (sampleEnv 31) 1 (generatable_oneKey _ _)).2 fun _ _ => trivial⟩

/-- Used a hundred times under a limit of a hundred: rotated, and rotated again by the next check. -/
theorem not_settles_oneKey : ¬ ∀ (s : RotationService (Sm9KeyType → List Bytes)) (env : RotationEnv fun _ => Bytes)
    (keyId : Uuid), s.Generatable keyId → Settles Sm9RotationAdapter.countingCrate s env keyId := by
  intro h
  have hgeneratable := generatable_oneKey (.usageBased 100) 100
  have hsettles := h _ (sampleEnv 1) 1 hgeneratable
  have hbelow : (100 : UInt64) < 100 := (settles_iff _ _ _ _ hgeneratable).1 hsettles oneKeyEntry
    ⟨entry_oneKey _ _, by decide, rfl, canGenerate_oneKey _⟩
  exact absurd hbelow (by decide)

end RotationService

end GmKms.Api
