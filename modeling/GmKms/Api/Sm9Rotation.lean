import GmKms.Api.Rotation
import GmKms.Keystore.KeySpecs
import GmKms.Sm9.FailedCalls
/-!
# SM9 keys and the rotation service

`rotate_key` of a `RotationService` with an SM9 adapter, over either keystore. It looks in the keystore for the
specification of the key, and the keys of the adapter are not there.
-/

namespace GmKms.Api

open Lib Lib.Effect
open Keystore
open Software (SoftwareKeystore UseCall UseEnv)
open Sm9 (Sm9Crate Sm9Env Sm9KeyEntry Sm9KeyType Sm9RotationAdapter)

/-- What `rotate_key` asks of a `KeystoreBackend`. -/
structure RotatingKeystore (σ : Type) where
  getKeyMetadata : Uuid → σ → Except Abort KeyMeta × σ
  rotateKey : Uuid → String → σ → Except Abort KeyMeta × σ

namespace RotatingKeystore

variable {σ : Type} {MasterKey : Sm9KeyType → Type} {Manager : Type}

def software (env : UseEnv) : RotatingKeystore SoftwareKeystore where
  getKeyMetadata keyId ks := (ks.getKeyMetadata keyId, ks)
  rotateKey keyId tenantId ks := ks.rotateKey env.toEnv keyId tenantId

def postgres (crypto : Crypto) (env : Postgres.Env) : RotatingKeystore Postgres.Store where
  getKeyMetadata keyId := outcome (Postgres.getKeyMetadata env keyId)
  rotateKey keyId tenantId := outcome (Postgres.rotateKey crypto env keyId tenantId)

section

variable (sm9 : Sm9Crate MasterKey Manager)

def rotateSm9 (env : Sm9Env MasterKey) (adapter : Sm9RotationAdapter Manager) (t : Sm9KeyType) (keyId : Uuid) :
    Except RotationAbort KeyMeta × Sm9RotationAdapter Manager :=
  let (r, adapter) :=
    match t with
    | .signing => adapter.rotateSignKey sm9 env keyId RotationService.defaultGracePeriodSecs
    | .encryption => adapter.rotateEncKey sm9 env keyId RotationService.defaultGracePeriodSecs
  match r with
  | .error e => (.error (.error (.keystoreError e.text)), adapter)
  | .ok _ =>
    match adapter.keyMeta (fun n => env.now (n + 2)) keyId with
    | .error e => (.error (.error (.keystoreError e.text)), adapter)
    | .ok keyMeta => (.ok keyMeta, adapter)

/-- The end of `rotate_key`. -/
def rotateStored (keystore : RotatingKeystore σ) (s : σ) (keyId : Uuid) (tenantId : String) :
    Except RotationAbort KeyMeta × σ :=
  match keystore.rotateKey keyId tenantId s with
  | (.error e, s) => (.error (.ofKeystore e), s)
  | (.ok keyMeta, s) => (.ok keyMeta, s)

/-- `RotationService::rotate_key`, with the keystore and the adapter it leaves. -/
def rotateWith (keystore : RotatingKeystore σ) (env : Sm9Env MasterKey) (s : σ)
    (adapter : Option (Sm9RotationAdapter Manager)) (keyId : Uuid) (tenantId : String) :
    Except RotationAbort KeyMeta × σ × Option (Sm9RotationAdapter Manager) :=
  match adapter with
  | none => (keystore.rotateStored s keyId tenantId).map id (·, none)
  | some adapter =>
    match keystore.getKeyMetadata keyId s with
    | (.error e, s) => (.error (.ofKeystore e), s, some adapter)
    | (.ok keyMeta, s) =>
      match keyMeta.spec with
      | .sm9Signing => (rotateSm9 sm9 env adapter .signing keyId).map id (s, some ·)
      | .sm9Encryption => (rotateSm9 sm9 env adapter .encryption keyId).map id (s, some ·)
      | _ => (keystore.rotateStored s keyId tenantId).map id (·, some adapter)

/-- The service over the software keystore is this one. -/
theorem rotateKey_eq (s : RotationService Manager) (env : RotationEnv MasterKey) (keyId : Uuid) (tenantId : String) :
    s.rotateKey sm9 env keyId tenantId =
      (rotateWith sm9 (software env.keystore) env.sm9 s.keystore s.sm9Adapter keyId tenantId).map id fun t =>
        { s with keystore := t.1, sm9Adapter := t.2 } := by
  have hstored : s.rotateInKeystore env keyId tenantId =
      ((software env.keystore).rotateStored s.keystore keyId tenantId).map id fun keystore => { s with keystore } := by
    have hsame : (software env.keystore).rotateKey keyId tenantId s.keystore =
        s.keystore.rotateKey env.keystore.toEnv keyId tenantId := rfl
    unfold RotationService.rotateInKeystore rotateStored
    rw [hsame]
    rcases s.keystore.rotateKey env.keystore.toEnv keyId tenantId with ⟨e | keyMeta, ks⟩ <;> rfl
  have hsm9 : ∀ adapter t, s.rotateSm9 sm9 env adapter t keyId =
      (rotateSm9 sm9 env.sm9 adapter t keyId).map id fun adapter => { s with sm9Adapter := some adapter } := by
    intro adapter t
    unfold RotationService.rotateSm9 rotateSm9
    cases t with
    | signing =>
      dsimp only
      rcases adapter.rotateSignKey sm9 env.sm9 keyId RotationService.defaultGracePeriodSecs with ⟨e | _, adapter'⟩
      · rfl
      · dsimp only
        cases adapter'.keyMeta (fun n => env.sm9.now (n + 2)) keyId <;> rfl
    | encryption =>
      dsimp only
      rcases adapter.rotateEncKey sm9 env.sm9 keyId RotationService.defaultGracePeriodSecs with ⟨e | _, adapter'⟩
      · rfl
      · dsimp only
        cases adapter'.keyMeta (fun n => env.sm9.now (n + 2)) keyId <;> rfl
  unfold RotationService.rotateKey rotateWith
  cases hadapter : s.sm9Adapter with
  | none =>
    rw [hadapter] at hstored
    rw [hstored]
    rfl
  | some adapter =>
    have hmeta : (software env.keystore).getKeyMetadata keyId s.keystore =
        (s.keystore.getKeyMetadata keyId, s.keystore) :=
      rfl
    dsimp only
    rw [hmeta]
    cases s.keystore.getKeyMetadata keyId with
    | error e => rw [← hadapter]; rfl
    | ok keyMeta =>
      rw [hadapter] at hstored
      dsimp only
      cases keyMeta.spec
      case sm9Signing => exact hsm9 adapter .signing
      case sm9Encryption => exact hsm9 adapter .encryption
      all_goals exact hstored

/-- Every registered key can be rotated for every tenant: to the version that comes next in the tenant's manager. -/
def RotatesRegistered (keystore : RotatingKeystore σ) (env : Sm9Env MasterKey) (s : σ)
    (adapter : Sm9RotationAdapter Manager) : Prop :=
  ∀ (id : Uuid) (entry : Sm9KeyEntry) (tenantId : String), adapter.keyRegistry[id]? = some entry →
    ∃ keyMeta, (rotateWith sm9 keystore env s (some adapter) id tenantId).1 = .ok keyMeta ∧
      keyMeta.spec = entry.keyType.spec ∧
      keyMeta.version = sm9.currentVersion entry.keyType (Sm9RotationAdapter.managerOf sm9 adapter entry.tenantId) + 1

end

/-- Neither the metadata in the keystore nor what a rotation there returns is that of an SM9 key. -/
structure NoSm9 (keystore : RotatingKeystore σ) (s : σ) : Prop where
  stored : ∀ keyId keyMeta, (keystore.getKeyMetadata keyId s).1 = .ok keyMeta → keyMeta.spec.isSm9 = false
  rotated : ∀ keyId tenantId keyMeta,
    (keystore.rotateKey keyId tenantId (keystore.getKeyMetadata keyId s).2).1 = .ok keyMeta → keyMeta.spec.isSm9 = false

theorem isSm9_spec (t : Sm9KeyType) : t.spec.isSm9 = true := by
  cases t <;> rfl

/-- Over such a keystore no rotation returns an SM9 key. -/
theorem NoSm9.rotateWith {keystore : RotatingKeystore σ} {s : σ} (h : keystore.NoSm9 s)
    (sm9 : Sm9Crate MasterKey Manager)
    (env : Sm9Env MasterKey) (adapter : Sm9RotationAdapter Manager) (keyId : Uuid) (tenantId : String)
    (keyMeta : KeyMeta)
    (hrotated : (rotateWith sm9 keystore env s (some adapter) keyId tenantId).1 = .ok keyMeta) :
    keyMeta.spec.isSm9 = false := by
  have hstored := h.stored keyId
  have hreply := h.rotated keyId tenantId
  unfold RotatingKeystore.rotateWith at hrotated
  dsimp only at hrotated
  rcases hread : keystore.getKeyMetadata keyId s with ⟨e | stored, s'⟩
  · rw [hread] at hrotated
    cases hrotated
  · rw [hread] at hstored hreply hrotated
    have hspec := hstored stored rfl
    have hlast : (keystore.rotateStored s' keyId tenantId).1 = .ok keyMeta := by
      cases hcase : stored.spec <;> rw [hcase] at hspec <;> simp only [hcase] at hrotated
      case sm9Signing => cases hspec
      case sm9Encryption => cases hspec
      all_goals exact hrotated
    unfold rotateStored at hlast
    rcases hkeystore : keystore.rotateKey keyId tenantId s' with ⟨e | rotated, s''⟩
    · rw [hkeystore] at hlast
      cases hlast
    · rw [hkeystore] at hlast
      cases hlast
      exact hreply keyMeta (by rw [hkeystore])

theorem NoSm9.rotatesRegistered_iff {keystore : RotatingKeystore σ} {s : σ} (h : keystore.NoSm9 s)
    (sm9 : Sm9Crate MasterKey Manager) (env : Sm9Env MasterKey) (adapter : Sm9RotationAdapter Manager) :
    RotatesRegistered sm9 keystore env s adapter ↔ ∀ id : Uuid, adapter.keyRegistry[id]? = none := by
  constructor
  · intro hrotates id
    cases hentry : adapter.keyRegistry[id]? with
    | none => rfl
    | some entry =>
      obtain ⟨keyMeta, hok, hspec, -⟩ := hrotates id entry "" hentry
      have hnot := h.rotateWith sm9 env adapter id "" keyMeta hok
      rw [hspec, isSm9_spec] at hnot
      cases hnot
  · intro hnone id entry tenantId hentry
    rw [hnone] at hentry
    cases hentry

theorem noSm9_software {ks : SoftwareKeystore} (h : ks.NoSm9) (env : UseEnv) : (software env).NoSm9 ks where
  stored keyId keyMeta hok := by
    obtain ⟨entry, hentry, rfl⟩ := SoftwareKeystore.getKeyMetadata_eq_ok_iff.1 hok
    exact h keyId entry hentry
  rotated _ _ _ hok := SoftwareKeystore.isSm9_of_rotateKey h hok

theorem noSm9_postgres {s : Postgres.Store} (h : Postgres.NoSm9 s) (crypto : Crypto) (env : Postgres.Env) :
    (postgres crypto env).NoSm9 s where
  stored _ keyMeta hok := (Postgres.noSm9_getKeyMetadata s h).2 keyMeta hok
  rotated _ _ keyMeta hok := (Postgres.noSm9_rotateKey _ (Postgres.noSm9_getKeyMetadata s h).1).2 keyMeta hok

/-- In no run of the adapter and of either keystore can a registered key be rotated through the service: all of them
can only where none is registered. -/
theorem rotatesRegistered_run_iff (sm9 : Sm9Crate MasterKey Manager) (crypto : Crypto)
    (calls : List (Sm9RotationAdapter.Call MasterKey)) (env : Sm9Env MasterKey) :
    (∀ (uses : List UseCall) (useEnv : UseEnv),
      RotatesRegistered sm9 (software useEnv) env ((SoftwareKeystore.use crypto).final .new uses)
          ((Sm9RotationAdapter.call sm9).final .new calls) ↔
        ∀ id : Uuid, ((Sm9RotationAdapter.call sm9).final .new calls).keyRegistry[id]? = none) ∧
    ∀ (capacity : Option ℕ) (kek : Bytes) (uses : List Postgres.Call) (useEnv : Postgres.Env),
      RotatesRegistered sm9 (postgres crypto useEnv) env ((Postgres.call crypto).final (.start capacity kek) uses)
          ((Sm9RotationAdapter.call sm9).final .new calls) ↔
        ∀ id : Uuid, ((Sm9RotationAdapter.call sm9).final .new calls).keyRegistry[id]? = none := by
  constructor
  · intro uses useEnv
    exact (noSm9_software (SoftwareKeystore.noSm9_run crypto uses) useEnv).rotatesRegistered_iff sm9 env _
  · intro capacity kek uses useEnv
    exact (noSm9_postgres (Postgres.noSm9_run crypto capacity kek uses) crypto useEnv).rotatesRegistered_iff sm9 env _

/-- A tenant has registered a signing key. -/
def oneRegistered : Sm9RotationAdapter (Sm9KeyType → List Bytes) :=
  (Sm9RotationAdapter.call Sm9RotationAdapter.countingCrate).final .new
    [.registerSignKey (Sm9RotationAdapter.sampleEnv 1 0) "tenant-1" [1]]

def idleUseEnv : UseEnv := ⟨⟨0, 0, fun _ => 0, .error "no key"⟩, 0, fun _ => 0⟩

/-- The adapter rotates the key, and the service over an empty keystore does not. -/
theorem not_rotatesRegistered_oneRegistered :
    (∃ r, (oneRegistered.rotateSignKey Sm9RotationAdapter.countingCrate (Sm9RotationAdapter.sampleEnv 0 2) 1
      RotationService.defaultGracePeriodSecs).1 = .ok r) ∧
    ¬ RotatesRegistered Sm9RotationAdapter.countingCrate (software idleUseEnv) (Sm9RotationAdapter.sampleEnv 0 2) .new
      oneRegistered := by
  refine ⟨⟨_, rfl⟩, fun hrotates => ?_⟩
  obtain ⟨keyMeta, hok, -⟩ := hrotates 1 ⟨"tenant-1", .signing, 1, 1⟩ "tenant-1" (by decide +kernel)
  cases hok

end RotatingKeystore

end GmKms.Api
