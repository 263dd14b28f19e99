import GmKms.Sm9.Registry
/-!
# Failed calls

A tenant's manager takes a new key before the key is encrypted under the KEK. A call that fails in between leaves
the manager at the new version, and the registry at the old one.
-/

namespace GmKms.Sm9

open Lib

structure Sm9KeyVersionInfo where
  version : UInt32
  active : Bool
  graceExpired : Bool

/-- What a `KeyRotationManager` tells of its versions besides their keys. -/
structure Sm9Versions (Manager : Type) where
  validVersions : Sm9KeyType → Manager → DateTime → List UInt32
  isValid : Sm9KeyType → Manager → DateTime → UInt32 → Bool
  rotationHistory : Sm9KeyType → Manager → List RotationRecord

namespace Sm9RotationAdapter

variable {MasterKey : Sm9KeyType → Type} {Manager : Type}

section

variable (sm9 : Sm9Crate MasterKey Manager) (versions : Sm9Versions Manager)

/-- `valid_sign_versions` and `valid_enc_versions`; the clock stands at `now`. -/
def validVersions (t : Sm9KeyType) (s : Sm9RotationAdapter Manager) (now : DateTime) (tenantId : String) :
    List Sm9KeyVersionInfo :=
  match s.managers[tenantId]? with
  | none => []
  | some manager =>
    let current := sm9.currentVersion t manager
    (versions.validVersions t manager now).map fun v =>
      { version := v, active := v == current, graceExpired := !versions.isValid t manager now v }

/-- `sign_rotation_history` and `enc_rotation_history`. -/
def rotationHistory (t : Sm9KeyType) (s : Sm9RotationAdapter Manager) (tenantId : String) : List RotationRecord :=
  (s.managers[tenantId]?.map (versions.rotationHistory t)).getD []

/-- A tenant without a manager is one whose manager is new. -/
def managerOf (s : Sm9RotationAdapter Manager) (tenantId : String) : Manager :=
  s.managers[tenantId]?.getD sm9.new

/-- What is known of the versions of a `KeyRotationManager`: a new key gets another version than the current one, and
becomes current; a key that is refused changes nothing. -/
structure Versioned : Prop where
  new_valid : ∀ t now, versions.validVersions t sm9.new now = []
  new_history : ∀ t, versions.rotationHistory t sm9.new = []
  register : ∀ t m key version, (sm9.register t m key).1 = .ok version →
    sm9.currentVersion t (sm9.register t m key).2 = version ∧ version ≠ sm9.currentVersion t m
  register_refused : ∀ t m key e, (sm9.register t m key).1 = .error e → (sm9.register t m key).2 = m
  rotate : ∀ t m key grace rotation, (sm9.rotate t m key grace).1 = .ok rotation →
    sm9.currentVersion t (sm9.rotate t m key grace).2 = rotation.toVersion ∧
      rotation.toVersion ≠ sm9.currentVersion t m
  rotate_refused : ∀ t m key grace e, (sm9.rotate t m key grace).1 = .error e → (sm9.rotate t m key grace).2 = m

/-- Nothing has changed in what the adapter tells of any tenant. -/
structure Unchanged (s s' : Sm9RotationAdapter Manager) : Prop where
  currentVersion : ∀ t tenantId,
    sm9.currentVersion t (managerOf sm9 s' tenantId) = sm9.currentVersion t (managerOf sm9 s tenantId)
  validVersions : ∀ t now tenantId, validVersions sm9 versions t s' now tenantId = validVersions sm9 versions t s now
    tenantId
  rotationHistory : ∀ t tenantId, rotationHistory versions t s' tenantId = rotationHistory versions t s tenantId
  keyRegistry : s'.keyRegistry = s.keyRegistry

def AllOrNothing (s : Sm9RotationAdapter Manager) (c : Call MasterKey) : Prop :=
  ¬ Succeeds (call sm9 s c).1 → Unchanged sm9 versions s (call sm9 s c).2

/-! ## Keys that a manager takes -/

def registrationTaken (t : Sm9KeyType) (s : Sm9RotationAdapter Manager) (tenantId : String) (key : MasterKey t) :
    Option (MasterKey t) :=
  match (sm9.register t (managerOf sm9 s tenantId) key).1 with
  | .error _ => none
  | .ok _ => some key

def rotationTaken (t : Sm9KeyType) (s : Sm9RotationAdapter Manager) (env : Sm9Env MasterKey) (keyId : Uuid)
    (gracePeriodSecs : UInt64) : Option (MasterKey t) :=
  match s.keyRegistry[keyId]? with
  | none => none
  | some entry =>
    if entry.keyType ≠ t then none
    else match env.generated t with
      | .error _ => none
      | .ok newKey =>
        match s.managers[entry.tenantId]? with
        | none => none
        | some manager =>
          match (sm9.rotate t manager newKey gracePeriodSecs).1 with
          | .error _ => none
          | .ok _ => some newKey

/-- A key that the tenant's manager takes can be serialized, and is encrypted under the KEK. -/
def Persists (s : Sm9RotationAdapter Manager) : Call MasterKey → Prop
  | .registerSignKey env tenantId key =>
    ∀ k, registrationTaken sm9 .signing s tenantId key = some k → persist sm9 env .signing k = .ok ()
  | .registerEncKey env tenantId key =>
    ∀ k, registrationTaken sm9 .encryption s tenantId key = some k → persist sm9 env .encryption k = .ok ()
  | .rotateSignKey env keyId gracePeriodSecs =>
    ∀ k, rotationTaken sm9 .signing s env keyId gracePeriodSecs = some k → persist sm9 env .signing k = .ok ()
  | .rotateEncKey env keyId gracePeriodSecs =>
    ∀ k, rotationTaken sm9 .encryption s env keyId gracePeriodSecs = some k → persist sm9 env .encryption k = .ok ()

end

/-! ## What a failed call leaves -/

variable {sm9 : Sm9Crate MasterKey Manager} {versions : Sm9Versions Manager}

theorem validVersions_eq (hversioned : Versioned sm9 versions) (t : Sm9KeyType) (s : Sm9RotationAdapter Manager)
    (now : DateTime) (tenantId : String) :
    validVersions sm9 versions t s now tenantId =
      (versions.validVersions t (managerOf sm9 s tenantId) now).map fun v =>
        { version := v
          active := v == sm9.currentVersion t (managerOf sm9 s tenantId)
          graceExpired := !versions.isValid t (managerOf sm9 s tenantId) now v } := by
  unfold validVersions managerOf
  cases s.managers[tenantId]? with
  | none => rw [Option.getD_none, hversioned.new_valid, List.map_nil]
  | some m => rfl

theorem rotationHistory_eq (hversioned : Versioned sm9 versions) (t : Sm9KeyType) (s : Sm9RotationAdapter Manager)
    (tenantId : String) : rotationHistory versions t s tenantId =
      versions.rotationHistory t (managerOf sm9 s tenantId) := by
  unfold rotationHistory managerOf
  cases s.managers[tenantId]? with
  | none => exact (hversioned.new_history t).symm
  | some m => rfl

/-- What the adapter tells is a function of its managers and its registry. -/
theorem Unchanged.of_managerOf (hversioned : Versioned sm9 versions) {s s' : Sm9RotationAdapter Manager}
    (hmanager : ∀ tenantId, managerOf sm9 s' tenantId = managerOf sm9 s tenantId)
    (hregistry : s'.keyRegistry = s.keyRegistry) : Unchanged sm9 versions s s' where
  currentVersion t tenantId := by rw [hmanager]
  validVersions t now tenantId := by rw [validVersions_eq hversioned, validVersions_eq hversioned, hmanager]
  rotationHistory t tenantId := by rw [rotationHistory_eq hversioned, rotationHistory_eq hversioned, hmanager]
  keyRegistry := hregistry

theorem managerOf_insert (s : Sm9RotationAdapter Manager) (tenantId other : String) (m : Manager) :
    managerOf sm9 { s with managers := s.managers.insert tenantId m } other =
      if other = tenantId then m else managerOf sm9 s other := by
  unfold managerOf
  rw [HashMap.getElem?_insert]
  split <;> rfl

/-- A manager that refused its key is put back as it was. -/
theorem Unchanged.of_refused (hversioned : Versioned sm9 versions) (s : Sm9RotationAdapter Manager)
    (tenantId : String) :
    Unchanged sm9 versions s { s with managers := s.managers.insert tenantId (managerOf sm9 s tenantId) } := by
  refine .of_managerOf hversioned (fun other => ?_) rfl
  rw [managerOf_insert]
  split
  · rename_i heq
    rw [heq]
  · rfl

/-- A manager that took its key has another current version. -/
theorem not_unchanged_of_taken {t : Sm9KeyType} {s : Sm9RotationAdapter Manager} {tenantId : String} {m : Manager}
    (hversion : sm9.currentVersion t m ≠ sm9.currentVersion t (managerOf sm9 s tenantId)) :
    ¬ Unchanged sm9 versions s { s with managers := s.managers.insert tenantId m } := by
  intro hunchanged
  have hcurrent := hunchanged.currentVersion t tenantId
  rw [managerOf_insert, if_pos rfl] at hcurrent
  exact hversion hcurrent

theorem registerKey_unchanged_iff (hversioned : Versioned sm9 versions) {t : Sm9KeyType}
    (s : Sm9RotationAdapter Manager)
    (env : Sm9Env MasterKey) (tenantId : String) (key : MasterKey t) :
    ((¬ ∃ r, (registerKey sm9 t s env tenantId key).1 = .ok r) →
        Unchanged sm9 versions s (registerKey sm9 t s env tenantId key).2) ↔
      ∀ k, registrationTaken sm9 t s tenantId key = some k → persist sm9 env t k = .ok () := by
  have hregister := hversioned.register t (managerOf sm9 s tenantId) key
  have hrefused := hversioned.register_refused t (managerOf sm9 s tenantId) key
  unfold registerKey registrationTaken
  dsimp only
  rw [show s.managers[tenantId]?.getD sm9.new = managerOf sm9 s tenantId from rfl]
  cases hresult : (sm9.register t (managerOf sm9 s tenantId) key).1 with
  | error e =>
    rw [hrefused e hresult]
    refine ⟨?_, fun _ _ => .of_refused hversioned s tenantId⟩
    rintro - k hk
    cases hk
  | ok version =>
    obtain ⟨hcurrent, hne⟩ := hregister version hresult
    cases hpersist : persist sm9 env t key with
    | error e =>
      refine ⟨fun hunchanged => ?_, fun hall => ?_⟩
      · refine absurd (hunchanged ?_) (not_unchanged_of_taken (t := t) (hcurrent ▸ hne))
        rintro ⟨r, hr⟩
        cases hr
      · rw [hall key rfl] at hpersist
        cases hpersist
    | ok _ =>
      refine ⟨?_, fun _ hfailed => absurd ⟨_, rfl⟩ hfailed⟩
      rintro - k hk
      cases hk
      exact hpersist

theorem rotateKey_unchanged_iff (hversioned : Versioned sm9 versions) {t : Sm9KeyType} {article : String}
    (s : Sm9RotationAdapter Manager) (env : Sm9Env MasterKey) (keyId : Uuid) (gracePeriodSecs : UInt64) :
    ((¬ ∃ r, (rotateKey sm9 t article s env keyId gracePeriodSecs).1 = .ok r) →
        Unchanged sm9 versions s (rotateKey sm9 t article s env keyId gracePeriodSecs).2) ↔
      ∀ k, rotationTaken sm9 t s env keyId gracePeriodSecs = some k → persist sm9 env t k = .ok () := by
  have hself : Unchanged sm9 versions s s := .of_managerOf hversioned (fun _ => rfl) rfl
  have hnone : ∀ {P : Prop}, (P → Unchanged sm9 versions s s) ↔
      ∀ k : MasterKey t, none = some k → persist sm9 env t k = .ok () := by
    refine ⟨?_, fun _ _ => hself⟩
    rintro - k hk
    cases hk
  unfold rotateKey getEntry rotationTaken
  cases hentry : s.keyRegistry[keyId]? with
  | none => exact hnone
  | some entry =>
    dsimp only
    by_cases htype : entry.keyType = t
    swap
    · rw [if_pos htype, if_pos htype]
      exact hnone
    rw [if_neg (not_not.2 htype), if_neg (not_not.2 htype)]
    cases env.generated t with
    | error e => exact hnone
    | ok newKey =>
      dsimp only
      cases hmanager : s.managers[entry.tenantId]? with
      | none => exact hnone
      | some m =>
        have hm : managerOf sm9 s entry.tenantId = m := by rw [managerOf, hmanager, Option.getD_some]
        have hrotate := hversioned.rotate t m newKey gracePeriodSecs
        have hrefused := hversioned.rotate_refused t m newKey gracePeriodSecs
        dsimp only
        cases hresult : (sm9.rotate t m newKey gracePeriodSecs).1 with
        | error e =>
          rw [hrefused e hresult, ← hm]
          refine ⟨?_, fun _ _ => .of_refused hversioned s entry.tenantId⟩
          rintro - k hk
          cases hk
        | ok rotation =>
          obtain ⟨hcurrent, hne⟩ := hrotate rotation hresult
          cases hpersist : persist sm9 env t newKey with
          | error e =>
            refine ⟨fun hunchanged => ?_, fun hall => ?_⟩
            · refine absurd (hunchanged ?_) (not_unchanged_of_taken (t := t) (by rw [hm, hcurrent]; exact hne))
              rintro ⟨r, hr⟩
              cases hr
            · rw [hall newKey rfl] at hpersist
              cases hpersist
          | ok _ =>
            refine ⟨?_, fun _ hfailed => absurd ?_ hfailed⟩
            · rintro - k hk
              cases hk
              exact hpersist
            · -- the entry is still there when its version is updated
              simp only [updateRegistryVersion, hentry]
              exact ⟨_, rfl⟩

theorem allOrNothing_iff_persists (hversioned : Versioned sm9 versions) (s : Sm9RotationAdapter Manager)
    (c : Call MasterKey) : AllOrNothing sm9 versions s c ↔ Persists sm9 s c := by
  cases c with
  | registerSignKey env tenantId key => exact registerKey_unchanged_iff hversioned s env tenantId key
  | registerEncKey env tenantId key => exact registerKey_unchanged_iff hversioned s env tenantId key
  | rotateSignKey env keyId gracePeriodSecs => exact rotateKey_unchanged_iff hversioned s env keyId gracePeriodSecs
  | rotateEncKey env keyId gracePeriodSecs => exact rotateKey_unchanged_iff hversioned s env keyId gracePeriodSecs

/-- In every run the failed calls change nothing exactly if every key that a manager takes is persisted. -/
theorem allOrNothing_run_iff (hversioned : Versioned sm9 versions) (calls : List (Call MasterKey)) :
    (call sm9).Along (fun _ s c => AllOrNothing sm9 versions s c) [] new calls ↔
      (call sm9).Along (fun _ s c => Persists sm9 s c) [] new calls :=
  Machine.along_congr fun _ s c => allOrNothing_iff_persists hversioned s c

/-! ## A store that does not answer -/

theorem ofNat_succ_ne {n : ℕ} (h : n + 1 < 2 ^ 32) : UInt32.ofNat (n + 1) ≠ .ofNat n := by
  intro heq
  have hnat := congrArg UInt32.toNat heq
  rw [UInt32.toNat_ofNat', UInt32.toNat_ofNat', Nat.mod_eq_of_lt h, Nat.mod_eq_of_lt (by omega)] at hnat
  omega

/-- All versions are valid forever, and each but the first was rotated to. -/
def countingVersions : Sm9Versions (Sm9KeyType → List Bytes) where
  validVersions t m _ := (List.range (m t).length).map fun i => .ofNat (i + 1)
  isValid t m _ version := version ≠ 0 ∧ version.toNat ≤ (m t).length
  rotationHistory t m := (List.range ((m t).length - 1)).map fun i => ⟨.ofNat (i + 1), .ofNat (i + 2)⟩

theorem versioned_countingCrate : Versioned countingCrate countingVersions where
  new_valid t now := rfl
  new_history t := rfl
  register t m key version h := by
    by_cases hnone : m t = []
    · simp only [countingCrate, if_pos hnone, Except.ok.injEq] at h ⊢
      rw [← h]
      simp [hnone]
    · simp only [countingCrate, if_neg hnone, reduceCtorEq] at h
  register_refused t m key e h := by
    by_cases hnone : m t = []
    · simp only [countingCrate, if_pos hnone, reduceCtorEq] at h
    · simp only [countingCrate, if_neg hnone]
  rotate t m key grace rotation h := by
    by_cases hfits : (m t).length + 1 < 2 ^ 32
    · simp only [countingCrate, if_pos hfits, Except.ok.injEq] at h ⊢
      exact ⟨by simp [← h], by rw [← h]; exact ofNat_succ_ne hfits⟩
    · simp only [countingCrate, if_neg hfits, reduceCtorEq] at h
  rotate_refused t m key grace e h := by
    by_cases hfits : (m t).length + 1 < 2 ^ 32
    · simp only [countingCrate, if_pos hfits, reduceCtorEq] at h
    · simp only [countingCrate, if_neg hfits]

/-- A tenant's signing key is rotated while the KEK store does not answer. -/
def lostRotation : List (Call fun _ => Bytes) :=
  [.registerSignKey (sampleEnv 1 0) "tenant-1" [1],
    .rotateSignKey { sampleEnv 0 2 with kekEncrypt := fun _ => .error (.masterKeyError "KEK not set") } 1 3600]

theorem allOrNothing_run_iff_lostRotation :
    (call countingCrate).Along (fun _ s c => AllOrNothing countingCrate countingVersions s c) [] new lostRotation ↔
      (call countingCrate).Along (fun _ s c => Persists countingCrate s c) [] new lostRotation :=
  allOrNothing_run_iff versioned_countingCrate lostRotation

/-- The rotation fails, and the new version is current. -/
theorem not_allOrNothing_lostRotation :
    Versioned countingCrate countingVersions ∧
      ¬ (call countingCrate).Along (fun _ s c => AllOrNothing countingCrate countingVersions s c)
      [] new lostRotation := by
  refine ⟨versioned_countingCrate, ?_⟩
  rintro ⟨-, hrotation, -⟩
  have hcurrent := (hrotation ?_).currentVersion .signing "tenant-1"
  · exact absurd hcurrent (by decide +kernel)
  · rintro ⟨r, hr⟩
    cases hr

end Sm9RotationAdapter

end GmKms.Sm9
