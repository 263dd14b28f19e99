import GmKms.Api.Service
/-!
# The crypto service

`CryptoService`: encryption, signatures and managed HMAC-SM3 for the keys of a tenant.
-/

namespace GmKms.Api.CryptoService

open Lib Keystore Service

/-- The HMAC input: the additional data is put before the data with its length. -/
def buildMacInput (aad : Option Bytes) (data : Bytes) : Bytes :=
  match aad with
  | some a => if a.isEmpty then data else beBytes a.length 4 ++ a ++ data
  | none => data

/-- The quota check that every method starts with. -/
def checkQuota (env : ServiceEnv) : Service Unit :=
  match env.recordRequest with
  | some q => fail (.quotaExceeded q.resource q.current q.limit)
  | none => pure ()

/-- The answer is the same for a key that is not there and one of another tenant. -/
def fetchOwnedKeyMeta (keyId : Uuid) (tenantId : String) : Service KeyMeta := do
  let keyMeta ← ask (.getKeyMetadata keyId) apiError
  if keyMeta.tenantId ≠ tenantId then fail (.keyNotFound keyId.text) else return keyMeta

section

variable {crypto : Crypto} {env : Software.UseEnv} {ks : Software.SoftwareKeystore} {keyId : Uuid} {tenantId : String}

theorem runOn_fetchOwnedKeyMeta_of_owned {entry : Software.KeyEntry} (hentry : ks.keys[keyId]? = some entry)
    (howned : entry.keyMeta.tenantId = tenantId) :
    runOn crypto env (fetchOwnedKeyMeta keyId tenantId) ks = (.ok entry.keyMeta, ks) := by
  have hask : runOn crypto env (ask (.getKeyMetadata keyId) apiError) ks = (.ok entry.keyMeta, ks) := by
    rw [runOn_getKeyMetadata, Software.SoftwareKeystore.getKeyMetadata, hentry]
    rfl
  unfold fetchOwnedKeyMeta
  rw [runOn_bind_ok hask, if_neg (not_not.2 howned)]
  rfl

theorem runOn_fetchOwnedKeyMeta_of_not_owned
    (h : ∀ entry, ks.keys[keyId]? = some entry → entry.keyMeta.tenantId ≠ tenantId) :
    runOn crypto env (fetchOwnedKeyMeta keyId tenantId) ks = (.error (.error (.keyNotFound keyId.text)), ks) := by
  unfold fetchOwnedKeyMeta
  cases hentry : ks.keys[keyId]? with
  | none =>
    have hask : runOn crypto env (ask (.getKeyMetadata keyId) apiError) ks =
        (.error (.error (.keyNotFound keyId.text)), ks) := by
      rw [runOn_getKeyMetadata, Software.SoftwareKeystore.getKeyMetadata, hentry]
      rfl
    rw [runOn_bind_error hask]
  | some entry =>
    have hask : runOn crypto env (ask (.getKeyMetadata keyId) apiError) ks = (.ok entry.keyMeta, ks) := by
      rw [runOn_getKeyMetadata, Software.SoftwareKeystore.getKeyMetadata, hentry]
      rfl
    rw [runOn_bind_ok hask, if_pos (h entry hentry)]
    rfl

/-- Metadata comes back of a key that the tenant owns. -/
theorem runOn_fetchOwnedKeyMeta_eq_ok {keyMeta : KeyMeta} {ks' : Software.SoftwareKeystore}
    (h : runOn crypto env (fetchOwnedKeyMeta keyId tenantId) ks = (.ok keyMeta, ks')) :
    ks' = ks ∧ ∃ entry, ks.keys[keyId]? = some entry ∧ entry.keyMeta.tenantId = tenantId ∧ entry.keyMeta = keyMeta := by
  by_cases howned : ∃ entry, ks.keys[keyId]? = some entry ∧ entry.keyMeta.tenantId = tenantId
  · obtain ⟨entry, hentry, howned⟩ := howned
    rw [runOn_fetchOwnedKeyMeta_of_owned hentry howned] at h
    cases h
    exact ⟨rfl, entry, hentry, howned, rfl⟩
  · rw [runOn_fetchOwnedKeyMeta_of_not_owned fun entry hentry ho => howned ⟨entry, hentry, ho⟩] at h
    cases h

end

section

variable (env : ServiceEnv)

def encrypt (keyId : Uuid) (plaintext : Bytes) (tenantId : String) : Service Ciphertext := do
  checkQuota env
  let _ ← fetchOwnedKeyMeta keyId tenantId
  ask (.encrypt keyId plaintext tenantId) apiError

def decrypt (keyId : Uuid) (ciphertext : Ciphertext) (tenantId : String) : Service Bytes := do
  checkQuota env
  let _ ← fetchOwnedKeyMeta keyId tenantId
  ask (.decrypt keyId ciphertext tenantId) apiError

def sign (keyId : Uuid) (data : Bytes) (tenantId : String) : Service Signature := do
  checkQuota env
  let _ ← fetchOwnedKeyMeta keyId tenantId
  ask (.sign keyId data tenantId) apiError

def verify (keyId : Uuid) (data : Bytes) (sig : Signature) (tenantId : String) : Service Bool := do
  checkQuota env
  let _ ← fetchOwnedKeyMeta keyId tenantId
  ask (.verify keyId data sig tenantId) apiError

/-- What `prepare_hmac` does with the metadata: the specification, then the material. -/
def hmacMaterial (keyId : Uuid) (tenantId : String) (keyMeta : KeyMeta) : Service Bytes :=
  if keyMeta.spec ≠ .sm3Hmac then
    let id := keyId.text
    let spec := keyMeta.spec.debug
    fail (.invalidRequest s!"key {id} is {spec}, not an HMAC-SM3 key")
  else ask (.getKeyMaterial keyId tenantId) apiError

def prepareHmac (keyId : Uuid) (tenantId : String) : Service (KeyMeta × Bytes) := do
  checkQuota env
  let keyMeta ← fetchOwnedKeyMeta keyId tenantId
  let material ← hmacMaterial keyId tenantId keyMeta
  return (keyMeta, material)

variable (crypto : ServiceCrypto)

/-- The MAC and the version it is reported under. -/
def hmac (keyId : Uuid) (data : Bytes) (aad : Option Bytes) (tenantId : String) : Service (Bytes × UInt32) := do
  let (keyMeta, material) ← prepareHmac env keyId tenantId
  match crypto.sm3Hmac material (buildMacInput aad data) with
  | .error e => fail (.internal s!"hmac-sm3 failed: {e}")
  | .ok mac => return (mac, keyMeta.version)

/-- The current material is the one it is checked with. -/
def hmacVerify (keyId : Uuid) (data : Bytes) (aad : Option Bytes) (expectedMac : Bytes) (tenantId : String) :
    Service Bool := do
  let (_, material) ← prepareHmac env keyId tenantId
  match crypto.sm3HmacVerify material (buildMacInput aad data) expectedMac with
  | .error e => fail (.internal s!"hmac-sm3 verify failed: {e}")
  | .ok valid => return valid

end

/-! ## What a success says -/

section

variable {crypto : ServiceCrypto} {env : ServiceEnv} {ks : Software.SoftwareKeystore} {keyId : Uuid} {tenantId : String}

theorem runOn_checkQuota {u : Unit} {ks' : Software.SoftwareKeystore}
    (h : runOn crypto.toCrypto env.toUseEnv (checkQuota env) ks = (.ok u, ks')) :
    ks' = ks ∧ env.recordRequest = none := by
  unfold checkQuota at h
  cases hquota : env.recordRequest with
  | none =>
    rw [hquota] at h
    cases h
    exact ⟨rfl, rfl⟩
  | some q =>
    rw [hquota] at h
    cases h

/-- Every method starts with the quota and the owner. -/
theorem runOn_checked_eq_ok {α : Type} {f : KeyMeta → Service α} {a : α}
    (h : (runOn crypto.toCrypto env.toUseEnv (do
      checkQuota env
      let keyMeta ← fetchOwnedKeyMeta keyId tenantId
      f keyMeta) ks).1 = .ok a) :
    env.recordRequest = none ∧ ∃ entry, ks.keys[keyId]? = some entry ∧ entry.keyMeta.tenantId = tenantId ∧
      (runOn crypto.toCrypto env.toUseEnv (f entry.keyMeta) ks).1 = .ok a := by
  obtain ⟨_, _, hquota, hrest⟩ := runOn_bind_eq_ok h
  obtain ⟨rfl, hadmitted⟩ := runOn_checkQuota hquota
  obtain ⟨keyMeta, _, hmeta, hrest⟩ := runOn_bind_eq_ok hrest
  obtain ⟨rfl, entry, hentry, howned, rfl⟩ := runOn_fetchOwnedKeyMeta_eq_ok hmeta
  exact ⟨hadmitted, entry, hentry, howned, hrest⟩

/-- The checks of an admitted request for an owned key. -/
theorem runOn_checked {α : Type} (hadmitted : env.recordRequest = none) {entry : Software.KeyEntry}
    (hentry : ks.keys[keyId]? = some entry) (howned : entry.keyMeta.tenantId = tenantId) (f : KeyMeta → Service α) :
    runOn crypto.toCrypto env.toUseEnv (do
      checkQuota env
      let keyMeta ← fetchOwnedKeyMeta keyId tenantId
      f keyMeta) ks = runOn crypto.toCrypto env.toUseEnv (f entry.keyMeta) ks := by
  have hquota : runOn crypto.toCrypto env.toUseEnv (checkQuota env) ks = (.ok (), ks) := by
    unfold checkQuota
    rw [hadmitted]
    rfl
  rw [runOn_bind_ok hquota, runOn_bind_ok (runOn_fetchOwnedKeyMeta_of_owned hentry howned)]

theorem prepareHmac_eq_ok {prepared : KeyMeta × Bytes}
    (h : (runOn crypto.toCrypto env.toUseEnv (prepareHmac env keyId tenantId) ks).1 = .ok prepared) :
    env.recordRequest = none ∧ ∃ entry, ks.keys[keyId]? = some entry ∧ entry.keyMeta.tenantId = tenantId ∧
      entry.keyMeta.spec = .sm3Hmac ∧ prepared = (entry.keyMeta, entry.material) := by
  obtain ⟨hadmitted, entry, hentry, howned, hrest⟩ := runOn_checked_eq_ok h
  obtain ⟨material, _, hmaterial, hprepared⟩ := runOn_bind_eq_ok hrest
  unfold hmacMaterial at hmaterial
  split at hmaterial
  · cases hmaterial
  · rename_i hspec
    obtain ⟨rfl, entry', hentry', -, rfl⟩ := runOn_getKeyMaterial_eq_ok hmaterial
    rw [hentry, Option.some.injEq] at hentry'
    subst hentry'
    exact ⟨hadmitted, entry, hentry, howned, not_not.1 hspec, (Except.ok.inj hprepared).symm⟩

theorem prepareHmac_of_owned (hadmitted : env.recordRequest = none) {entry : Software.KeyEntry}
    (hentry : ks.keys[keyId]? = some entry) (howned : entry.keyMeta.tenantId = tenantId)
    (hspec : entry.keyMeta.spec = .sm3Hmac) :
    runOn crypto.toCrypto env.toUseEnv (prepareHmac env keyId tenantId) ks =
      (.ok (entry.keyMeta, entry.material), ks) := by
  have hmaterial : runOn crypto.toCrypto env.toUseEnv (hmacMaterial keyId tenantId entry.keyMeta) ks =
      (.ok entry.material, ks) := by
    unfold hmacMaterial
    rw [if_neg (not_not.2 hspec), runOn_getKeyMaterial,
      Software.SoftwareKeystore.getKeyMaterial_eq_ok_iff.2 ⟨entry, hentry, howned, rfl⟩]
    rfl
  refine (runOn_checked hadmitted hentry howned _).trans ?_
  rw [runOn_bind_ok hmaterial]
  rfl

/-- A MAC comes from the current material of an HMAC-SM3 key, with its version. -/
theorem hmac_eq_ok {data : Bytes} {aad : Option Bytes} {mac : Bytes} {version : UInt32}
    (h : (runOn crypto.toCrypto env.toUseEnv (hmac env crypto keyId data aad tenantId) ks).1 = .ok (mac, version)) :
    ∃ entry, ks.keys[keyId]? = some entry ∧ entry.keyMeta.tenantId = tenantId ∧ entry.keyMeta.spec = .sm3Hmac ∧
      crypto.sm3Hmac entry.material (buildMacInput aad data) = .ok mac ∧ version = entry.keyMeta.version := by
  obtain ⟨_, _, hprepared, hcomputed⟩ := runOn_bind_eq_ok h
  obtain ⟨-, entry, hentry, howned, hspec, rfl⟩ := prepareHmac_eq_ok (congrArg Prod.fst hprepared)
  dsimp only at hcomputed
  split at hcomputed
  · cases hcomputed
  · rename_i computed hmac
    cases hcomputed
    exact ⟨entry, hentry, howned, hspec, hmac, rfl⟩

/-- A MAC is checked with the current material. -/
theorem hmacVerify_of_owned (hadmitted : env.recordRequest = none) {entry : Software.KeyEntry}
    (hentry : ks.keys[keyId]? = some entry) (howned : entry.keyMeta.tenantId = tenantId)
    (hspec : entry.keyMeta.spec = .sm3Hmac) {data mac : Bytes} {aad : Option Bytes} {valid : Bool}
    (hvalid : crypto.sm3HmacVerify entry.material (buildMacInput aad data) mac = .ok valid) :
    (runOn crypto.toCrypto env.toUseEnv (hmacVerify env crypto keyId data aad mac tenantId) ks).1 = .ok valid := by
  unfold hmacVerify
  rw [runOn_bind_ok (prepareHmac_of_owned hadmitted hentry howned hspec)]
  dsimp only
  rw [hvalid]
  rfl

theorem sign_eq_ok {data : Bytes} {sig : Signature}
    (h : (runOn crypto.toCrypto env.toUseEnv (sign env keyId data tenantId) ks).1 = .ok sig) :
    ∃ entry, ks.keys[keyId]? = some entry ∧ entry.keyMeta.tenantId = tenantId ∧ entry.keyMeta.status = .active ∧
      Software.SoftwareKeystore.signWith crypto.toCrypto env.toUseEnv keyId entry data = .ok sig := by
  obtain ⟨-, _, -, -, hsign⟩ := runOn_checked_eq_ok h
  exact Software.SoftwareKeystore.sign_eq_ok (answer_eq_ok_iff.1 hsign)

theorem verify_of_owned (hadmitted : env.recordRequest = none) {entry : Software.KeyEntry}
    (hentry : ks.keys[keyId]? = some entry) (howned : entry.keyMeta.tenantId = tenantId) (data : Bytes)
    (sig : Signature) :
    (runOn crypto.toCrypto env.toUseEnv (verify env keyId data sig tenantId) ks).1 =
      answer apiError (Software.SoftwareKeystore.verifyWith crypto.toCrypto entry data sig) := by
  refine (congrArg Prod.fst (runOn_checked hadmitted hentry howned _)).trans ?_
  rw [← Software.SoftwareKeystore.verify_of_owned crypto.toCrypto hentry howned]
  rfl

end

end GmKms.Api.CryptoService
