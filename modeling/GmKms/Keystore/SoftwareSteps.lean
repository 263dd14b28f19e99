import GmKms.Keystore.Backend
import GmKms.Keystore.SoftwareRotation
/-!
# What a call makes of a key

Every way in which a method of the software keystore changes the entry of a key, in
one place, and what the accessors return from an entry.
-/

namespace GmKms.Keystore.Software

open Lib

/-- The metadata after a rotation at the time `now`. -/
def rotatedMeta (keyMeta : KeyMeta) (now : DateTime) : KeyMeta :=
  { keyMeta with
    status := .active
    version := keyMeta.version + 1
    rotatedAt := some keyMeta.createdAt
    createdAt := now }

/-- The entry after a rotation to `material`. -/
def rotatedEntry (entry : KeyEntry) (now : DateTime) (material : Bytes) : KeyEntry :=
  { SoftwareKeystore.archive entry with keyMeta := rotatedMeta entry.keyMeta now, material }

/-- The entry marked for deletion. -/
def deletedEntry (entry : KeyEntry) : KeyEntry :=
  { entry with keyMeta := { entry.keyMeta with status := .pendingDeletion } }

/-- The material that a request for a version is answered with: 0 stands for the current one. -/
def KeyEntry.requested (entry : KeyEntry) (version : UInt32) : Option Bytes :=
  if version = 0 then some entry.material else entry.materialAt version

namespace KeyEntry

theorem materialAt_current (entry : KeyEntry) : entry.materialAt entry.keyMeta.version = some entry.material :=
  if_pos rfl

theorem materialAt_of_ne {entry : KeyEntry} {version : UInt32} (h : version ≠ entry.keyMeta.version) :
    entry.materialAt version = (entry.versions.find? fun v => v.1 = version).map (·.2) := if_neg h

theorem requested_of_ne_zero {entry : KeyEntry} {version : UInt32} (h : version ≠ 0) :
    entry.requested version = entry.materialAt version := if_neg h

end KeyEntry

open SoftwareKeystore

/-- What an operation makes of the entry under `id`. -/
inductive EntryStep (env : UseEnv) (id : Uuid) : BackendOp → Option KeyEntry → Option KeyEntry → Prop where
  | kept (op : BackendOp) (e : Option KeyEntry) : EntryStep env id op e e
  | generated {spec : KeySpec} {name tenantId : String} {material : Bytes} (e : Option KeyEntry) (new : env.uuid = id)
      (made : generatedMaterial spec env.toEnv = .ok material) :
      EntryStep env id (.generateKey spec name tenantId) e
        (some { keyMeta := newMeta env.toEnv spec name tenantId none, material, versions := [] })
  | imported {spec : KeySpec} {name tenantId : String} {material : Bytes} (e : Option KeyEntry) (new : env.uuid = id)
      (accepted : checkImport spec material = .ok ()) :
      EntryStep env id (.importKeyMaterial spec name tenantId material) e
        (some { keyMeta := newMeta env.toEnv spec name tenantId (some "imported"), material, versions := [] })
  | rotated {entry : KeyEntry} {material : Bytes} (rotatable : entry.keyMeta.status.canRotate = true)
      (made : rotationMaterial entry.keyMeta.spec env.toEnv = .ok material) :
      EntryStep env id (.rotateKey id entry.keyMeta.tenantId) (some entry) (some (rotatedEntry entry env.now material))
  | emptied {entry : KeyEntry} {e : Abort} (rotatable : entry.keyMeta.status.canRotate = true)
      (failed : rotationMaterial entry.keyMeta.spec env.toEnv = .error e) :
      EntryStep env id (.rotateKey id entry.keyMeta.tenantId) (some entry) (some (archive entry))
  | deleted {entry : KeyEntry} :
      EntryStep env id (.deleteKey id entry.keyMeta.tenantId) (some entry) (some (deletedEntry entry))
  | destroyed {op : BackendOp} (e : Option KeyEntry) (destroys : op.destroys? = some id) : EntryStep env id op e none

namespace SoftwareKeystore

theorem verifyTenant_of_owned {ks : SoftwareKeystore} {keyId : Uuid} {tenantId : String} {entry : KeyEntry}
    (hentry : ks.keys[keyId]? = some entry) (howned : entry.keyMeta.tenantId = tenantId) :
    ks.verifyTenant keyId tenantId = .ok () := (verifyTenant_eq_ok_iff hentry).2 howned

theorem verifyTenant_of_not_owned {ks : SoftwareKeystore} {keyId : Uuid} {tenantId : String}
    (h : ∀ entry, ks.keys[keyId]? = some entry → entry.keyMeta.tenantId ≠ tenantId) :
    ks.verifyTenant keyId tenantId = .error (.error (.keyNotFound keyId.text)) := by
  unfold verifyTenant
  cases hentry : ks.keys[keyId]? with
  | none => rfl
  | some entry => exact if_pos (h entry hentry)

theorem entryFor_eq_ok_iff {ks : SoftwareKeystore} {keyId : Uuid} {tenantId : String} {missing : Error}
    {entry : KeyEntry} : ks.entryFor keyId tenantId missing = .ok entry ↔
      ks.keys[keyId]? = some entry ∧ entry.keyMeta.tenantId = tenantId := by
  unfold entryFor
  cases hentry : ks.keys[keyId]? with
  | none => simp [verifyTenant, hentry]
  | some entry' =>
    by_cases howned : entry'.keyMeta.tenantId = tenantId
    · rw [verifyTenant_of_owned hentry howned]
      simp only [Except.ok.injEq, Option.some.injEq]
      refine ⟨?_, fun h => h.1⟩
      rintro rfl
      exact ⟨rfl, howned⟩
    · rw [verifyTenant_of_not_owned (by simpa [hentry] using howned)]
      simp only [reduceCtorEq, Option.some.injEq, false_iff, not_and]
      rintro rfl
      exact howned

/-- A key of another tenant is as absent as one that is not there. -/
theorem entryFor_of_not_owned {ks : SoftwareKeystore} {keyId : Uuid} {tenantId : String}
    (h : ∀ entry, ks.keys[keyId]? = some entry → entry.keyMeta.tenantId ≠ tenantId) (missing : Error) :
    ks.entryFor keyId tenantId missing = .error (.error (.keyNotFound keyId.text)) := by
  rw [entryFor, verifyTenant_of_not_owned h]

theorem entryFor_of_owned {ks : SoftwareKeystore} {keyId : Uuid} {tenantId : String} {entry : KeyEntry}
    (hentry : ks.keys[keyId]? = some entry) (howned : entry.keyMeta.tenantId = tenantId) (missing : Error) :
    ks.entryFor keyId tenantId missing = .ok entry := entryFor_eq_ok_iff.2 ⟨hentry, howned⟩

/-! ## The spec of each changing method -/

section

variable {ks : SoftwareKeystore} {env : UseEnv} {keyId id : Uuid} {tenantId : String}

theorem generateKey_entry (spec : KeySpec) (name : String) :
    EntryStep env id (.generateKey spec name tenantId) ks.keys[id]?
      (ks.generateKey env.toEnv spec name tenantId).2.keys[id]? := by
  unfold generateKey
  cases hmade : generatedMaterial spec env.toEnv with
  | error e => exact .kept _ _
  | ok material =>
    by_cases hid : env.uuid = id
    · simp only [keys_put, if_pos hid]
      exact .generated _ hid hmade
    · simp only [keys_put, if_neg hid]
      exact .kept _ _

theorem importKeyMaterial_entry (spec : KeySpec) (name : String) (material : Bytes) :
    EntryStep env id (.importKeyMaterial spec name tenantId material) ks.keys[id]?
      (ks.importKeyMaterial env.toEnv spec name tenantId material).2.keys[id]? := by
  unfold importKeyMaterial
  cases haccepted : checkImport spec material with
  | error e => exact .kept _ _
  | ok _ =>
    by_cases hid : env.uuid = id
    · simp only [keys_put, if_pos hid]
      exact .imported _ hid haccepted
    · simp only [keys_put, if_neg hid]
      exact .kept _ _

theorem rotateKey_of_owned {entry : KeyEntry} (hentry : ks.keys[keyId]? = some entry)
    (howned : entry.keyMeta.tenantId = tenantId) (hstatus : entry.keyMeta.status.canRotate = true) :
    ks.rotateKey env.toEnv keyId tenantId = match rotationMaterial entry.keyMeta.spec env.toEnv with
      | .error e => (.error e, ks.put keyId (archive entry))
      | .ok material =>
        (.ok (rotatedMeta entry.keyMeta env.now), ks.put keyId (rotatedEntry entry env.now material)) := by
  unfold rotateKey
  rw [verifyTenant_of_owned hentry howned]
  simp only [hentry, hstatus, Bool.not_true, Bool.false_eq_true, if_false]
  rfl

/-- Without ownership or in the wrong status the key is not touched. -/
theorem rotateKey_refused (h : ∀ entry, ks.keys[keyId]? = some entry → entry.keyMeta.tenantId = tenantId →
    entry.keyMeta.status.canRotate = false) :
    (ks.rotateKey env.toEnv keyId tenantId).2 = ks ∧ ∃ e, (ks.rotateKey env.toEnv keyId tenantId).1 = .error e := by
  unfold rotateKey
  by_cases howned : ∃ entry, ks.keys[keyId]? = some entry ∧ entry.keyMeta.tenantId = tenantId
  · obtain ⟨entry, hentry, howned⟩ := howned
    rw [verifyTenant_of_owned hentry howned]
    simp [hentry, h entry hentry howned]
  · rw [verifyTenant_of_not_owned fun entry hentry ho => howned ⟨entry, hentry, ho⟩]
    exact ⟨rfl, _, rfl⟩

theorem rotateKey_entry : EntryStep env id (.rotateKey keyId tenantId) ks.keys[id]?
    (ks.rotateKey env.toEnv keyId tenantId).2.keys[id]? := by
  by_cases hkey : ∃ entry, ks.keys[keyId]? = some entry ∧ entry.keyMeta.tenantId = tenantId ∧
      entry.keyMeta.status.canRotate = true
  · obtain ⟨entry, hentry, rfl, hstatus⟩ := hkey
    rw [rotateKey_of_owned hentry rfl hstatus]
    by_cases hid : keyId = id
    · subst hid
      rw [hentry]
      cases hmade : rotationMaterial entry.keyMeta.spec env.toEnv with
      | error e =>
        rw [keys_put, if_pos rfl]
        exact .emptied hstatus hmade
      | ok material =>
        rw [keys_put, if_pos rfl]
        exact .rotated hstatus hmade
    · cases rotationMaterial entry.keyMeta.spec env.toEnv with
      | error e =>
        rw [keys_put, if_neg hid]
        exact .kept _ _
      | ok material =>
        rw [keys_put, if_neg hid]
        exact .kept _ _
  · rw [(rotateKey_refused fun entry hentry howned => ?_).1]
    · exact .kept _ _
    · by_contra hstatus
      exact hkey ⟨entry, hentry, howned, by simpa using hstatus⟩

theorem deleteKey_of_owned {entry : KeyEntry} (hentry : ks.keys[keyId]? = some entry)
    (howned : entry.keyMeta.tenantId = tenantId) :
    ks.deleteKey keyId tenantId = (.ok (), ks.put keyId (deletedEntry entry)) := by
  unfold deleteKey
  rw [verifyTenant_of_owned hentry howned]
  simp only [hentry]
  rfl

theorem deleteKey_entry : EntryStep env id (.deleteKey keyId tenantId) ks.keys[id]?
    (ks.deleteKey keyId tenantId).2.keys[id]? := by
  by_cases hkey : ∃ entry, ks.keys[keyId]? = some entry ∧ entry.keyMeta.tenantId = tenantId
  · obtain ⟨entry, hentry, rfl⟩ := hkey
    rw [deleteKey_of_owned hentry rfl, keys_put]
    by_cases hid : keyId = id
    · subst hid
      rw [if_pos rfl, hentry]
      exact .deleted
    · rw [if_neg hid]
      exact .kept _ _
  · unfold deleteKey
    rw [verifyTenant_of_not_owned fun entry hentry ho => hkey ⟨entry, hentry, ho⟩]
    exact .kept _ _

theorem erase_entry {op : BackendOp} (hop : op.destroys? = some keyId) :
    EntryStep env id op ks.keys[id]? (ks.keys.erase keyId)[id]? := by
  rw [HashMap.getElem?_erase]
  split
  · rename_i hid
    subst hid
    exact .destroyed _ hop
  · exact .kept _ _

theorem destroyKey_entry :
    EntryStep env id (.destroyKey keyId) ks.keys[id]? (ks.destroyKey keyId).2.keys[id]? := by
  unfold destroyKey
  cases ks.keys[keyId]? with
  | none => exact .kept _ _
  | some entry => exact erase_entry rfl

theorem destroyKeyWithProof_entry (crypto : Crypto) :
    EntryStep env id (.destroyKeyWithProof keyId) ks.keys[id]?
      (ks.destroyKeyWithProof crypto env.toEnv keyId).2.keys[id]? := by
  unfold destroyKeyWithProof
  cases ks.keys[keyId]? with
  | none => exact .kept _ _
  | some entry => exact erase_entry rfl

end

/-- Every method, on every key. -/
theorem perform_entry (crypto : Crypto) (env : UseEnv) (op : BackendOp) (ks : SoftwareKeystore) (id : Uuid) :
    EntryStep env id op ks.keys[id]? (perform crypto env op ks).2.keys[id]? := by
  cases op with
  | generateKey spec name tenantId => exact generateKey_entry spec name
  | importKeyMaterial spec name tenantId material => exact importKeyMaterial_entry spec name material
  | rotateKey keyId tenantId => exact rotateKey_entry
  | deleteKey keyId tenantId => exact deleteKey_entry
  | destroyKey keyId => exact destroyKey_entry
  | destroyKeyWithProof keyId => exact destroyKeyWithProof_entry crypto
  | _ => exact .kept _ _

/-! ## What the accessors return -/

section

variable {ks : SoftwareKeystore} {keyId : Uuid} {tenantId : String} {material : Bytes}

theorem getKeyMetadata_eq_ok_iff {keyMeta : KeyMeta} :
    ks.getKeyMetadata keyId = .ok keyMeta ↔ ∃ entry, ks.keys[keyId]? = some entry ∧ entry.keyMeta = keyMeta := by
  unfold getKeyMetadata
  cases ks.keys[keyId]? <;> simp

/-- A call that asks for an active key of the tenant, where it gets past that. -/
theorem active_of_guarded {α : Type} {message : Error} {f : KeyEntry → Except Abort α} {a : α}
    (h : (do
      let entry ← ks.entryFor keyId tenantId (.keyNotFound keyId.text)
      if entry.keyMeta.status ≠ .active then .error (.error message) else f entry : Except Abort α) = .ok a) :
    ∃ entry, ks.keys[keyId]? = some entry ∧ entry.keyMeta.tenantId = tenantId ∧ entry.keyMeta.status = .active ∧
      f entry = .ok a := by
  cases hentry : ks.entryFor keyId tenantId (.keyNotFound keyId.text) with
  | error e => simp [hentry, bind, Except.bind] at h
  | ok entry =>
    obtain ⟨hget, howned⟩ := entryFor_eq_ok_iff.1 hentry
    simp only [hentry, bind, Except.bind] at h
    split at h
    · cases h
    · rename_i hstatus
      exact ⟨entry, hget, howned, not_not.1 hstatus, h⟩

theorem exportKeyMaterial_eq_ok_iff : ks.exportKeyMaterial keyId tenantId = .ok material ↔
    ∃ entry, ks.keys[keyId]? = some entry ∧ entry.keyMeta.tenantId = tenantId ∧ entry.keyMeta.status = .active ∧
      entry.material = material := by
  constructor
  · intro h
    obtain ⟨entry, hget, howned, hstatus, hmaterial⟩ := active_of_guarded h
    exact ⟨entry, hget, howned, hstatus, Except.ok.inj hmaterial⟩
  · rintro ⟨entry, hget, howned, hstatus, rfl⟩
    simp [exportKeyMaterial, entryFor_of_owned hget howned, bind, Except.bind, hstatus]

theorem getKeyMaterial_eq_ok_iff : ks.getKeyMaterial keyId tenantId = .ok material ↔
    ∃ entry, ks.keys[keyId]? = some entry ∧ entry.keyMeta.tenantId = tenantId ∧ entry.material = material := by
  unfold getKeyMaterial
  constructor
  · intro h
    cases hentry : ks.entryFor keyId tenantId (.keyNotFound keyId.text) with
    | error e => simp [hentry, bind, Except.bind] at h
    | ok entry =>
      obtain ⟨hget, howned⟩ := entryFor_eq_ok_iff.1 hentry
      simp only [hentry, bind, Except.bind, Except.ok.injEq] at h
      exact ⟨entry, hget, howned, h⟩
  · rintro ⟨entry, hget, howned, rfl⟩
    simp [entryFor_of_owned hget howned, bind, Except.bind]

/-- Version 0 is the current one. -/
theorem getKeyMaterialVersion_eq_ok_iff {version : UInt32} :
    ks.getKeyMaterialVersion keyId version tenantId = .ok material ↔
      ∃ entry, ks.keys[keyId]? = some entry ∧ entry.keyMeta.tenantId = tenantId ∧
        entry.requested version = some material := by
  unfold getKeyMaterialVersion KeyEntry.requested KeyEntry.materialAt
  constructor
  · intro h
    cases hentry : ks.entryFor keyId tenantId (.keyVersionNotFound keyId.text) with
    | error e => simp [hentry, bind, Except.bind] at h
    | ok entry =>
      obtain ⟨hget, howned⟩ := entryFor_eq_ok_iff.1 hentry
      refine ⟨entry, hget, howned, ?_⟩
      simp only [hentry, bind, Except.bind] at h
      by_cases hzero : version = 0
      · simpa [hzero] using h
      · simp only [hzero, false_or, if_false] at h ⊢
        split at h
        · rename_i hcurrent
          rw [if_pos hcurrent, Except.ok.inj h]
        · rename_i hcurrent
          rw [if_neg hcurrent]
          cases hfind : entry.versions.find? fun v => v.1 = version with
          | none => simp [hfind] at h
          | some v => simpa [hfind] using h
  · rintro ⟨entry, hget, howned, h⟩
    simp only [entryFor_of_owned hget howned, bind, Except.bind]
    by_cases hzero : version = 0
    · simpa [hzero] using h
    · simp only [hzero, false_or, if_false] at h ⊢
      split at h
      · rename_i hcurrent
        rw [if_pos hcurrent, Option.some.inj h]
      · rename_i hcurrent
        obtain ⟨v, hfind, rfl⟩ := Option.map_eq_some_iff.1 h
        rw [if_neg hcurrent, hfind]

/-- A version that the key does not have is an error. -/
theorem getKeyMaterialVersion_of_none {version : UInt32} {entry : KeyEntry} (hentry : ks.keys[keyId]? = some entry)
    (howned : entry.keyMeta.tenantId = tenantId) (h : entry.requested version = none) :
    ∃ e, ks.getKeyMaterialVersion keyId version tenantId = .error (.error e) := by
  unfold KeyEntry.requested KeyEntry.materialAt at h
  by_cases hzero : version = 0
  · simp [hzero] at h
  · by_cases hcurrent : version = entry.keyMeta.version
    · simp [hcurrent] at h
    · simp only [hzero, hcurrent, if_false, Option.map_eq_none_iff] at h
      simp [getKeyMaterialVersion, entryFor_of_owned hentry howned, bind, Except.bind, hzero, hcurrent, h]

theorem encrypt_eq_ok_iff {crypto : Crypto} {env : UseEnv} {plaintext : Bytes} {c : Ciphertext} :
    ks.encrypt crypto env keyId plaintext tenantId = .ok c ↔
      ∃ entry, ks.keys[keyId]? = some entry ∧ entry.keyMeta.tenantId = tenantId ∧ entry.keyMeta.status = .active ∧
        encryptWith crypto env keyId entry plaintext = .ok c := by
  constructor
  · exact active_of_guarded
  · rintro ⟨entry, hget, howned, hstatus, h⟩
    simp [encrypt, entryFor_of_owned hget howned, bind, Except.bind, hstatus, h]

theorem sign_eq_ok {crypto : Crypto} {env : UseEnv} {data : Bytes} {sig : Signature}
    (h : ks.sign crypto env keyId data tenantId = .ok sig) : ∃ entry, ks.keys[keyId]? = some entry ∧
      entry.keyMeta.tenantId = tenantId ∧ entry.keyMeta.status = .active ∧
      signWith crypto env keyId entry data = .ok sig :=
  active_of_guarded h

theorem deriveSharedSecret_eq_ok {crypto : Crypto} {env : UseEnv} {peerPublicKey : Bytes} {algorithm : DhAlgorithm}
    {secret : SharedSecret} (h : ks.deriveSharedSecret crypto env keyId peerPublicKey algorithm tenantId = .ok secret) :
    ∃ entry, ks.keys[keyId]? = some entry ∧ entry.keyMeta.tenantId = tenantId ∧ entry.keyMeta.status = .active := by
  obtain ⟨entry, hget, howned, hstatus, -⟩ := active_of_guarded h
  exact ⟨entry, hget, howned, hstatus⟩

theorem verify_of_owned (crypto : Crypto) {entry : KeyEntry} (hentry : ks.keys[keyId]? = some entry)
    (howned : entry.keyMeta.tenantId = tenantId) (data : Bytes) (sig : Signature) :
    ks.verify crypto keyId data sig tenantId = verifyWith crypto entry data sig := by
  unfold verify
  rw [entryFor_of_owned hentry howned]
  rfl

end

end SoftwareKeystore

end GmKms.Keystore.Software
