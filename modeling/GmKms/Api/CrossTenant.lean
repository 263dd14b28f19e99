import GmKms.Api.KeyOperation
import GmKms.Keystore.SoftwareSteps
/-!
# Keys of other tenants

Most methods answer a tenant that does not own the key as if the key were not there.
`EnvelopeService` looks at the specification and the version of the KEK before it
asks for the material, which is where the ownership is checked.
-/

namespace GmKms.Api

open Lib Keystore Service

/-- The keystore holds no key of the tenant under the id. -/
def NotOwned (ks : Software.SoftwareKeystore) (keyId : Uuid) (tenantId : String) : Prop :=
  ∀ entry, ks.keys[keyId]? = some entry → entry.keyMeta.tenantId ≠ tenantId

/-- The keystore as it would be without the key. -/
def without (ks : Software.SoftwareKeystore) (keyId : Uuid) : Software.SoftwareKeystore := ⟨ks.keys.erase keyId⟩

theorem keys_without (ks : Software.SoftwareKeystore) (keyId : Uuid) : (without ks keyId).keys[keyId]? = none :=
  Std.ExtTreeMap.getElem?_erase_self

theorem notOwned_without (ks : Software.SoftwareKeystore) (keyId : Uuid) (tenantId : String) :
    NotOwned (without ks keyId) keyId tenantId := by
  intro entry h
  rw [keys_without] at h
  cases h

namespace KeyOperation

section

variable (crypto : ServiceCrypto) (env : ServiceEnv) (keyId : Uuid) (tenantId : String) (op : KeyOperation)
  (ks : Software.SoftwareKeystore)

/-- The method fails with the same class of error with the key there and without it, and
changes nothing in either run. -/
def SameAsAbsent : Prop :=
  ∃ e e', op.perform crypto env keyId tenantId ks = (.error (.error e), ks) ∧
    op.perform crypto env keyId tenantId (without ks keyId) = (.error (.error e'), without ks keyId) ∧
    e.errorClass = e'.errorClass

end

/-- A method of `EnvelopeService` that gets past the checks it makes on the metadata. -/
def PassesKekChecks (keyMeta : KeyMeta) : KeyOperation → Prop
  | envelopeEncrypt _ => keyMeta.spec = .aes256Gcm
  | rewrapDek _ _ oldKekVersion => keyMeta.spec = .aes256Gcm ∧ oldKekVersion ≠ keyMeta.version
  | _ => True

/-! ## Where the ownership is checked first -/

/-- The error of a method for a tenant without the key, where its check comes first. -/
def refusal (env : ServiceEnv) (keyId : Uuid) (op : KeyOperation) : ApiError :=
  match op with
  | getKey | rotateKey | deleteKey | exportKey .. => .keyNotFound keyId.text
  | encrypt .. | decrypt .. | sign .. | verify .. | hmac .. | hmacVerify .. =>
    match env.recordRequest with
    | some q => .quotaExceeded q.resource q.current q.limit
    | none => .keyNotFound keyId.text
  | envelopeEncrypt .. | envelopeDecrypt .. | envelopeDecryptWithKekVersion .. | rewrapDek .. =>
    EnvelopeService.kekError keyId (.keyNotFound keyId.text)

section

variable {crypto : ServiceCrypto} {env : ServiceEnv} {keyId : Uuid} {tenantId : String}
  {ks : Software.SoftwareKeystore}

theorem runOn_owned_bind_of_notOwned {α : Type} (h : NotOwned ks keyId tenantId) (f : KeyMeta → Service α) :
    runOn crypto.toCrypto env.toUseEnv (CryptoService.fetchOwnedKeyMeta keyId tenantId >>= f) ks =
      (.error (.error (.keyNotFound keyId.text)), ks) :=
  runOn_bind_error (CryptoService.runOn_fetchOwnedKeyMeta_of_not_owned h)

/-- The methods of `CryptoService` check the quota and then the owner. -/
theorem runOn_quota_bind_of_notOwned {α : Type} (h : NotOwned ks keyId tenantId) (f : KeyMeta → Service α) :
    runOn crypto.toCrypto env.toUseEnv (do
      CryptoService.checkQuota env
      let keyMeta ← CryptoService.fetchOwnedKeyMeta keyId tenantId
      f keyMeta) ks =
    (.error (.error (refusal env keyId (.encrypt []))), ks) := by
  unfold CryptoService.checkQuota refusal
  cases env.recordRequest with
  | some q => exact runOn_bind_error rfl
  | none => exact (runOn_bind_ok rfl).trans (runOn_owned_bind_of_notOwned h f)

theorem getKeyMaterialVersion_of_notOwned (h : NotOwned ks keyId tenantId) (version : UInt32) :
    ks.getKeyMaterialVersion keyId version tenantId = .error (.error (.keyNotFound keyId.text)) := by
  unfold Software.SoftwareKeystore.getKeyMaterialVersion
  rw [Software.SoftwareKeystore.entryFor_of_not_owned h]
  rfl

theorem getKeyMaterial_of_notOwned (h : NotOwned ks keyId tenantId) :
    ks.getKeyMaterial keyId tenantId = .error (.error (.keyNotFound keyId.text)) := by
  unfold Software.SoftwareKeystore.getKeyMaterial
  rw [Software.SoftwareKeystore.entryFor_of_not_owned h]
  rfl

theorem runOn_askVersion_bind_of_notOwned {α : Type} (h : NotOwned ks keyId tenantId) (version : UInt32)
    (f : Bytes → Service α) : runOn crypto.toCrypto env.toUseEnv
      (ask (.getKeyMaterialVersion keyId version tenantId) (EnvelopeService.kekError keyId) >>= f) ks =
    (.error (.error (EnvelopeService.kekError keyId (.keyNotFound keyId.text))), ks) := by
  refine runOn_bind_error ?_
  rw [runOn_getKeyMaterialVersion, getKeyMaterialVersion_of_notOwned h]
  rfl

theorem runOn_metadata_of_absent (h : ks.keys[keyId]? = none) :
    runOn crypto.toCrypto env.toUseEnv (ask (.getKeyMetadata keyId) (EnvelopeService.kekError keyId)) ks =
      (.error (.error (EnvelopeService.kekError keyId (.keyNotFound keyId.text))), ks) := by
  rw [runOn_getKeyMetadata, Software.SoftwareKeystore.getKeyMetadata, h]
  rfl

theorem runOn_metadata_of_present {entry : Software.KeyEntry} (h : ks.keys[keyId]? = some entry) :
    runOn crypto.toCrypto env.toUseEnv (ask (.getKeyMetadata keyId) (EnvelopeService.kekError keyId)) ks =
      (.ok entry.keyMeta, ks) := by
  rw [runOn_getKeyMetadata, Software.SoftwareKeystore.getKeyMetadata, h]
  rfl

theorem runOn_askMaterial_bind_of_notOwned {α : Type} (h : NotOwned ks keyId tenantId) (f : Bytes → Service α) :
    runOn crypto.toCrypto env.toUseEnv
      (ask (.getKeyMaterial keyId tenantId) (EnvelopeService.kekMaterialError keyId) >>= f) ks =
    (.error (.error (EnvelopeService.kekError keyId (.keyNotFound keyId.text))), ks) := by
  refine runOn_bind_error ?_
  rw [runOn_getKeyMaterial, getKeyMaterial_of_notOwned h]
  rfl

/-- A tenant without the key gets the same error whether or not another tenant has it, where the
checks on its metadata pass. -/
theorem perform_of_notOwned {op : KeyOperation} (h : NotOwned ks keyId tenantId)
    (hpasses : ∀ entry, ks.keys[keyId]? = some entry → op.PassesKekChecks entry.keyMeta) :
    op.perform crypto env keyId tenantId ks = (.error (.error (refusal env keyId op)), ks) := by
  cases op with
  | getKey => exact CryptoService.runOn_fetchOwnedKeyMeta_of_not_owned h
  | rotateKey | deleteKey | exportKey => exact runOn_owned_bind_of_notOwned h _
  | encrypt | decrypt | sign | verify => exact runOn_quota_bind_of_notOwned h _
  | hmac | hmacVerify => exact runOn_bind_error (runOn_quota_bind_of_notOwned h _)
  | envelopeDecrypt | envelopeDecryptWithKekVersion => exact runOn_askVersion_bind_of_notOwned h _ _
  | envelopeEncrypt plaintext =>
    cases hentry : ks.keys[keyId]? with
    | none => exact runOn_bind_error (runOn_metadata_of_absent hentry)
    | some entry =>
      have hspec : ¬ entry.keyMeta.spec ≠ .aes256Gcm := not_not.2 (hpasses entry hentry)
      refine (runOn_bind_ok (runOn_metadata_of_present hentry)).trans ?_
      unfold EnvelopeService.encryptUnder
      rw [if_neg hspec]
      exact runOn_askMaterial_bind_of_notOwned h _
  | rewrapDek wrappedDek dekNonce oldKekVersion =>
    cases hentry : ks.keys[keyId]? with
    | none => exact runOn_bind_error (runOn_metadata_of_absent hentry)
    | some entry =>
      obtain ⟨hspec, hversion⟩ := hpasses entry hentry
      refine (runOn_bind_ok (runOn_metadata_of_present hentry)).trans ?_
      unfold EnvelopeService.rewrapWith
      rw [if_neg (not_not.2 hspec), if_neg hversion]
      exact runOn_askVersion_bind_of_notOwned h _ _

/-! ## Where the metadata shows -/

/-- With another specification or the current version, the answer is not the one of an absent key. -/
theorem not_sameAsAbsent_of_not_passes {op : KeyOperation} {entry : Software.KeyEntry}
    (hentry : ks.keys[keyId]? = some entry) (hpasses : ¬ op.PassesKekChecks entry.keyMeta) :
    ¬ op.SameAsAbsent crypto env keyId tenantId ks := by
  rintro ⟨e, e', hpresent, habsent, hclass⟩
  have hmissing := keys_without ks keyId
  cases op with
  | envelopeEncrypt plaintext =>
    have hleft : perform crypto env keyId tenantId (.envelopeEncrypt plaintext) ks =
        (.error (.error (.invalidRequest "KEK must be AES-256-GCM")), ks) := by
      have hspec : entry.keyMeta.spec ≠ .aes256Gcm := hpasses
      refine (runOn_bind_ok (runOn_metadata_of_present hentry)).trans ?_
      unfold EnvelopeService.encryptUnder
      rw [if_pos hspec]
      rfl
    have hright : perform crypto env keyId tenantId (.envelopeEncrypt plaintext) (without ks keyId) =
        (.error (.error (EnvelopeService.kekError keyId (.keyNotFound keyId.text))), without ks keyId) :=
      runOn_bind_error (runOn_metadata_of_absent hmissing)
    rw [hleft] at hpresent
    rw [hright] at habsent
    cases hpresent
    cases habsent
    cases hclass
  | rewrapDek wrappedDek dekNonce oldKekVersion =>
    have hright : perform crypto env keyId tenantId (.rewrapDek wrappedDek dekNonce oldKekVersion) (without ks keyId) =
        (.error (.error (EnvelopeService.kekError keyId (.keyNotFound keyId.text))), without ks keyId) :=
      runOn_bind_error (runOn_metadata_of_absent hmissing)
    rw [hright] at habsent
    cases habsent
    have hleft := (runOn_bind_ok (runOn_metadata_of_present hentry)).symm.trans hpresent
    unfold EnvelopeService.rewrapWith at hleft
    by_cases hspec : entry.keyMeta.spec = .aes256Gcm
    · have hversion : oldKekVersion = entry.keyMeta.version := not_not.1 fun hne => hpasses ⟨hspec, hne⟩
      rw [if_neg (not_not.2 hspec), if_pos hversion] at hleft
      cases hleft
    · rw [if_pos hspec] at hleft
      cases hleft
      cases hclass
  | _ => exact hpasses trivial

/-- Another tenant's key looks absent exactly where `EnvelopeService` gets past its checks on the
metadata to the one of the owner. -/
theorem sameAsAbsent_iff_passesKekChecks {op : KeyOperation} {entry : Software.KeyEntry}
    (hentry : ks.keys[keyId]? = some entry) (hother : entry.keyMeta.tenantId ≠ tenantId) :
    op.SameAsAbsent crypto env keyId tenantId ks ↔ op.PassesKekChecks entry.keyMeta := by
  constructor
  · intro hsame
    by_contra hpasses
    exact not_sameAsAbsent_of_not_passes hentry hpasses hsame
  · intro hpasses
    have hnotOwned : NotOwned ks keyId tenantId := by
      intro entry' hentry'
      rw [hentry, Option.some.injEq] at hentry'
      rwa [← hentry']
    have hpassesAll : ∀ entry', ks.keys[keyId]? = some entry' → op.PassesKekChecks entry'.keyMeta := by
      intro entry' hentry'
      rw [hentry, Option.some.injEq] at hentry'
      rwa [← hentry']
    refine ⟨_, _, perform_of_notOwned hnotOwned hpassesAll, perform_of_notOwned (notOwned_without ks keyId _) ?_, rfl⟩
    intro entry' hentry'
    rw [keys_without] at hentry'
    cases hentry'

end

/-- An AES key of the first tenant. -/
def othersKeystore : Software.SoftwareKeystore :=
  (Software.SoftwareKeystore.perform .plain (sampleServiceEnv 7).toUseEnv (.generateKey .aes256Gcm "kek" "tenant-1")
    .new).2

/-- The metadata of the key. -/
def othersMeta : KeyMeta :=
  Software.SoftwareKeystore.newMeta (sampleServiceEnv 7).toEnv .aes256Gcm "kek" "tenant-1" none

theorem sameAsAbsent_othersKeystore :
    (getKey).SameAsAbsent .plain (sampleServiceEnv 7) 1 "tenant-2" othersKeystore ↔
      (getKey).PassesKekChecks othersMeta := by
  have hentry : othersKeystore.keys[(1 : Uuid)]? = some ⟨othersMeta, List.replicate 32 7, []⟩ := rfl
  exact sameAsAbsent_iff_passesKekChecks hentry (by decide)

/-- The second tenant learns the version of the key: only the current one is answered at once. -/
theorem not_sameAsAbsent_othersKeystore :
    ¬ (rewrapDek [] [] 1).SameAsAbsent .plain (sampleServiceEnv 7) 1 "tenant-2" othersKeystore := by
  rintro ⟨e, e', h, -⟩
  cases h

end KeyOperation

end GmKms.Api
