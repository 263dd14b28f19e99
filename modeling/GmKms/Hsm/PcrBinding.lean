import GmKms.Hsm.TpmSteps
/-!
# Keys bound to registers

A key made with `generate_key_with_pcr_binding` is to be used only while the registers
are as they were when it was made. Encryption and decryption compare them; signing
does not.
-/

namespace GmKms.Hsm

open Lib Keystore

/-- The key that an operation encrypts, decrypts or signs with. -/
def TpmOp.uses? : TpmOp → Option Uuid
  | backend (.encrypt keyId ..) | backend (.decrypt keyId ..) | backend (.sign keyId ..) => some keyId
  | _ => none

namespace SimulatedTpmKeystore

variable (crypto : TpmCrypto)

/-- Whenever a bound key is used with success, each of its registers has the value it had when the key was made. -/
def BindingEnforced (tpm : SimulatedTpmKeystore) (is : List TpmCall) : Prop :=
  ∀ is₁ env spec name tenantId pcrIndices keyMeta is₂ c is₃ value,
    is = is₁ ++ ⟨env, .generateKeyWithPcrBinding spec name tenantId pcrIndices⟩ :: (is₂ ++ c :: is₃) →
    (((use crypto).final tpm is₁).generateKeyWithPcrBinding env spec name tenantId pcrIndices).1 = .ok keyMeta →
    c.op.uses? = some keyMeta.id →
    (perform crypto c.env c.op ((use crypto).final tpm
      (is₁ ++ ⟨env, .generateKeyWithPcrBinding spec name tenantId pcrIndices⟩ :: is₂))).1 = .ok value →
    ∀ idx ∈ pcrIndices, ((use crypto).final tpm
      (is₁ ++ ⟨env, .generateKeyWithPcrBinding spec name tenantId pcrIndices⟩ :: is₂)).pcrBank.read idx =
        ((use crypto).final tpm is₁).pcrBank.read idx

/-- A call to sign with an SM2 key that would sign meets the comparison that `tpm_sign` leaves out. -/
def SignsWithinBinding (tpm : SimulatedTpmKeystore) (c : TpmCall) : Prop :=
  match c.op with
  | .backend (.sign keyId data _) =>
    ∀ handle e signature, tpm.entryOf? keyId = some (handle, e) → e.keyMeta.spec = .sm2 →
    sm2Sign crypto c.env e.sealedMaterial data = .ok signature → tpm.checkPcrBinding e.pcrBinding = .ok ()
  | _ => True

variable {crypto} {tpm : SimulatedTpmKeystore} {e : TpmNvEntry} {handle : UInt32}

/-- A use with success finds its key, and the registers as the key is bound to them. -/
theorem checked_of_use {is : List TpmCall} {c : TpmCall} {keyId : Uuid} {value : c.op.Value}
    (hempty : tpm.nvStorage = ∅)
    (hguard : SignsWithinBinding crypto ((use crypto).final tpm is) c) (huse : c.op.uses? = some keyId)
    (hok : (perform crypto c.env c.op ((use crypto).final tpm is)).1 = .ok value) :
    ∃ handle e, ((use crypto).final tpm is).entryOf? keyId = some (handle, e) ∧
      ((use crypto).final tpm is).checkPcrBinding e.pcrBinding = .ok () := by
  obtain ⟨env, op⟩ := c
  cases op with
  | extendPcr => cases huse
  | generateKeyWithPcrBinding => cases huse
  | backend op =>
    cases op with
    | encrypt keyId' plaintext tenantId =>
      obtain rfl : keyId' = keyId := Option.some.inj huse
      obtain ⟨handle, e, hentry, hcheck, -⟩ := tpmProtect_ok hok
      exact ⟨handle, e, hentry, hcheck⟩
    | decrypt keyId' ciphertext tenantId =>
      obtain rfl : keyId' = keyId := Option.some.inj huse
      obtain ⟨handle, e, hentry, hcheck, -⟩ := tpmUnprotect_ok hok
      exact ⟨handle, e, hentry, hcheck⟩
    | sign keyId' data tenantId =>
      obtain rfl : keyId' = keyId := Option.some.inj huse
      obtain ⟨handle, e, signature, hentry, hspec, hsig⟩ := sm2Sign_of_final hempty hok
      exact ⟨handle, e, hentry, hguard handle e signature hentry hspec hsig⟩
    | generateKey | getKeyMetadata | verify | rotateKey | deleteKey | destroyKey | destroyKeyWithProof | listKeys
    | importKeyMaterial | exportKeyMaterial | getKeyMaterial | getKeyMaterialVersion | deriveSharedSecret => cases huse

/-- The binding of a key is that of the call that made it. -/
theorem pcrBinding_of_generated {is₁ is₂ : List TpmCall} {env : TpmEnv} {spec : KeySpec} {name tenantId : String}
    {pcrIndices : List ℕ} {keyMeta : KeyMeta} (hempty : tpm.nvStorage = ∅)
    (hids : ((is₁ ++ ⟨env, .generateKeyWithPcrBinding spec name tenantId pcrIndices⟩ :: is₂).filterMap
      TpmCall.newId?).Nodup)
    (hmade : (((use crypto).final tpm is₁).generateKeyWithPcrBinding env spec name tenantId pcrIndices).1 = .ok keyMeta)
    (hentry : ((use crypto).final tpm
      (is₁ ++ ⟨env, .generateKeyWithPcrBinding spec name tenantId pcrIndices⟩ :: is₂)).entryOf? keyMeta.id =
        some (handle, e)) :
    (∀ idx ∈ pcrIndices, idx < numPcrs) ∧
      e.pcrBinding = some (capture ((use crypto).final tpm is₁).pcrBank pcrIndices) := by
  have hid : keyMeta.id = env.uuid := by
    unfold generateKeyWithPcrBinding createKey at hmade
    split at hmade
    · cases hmade
    · split at hmade
      · cases hmade
      · obtain rfl := Except.ok.inj hmade
        rfl
  obtain ⟨hstored, hstoredId⟩ := spec_of_entryOf? hentry
  obtain ⟨js₁, c, js₂, e₀, heq, horigin, hsame, -⟩ := origin_of_final hempty hstored
  have hname : TpmCall.newId? c = some env.uuid := by
    rw [newId?_of_made horigin, ← hid, ← hstoredId, hsame.id]
  obtain ⟨rfl, rfl, -⟩ := Machine.eq_of_nodup_filterMap hids rfl heq rfl hname
  rw [hsame.pcrBinding]
  cases horigin with
  | bound _ hvalid => exact ⟨hvalid, rfl⟩

theorem bindingEnforced_iff (initialPcrs : List (ℕ × Bytes)) (is : List TpmCall)
    (hids : (is.filterMap TpmCall.newId?).Nodup) :
    BindingEnforced crypto (newWithPcrs crypto.sha256 initialPcrs) is ↔
      (use crypto).Along (fun _ tpm c => SignsWithinBinding crypto tpm c) []
      (newWithPcrs crypto.sha256 initialPcrs) is := by
  have hempty : (newWithPcrs crypto.sha256 initialPcrs).nvStorage = ∅ := rfl
  rw [Machine.along_iff_forall]
  constructor
  · rintro h is₁ c is₂ heq
    obtain ⟨env, op⟩ := c
    cases op with
    | extendPcr => trivial
    | generateKeyWithPcrBinding => trivial
    | backend op =>
      cases op with
      | sign keyId data tenantId =>
        intro handle e signature hentry hspec hsig
        obtain ⟨hstored, hid⟩ := spec_of_entryOf? hentry
        -- the call that made the key, and with it what the key is bound to
        obtain ⟨js₁, c, js₂, e₀, rfl, horigin, hsame, -⟩ := origin_of_final hempty hstored
        rw [hsame.pcrBinding]
        obtain ⟨env', op'⟩ := c
        cases horigin with
        | plain => rfl
        | @bound spec name tenantId' pcrIndices material hmaterial hvalid =>
          have hmade : (((use crypto).final (newWithPcrs crypto.sha256 initialPcrs) js₁).generateKeyWithPcrBinding env'
            spec
              name tenantId' pcrIndices).1 = .ok (Software.SoftwareKeystore.newMeta env'.toEnv spec name tenantId'
              none) := by
            have hnone : pcrIndices.find? (fun idx => numPcrs ≤ idx) = none :=
              List.find?_eq_none.2 fun idx hidx => by simpa using hvalid idx hidx
            replace hmaterial : generateKeyMaterial env' spec = .ok material := hmaterial
            rw [generateKeyWithPcrBinding, hnone]
            simp only [createKey, hmaterial]
          have hkey : env'.uuid = keyId := by
            rw [← hid, hsame.id]
            rfl
          exact (checkPcrBinding_capture_iff hvalid).2 (h js₁ env' spec name tenantId' pcrIndices _ js₂
            ⟨env, .backend (.sign keyId data tenantId)⟩ is₂ ⟨keyId, e.keyMeta.version, signature⟩ (by simpa using heq)
            hmade (congrArg some hkey.symm) (tpmSign_of_sm2 hentry hspec hsig))
      | encrypt | decrypt | generateKey | getKeyMetadata | verify | rotateKey | deleteKey | destroyKey
      | destroyKeyWithProof | listKeys | importKeyMaterial | exportKeyMaterial | getKeyMaterial | getKeyMaterialVersion
      | deriveSharedSecret => trivial
  · rintro h is₁ env spec name tenantId pcrIndices keyMeta is₂ c is₃ value rfl hmade huse hok idx hidx
    have hguard := h (is₁ ++ ⟨env, .generateKeyWithPcrBinding spec name tenantId pcrIndices⟩ :: is₂) c is₃ (by simp)
    obtain ⟨handle, e, hentry, hcheck⟩ := checked_of_use hempty hguard huse hok
    have hids' : ((is₁ ++ ⟨env, .generateKeyWithPcrBinding spec name tenantId pcrIndices⟩ :: is₂).filterMap
        TpmCall.newId?).Nodup := by
      refine List.Nodup.sublist (List.Sublist.filterMap _ ?_) hids
      simp
    obtain ⟨hvalid, hbinding⟩ := pcrBinding_of_generated hempty hids' hmade hentry
    rw [hbinding] at hcheck
    exact (checkPcrBinding_capture_iff hvalid).1 hcheck idx hidx

/-- A key bound to a register, an extension of the register, a signature. -/
def signedRun : List TpmCall :=
  [⟨sampleEnv 1 0, .generateKeyWithPcrBinding .sm2 "boot-key" "tenant-a" [7]⟩,
    ⟨sampleEnv 2 1, .extendPcr 7 [42]⟩, ⟨sampleEnv 3 2, .backend (.sign 1 [1, 2, 3] "tenant-a")⟩]

theorem bindingEnforced_iff_signedRun :
    BindingEnforced .plain (newWithPcrs TpmCrypto.plain.sha256 []) signedRun ↔
      (use .plain).Along (fun _ tpm c => SignsWithinBinding .plain tpm c) []
        (newWithPcrs TpmCrypto.plain.sha256 []) signedRun :=
  bindingEnforced_iff [] signedRun (by decide)

/-- The key signs although its register has changed. -/
theorem not_bindingEnforced_signedRun :
    ¬ BindingEnforced .plain (newWithPcrs TpmCrypto.plain.sha256 []) signedRun := by
  intro h
  have hread := h [] (sampleEnv 1 0) .sm2 "boot-key" "tenant-a" [7] _ [⟨sampleEnv 2 1, .extendPcr 7 [42]⟩]
    ⟨sampleEnv 3 2, .backend (.sign 1 [1, 2, 3] "tenant-a")⟩ [] ⟨1, 1, List.replicate 64 0⟩ rfl rfl rfl rfl 7 (by simp)
  exact absurd hread (by decide)

end SimulatedTpmKeystore

end GmKms.Hsm
