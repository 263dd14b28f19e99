import GmKms.Hsm.TpmSteps
/-!
# Signatures of the simulated TPM

Every kind of key has as much material as `generate_key_material` draws for it. Signing with an Ed25519 key reads a
public half behind the seed, which is not there.
-/

namespace GmKms.Hsm

open Lib Keystore

/-- The call ends with a value or an error. -/
def EndsProperly {α : Type} (x : Except TpmAbort α) : Prop :=
  ∀ message, x ≠ .error (.abort (.panic message))

namespace EndsProperly

variable {α β : Type}

@[simp] theorem ok (a : α) : EndsProperly (.ok a) := nofun

@[simp] theorem failed (e : Error) : EndsProperly (.error (Hsm.failed e) : Except TpmAbort α) := nofun

theorem bind {x : Except TpmAbort α} {f : α → Except TpmAbort β} (hx : EndsProperly x)
    (hf : ∀ a, x = .ok a → EndsProperly (f a)) : EndsProperly (x >>= f) := by
  cases x with
  | error e => exact fun message h => hx message (congrArg Except.error (Except.error.inj h))
  | ok a => exact hf a rfl

end EndsProperly

/-- A signature is accepted under the key it was made with. For Ed25519 that is the public key that belongs to the seed.
-/
structure TpmCrypto.SignsCorrectly (crypto : TpmCrypto) : Prop where
  sm2 : ∀ {seed : ℕ} {key data signature : Bytes}, crypto.sm2Sign seed key data = .ok signature →
    crypto.sm2Verifier key = .ok () ∧ crypto.sm2Verify key data signature = true
  ed25519 : ∀ {seed publicKey : Bytes}, crypto.ed25519SeedAndPublicKey seed publicKey = true → ∀ data,
    crypto.ed25519VerifyPublic publicKey data (crypto.ed25519Sign seed data) = true

theorem TpmCrypto.plain_signsCorrectly : TpmCrypto.plain.SignsCorrectly where
  sm2 _ := ⟨rfl, rfl⟩
  ed25519 _ _ := rfl

/-- The key that an operation encrypts, decrypts, signs or verifies with. -/
def usedKey? : BackendOp → Option Uuid
  | .encrypt keyId .. | .decrypt keyId .. | .sign keyId .. | .verify keyId .. => some keyId
  | _ => none

namespace SimulatedTpmKeystore

section

variable (crypto : TpmCrypto)

/-- No use of the key panics, and what it has signed it accepts. -/
structure KeyWorks (tpm : SimulatedTpmKeystore) (keyId : Uuid) : Prop where
  endsProperly : ∀ env op, usedKey? op = some keyId → EndsProperly (tpm.performBackend crypto env op).1
  accepts : ∀ env data tenantId sig, (tpm.performBackend crypto env (.sign keyId data tenantId)).1 = .ok sig →
    ∀ env' tenantId', (tpm.performBackend crypto env' (.verify keyId data sig tenantId')).1 = .ok true

end

variable {crypto : TpmCrypto} {tpm : SimulatedTpmKeystore} {env : TpmEnv} {keyId : Uuid} {handle : UInt32}
  {e : TpmNvEntry}

/-! ## Calls that end properly -/

theorem endsProperly_entryFor : EndsProperly (tpm.entryFor keyId) := by
  unfold entryFor
  split
  · exact .failed _
  · exact .ok _

theorem endsProperly_checkPcrBinding {pcrBinding : Option PcrBinding} :
    EndsProperly (tpm.checkPcrBinding pcrBinding) := by
  unfold checkPcrBinding
  split
  · exact .ok _
  · rename_i bindings
    induction bindings with
    | nil => exact .ok _
    | cons b bindings ih =>
      rw [List.forM_cons]
      refine .bind ?_ fun _ _ => ih
      dsimp only
      split
      · exact nofun
      · split
        · exact nofun
        · exact .ok _

theorem endsProperly_aesGcmEncrypt {key plaintext nonce : Bytes} :
    EndsProperly (aesGcmEncrypt crypto key plaintext nonce) := by
  unfold aesGcmEncrypt
  split
  · exact .failed _
  · split
    · exact .failed _
    · exact .ok _

theorem endsProperly_aesGcmDecrypt {key ciphertext nonce : Bytes} :
    EndsProperly (aesGcmDecrypt crypto key ciphertext nonce) := by
  unfold aesGcmDecrypt
  split
  · exact .failed _
  · split
    · exact .failed _
    · split
      · exact .failed _
      · exact .ok _

theorem endsProperly_sm2Sign {privateKey data : Bytes} : EndsProperly (sm2Sign crypto env privateKey data) := by
  unfold sm2Sign
  split
  · exact .failed _
  · split
    · exact .failed _
    · exact .ok _

theorem endsProperly_sm2Verify {privateKey data signature : Bytes} :
    EndsProperly (sm2Verify crypto privateKey data signature) := by
  unfold sm2Verify
  split
  · exact .failed _
  · exact .failed _
  · split
    · exact .ok _
    · exact .failed _

theorem endsProperly_ed25519Verify {publicKey data signature : Bytes} :
    EndsProperly (ed25519Verify crypto publicKey data signature) := by
  unfold ed25519Verify
  split
  · exact .failed _
  · exact .ok _

theorem endsProperly_tpmProtect {plaintext : Bytes} : EndsProperly (tpm.tpmProtect crypto env keyId plaintext) := by
  refine endsProperly_entryFor.bind fun ⟨_, entry⟩ _ => endsProperly_checkPcrBinding.bind fun _ _ => ?_
  split
  · exact .failed _
  · split
    · exact .failed _
    · exact endsProperly_aesGcmEncrypt.bind fun _ _ => .ok _

theorem endsProperly_tpmUnprotect {ciphertext : Ciphertext} :
    EndsProperly (tpm.tpmUnprotect crypto keyId ciphertext) := by
  refine endsProperly_entryFor.bind fun ⟨_, entry⟩ _ => endsProperly_checkPcrBinding.bind fun _ _ => ?_
  split
  · exact .failed _
  · exact endsProperly_aesGcmDecrypt

theorem endsProperly_tpmVerify {data : Bytes} {sig : Signature} :
    EndsProperly (tpm.tpmVerify crypto keyId data sig) := by
  refine endsProperly_entryFor.bind fun ⟨_, entry⟩ _ => ?_
  dsimp only
  split
  · exact endsProperly_ed25519Verify
  · exact endsProperly_sm2Verify
  · exact .failed _

/-! ## Signing -/

theorem endsProperly_tpmSign {data : Bytes}
    (hspec : ∀ handle e, tpm.entryOf? keyId = some (handle, e) → e.keyMeta.spec ≠ .ed25519) :
    EndsProperly (tpm.tpmSign crypto env keyId data) := by
  refine endsProperly_entryFor.bind fun ⟨handle, entry⟩ hentry => ?_
  dsimp only
  split
  · next hed25519 => exact absurd hed25519 (hspec handle entry (entryFor_eq_ok_iff.1 hentry))
  · exact endsProperly_sm2Sign.bind fun _ _ => .ok _
  · exact .failed _

/-- An Ed25519 key is a seed alone. -/
theorem tpmSign_of_ed25519 {data : Bytes} (hentry : tpm.entryOf? keyId = some (handle, e))
    (hspec : e.keyMeta.spec = .ed25519) (hlen : e.sealedMaterial.length = 32) :
    tpm.tpmSign crypto env keyId data = .error (.abort (.panic "range end index out of range for slice")) := by
  have hfor := entryFor_eq_ok_iff.2 hentry
  simp [tpmSign, hfor, hspec, ed25519Sign, hlen, bind, Except.bind]

theorem sm2Verify_of_sm2Sign (hsigns : crypto.SignsCorrectly) {key data s : Bytes}
    (hs : sm2Sign crypto env key data = .ok s) : sm2Verify crypto key data s = .ok true := by
  unfold sm2Sign at hs
  split at hs
  · cases hs
  · next hpair =>
    split at hs
    · cases hs
    · next hsign =>
      cases hs
      obtain ⟨hverifier, hverify⟩ := hsigns.sm2 hsign
      simp [sm2Verify, hpair, hverifier, hverify]

theorem tpmVerify_of_sm2 {data : Bytes} {sig : Signature} (hentry : tpm.entryOf? keyId = some (handle, e))
    (hspec : e.keyMeta.spec = .sm2) :
    tpm.tpmVerify crypto keyId data sig = sm2Verify crypto e.sealedMaterial data sig.signature := by
  have hfor := entryFor_eq_ok_iff.2 hentry
  simp [tpmVerify, hfor, hspec, bind, Except.bind]

theorem tpmVerify_of_tpmSign (hsigns : crypto.SignsCorrectly) {is : List TpmCall} {data : Bytes} {sig : Signature}
    (hempty : tpm.nvStorage = ∅) (h : ((use crypto).final tpm is).tpmSign crypto env keyId data = .ok sig) :
    ((use crypto).final tpm is).tpmVerify crypto keyId data sig = .ok true := by
  obtain ⟨handle, e, s, hentry, hspec, hs⟩ := sm2Sign_of_final hempty h
  rw [tpmSign_of_sm2 hentry hspec hs] at h
  cases h
  rw [tpmVerify_of_sm2 hentry hspec]
  exact sm2Verify_of_sm2Sign hsigns hs

/-- Every use of a key works, in every state, exactly when the key is not an Ed25519 key. -/
theorem keyWorks_iff (hsigns : crypto.SignsCorrectly) (initialPcrs : List (ℕ × Bytes)) (is : List TpmCall)
    (keyId : Uuid) : KeyWorks crypto ((use crypto).final (newWithPcrs crypto.sha256 initialPcrs) is) keyId ↔
      ∀ handle e, ((use crypto).final (newWithPcrs crypto.sha256 initialPcrs) is).entryOf? keyId = some (handle, e) →
        e.keyMeta.spec ≠ .ed25519 := by
  have hempty : (newWithPcrs crypto.sha256 initialPcrs).nvStorage = ∅ := rfl
  constructor
  · intro hworks handle e hentry hspec
    obtain ⟨len, hmaterial, hlen⟩ := sealedMaterial_of_final hempty (spec_of_entryOf? hentry).1
    rw [hspec] at hmaterial
    cases hmaterial
    -- to sign, the code slices the material where the public key would start
    exact hworks.endsProperly (sampleEnv 0 0) (.sign keyId [] "") rfl _ (tpmSign_of_ed25519 hentry hspec hlen)
  · intro hspec
    refine ⟨fun env op hop => ?_, fun env data tenantId sig hsig env' tenantId' =>
      tpmVerify_of_tpmSign hsigns hempty hsig⟩
    cases op with
    | encrypt => exact Option.some.inj hop ▸ endsProperly_tpmProtect
    | decrypt => exact endsProperly_tpmUnprotect
    | sign =>
      cases hop
      exact endsProperly_tpmSign hspec
    | verify => exact endsProperly_tpmVerify
    | generateKey | getKeyMetadata | rotateKey | deleteKey | destroyKey | destroyKeyWithProof | listKeys
    | importKeyMaterial | exportKeyMaterial | getKeyMaterial | getKeyMaterialVersion | deriveSharedSecret => cases hop

def generatedRun (spec : KeySpec) : List TpmCall :=
  [⟨sampleEnv 1 0, .backend (.generateKey spec "signing-key" "tenant-a")⟩]

theorem keyWorks_iff_generatedRun :
    KeyWorks .plain ((use .plain).final (newWithPcrs TpmCrypto.plain.sha256 []) (generatedRun .sm2)) 1 ↔
      ∀ handle e, ((use .plain).final (newWithPcrs TpmCrypto.plain.sha256 []) (generatedRun .sm2)).entryOf? 1 =
        some (handle, e) → e.keyMeta.spec ≠ .ed25519 :=
  keyWorks_iff TpmCrypto.plain_signsCorrectly [] _ 1

theorem not_keyWorks_generatedRun :
    ¬ KeyWorks .plain ((use .plain).final (newWithPcrs TpmCrypto.plain.sha256 []) (generatedRun .ed25519)) 1 := by
  intro hworks
  exact hworks.endsProperly (sampleEnv 2 1) (.sign 1 [1, 2, 3] "tenant-a") rfl
    "range end index out of range for slice" rfl

end SimulatedTpmKeystore

end GmKms.Hsm
