import GmKms.Core.Key
import GmKms.Keystore.Crypto
import GmKms.Keystore.Validation
import GmKms.Lib.Bytes
/-!
# Valid key material

Which bytes are a key of a specification, as the primitives want them, and what the
primitives do with such a key. `sm2_scalar_in_range` decides it for SM2.
-/

namespace GmKms

open Lib (ofBytes ofBytes_cons_lt_cons ofBytes_eq_zero_iff byte_cases)

/-- The order `n` of the SM2 curve. -/
def sm2Order : ℕ := ofBytes sm2CurveOrderN

/-- 32 bytes that stand for an integer in `[1, n-1]`. -/
def Sm2Scalar (scalar : Bytes) : Prop := scalar.length = 32 ∧ 1 ≤ ofBytes scalar ∧ ofBytes scalar < sm2Order

theorem sm2CompareWithOrder_eq_ok_iff {scalar order : Bytes} (hlen : scalar.length = order.length) :
    sm2CompareWithOrder scalar order = .ok () ↔ ofBytes scalar < ofBytes order := by
  induction scalar generalizing order with
  | nil =>
    obtain rfl := List.length_eq_zero_iff.1 hlen.symm
    simp [sm2CompareWithOrder]
  | cons a as ih =>
    obtain _ | ⟨b, bs⟩ := order
    · cases hlen
    have htail : as.length = bs.length := Nat.succ.inj hlen
    rw [sm2CompareWithOrder, ofBytes_cons_lt_cons htail]
    rcases byte_cases a b with hlt | rfl | hgt
    · simp [hlt]
    · rw [if_neg (UInt8.lt_irrefl a), if_neg (UInt8.lt_irrefl a), ih htail]
      simp
    · have hne : a ≠ b := (UInt8.ne_of_lt hgt).symm
      rw [if_neg (UInt8.lt_asymm hgt), if_pos hgt]
      simp [UInt8.lt_asymm hgt, hne]

theorem all_zero_iff {bytes : Bytes} : bytes.all (· = 0) = true ↔ ofBytes bytes = 0 := by
  rw [ofBytes_eq_zero_iff, List.all_eq_true]
  simp

/-- The range check accepts the integers in `[1, n-1]` and no others. -/
theorem sm2ScalarInRange_eq_ok_iff {scalar : Bytes} : sm2ScalarInRange scalar = .ok () ↔ Sm2Scalar scalar := by
  unfold sm2ScalarInRange Sm2Scalar sm2Order
  by_cases hlen : scalar.length = 32
  · rw [if_neg (not_not.2 hlen)]
    split
    · rename_i hall
      simp [all_zero_iff.1 hall]
    · rename_i hall
      rw [sm2CompareWithOrder_eq_ok_iff hlen]
      have hpos : 1 ≤ ofBytes scalar := Nat.one_le_iff_ne_zero.2 (mt all_zero_iff.2 hall)
      simp [hlen, hpos]
  · simp [hlen]

instance sm2Scalar_decidable (scalar : Bytes) : Decidable (Sm2Scalar scalar) := inferInstanceAs (Decidable (_ ∧ _ ∧ _))

namespace Keystore

/-- Keys that sign. -/
def signs : KeySpec → Bool
  | .ed25519 | .sm2 => true
  | _ => false

/-- Keys that encrypt. -/
def encrypts : KeySpec → Bool
  | .aes256Gcm | .hmacSha256 | .sm4 | .sm2 => true
  | _ => false

/-- What the primitives need the material of a key to be. -/
def ValidMaterial (spec : KeySpec) (material : Bytes) : Prop :=
  match spec with
  | .aes256Gcm | .hmacSha256 | .ed25519 => material.length = 32
  | .sm4 => material.length = 16
  | .sm2 => Sm2Scalar material
  | _ => True

/-- An import that the validator lets through brings Ed25519 keys as raw seeds and SM2 keys in range, which the
validator does not see to. -/
def ImportsValid (spec : KeySpec) (material : Bytes) : Prop :=
  checkImport spec material = .ok () → (spec = .ed25519 → material.length = 32) ∧ (spec = .sm2 → Sm2Scalar material)

theorem length_of_checkImport {spec : KeySpec} {material : Bytes} {len : ℕ}
    (hspec : validateKeyMaterial spec material = validateSymmetricKey material len)
    (h : checkImport spec material = .ok ()) : material.length = len := by
  by_contra hlen
  simp [checkImport, hspec, validateSymmetricKey, hlen, KeyValidationResult.reject] at h

theorem validMaterial_of_checkImport {spec : KeySpec} {material : Bytes} (h : checkImport spec material = .ok ())
    (hvalid : ImportsValid spec material) : ValidMaterial spec material := by
  obtain ⟨hed25519, hsm2⟩ := hvalid h
  cases spec with
  | aes256Gcm | hmacSha256 | sm4 => exact length_of_checkImport rfl h
  | ed25519 => exact hed25519 rfl
  | sm2 => exact hsm2 rfl
  | ed448 | ecdsaP256 | ecdsaP384 | sm3Hmac | sm9Signing | sm9Encryption | rsa4096 => trivial

/-- The primitives are correct on valid keys and reject others. -/
structure Crypto.Correct (crypto : Crypto) : Prop extends crypto.Lawful, crypto.Decrypts where
  aes_key : ∀ {key : Bytes}, crypto.aesUnboundKey key = .ok () ↔ key.length = 32
  sm4_key : ∀ {key : Bytes}, crypto.sm4Cipher key = .ok () ↔ key.length = 16
  sm4_total : ∀ {key : Bytes}, key.length = 16 → ∀ nonce aad plaintext : Bytes,
    ∃ sealed, crypto.sm4Encrypt key nonce aad plaintext = .ok sealed
  sm2_key : ∀ {key : Bytes}, crypto.sm2KeyPair key = .ok () ↔ Sm2Scalar key
  sm2_total : ∀ {key : Bytes}, Sm2Scalar key → ∀ (seed : ℕ) (plaintext : Bytes),
    ∃ data, crypto.sm2Encrypt seed key plaintext = .ok data ∧ 97 ≤ data.length
  sm2_sign : ∀ {key : Bytes}, Sm2Scalar key → ∀ (seed : ℕ) (data : Bytes), ∃ signature,
    crypto.sm2Sign seed key data = .ok signature ∧ crypto.sm2Verifier key = .ok () ∧
      crypto.sm2Verify key data signature = true
  ed25519_key : ∀ {key : Bytes}, crypto.ed25519KeyPair key = .ok () ↔ key.length = 32
  ed25519_sign : ∀ {key : Bytes}, key.length = 32 → ∀ data : Bytes,
    crypto.ed25519Verify key data (crypto.ed25519Sign key data) = true

/-- The parts that encryption cuts SM2 data into make it up again. -/
theorem sm2_parts {data : Bytes} (hlen : 97 ≤ data.length) : (data.take 65).length = 65 ∧
    ((data.drop 65).take 32).length = 32 ∧ data.take 65 ++ (data.drop 65).take 32 ++ data.drop 97 = data := by
  refine ⟨by simp; omega, by simp; omega, ?_⟩
  rw [List.append_assoc, ← List.drop_drop (i := 32) (j := 65), List.take_append_drop, List.take_append_drop]

/-- The plain primitives, with an SM2 that takes integers in range only. -/
def Crypto.strict : Crypto :=
  { Crypto.plain with
    sm2KeyPair := fun key => if Sm2Scalar key then .ok () else .error "invalid private key" }

theorem Crypto.strict_correct : Crypto.strict.Correct where
  seal_total _ _ _ _ := ⟨_, rfl⟩
  tag_length h := by cases h; rfl
  open_seal h := by cases h; simp [strict, plain]
  aes h := by cases h; simp [strict, plain]
  sm4 h := by cases h; rfl
  sm2 h := by cases h; simp [strict, plain]
  aes_key := by simp [strict, plain]
  sm4_key := by simp [strict, plain]
  sm4_total _ _ _ _ := ⟨_, rfl⟩
  sm2_key := by simp [strict]
  sm2_total _ _ plaintext := ⟨_, rfl, by simp⟩
  sm2_sign _ _ _ := ⟨_, rfl, rfl, rfl⟩
  ed25519_key := by simp [strict, plain]
  ed25519_sign _ _ := rfl

end Keystore

end GmKms
