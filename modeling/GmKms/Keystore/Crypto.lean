import GmKms.Core.Types
/-!
# Cryptography used by the keystore

The primitives of `ring`, `gm_crypto`, `p256`, `p384` and `x25519-dalek` are
parameters. What such a primitive draws from its own random generator is its
`seed`. The additional data of `aad.rs` is built as the source builds it.
-/

namespace GmKms.Keystore

structure Crypto where
  /-- `ring::digest` with `SHA256`. -/
  sha256 (data : Bytes) : Bytes
  /-- `UnboundKey::new(&AES_256_GCM, key)`. -/
  aesUnboundKey (key : Bytes) : Except String Unit
  /-- `seal_in_place_separate_tag`: ciphertext and tag. -/
  aesSeal (key nonce aad plaintext : Bytes) : Except String (Bytes × Bytes)
  /-- `open_in_place` of ciphertext and tag. -/
  aesOpen (key nonce aad sealed : Bytes) : Option Bytes
  /-- `Sm4Cipher::new`. -/
  sm4Cipher (key : Bytes) : Except String Unit
  /-- `encrypt_gcm`: ciphertext and tag. -/
  sm4Encrypt (key nonce aad plaintext : Bytes) : Except String (Bytes × Bytes)
  sm4Decrypt (key nonce aad ciphertext tag : Bytes) : Option Bytes
  /-- `Sm2KeyPair::from_private_key`. -/
  sm2KeyPair (key : Bytes) : Except String Unit
  /-- `Sm2Encryptor::new` on the public key, then `encrypt`. -/
  sm2Encrypt (seed : ℕ) (key plaintext : Bytes) : Except String Bytes
  sm2Decrypt (key data : Bytes) : Option Bytes
  /-- `Sm2Signer::new`, then `sign`. -/
  sm2Sign (seed : ℕ) (key data : Bytes) : Except String Bytes
  /-- `Sm2Verifier::new`. -/
  sm2Verifier (key : Bytes) : Except String Unit
  sm2Verify (key data signature : Bytes) : Bool
  /-- `Ed25519KeyPair::from_seed_unchecked`. -/
  ed25519KeyPair (key : Bytes) : Except String Unit
  ed25519Sign (key data : Bytes) : Bytes
  ed25519Verify (key data signature : Bytes) : Bool
  /-- A fresh ephemeral secret against a SEC1 public key. -/
  p256Ecdh (seed : ℕ) (peer : Bytes) : Except String Bytes
  p384Ecdh (seed : ℕ) (peer : Bytes) : Except String Bytes
  x25519 (key peer : Bytes) : Bytes

/-- What sealing puts away under AES-256-GCM, opening gives back; the tag has 16
bytes; and under a valid key any material of a key can be sealed. -/
structure Crypto.Lawful (crypto : Crypto) : Prop where
  seal_total : ∀ {key : Bytes}, crypto.aesUnboundKey key = .ok () → ∀ nonce aad plaintext : Bytes,
    ∃ sealed, crypto.aesSeal key nonce aad plaintext = .ok sealed
  tag_length : ∀ {key nonce aad plaintext ciphertext tag : Bytes},
    crypto.aesSeal key nonce aad plaintext = .ok (ciphertext, tag) → tag.length = 16
  open_seal : ∀ {key nonce aad plaintext ciphertext tag : Bytes},
    crypto.aesSeal key nonce aad plaintext = .ok (ciphertext, tag) →
      crypto.aesOpen key nonce aad (ciphertext ++ tag) = some plaintext

/-- What was sealed or encrypted comes back under the same key, nonce and additional data. -/
structure Crypto.Decrypts (crypto : Crypto) : Prop where
  aes : ∀ {key nonce aad plaintext ciphertext tag : Bytes},
    crypto.aesSeal key nonce aad plaintext = .ok (ciphertext, tag) →
      crypto.aesOpen key nonce aad (ciphertext ++ tag) = some plaintext
  sm4 : ∀ {key nonce aad plaintext ciphertext tag : Bytes},
    crypto.sm4Encrypt key nonce aad plaintext = .ok (ciphertext, tag) →
      crypto.sm4Decrypt key nonce aad ciphertext tag = some plaintext
  sm2 : ∀ {seed : ℕ} {key plaintext data : Bytes},
    crypto.sm2Encrypt seed key plaintext = .ok data → crypto.sm2Decrypt key data = some plaintext

/-- Primitives that keep the laws and hide nothing, to run the keystore on. -/
def Crypto.plain : Crypto where
  sha256 _ := List.replicate 32 0
  aesUnboundKey key := if key.length = 32 then .ok () else .error "ring::error::Unspecified"
  aesSeal _ _ _ plaintext := .ok (plaintext, List.replicate 16 0)
  aesOpen _ _ _ sealed :=
    if sealed.drop (sealed.length - 16) = List.replicate 16 0 then some (sealed.take (sealed.length - 16)) else none
  sm4Cipher key := if key.length = 16 then .ok () else .error "invalid key length"
  sm4Encrypt _ _ _ plaintext := .ok (plaintext, List.replicate 16 0)
  sm4Decrypt _ _ _ ciphertext _ := some ciphertext
  sm2KeyPair key := if key.length = 32 then .ok () else .error "invalid private key"
  sm2Encrypt _ _ plaintext := .ok (List.replicate 97 0 ++ plaintext)
  sm2Decrypt _ data := some (data.drop 97)
  sm2Sign _ _ _ := .ok (List.replicate 64 0)
  sm2Verifier _ := .ok ()
  sm2Verify _ _ _ := true
  ed25519KeyPair key := if key.length = 32 then .ok () else .error "InvalidEncoding"
  ed25519Sign _ _ := List.replicate 64 0
  ed25519Verify _ _ _ := true
  p256Ecdh _ _ := .error "crypto error"
  p384Ecdh _ _ := .error "crypto error"
  x25519 _ _ := List.replicate 32 0

theorem Crypto.plain_lawful : Crypto.plain.Lawful where
  seal_total _ _ _ _ := ⟨_, rfl⟩
  tag_length h := by cases h; rfl
  open_seal h := by cases h; simp [plain]

theorem Crypto.plain_decrypts : Crypto.plain.Decrypts where
  aes h := plain_lawful.open_seal h
  sm4 h := by cases h; rfl
  sm2 h := by cases h; simp [plain]

/-! ## Additional authenticated data -/

/-- The `n` low bytes of `x`, high first. -/
def beBytes (x : ℕ) : ℕ → Bytes
  | 0 => []
  | n + 1 => beBytes (x / 256) n ++ [UInt8.ofNat x]

inductive Purpose where
  | userData | kekWrap | exportWrap
  deriving DecidableEq, Repr

def Purpose.code : Purpose → ℕ
  | userData => 1
  | kekWrap => 2
  | exportWrap => 3

def aadMagic : Bytes := [0x6D, 0xB5]

def aadVersion : ℕ := 2

def buildV2 (purpose : Purpose) (keyId : Uuid) (tenantHash : Bytes) (version : UInt32) : Bytes :=
  aadMagic ++ beBytes aadVersion 2 ++ beBytes purpose.code 2 ++ beBytes keyId.toNat 16 ++ tenantHash ++
    beBytes version.toNat 4

/-- `kek_wrap_aad`. -/
def kekWrapAad (keyId : Uuid) : Bytes := buildV2 .kekWrap keyId (List.replicate 16 0) 0

def tenantHash (crypto : Crypto) (tenantId : String) : Bytes :=
  (crypto.sha256 tenantId.toUTF8.toList).take 16

/-- `user_data_aad`. -/
def userDataAad (crypto : Crypto) (keyId : Uuid) (tenantId : String) (version : UInt32) : Bytes :=
  buildV2 .userData keyId (tenantHash crypto tenantId) version

/-- `export_wrap_aad`. -/
def exportWrapAad (crypto : Crypto) (keyId : Uuid) (tenantId : String) : Bytes :=
  buildV2 .exportWrap keyId (tenantHash crypto tenantId) 0

end GmKms.Keystore
