import GmKms.Api.EnvelopeService
/-!
# Wrapped data keys

What wrapping a data key and unwrapping it have to do with each other, and what the
responses of `EnvelopeService` say about both.
-/

namespace GmKms.Api

open Lib Keystore

/-- AES-256-GCM takes keys of 32 bytes, seals in place with a tag of 16 bytes, and opens what it sealed. -/
structure InPlaceAead (crypto : Crypto) : Prop where
  key_length : ∀ {key : Bytes}, crypto.aesUnboundKey key = .ok () → key.length = 32
  lengths : ∀ {key nonce aad plaintext ciphertext tag : Bytes},
    crypto.aesSeal key nonce aad plaintext = .ok (ciphertext, tag) →
      ciphertext.length = plaintext.length ∧ tag.length = 16
  open_seal : ∀ {key nonce aad plaintext ciphertext tag : Bytes},
    crypto.aesSeal key nonce aad plaintext = .ok (ciphertext, tag) →
      crypto.aesOpen key nonce aad (ciphertext ++ tag) = some plaintext

/-- Primitives that hide nothing. Keys are two equal halves, and one of them is the tag. -/
def keyedCrypto : Crypto :=
  { Crypto.plain with
    aesSeal := fun key _ _ plaintext =>
      if key.length = 32 ∧ key = key.take 16 ++ key.take 16 then .ok (plaintext, key.take 16)
      else .error "ring::error::Unspecified"
    aesOpen := fun key _ _ sealed =>
      if key = sealed.drop (sealed.length - 16) ++ sealed.drop (sealed.length - 16) then
        some (sealed.take (sealed.length - 16))
      else none }

/-- A sealing under `keyedCrypto` shows its key. -/
theorem keyedCrypto_aesSeal {key nonce aad plaintext ciphertext tag : Bytes}
    (h : keyedCrypto.aesSeal key nonce aad plaintext = .ok (ciphertext, tag)) :
    ciphertext = plaintext ∧ tag.length = 16 ∧ key = tag ++ tag := by
  simp only [keyedCrypto] at h
  split at h
  · rename_i hkey
    cases h
    exact ⟨rfl, by simp [hkey.1], hkey.2⟩
  · cases h

theorem keyedCrypto_aesOpen (key nonce aad ciphertext : Bytes) {tag : Bytes} (htag : tag.length = 16) :
    keyedCrypto.aesOpen key nonce aad (ciphertext ++ tag) = if key = tag ++ tag then some ciphertext else none := by
  have hlength : (ciphertext ++ tag).length - 16 = ciphertext.length := by
    rw [List.length_append, htag, Nat.add_sub_cancel]
  simp only [keyedCrypto, hlength, List.drop_left, List.take_left]

theorem keyedCrypto_inPlaceAead : InPlaceAead keyedCrypto where
  key_length := by
    intro key h
    by_contra hlength
    simp [keyedCrypto, Crypto.plain, hlength] at h
  lengths := by
    intro key nonce aad plaintext ciphertext tag h
    obtain ⟨rfl, htag, -⟩ := keyedCrypto_aesSeal h
    exact ⟨rfl, htag⟩
  open_seal := by
    intro key nonce aad plaintext ciphertext tag h
    obtain ⟨rfl, htag, hkey⟩ := keyedCrypto_aesSeal h
    rw [keyedCrypto_aesOpen _ _ _ _ htag, if_pos hkey]

namespace EnvelopeService

section

variable {crypto : Crypto} {kek wrapped nonce dek : Bytes}

/-- The data key comes out of the wrapped one. -/
def Unwraps (crypto : Crypto) (kek wrapped nonce dek : Bytes) : Prop :=
  48 ≤ wrapped.length ∧ crypto.aesUnboundKey kek = .ok () ∧ 12 ≤ nonce.length ∧
    crypto.aesOpen kek (nonce.take 12) [] wrapped = some dek

/-- The texts of the errors have no part in it. -/
theorem unwrapDek_eq_ok_iff (key mismatched : String) :
    unwrapDek crypto key mismatched kek wrapped nonce = .ok dek ↔ Unwraps crypto kek wrapped nonce dek := by
  unfold unwrapDek Unwraps nonceArray
  by_cases hlong : wrapped.length < 48
  · simp [hlong]
  · have hlong' := Nat.not_lt.1 hlong
    by_cases hnonce : nonce.length < 12
    · cases crypto.aesUnboundKey kek <;> simp [hlong, hnonce]
    · have hnonce' := Nat.not_lt.1 hnonce
      cases crypto.aesUnboundKey kek with
      | error e => simp [hlong]
      | ok _ =>
        cases hopened : crypto.aesOpen kek (nonce.take 12) [] wrapped <;> simp [hlong, hnonce, hlong', hnonce', hopened]

theorem wrapDek_eq_ok {key failure : String} (h : wrapDek crypto key failure kek nonce dek = .ok wrapped) :
    crypto.aesUnboundKey kek = .ok () ∧ ∃ ciphertext tag,
      crypto.aesSeal kek nonce [] dek = .ok (ciphertext, tag) ∧ wrapped = ciphertext ++ tag := by
  unfold wrapDek at h
  cases hkey : crypto.aesUnboundKey kek with
  | error e => simp [hkey] at h
  | ok _ =>
    simp only [hkey] at h
    split at h
    · cases h
    · rename_i ciphertext tag hseal
      cases h
      exact ⟨rfl, ciphertext, tag, hseal, rfl⟩

/-- What was wrapped comes out again. -/
theorem unwraps_of_wrapDek (hcrypto : InPlaceAead crypto) {key failure : String}
    (h : wrapDek crypto key failure kek nonce dek = .ok wrapped) (hdek : dek.length = 32) (hnonce : nonce.length = 12) :
    Unwraps crypto kek wrapped nonce dek := by
  obtain ⟨hkey, ciphertext, tag, hseal, rfl⟩ := wrapDek_eq_ok h
  obtain ⟨hciphertext, htag⟩ := hcrypto.lengths hseal
  refine ⟨?_, hkey, hnonce.ge, ?_⟩
  · rw [List.length_append, hciphertext, htag, hdek]
  · rw [List.take_of_length_le hnonce.le]
    exact hcrypto.open_seal hseal

theorem openEnvelope_eq_ok_iff {ciphertext dataNonce tag plaintext : Bytes} :
    openEnvelope crypto kek ciphertext wrapped nonce dataNonce tag = .ok plaintext ↔
      ∃ dek, Unwraps crypto kek wrapped nonce dek ∧ openData crypto dek ciphertext dataNonce tag = .ok plaintext := by
  unfold openEnvelope
  cases hdek : unwrapDek crypto "KEK" "DEK unwrap failed - KEK mismatch or corrupted data" kek wrapped nonce with
  | error e =>
    simp only [bind, Except.bind, reduceCtorEq, false_iff, not_exists, not_and]
    intro dek hunwraps
    rw [(unwrapDek_eq_ok_iff _ _).2 hunwraps] at hdek
    cases hdek
  | ok dek =>
    have hunwraps := (unwrapDek_eq_ok_iff _ _).1 hdek
    constructor
    · intro h
      exact ⟨dek, hunwraps, h⟩
    · rintro ⟨dek', hunwraps', h⟩
      rw [(unwrapDek_eq_ok_iff _ _).2 hunwraps', Except.ok.injEq] at hdek
      rwa [← hdek]

theorem key_of_openData {ciphertext dataNonce tag plaintext : Bytes}
    (h : openData crypto dek ciphertext dataNonce tag = .ok plaintext) : crypto.aesUnboundKey dek = .ok () := by
  unfold openData at h
  cases hnonce : nonceArray dataNonce with
  | error e => simp [hnonce, bind, Except.bind] at h
  | ok _ =>
    cases hkey : crypto.aesUnboundKey dek with
    | error e => simp [hnonce, hkey, bind, Except.bind] at h
    | ok _ => rfl

/-- What `encrypt` returns: a data key wrapped under the material, and the data sealed under it. -/
theorem sealEnvelope_eq_ok (hcrypto : InPlaceAead crypto) {env : ServiceEnv} {kekMeta : KeyMeta} {plaintext : Bytes}
    {response : EnvelopeEncryptResponse} (h : sealEnvelope crypto env kekMeta kek plaintext = .ok response) :
    ∃ dek wrapped dekNonce ciphertext dataNonce tag, dek.length = 32 ∧ dekNonce.length = 12 ∧
      wrapDek crypto "KEK" "failed to wrap DEK" kek dekNonce dek = .ok wrapped ∧
      openData crypto dek ciphertext dataNonce tag = .ok plaintext ∧
      response = ⟨Base64.encode wrapped, Base64.encode dekNonce, Base64.encode ciphertext, Base64.encode dataNonce,
        Base64.encode tag, kekMeta.version⟩ := by
  unfold sealEnvelope at h
  cases hdek : Service.fill env 0 32 "DEK" with
  | error e => simp [hdek, bind, Except.bind] at h
  | ok dek =>
    cases hdekNonce : Service.fill env 1 12 "dek nonce" with
    | error e => simp [hdek, hdekNonce, bind, Except.bind] at h
    | ok dekNonce =>
      cases hwrapped : wrapDek crypto "KEK" "failed to wrap DEK" kek dekNonce dek with
      | error e => simp [hdek, hdekNonce, hwrapped, bind, Except.bind] at h
      | ok wrapped =>
        cases hdataNonce : Service.fill env 2 12 "data nonce" with
        | error e => simp [hdek, hdekNonce, hwrapped, hdataNonce, bind, Except.bind] at h
        | ok dataNonce =>
          simp only [hdek, hdekNonce, hwrapped, hdataNonce, bind, Except.bind] at h
          split at h
          · cases h
          · rename_i hkey
            split at h
            · cases h
            · rename_i ciphertext tag hseal
              cases h
              have hlength := Service.length_of_fill hdataNonce
              -- splitting the tag off and putting it back changes nothing
              have hjoin : ((ciphertext ++ tag).splitAt ((ciphertext ++ tag).length - 16)).1 ++
                  ((ciphertext ++ tag).splitAt ((ciphertext ++ tag).length - 16)).2 = ciphertext ++ tag := by
                rw [List.splitAt_eq, List.take_append_drop]
              refine ⟨dek, wrapped, dekNonce, _, dataNonce, _, Service.length_of_fill hdek,
                Service.length_of_fill hdekNonce, hwrapped, ?_, rfl⟩
              simp only [openData, nonceArray, hlength, lt_irrefl, if_false, bind, Except.bind, hkey, hjoin,
                List.take_of_length_le hlength.le, hcrypto.open_seal hseal]

/-- A key under which the wrapped one does not open. -/
theorem rewrapUnder_of_not_open {env : ServiceEnv} {kekMeta : KeyMeta} {oldKek newKek : Bytes} {oldKekVersion : UInt32}
    (hlong : 48 ≤ wrapped.length) (hnonce : nonce.length = 12) (h : crypto.aesOpen oldKek nonce [] wrapped = none) :
    ∃ e, rewrapUnder crypto env kekMeta oldKek newKek wrapped nonce oldKekVersion = .error (.error e) := by
  unfold rewrapUnder unwrapDek nonceArray
  rw [if_neg (Nat.not_lt.2 hlong), if_neg hnonce.not_lt, List.take_of_length_le hnonce.le]
  cases crypto.aesUnboundKey oldKek with
  | error e => exact ⟨_, rfl⟩
  | ok _ =>
    simp only [h, bind, Except.bind]
    exact ⟨_, rfl⟩

/-- What the moving half of `rewrap_dek` returns: the same data key, wrapped under the current material. -/
theorem rewrapUnder_eq_ok {env : ServiceEnv} {kekMeta : KeyMeta} {oldKek newKek : Bytes} {oldKekVersion : UInt32}
    {response : RewrapDekResponse}
    (h : rewrapUnder crypto env kekMeta oldKek newKek wrapped nonce oldKekVersion = .ok response) :
    ∃ dek rewrapped newNonce, Unwraps crypto oldKek wrapped nonce dek ∧ newNonce.length = 12 ∧
      wrapDek crypto "new KEK" "failed to rewrap DEK" newKek newNonce dek = .ok rewrapped ∧
      response = ⟨Base64.encode rewrapped, Base64.encode newNonce, kekMeta.version, oldKekVersion⟩ := by
  unfold rewrapUnder at h
  generalize hdek : unwrapDek crypto "old KEK"
    "DEK unwrap failed during rewrap - old KEK version mismatch or corrupted data" oldKek wrapped nonce = unwrapped at h
  cases unwrapped with
  | error e => simp [bind, Except.bind] at h
  | ok dek =>
    cases hnonce : Service.fill env 0 12 "dek nonce" with
    | error e => simp [hnonce, bind, Except.bind] at h
    | ok newNonce =>
      cases hwrapped : wrapDek crypto "new KEK" "failed to rewrap DEK" newKek newNonce dek with
      | error e => simp [hnonce, hwrapped, bind, Except.bind] at h
      | ok rewrapped =>
        simp only [hnonce, hwrapped, bind, Except.bind, pure, Except.pure, Except.ok.injEq] at h
        exact ⟨dek, rewrapped, newNonce, (unwrapDek_eq_ok_iff _ _).1 hdek, Service.length_of_fill hnonce, hwrapped,
          h.symm⟩

end

end EnvelopeService

end GmKms.Api
