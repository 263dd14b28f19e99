import GmKms.Api.Channels
import GmKms.Api.WrappedDek
import GmKms.Keystore.ContextBinding
/-!
# The caller's additional data

`encrypt` and `decrypt` of the keystore and of the envelope service take the caller's
additional data as `_aad`. A ciphertext is made and opened in the keystore, in
`CryptoService` and in the handlers of both channels; on every way it opens whatever the
caller gives.
-/

namespace GmKms

namespace Keystore.Software.SoftwareKeystore

variable (ks : SoftwareKeystore) (crypto : Crypto)

/-- `KeystoreBackend::encrypt`. -/
def backendEncrypt (env : UseEnv) (keyId : Uuid) (plaintext : Bytes) (_aad : Option Bytes) (tenantId : String) :
    Except Abort Ciphertext :=
  ks.encrypt crypto env keyId plaintext tenantId

/-- `KeystoreBackend::decrypt`. -/
def backendDecrypt (keyId : Uuid) (ciphertext : Ciphertext) (_aad : Option Bytes) (tenantId : String) :
    Except Abort Bytes :=
  ks.decrypt crypto keyId ciphertext tenantId

end Keystore.Software.SoftwareKeystore

namespace Api

open Lib Keystore Service Software.SoftwareKeystore

namespace EnvelopeService

variable (crypto : Crypto)

/-- `encrypt` with the parameter `_aad`. -/
def encryptAad (env : ServiceEnv) (kekId : Uuid) (plaintext : Bytes) (_aad : Option Bytes) (tenantId : String) :
    Service EnvelopeEncryptResponse :=
  encrypt crypto env kekId plaintext tenantId

/-- `decrypt_with_kek_version` with the parameter `_aad`. -/
def decryptWithKekVersionAad (kekId : Uuid) (ciphertext wrappedDek dekNonce dataNonce tag : Bytes) (_aad : Option Bytes)
    (tenantId : String) (kekVersion : UInt32) : Service Bytes :=
  decryptWithKekVersion crypto kekId ciphertext wrappedDek dekNonce dataNonce tag tenantId kekVersion

end EnvelopeService

/-- What a REST handler makes of the text of `aad`. -/
def Rest.aadBytes (aad : Option String) : Option Bytes := aad.map (·.toUTF8.toList)

/-- The fields of an answer to `encrypt`, on either channel, that stand for the ciphertext. -/
def Carries (id : Uuid) (ciphertext nonce tag : String) (version : UInt32) (formatVersion : ℕ)
    (c : Ciphertext) : Prop :=
  c.keyId = id ∧ Base64.decode ciphertext = some c.ciphertext ∧ Base64.decode nonce = some c.nonce ∧
    Base64.decode tag = some c.tag ∧ c.version = version ∧ c.formatVersion.toNat = formatVersion

section

variable (crypto : ServiceCrypto) (ks : Software.SoftwareKeystore) (id : Uuid) (tenantId : String)

/-- The ways to encrypt a plaintext with additional data under a key. -/
inductive Encrypted (plaintext : Bytes) : Option Bytes → Ciphertext → Prop where
  | keystore {env : Software.UseEnv} {aad : Option Bytes} {c : Ciphertext}
      (made : ks.backendEncrypt crypto.toCrypto env id plaintext aad tenantId = .ok c) : Encrypted plaintext aad c
  | service {env : ServiceEnv} {aad : Option Bytes} {c : Ciphertext}
      (made : (runOn crypto.toCrypto env.toUseEnv (CryptoService.encryptAad env id plaintext aad tenantId) ks).1 =
        .ok c) :
      Encrypted plaintext aad c
  | rest {F : Type} {srv : Server F} {caller : Caller} {query : Rest.TenantQuery} {req : Rest.EncryptRequest}
      {a : Rest.EncryptResponse} {c : Ciphertext} (hcrypto : srv.crypto = crypto) (hkeystore : srv.keystore = ks)
      (htenant : Rest.resolveTenant caller.tenantId query.tenantId = tenantId)
      (hplaintext : Base64.decode req.plaintext = some plaintext)
      (made : (Rest.encrypt srv caller id query req).answer = .ok a)
      (carried : Carries id a.ciphertext a.nonce a.tag a.version a.formatVersion.toNat c) :
      Encrypted plaintext (Rest.aadBytes req.aad) c
  | grpc {F : Type} {srv : Server F} {caller : Caller} {req : Grpc.EncryptRequest} {a : Grpc.EncryptResponse}
      {c : Ciphertext} (hcrypto : srv.crypto = crypto) (hkeystore : srv.keystore = ks)
      (hadmitted : Grpc.admitted srv caller .encrypt "encrypt" req.keyId req.tenantId = .ok (id, tenantId))
      (hplaintext : req.plaintext = plaintext) (made : (Grpc.encrypt srv caller req).answer = .ok a)
      (carried : Carries id a.ciphertext a.nonce a.tag a.version a.formatVersion.toNat c) : Encrypted plaintext none c

/-- The ways to open a ciphertext, by the additional data that the caller gives. -/
inductive Opens (c : Ciphertext) : Option Bytes → Prop where
  | keystore {aad : Option Bytes} {plaintext : Bytes}
      (opened : ks.backendDecrypt crypto.toCrypto id c aad tenantId = .ok plaintext) : Opens c aad
  | service {env : ServiceEnv} {aad : Option Bytes} {plaintext : Bytes}
      (opened : (runOn crypto.toCrypto env.toUseEnv (CryptoService.decryptAad env id c aad tenantId) ks).1 =
        .ok plaintext) : Opens c aad
  | rest {F : Type} {srv : Server F} {caller : Caller} {query : Rest.TenantQuery} {body : Rest.DecryptBody}
      {req : Rest.DecryptRequest} {a : Rest.DecryptResponse} (hcrypto : srv.crypto = crypto)
      (hkeystore : srv.keystore = ks) (htenant : Rest.resolveTenant caller.tenantId query.tenantId = tenantId)
      (hbody : body.deserialize = .ok req) (carried : Rest.decodeCiphertext id req = .ok c)
      (opened : (Rest.decrypt srv caller id query body).answer = .ok a) : Opens c (Rest.aadBytes body.aad)
  | grpc {F : Type} {srv : Server F} {caller : Caller} {req : Grpc.DecryptRequest} {a : Grpc.DecryptResponse}
      (hcrypto : srv.crypto = crypto) (hkeystore : srv.keystore = ks)
      (hadmitted : Grpc.admitted srv caller .decrypt "decrypt" req.keyId req.tenantId = .ok (id, tenantId))
      (carried : Grpc.decodeCiphertext id req = .ok c) (opened : (Grpc.decrypt srv caller req).answer = .ok a) :
      Opens c none

/-- The ciphertext opens with the additional data of its encryption only; none and empty data are the same. -/
def AadAuthenticated (aad : Option Bytes) (c : Ciphertext) : Prop :=
  ∀ aad', Opens crypto ks id tenantId c aad' → aad'.getD [] = aad.getD []

/-- What `encrypt` of the envelope service returned opens with the additional data it was given only. -/
def EnvelopeAadAuthenticated (aad : Option Bytes) (response : EnvelopeEncryptResponse) : Prop :=
  ∀ (env : ServiceEnv) (aad' : Option Bytes) (ciphertext wrappedDek dekNonce dataNonce tag plaintext : Bytes),
    Base64.decode response.ciphertext = some ciphertext → Base64.decode response.wrappedDek = some wrappedDek →
    Base64.decode response.dekNonce = some dekNonce → Base64.decode response.dataNonce = some dataNonce →
    Base64.decode response.tag = some tag →
    (runOn crypto.toCrypto env.toUseEnv (EnvelopeService.decryptWithKekVersionAad crypto.toCrypto id ciphertext
      wrappedDek
      dekNonce dataNonce tag aad' tenantId response.kekVersion) ks).1 = .ok plaintext →
    aad'.getD [] = aad.getD []

end

/-! ## What a success of a handler says -/

section

variable {F ε α β γ δ : Type} {srv : Server F} {caller : Caller}

theorem through_eq_ok {gate : Except ε β} {f : β → Handled ε α} {a : α} (h : (srv.through gate f).answer = .ok a) :
    ∃ b, gate = .ok b ∧ (f b).answer = .ok a := by
  cases gate with
  | error e => cases h
  | ok b => exact ⟨b, rfl, h⟩

theorem serveCrypto_map_eq_ok {mapErr : ApiAbort → ε} {t : String} {p : Service γ} {g : γ → α} {a : α}
    (h : ((srv.serveCrypto mapErr t p).map g).answer = .ok a) :
    ∃ v, (runOn srv.crypto.toCrypto srv.env.toUseEnv p srv.keystore).1 = .ok v ∧ g v = a := by
  change ((runOn srv.crypto.toCrypto srv.env.toUseEnv p srv.keystore).1.mapError mapErr).map g = .ok a at h
  cases hrun : (runOn srv.crypto.toCrypto srv.env.toUseEnv p srv.keystore).1 with
  | error e =>
    rw [hrun] at h
    cases h
  | ok v =>
    rw [hrun] at h
    exact ⟨v, rfl, Except.ok.inj h⟩

theorem checkRestPbac_eq_ok {action resourceId selfReported tenant : String}
    (h : Rest.checkRestPbac srv caller action resourceId selfReported = .ok tenant) :
    tenant = Rest.resolveTenant caller.tenantId selfReported := by
  unfold Rest.checkRestPbac at h
  dsimp only at h
  split at h
  · exact (Except.ok.inj h).symm
  · cases h

theorem rest_decodeField_eq_ok {text message : String} {bytes : Bytes} (h : Rest.decodeField text message = .ok bytes) :
    Base64.decode text = some bytes := by
  unfold Rest.decodeField at h
  split at h
  · cases h
  · rename_i hdecoded
    rw [hdecoded, Except.ok.inj h]

theorem rest_encrypt_eq_ok {id : Uuid} {query : Rest.TenantQuery} {req : Rest.EncryptRequest} {a : Rest.EncryptResponse}
    (h : (Rest.encrypt srv caller id query req).answer = .ok a) :
    ∃ plaintext c, Base64.decode req.plaintext = some plaintext ∧
      (runOn srv.crypto.toCrypto srv.env.toUseEnv (CryptoService.encryptAad srv.env id plaintext (Rest.aadBytes req.aad)
        (Rest.resolveTenant caller.tenantId query.tenantId)) srv.keystore).1 = .ok c ∧
      a = ⟨Base64.encode c.ciphertext, Base64.encode c.nonce, Base64.encode c.tag, c.formatVersion, c.version⟩ := by
  obtain ⟨⟨tenant, plaintext⟩, hgate, hserved⟩ := through_eq_ok h
  obtain ⟨c, hmade, rfl⟩ := serveCrypto_map_eq_ok hserved
  obtain ⟨_, -, hgate⟩ := bind_eq_ok hgate
  obtain ⟨tenant', htenant, hgate⟩ := bind_eq_ok hgate
  obtain ⟨_, -, hgate⟩ := bind_eq_ok hgate
  obtain ⟨plaintext', hplaintext, hgate⟩ := bind_eq_ok hgate
  cases hgate
  cases checkRestPbac_eq_ok htenant
  exact ⟨plaintext, c, rest_decodeField_eq_ok hplaintext, hmade, rfl⟩

theorem grpc_encrypt_eq_ok {id : Uuid} {tenantId : String} {req : Grpc.EncryptRequest} {a : Grpc.EncryptResponse}
    (hadmitted : Grpc.admitted srv caller .encrypt "encrypt" req.keyId req.tenantId = .ok (id, tenantId))
    (h : (Grpc.encrypt srv caller req).answer = .ok a) :
    ∃ c, (runOn srv.crypto.toCrypto srv.env.toUseEnv (CryptoService.encryptAad srv.env id req.plaintext none tenantId)
        srv.keystore).1 = .ok c ∧
      a = ⟨Base64.encode c.ciphertext, Base64.encode c.nonce, Base64.encode c.tag, c.version,
        c.formatVersion.toUInt32⟩ := by
  obtain ⟨_, hgate, hserved⟩ := through_eq_ok h
  rw [hadmitted] at hgate
  cases hgate
  obtain ⟨c, hmade, rfl⟩ := serveCrypto_map_eq_ok hserved
  exact ⟨c, hmade, rfl⟩

theorem validateDecryptRequest_of_aad {decodeError : String → String} {ciphertext nonce tag : String}
    {aad aad' : Option String} {u : Unit}
    (h : Validation.validateDecryptRequest decodeError ciphertext nonce tag aad = .ok u)
    (haad : Validation.validateAad decodeError aad' = .ok ()) :
    Validation.validateDecryptRequest decodeError ciphertext nonce tag aad' = .ok () := by
  obtain ⟨_, hciphertext, h⟩ := bind_eq_ok h
  obtain ⟨_, hciphertext', h⟩ := bind_eq_ok h
  obtain ⟨_, hnonce, h⟩ := bind_eq_ok h
  obtain ⟨_, hnonce', h⟩ := bind_eq_ok h
  obtain ⟨_, htag, h⟩ := bind_eq_ok h
  obtain ⟨_, htag', h⟩ := bind_eq_ok h
  unfold Validation.validateDecryptRequest
  rw [hciphertext, hciphertext', hnonce, hnonce', htag, htag', haad]
  rfl

/-- Two texts of additional data that the validation takes have the same answer. -/
theorem rest_decrypt_of_aad {id : Uuid} {query : Rest.TenantQuery} {body : Rest.DecryptBody} {a : Rest.DecryptResponse}
    (h : (Rest.decrypt srv caller id query body).answer = .ok a) {aad : Option String}
    (haad : Validation.validateAad srv.decodeError aad = .ok ()) :
    (Rest.decrypt srv caller id query { body with aad }).answer = .ok a := by
  obtain ⟨⟨tenant, c, aad₀⟩, hgate, hserved⟩ := through_eq_ok h
  obtain ⟨u, hpermission, hgate⟩ := bind_eq_ok hgate
  obtain ⟨req, hread, hgate⟩ := bind_eq_ok hgate
  obtain ⟨tenant', htenant, hgate⟩ := bind_eq_ok hgate
  obtain ⟨u', hvalidated, hgate⟩ := bind_eq_ok hgate
  obtain ⟨c', hc, hgate⟩ := bind_eq_ok hgate
  cases hgate
  have hread' : { body with aad }.deserialize = .ok { req with aad } := by
    unfold Rest.DecryptBody.deserialize at hread ⊢
    dsimp only at hread ⊢
    split at hread
    · rename_i hfits
      cases hread
      exact if_pos hfits
    · cases hread
  have hvalid : Rest.validated
      (Validation.validateDecryptRequest srv.decodeError req.ciphertext req.nonce req.tag aad) = .ok u' := by
    cases hr : Validation.validateDecryptRequest srv.decodeError req.ciphertext req.nonce req.tag req.aad with
    | error e =>
      rw [hr] at hvalidated
      cases hvalidated
    | ok u₀ =>
      rw [validateDecryptRequest_of_aad hr haad]
      rfl
  unfold Rest.decrypt
  rw [hpermission, through_ok_bind, hread', through_ok_bind, htenant, through_ok_bind, hvalid, through_ok_bind]
  change (srv.through (Rest.decodeCiphertext id req >>= _) _).answer = _
  rw [hc]
  exact hserved

end

/-! ## Every ciphertext opens -/

section

variable {crypto : ServiceCrypto} {ks : Software.SoftwareKeystore} {id : Uuid} {tenantId : String}

theorem keyId_of_encryptWith {crypto : Crypto} {env : Software.UseEnv} {entry : Software.KeyEntry} {plaintext : Bytes}
    {c : Ciphertext} (h : encryptWith crypto env id entry plaintext = .ok c) : c.keyId = id := by
  unfold encryptWith at h
  dsimp only at h
  repeat' split at h
  all_goals first
    | cases h
      rfl
    | cases h

theorem encryptAad_eq_ok {env : ServiceEnv} {plaintext : Bytes} {aad : Option Bytes} {c : Ciphertext}
    (h : (runOn crypto.toCrypto env.toUseEnv (CryptoService.encryptAad env id plaintext aad tenantId) ks).1 = .ok c) :
    env.recordRequest = none ∧ ks.encrypt crypto.toCrypto env.toUseEnv id plaintext tenantId = .ok c := by
  obtain ⟨hadmitted, entry, hentry, howned, hmade⟩ := CryptoService.runOn_checked_eq_ok h
  exact ⟨hadmitted, answer_eq_ok_iff.1 hmade⟩

/-- A response of either channel stands for the ciphertext it was made of only. -/
theorem Carries.eq {c c' : Ciphertext} (hid : c.keyId = id)
    (h : Carries id (Base64.encode c.ciphertext) (Base64.encode c.nonce) (Base64.encode c.tag) c.version
      c.formatVersion.toNat c') : c' = c := by
  obtain ⟨hid', hciphertext, hnonce, htag, hversion, hformat⟩ := h
  rw [Base64.decode_encode, Option.some.injEq] at hciphertext hnonce htag
  obtain ⟨_, _, _, _, _, _⟩ := c
  obtain ⟨_, _, _, _, _, _⟩ := c'
  cases UInt8.toNat_inj.1 hformat
  cases hid
  cases hid'
  cases hciphertext
  cases hnonce
  cases htag
  cases hversion
  rfl

/-- However a ciphertext came about, `encrypt` of the keystore made it. -/
theorem Encrypted.made {plaintext : Bytes} {aad : Option Bytes} {c : Ciphertext}
    (h : Encrypted crypto ks id tenantId plaintext aad c) :
    ∃ env, ks.encrypt crypto.toCrypto env id plaintext tenantId = .ok c := by
  cases h with
  | keystore made => exact ⟨_, made⟩
  | service made => exact ⟨_, (encryptAad_eq_ok made).2⟩
  | rest hcrypto hkeystore htenant hplaintext made carried =>
    subst hcrypto hkeystore htenant
    obtain ⟨plaintext', c', hplaintext', hmade, rfl⟩ := rest_encrypt_eq_ok made
    rw [hplaintext, Option.some.injEq] at hplaintext'
    subst hplaintext'
    have hmade := (encryptAad_eq_ok hmade).2
    obtain ⟨entry, -, -, -, hsealed⟩ := encrypt_eq_ok_iff.1 hmade
    cases Carries.eq (keyId_of_encryptWith hsealed) carried
    exact ⟨_, hmade⟩
  | grpc hcrypto hkeystore hadmitted hplaintext made carried =>
    subst hcrypto hkeystore hplaintext
    obtain ⟨c', hmade, rfl⟩ := grpc_encrypt_eq_ok hadmitted made
    have hmade := (encryptAad_eq_ok hmade).2
    obtain ⟨entry, -, -, -, hsealed⟩ := encrypt_eq_ok_iff.1 hmade
    rw [UInt8.toNat_toUInt32] at carried
    cases Carries.eq (keyId_of_encryptWith hsealed) carried
    exact ⟨_, hmade⟩

/-- The keystore opens it with any additional data. -/
theorem backendDecrypt_of_encrypted (hcrypto : crypto.toCrypto.Decrypts) {plaintext : Bytes} {aad : Option Bytes}
    {c : Ciphertext} (h : Encrypted crypto ks id tenantId plaintext aad c) (aad' : Option Bytes) :
    ks.backendDecrypt crypto.toCrypto id c aad' tenantId = .ok plaintext := by
  obtain ⟨env, hmade⟩ := h.made
  obtain ⟨entry, hentry, howned, hactive, hsealed⟩ := encrypt_eq_ok_iff.1 hmade
  obtain ⟨hversion, hopened⟩ := decryptWith_of_encryptWith hcrypto hsealed
  have hstatus : entry.keyMeta.status.canDecrypt = true := by
    rw [hactive]
    rfl
  have hmaterial : entry.materialAt c.version = some entry.material := by
    rw [hversion]
    exact entry.materialAt_current
  unfold backendDecrypt
  rw [decrypt_of_owned _ hentry howned hstatus hmaterial]
  exact hopened

/-- So does the service, once it admits the request. -/
theorem decryptAad_of_encrypted (hcrypto : crypto.toCrypto.Decrypts) {plaintext : Bytes} {aad : Option Bytes}
    {c : Ciphertext} (h : Encrypted crypto ks id tenantId plaintext aad c) (aad' : Option Bytes) {env : ServiceEnv}
    (hadmitted : env.recordRequest = none) :
    (runOn crypto.toCrypto env.toUseEnv (CryptoService.decryptAad env id c aad' tenantId) ks).1 = .ok plaintext := by
  obtain ⟨env', hmade⟩ := h.made
  obtain ⟨entry, hentry, howned, -, -⟩ := encrypt_eq_ok_iff.1 hmade
  unfold CryptoService.decryptAad
  rw [CryptoService.runOn_checked hadmitted hentry howned]
  exact answer_eq_ok_iff.2 (backendDecrypt_of_encrypted hcrypto h aad')

/-- Additional data of other bytes. -/
def otherAad (aad : Option Bytes) : Option Bytes := some (aad.getD [] ++ [0])

theorem otherAad_ne (aad : Option Bytes) : (otherAad aad).getD [] ≠ aad.getD [] := by
  intro h
  have hlength := congrArg List.length h
  simp [otherAad] at hlength

theorem not_aadAuthenticated (hcrypto : crypto.toCrypto.Decrypts) {plaintext : Bytes} {aad : Option Bytes}
    {c : Ciphertext} (h : Encrypted crypto ks id tenantId plaintext aad c) :
    ¬ AadAuthenticated crypto ks id tenantId aad c := by
  intro hbound
  exact otherAad_ne aad (hbound _ (.keystore (backendDecrypt_of_encrypted hcrypto h _)))

theorem not_envelopeAadAuthenticated (hcrypto : InPlaceAead crypto.toCrypto) {env : ServiceEnv} {plaintext : Bytes}
    {aad : Option Bytes} {response : EnvelopeEncryptResponse}
    (h : (runOn crypto.toCrypto env.toUseEnv (EnvelopeService.encryptAad crypto.toCrypto env id plaintext aad tenantId)
      ks).1 = .ok response) : ¬ EnvelopeAadAuthenticated crypto ks id tenantId aad response := by
  intro hbound
  obtain ⟨entry, hentry, howned, -, hsealed⟩ := EnvelopeService.encrypt_eq_ok h
  obtain ⟨dek, wrapped, dekNonce, ciphertext, dataNonce, tag, hdek, hnonce, hwrapped, hdata, rfl⟩ :=
    EnvelopeService.sealEnvelope_eq_ok hcrypto hsealed
  have hunwraps := EnvelopeService.unwraps_of_wrapDek hcrypto hwrapped hdek hnonce
  refine otherAad_ne aad (hbound env _ _ _ _ _ _ plaintext (Base64.decode_encode _) (Base64.decode_encode _)
    (Base64.decode_encode _) (Base64.decode_encode _) (Base64.decode_encode _) ?_)
  -- the label names the material that wrapped the data key, even where it is 0
  have hrequested : entry.requested entry.keyMeta.version = some entry.material := by
    unfold Software.KeyEntry.requested
    split
    · rfl
    · exact entry.materialAt_current
  exact EnvelopeService.decryptWithKekVersion_eq_ok_iff.2 ⟨entry, entry.material, hentry, howned, hrequested,
    EnvelopeService.openEnvelope_eq_ok_iff.2 ⟨dek, hunwraps, hdata⟩⟩

/-- No encryption binds the caller's additional data, in a keystore of any state and under a key of any
specification; nor does REST tell two texts apart that it validates. -/
theorem aad_never_authenticated (hcrypto : crypto.toCrypto.Decrypts) (hinPlace : InPlaceAead crypto.toCrypto) :
    (∀ ks id tenantId plaintext aad c, Encrypted crypto ks id tenantId plaintext aad c →
      ¬ AadAuthenticated crypto ks id tenantId aad c) ∧
    (∀ (env : ServiceEnv) ks kekId tenantId plaintext aad response,
      (runOn crypto.toCrypto env.toUseEnv
        (EnvelopeService.encryptAad crypto.toCrypto env kekId plaintext aad tenantId) ks).1 = .ok response →
      ¬ EnvelopeAadAuthenticated crypto ks kekId tenantId aad response) ∧
    ∀ {F : Type} (srv : Server F) caller id query body a aad, Validation.validateAad srv.decodeError aad = .ok () →
      (Rest.decrypt srv caller id query body).answer = .ok a →
      (Rest.decrypt srv caller id query { body with aad }).answer = .ok a := by
  refine ⟨?_, ?_, ?_⟩
  · intro ks id tenantId plaintext aad c h
    exact not_aadAuthenticated hcrypto h
  · intro env ks kekId tenantId plaintext aad response h
    exact not_envelopeAadAuthenticated hinPlace h
  · intro F srv caller id query body a aad haad h
    exact rest_decrypt_of_aad h haad

theorem plain_inPlaceAead : InPlaceAead Crypto.plain where
  key_length := by
    intro key h
    by_contra hlength
    simp [Crypto.plain, hlength] at h
  lengths := by
    intro key nonce aad plaintext ciphertext tag h
    simp only [Crypto.plain, Except.ok.injEq, Prod.mk.injEq] at h
    obtain ⟨rfl, rfl⟩ := h
    exact ⟨rfl, by simp⟩
  open_seal := Crypto.plain_decrypts.aes

/-- Under the key of `sealedRun`, encrypted with no additional data. -/
theorem not_aadAuthenticated_produced :
    ¬ AadAuthenticated .plain (after .plain (sealedRun.take 1)) 1 "tenant-1" none produced := by
  have hmade : (after .plain (sealedRun.take 1)).backendEncrypt .plain (sampleUseEnv 7) 1 [5] none "tenant-1" =
      .ok produced := rfl
  exact (@aad_never_authenticated .plain Crypto.plain_decrypts plain_inPlaceAead).1 _ _ _ _ _ _ (.keystore hmade)

/-- The cipher opens what the run sealed and nothing else; yet what was made with one byte opens with another. -/
theorem not_aadAuthenticated_ideal : IdealAead tableCrypto sealedRun ∧
    (after tableCrypto (sealedRun.take 1)).backendEncrypt tableCrypto (sampleUseEnv 7) 1 [5] (some [1]) "tenant-1" =
      .ok produced ∧
    ¬ AadAuthenticated { ServiceCrypto.plain with toCrypto := tableCrypto } (after tableCrypto sealedRun) 1 "tenant-1"
      (some [1]) produced := by
  refine ⟨idealAead_sealedRun, rfl, fun hbound => ?_⟩
  have hopened : (after tableCrypto sealedRun).backendDecrypt tableCrypto 1 produced (some [2]) "tenant-1" =
      .ok [5] := rfl
  exact absurd (hbound (some [2]) (.keystore hopened)) (by decide)

end

end Api

end GmKms
