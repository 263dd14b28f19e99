import GmKms.Api.Service
import GmKms.Lib.Base64
/-!
# The envelope service

`EnvelopeService`: data is encrypted under a fresh key, which is wrapped under a key of
the keystore. The wrapped key is labelled with the version that the metadata showed.
-/

namespace GmKms.Api

open Lib Keystore Service

structure EnvelopeEncryptResponse where
  wrappedDek : String
  dekNonce : String
  ciphertext : String
  dataNonce : String
  tag : String
  kekVersion : UInt32
  deriving DecidableEq

structure RewrapDekResponse where
  wrappedDek : String
  dekNonce : String
  kekVersion : UInt32
  oldKekVersion : UInt32
  deriving DecidableEq

namespace EnvelopeService

/-- How the errors of the keystore are mapped. -/
def kekError (kekId : Uuid) : Error → ApiError
  | .keyNotFound _ =>
    let id := kekId.text
    .notFound s!"KEK {id} not found"
  | e => .internal e.text

/-- The mapping around `get_key_material` in `encrypt`. -/
def kekMaterialError (kekId : Uuid) : Error → ApiError
  | .notImplemented _ => .internal "KEK material not available for envelope encryption"
  | e => kekError kekId e

section

variable (crypto : Crypto)

/-- Wrap a data key: ciphertext and tag. `key` names the KEK in the errors. -/
def wrapDek (key failure : String) (kek nonce dek : Bytes) : Except ApiAbort Bytes :=
  match crypto.aesUnboundKey kek with
  | .error e => .error (.error (.internal s!"invalid {key}: {e}"))
  | .ok _ =>
    match crypto.aesSeal kek nonce [] dek with
    | .error e => .error (.error (.internal s!"{failure}: {e}"))
    | .ok (ciphertext, tag) => .ok (ciphertext ++ tag)

/-- `copy_from_slice` of at most twelve bytes into an array of twelve. -/
def nonceArray (nonce : Bytes) : Except ApiAbort Bytes :=
  if nonce.length < 12 then
    .error (.panic "copy_from_slice: source slice length does not match destination slice length")
  else .ok (nonce.take 12)

/-- Unwrap a data key. `key` names the KEK in the errors. -/
def unwrapDek (key mismatched : String) (kek wrappedDek dekNonce : Bytes) : Except ApiAbort Bytes :=
  if wrappedDek.length < 48 then .error (.error (.invalidRequest "invalid wrapped_dek length"))
  else
    match crypto.aesUnboundKey kek with
    | .error e => .error (.error (.internal s!"invalid {key}: {e}"))
    | .ok _ =>
      match nonceArray dekNonce with
      | .error e => .error e
      | .ok nonce =>
        match crypto.aesOpen kek nonce [] wrappedDek with
        | none => .error (.error (.invalidArgument mismatched))
        | some dek => .ok dek

/-! ## Encryption -/

/-- What `encrypt` does with the KEK and its metadata. -/
def sealEnvelope (env : ServiceEnv) (kekMeta : KeyMeta) (kek plaintext : Bytes) :
    Except ApiAbort EnvelopeEncryptResponse := do
  let dek ← fill env 0 32 "DEK"
  let dekNonce ← fill env 1 12 "dek nonce"
  let wrappedDek ← wrapDek crypto "KEK" "failed to wrap DEK" kek dekNonce dek
  let dataNonce ← fill env 2 12 "data nonce"
  match crypto.aesUnboundKey dek with
  | .error e => .error (.error (.internal s!"invalid DEK: {e}"))
  | .ok _ =>
    match crypto.aesSeal dek dataNonce [] plaintext with
    | .error e => .error (.error (.internal s!"encryption failed: {e}"))
    | .ok (ciphertext, tag) =>
      let ciphertextWithTag := ciphertext ++ tag
      let (ciphertext, tag) := ciphertextWithTag.splitAt (ciphertextWithTag.length - 16)
      return {
        wrappedDek := Base64.encode wrappedDek
        dekNonce := Base64.encode dekNonce
        ciphertext := Base64.encode ciphertext
        dataNonce := Base64.encode dataNonce
        tag := Base64.encode tag
        kekVersion := kekMeta.version }

/-- `encrypt` once it has the metadata. -/
def encryptUnder (env : ServiceEnv) (kekId : Uuid) (plaintext : Bytes) (tenantId : String) (kekMeta : KeyMeta) :
    Service EnvelopeEncryptResponse :=
  if kekMeta.spec ≠ .aes256Gcm then fail (.invalidRequest "KEK must be AES-256-GCM")
  else do
    let kek ← ask (.getKeyMaterial kekId tenantId) (kekMaterialError kekId)
    Program.lift (sealEnvelope crypto env kekMeta kek plaintext)

def encrypt (env : ServiceEnv) (kekId : Uuid) (plaintext : Bytes) (tenantId : String) :
    Service EnvelopeEncryptResponse := do
  let kekMeta ← ask (.getKeyMetadata kekId) (kekError kekId)
  encryptUnder crypto env kekId plaintext tenantId kekMeta

/-! ## Rewrapping -/

/-- What `rewrap_dek` does with the two KEKs. -/
def rewrapUnder (env : ServiceEnv) (kekMeta : KeyMeta) (oldKek newKek wrappedDek dekNonce : Bytes)
    (oldKekVersion : UInt32) : Except ApiAbort RewrapDekResponse := do
  let dek ← unwrapDek crypto "old KEK" "DEK unwrap failed during rewrap - old KEK version mismatch or corrupted data"
    oldKek wrappedDek dekNonce
  let newDekNonce ← fill env 0 12 "dek nonce"
  let rewrappedDek ← wrapDek crypto "new KEK" "failed to rewrap DEK" newKek newDekNonce dek
  return {
    wrappedDek := Base64.encode rewrappedDek
    dekNonce := Base64.encode newDekNonce
    kekVersion := kekMeta.version
    oldKekVersion }

/-- `rewrap_dek` once it has the metadata. -/
def rewrapWith (env : ServiceEnv) (kekId : Uuid) (wrappedDek dekNonce : Bytes) (oldKekVersion : UInt32)
    (tenantId : String) (kekMeta : KeyMeta) : Service RewrapDekResponse :=
  if kekMeta.spec ≠ .aes256Gcm then fail (.invalidRequest "KEK must be AES-256-GCM")
  -- the current version by the caller's label: the input goes back unopened
  else if oldKekVersion = kekMeta.version then
    return {
      wrappedDek := Base64.encode wrappedDek
      dekNonce := Base64.encode dekNonce
      kekVersion := kekMeta.version
      oldKekVersion }
  else do
    let oldKek ← ask (.getKeyMaterialVersion kekId oldKekVersion tenantId) (kekError kekId)
    let newKek ← ask (.getKeyMaterial kekId tenantId) (kekError kekId)
    Program.lift (rewrapUnder crypto env kekMeta oldKek newKek wrappedDek dekNonce oldKekVersion)

def rewrapDek (env : ServiceEnv) (kekId : Uuid) (wrappedDek dekNonce : Bytes) (oldKekVersion : UInt32)
    (tenantId : String) : Service RewrapDekResponse := do
  let kekMeta ← ask (.getKeyMetadata kekId) (kekError kekId)
  rewrapWith crypto env kekId wrappedDek dekNonce oldKekVersion tenantId kekMeta

/-! ## Decryption -/

/-- What `decrypt_with_kek_version` does with the data key. -/
def openData (dek ciphertext dataNonce tag : Bytes) : Except ApiAbort Bytes := do
  let dataNonce ← nonceArray dataNonce
  match crypto.aesUnboundKey dek with
  | .error e => .error (.error (.internal s!"invalid DEK after unwrap: {e}"))
  | .ok _ =>
    match crypto.aesOpen dek dataNonce [] (ciphertext ++ tag) with
    | none => .error (.error (.internal "decryption failed - invalid ciphertext or key"))
    | some plaintext => .ok plaintext

/-- What `decrypt_with_kek_version` does with the KEK. -/
def openEnvelope (kek ciphertext wrappedDek dekNonce dataNonce tag : Bytes) : Except ApiAbort Bytes := do
  let dek ← unwrapDek crypto "KEK" "DEK unwrap failed - KEK mismatch or corrupted data" kek wrappedDek dekNonce
  openData crypto dek ciphertext dataNonce tag

def decryptWithKekVersion (kekId : Uuid) (ciphertext wrappedDek dekNonce dataNonce tag : Bytes) (tenantId : String)
    (kekVersion : UInt32) : Service Bytes := do
  let kek ← ask (.getKeyMaterialVersion kekId kekVersion tenantId) (kekError kekId)
  Program.lift (openEnvelope crypto kek ciphertext wrappedDek dekNonce dataNonce tag)

def decrypt (kekId : Uuid) (ciphertext wrappedDek dekNonce dataNonce tag : Bytes) (tenantId : String) :
    Service Bytes :=
  decryptWithKekVersion crypto kekId ciphertext wrappedDek dekNonce dataNonce tag tenantId 0

end

/-! ## What a success says -/

section

variable {crypto : Crypto} {env : ServiceEnv} {ks : Software.SoftwareKeystore} {kekId : Uuid} {tenantId : String}

/-- A new data key is wrapped under the current material of an AES key, whatever its status. -/
theorem encrypt_eq_ok {plaintext : Bytes} {response : EnvelopeEncryptResponse}
    (h : (runOn crypto env.toUseEnv (encrypt crypto env kekId plaintext tenantId) ks).1 = .ok response) :
    ∃ entry, ks.keys[kekId]? = some entry ∧ entry.keyMeta.tenantId = tenantId ∧ entry.keyMeta.spec = .aes256Gcm ∧
      sealEnvelope crypto env entry.keyMeta entry.material plaintext = .ok response := by
  obtain ⟨keyMeta, _, hmeta, hrest⟩ := runOn_bind_eq_ok h
  obtain ⟨rfl, entry, hentry, rfl⟩ := runOn_getKeyMetadata_eq_ok hmeta
  unfold encryptUnder at hrest
  split at hrest
  · cases hrest
  · rename_i hspec
    obtain ⟨kek, _, hkek, hsealed⟩ := runOn_bind_eq_ok hrest
    obtain ⟨rfl, entry', hentry', howned, rfl⟩ := runOn_getKeyMaterial_eq_ok hkek
    rw [hentry, Option.some.injEq] at hentry'
    subst hentry'
    exact ⟨entry, hentry, howned, not_not.1 hspec, hsealed⟩

/-- Either the label is the current version and the input goes back, or the data key moves from
the material of the labelled version to the current one. -/
theorem rewrapDek_eq_ok {wrappedDek dekNonce : Bytes} {oldKekVersion : UInt32} {response : RewrapDekResponse}
    (h : (runOn crypto env.toUseEnv (rewrapDek crypto env kekId wrappedDek dekNonce oldKekVersion tenantId) ks).1 =
      .ok response) :
    ∃ entry, ks.keys[kekId]? = some entry ∧ entry.keyMeta.spec = .aes256Gcm ∧
      (oldKekVersion = entry.keyMeta.version ∧ response =
          ⟨Base64.encode wrappedDek, Base64.encode dekNonce, entry.keyMeta.version, oldKekVersion⟩ ∨
        oldKekVersion ≠ entry.keyMeta.version ∧ entry.keyMeta.tenantId = tenantId ∧
          ∃ oldKek, entry.requested oldKekVersion = some oldKek ∧
            rewrapUnder crypto env entry.keyMeta oldKek entry.material wrappedDek dekNonce oldKekVersion =
              .ok response) := by
  obtain ⟨keyMeta, _, hmeta, hrest⟩ := runOn_bind_eq_ok h
  obtain ⟨rfl, entry, hentry, rfl⟩ := runOn_getKeyMetadata_eq_ok hmeta
  unfold rewrapWith at hrest
  split at hrest
  · cases hrest
  · rename_i hspec
    refine ⟨entry, hentry, not_not.1 hspec, ?_⟩
    split at hrest
    · rename_i hcurrent
      exact .inl ⟨hcurrent, (Except.ok.inj hrest).symm⟩
    · rename_i hother
      obtain ⟨oldKek, _, hold, hcurrent⟩ := runOn_bind_eq_ok hrest
      obtain ⟨rfl, entry₁, hentry₁, howned, hrequested⟩ := runOn_getKeyMaterialVersion_eq_ok hold
      obtain ⟨newKek, _, hnew, hrewrapped⟩ := runOn_bind_eq_ok hcurrent
      obtain ⟨rfl, entry₂, hentry₂, -, rfl⟩ := runOn_getKeyMaterial_eq_ok hnew
      rw [hentry, Option.some.injEq] at hentry₁ hentry₂
      subst hentry₁ hentry₂
      exact .inr ⟨hother, howned, oldKek, hrequested, hrewrapped⟩

/-- The current version is not looked into. -/
theorem rewrapDek_of_current {entry : Software.KeyEntry} (hentry : ks.keys[kekId]? = some entry)
    (hspec : entry.keyMeta.spec = .aes256Gcm) (wrappedDek dekNonce : Bytes) :
    (runOn crypto env.toUseEnv (rewrapDek crypto env kekId wrappedDek dekNonce entry.keyMeta.version tenantId) ks).1 =
      .ok ⟨Base64.encode wrappedDek, Base64.encode dekNonce, entry.keyMeta.version, entry.keyMeta.version⟩ := by
  have hmeta : runOn crypto env.toUseEnv (ask (.getKeyMetadata kekId) (kekError kekId)) ks =
      (.ok entry.keyMeta, ks) := by
    rw [runOn_getKeyMetadata, Software.SoftwareKeystore.getKeyMetadata_eq_ok_iff.2 ⟨entry, hentry, rfl⟩]
    rfl
  unfold rewrapDek
  rw [runOn_bind_ok hmeta, rewrapWith, if_neg (not_not.2 hspec), if_pos rfl]
  rfl

/-- Any other version is read, and the data key moved from it to the current one. -/
theorem rewrapDek_of_other {entry : Software.KeyEntry} (hentry : ks.keys[kekId]? = some entry)
    (howned : entry.keyMeta.tenantId = tenantId) (hspec : entry.keyMeta.spec = .aes256Gcm) {oldKekVersion : UInt32}
    (hother : oldKekVersion ≠ entry.keyMeta.version) (wrappedDek dekNonce : Bytes) :
    (runOn crypto env.toUseEnv (rewrapDek crypto env kekId wrappedDek dekNonce oldKekVersion tenantId) ks).1 =
      match answer (kekError kekId) (ks.getKeyMaterialVersion kekId oldKekVersion tenantId) with
      | .error e => .error e
      | .ok oldKek => rewrapUnder crypto env entry.keyMeta oldKek entry.material wrappedDek dekNonce oldKekVersion := by
  have hmeta : runOn crypto env.toUseEnv (ask (.getKeyMetadata kekId) (kekError kekId)) ks =
      (.ok entry.keyMeta, ks) := by
    rw [runOn_getKeyMetadata, Software.SoftwareKeystore.getKeyMetadata_eq_ok_iff.2 ⟨entry, hentry, rfl⟩]
    rfl
  have hnew : runOn crypto env.toUseEnv (ask (.getKeyMaterial kekId tenantId) (kekError kekId)) ks =
      (.ok entry.material, ks) := by
    rw [runOn_getKeyMaterial, Software.SoftwareKeystore.getKeyMaterial_eq_ok_iff.2 ⟨entry, hentry, howned, rfl⟩]
    rfl
  have hold := runOn_getKeyMaterialVersion crypto env.toUseEnv ks kekId oldKekVersion tenantId (kekError kekId)
  unfold rewrapDek
  rw [runOn_bind_ok hmeta, rewrapWith, if_neg (not_not.2 hspec), if_neg hother]
  cases hread : answer (kekError kekId) (ks.getKeyMaterialVersion kekId oldKekVersion tenantId) with
  | error e =>
    rw [hread] at hold
    rw [runOn_bind_error hold]
  | ok oldKek =>
    rw [hread] at hold
    rw [runOn_bind_ok hold, runOn_bind_ok hnew]
    rfl

/-- Decryption opens the envelope with the material of the version. -/
theorem decryptWithKekVersion_eq_ok_iff {ciphertext wrappedDek dekNonce dataNonce tag plaintext : Bytes}
    {kekVersion : UInt32} : (runOn crypto env.toUseEnv
      (decryptWithKekVersion crypto kekId ciphertext wrappedDek dekNonce dataNonce tag tenantId kekVersion) ks).1 =
        .ok plaintext ↔
    ∃ entry kek, ks.keys[kekId]? = some entry ∧ entry.keyMeta.tenantId = tenantId ∧
      entry.requested kekVersion = some kek ∧
      openEnvelope crypto kek ciphertext wrappedDek dekNonce dataNonce tag = .ok plaintext := by
  constructor
  · intro h
    obtain ⟨kek, _, hkek, hopened⟩ := runOn_bind_eq_ok h
    obtain ⟨rfl, entry, hentry, howned, hrequested⟩ := runOn_getKeyMaterialVersion_eq_ok hkek
    exact ⟨entry, kek, hentry, howned, hrequested, hopened⟩
  · rintro ⟨entry, kek, hentry, howned, hrequested, hopened⟩
    have hkek : runOn crypto env.toUseEnv (ask (.getKeyMaterialVersion kekId kekVersion tenantId) (kekError kekId)) ks =
        (.ok kek, ks) := by
      rw [runOn_getKeyMaterialVersion,
        Software.SoftwareKeystore.getKeyMaterialVersion_eq_ok_iff.2 ⟨entry, hentry, howned, hrequested⟩]
      rfl
    exact (congrArg Prod.fst (runOn_bind_ok hkek)).trans hopened

end

end EnvelopeService

end GmKms.Api
