import GmKms.Api.WrappedDek
/-!
# Envelopes that panic

The nonces of an envelope come from the client, and are copied into arrays of twelve
bytes. When opening an envelope comes back at all.
-/

namespace GmKms.Api

open Lib Keystore Service

section

variable {α β : Type}

/-- A method comes back if its first part does, and its second part on the keystore that the first one leaves. -/
theorem returns_runOn_bind_iff {crypto : Crypto} {env : Software.UseEnv} {ks : Software.SoftwareKeystore}
    {p : Service α} {f : α → Service β} :
    Returns (runOn crypto env (p >>= f) ks).1 ↔ Returns (runOn crypto env p ks).1 ∧
      ∀ a ks', runOn crypto env p ks = (.ok a, ks') → Returns (runOn crypto env (f a) ks').1 := by
  rcases hp : runOn crypto env p ks with ⟨e | a, ks'⟩
  · rw [runOn_bind_error hp]
    constructor
    · intro h
      refine ⟨?_, ?_⟩
      · cases e with
        | error e => trivial
        | panic message => exact h
      · intro a ks' ha
        cases ha
    · rintro ⟨h, -⟩
      cases e with
      | error e => trivial
      | panic message => exact h
  · rw [runOn_bind_ok hp]
    constructor
    · intro h
      refine ⟨trivial, ?_⟩
      intro b ks'' hb
      cases hb
      exact h
    · rintro ⟨-, h⟩
      exact h a ks' rfl

theorem returns_answer {mapErr : Error → ApiError} {r : Except Abort α} (h : ∀ message, r ≠ .error (.panic message)) :
    Returns (answer mapErr r) := by
  cases r with
  | ok v => trivial
  | error e =>
    cases e with
    | error e => trivial
    | panic message => exact absurd rfl (h message)

end

/-! ## The keystore -/

section

variable {crypto : Crypto} {env : Software.UseEnv} {ks : Software.SoftwareKeystore} {keyId : Uuid} {tenantId : String}
  {mapErr : Error → ApiError}

theorem entryFor_ne_panic {missing : Error} {message : String} :
    ks.entryFor keyId tenantId missing ≠ .error (.panic message) := by
  unfold Software.SoftwareKeystore.entryFor Software.SoftwareKeystore.verifyTenant
  intro h
  cases hentry : ks.keys[keyId]? with
  | none => simp [hentry] at h
  | some entry => by_cases howned : entry.keyMeta.tenantId = tenantId <;> simp [hentry, howned] at h

theorem returns_getKeyMetadata : Returns (runOn crypto env (ask (.getKeyMetadata keyId) mapErr) ks).1 := by
  rw [runOn_getKeyMetadata]
  apply returns_answer
  intro message h
  unfold Software.SoftwareKeystore.getKeyMetadata at h
  split at h <;> cases h

theorem returns_getKeyMaterial : Returns (runOn crypto env (ask (.getKeyMaterial keyId tenantId) mapErr) ks).1 := by
  rw [runOn_getKeyMaterial]
  apply returns_answer
  intro message h
  unfold Software.SoftwareKeystore.getKeyMaterial at h
  cases hentry : ks.entryFor keyId tenantId (.keyNotFound keyId.text) with
  | ok entry => simp [hentry, bind, Except.bind] at h
  | error e =>
    simp only [hentry, bind, Except.bind, Except.error.injEq] at h
    rw [h] at hentry
    exact entryFor_ne_panic hentry

theorem returns_getKeyMaterialVersion {version : UInt32} :
    Returns (runOn crypto env (ask (.getKeyMaterialVersion keyId version tenantId) mapErr) ks).1 := by
  rw [runOn_getKeyMaterialVersion]
  apply returns_answer
  intro message h
  unfold Software.SoftwareKeystore.getKeyMaterialVersion at h
  cases hentry : ks.entryFor keyId tenantId (.keyVersionNotFound keyId.text) with
  | ok entry =>
    rw [hentry] at h
    simp only [bind, Except.bind] at h
    split at h
    · cases h
    · split at h <;> cases h
  | error e =>
    simp only [hentry, bind, Except.bind, Except.error.injEq] at h
    rw [h] at hentry
    exact entryFor_ne_panic hentry

end

namespace EnvelopeService

/-! ## Opening an envelope -/

section

variable {crypto : Crypto} {kek wrapped nonce dek : Bytes}

theorem returns_nonceArray_iff : Returns (nonceArray nonce) ↔ 12 ≤ nonce.length := by
  unfold nonceArray
  split
  · rename_i hshort
    exact ⟨fun h => h.elim, fun h => absurd hshort (Nat.not_lt.2 h)⟩
  · rename_i hlong
    exact ⟨fun _ => Nat.not_lt.1 hlong, fun _ => trivial⟩

/-- The length of the wrapped key and the KEK are looked at before the nonce is copied. -/
theorem returns_unwrapDek_iff (key mismatched : String) :
    Returns (unwrapDek crypto key mismatched kek wrapped nonce) ↔
      (48 ≤ wrapped.length → crypto.aesUnboundKey kek = .ok () → 12 ≤ nonce.length) := by
  unfold unwrapDek
  by_cases hlong : wrapped.length < 48
  · simp [hlong]
  · rw [if_neg hlong]
    cases hkey : crypto.aesUnboundKey kek with
    | error e => simp
    | ok _ =>
      have hcopied := @returns_nonceArray_iff nonce
      simp only [Nat.not_lt.1 hlong, true_implies]
      rw [← hcopied]
      cases nonceArray nonce with
      | error e => exact Iff.rfl
      | ok bytes => cases hopened : crypto.aesOpen kek bytes [] wrapped <;> simp [hopened]

/-- The nonce of the data is copied before anything else is done with the data key. -/
theorem returns_openData_iff {ciphertext dataNonce tag : Bytes} :
    Returns (openData crypto dek ciphertext dataNonce tag) ↔ 12 ≤ dataNonce.length := by
  unfold openData
  rw [returns_bind_iff, returns_nonceArray_iff, and_iff_left_iff_imp]
  intro _ bytes _
  cases crypto.aesUnboundKey dek with
  | error e => trivial
  | ok _ => cases crypto.aesOpen dek bytes [] (ciphertext ++ tag) <;> trivial

/-- Neither copy is of too short a nonce, where it is reached with this KEK. -/
def NoncesFit (crypto : Crypto) (kek wrappedDek dekNonce dataNonce : Bytes) : Prop :=
  48 ≤ wrappedDek.length → crypto.aesUnboundKey kek = .ok () →
    12 ≤ dekNonce.length ∧
      ∀ dek, crypto.aesOpen kek (dekNonce.take 12) [] wrappedDek = some dek → 12 ≤ dataNonce.length

theorem returns_openEnvelope_iff {ciphertext dataNonce tag : Bytes} :
    Returns (openEnvelope crypto kek ciphertext wrapped nonce dataNonce tag) ↔
      NoncesFit crypto kek wrapped nonce dataNonce := by
  unfold openEnvelope NoncesFit
  rw [returns_bind_iff, returns_unwrapDek_iff]
  constructor
  · rintro ⟨hwrapped, hdata⟩ hlong hkey
    have hnonce := hwrapped hlong hkey
    refine ⟨hnonce, ?_⟩
    intro dek hopened
    exact returns_openData_iff.1 (hdata dek ((unwrapDek_eq_ok_iff _ _).2 ⟨hlong, hkey, hnonce, hopened⟩))
  · intro h
    refine ⟨fun hlong hkey => (h hlong hkey).1, ?_⟩
    intro dek hdek
    obtain ⟨hlong, hkey, -, hopened⟩ := (unwrapDek_eq_ok_iff _ _).1 hdek
    exact returns_openData_iff.2 ((h hlong hkey).2 dek hopened)

theorem returns_fill {env : ServiceEnv} {n len : ℕ} {what : String} : Returns (fill env n len what) := by
  unfold fill
  split <;> trivial

theorem returns_wrapDek {key failure : String} : Returns (wrapDek crypto key failure kek nonce dek) := by
  unfold wrapDek
  cases crypto.aesUnboundKey kek with
  | error e => trivial
  | ok _ => cases crypto.aesSeal kek nonce [] dek <;> trivial

theorem returns_rewrapUnder_iff {env : ServiceEnv} {kekMeta : KeyMeta} {newKek : Bytes} {oldKekVersion : UInt32} :
    Returns (rewrapUnder crypto env kekMeta kek newKek wrapped nonce oldKekVersion) ↔
      (48 ≤ wrapped.length → crypto.aesUnboundKey kek = .ok () → 12 ≤ nonce.length) := by
  unfold rewrapUnder
  rw [returns_bind_iff, returns_unwrapDek_iff, and_iff_left_iff_imp]
  intro _ dek _
  rw [returns_bind_iff]
  refine ⟨returns_fill, ?_⟩
  intro newNonce _
  rw [returns_bind_iff]
  refine ⟨returns_wrapDek, ?_⟩
  intro rewrapped _
  trivial

end

section

variable {crypto : Crypto} {env : ServiceEnv} {ks : Software.SoftwareKeystore} {kekId : Uuid} {tenantId : String}
  {wrappedDek dekNonce : Bytes} {version : UInt32}

theorem returns_decryptWithKekVersion_iff {ciphertext dataNonce tag : Bytes} :
    Returns (runOn crypto env.toUseEnv
      (decryptWithKekVersion crypto kekId ciphertext wrappedDek dekNonce dataNonce tag tenantId version) ks).1 ↔
    ∀ entry kek, ks.keys[kekId]? = some entry → entry.keyMeta.tenantId = tenantId →
      entry.requested version = some kek → NoncesFit crypto kek wrappedDek dekNonce dataNonce := by
  unfold decryptWithKekVersion
  rw [returns_runOn_bind_iff, and_iff_right returns_getKeyMaterialVersion]
  constructor
  · intro h entry kek hentry howned hrequested
    have hread : runOn crypto env.toUseEnv (ask (.getKeyMaterialVersion kekId version tenantId) (kekError kekId)) ks =
        (.ok kek, ks) := by
      rw [runOn_getKeyMaterialVersion,
        Software.SoftwareKeystore.getKeyMaterialVersion_eq_ok_iff.2 ⟨entry, hentry, howned, hrequested⟩]
      rfl
    exact returns_openEnvelope_iff.1 (h kek ks hread)
  · intro h kek ks' hread
    obtain ⟨rfl, entry, hentry, howned, hrequested⟩ := runOn_getKeyMaterialVersion_eq_ok hread
    exact returns_openEnvelope_iff.2 (h entry kek hentry howned hrequested)

/-- Only an envelope under another version is opened, and only where both materials were read. -/
theorem returns_rewrapDek_iff :
    Returns (runOn crypto env.toUseEnv (rewrapDek crypto env kekId wrappedDek dekNonce version tenantId) ks).1 ↔
    ∀ entry kek, ks.keys[kekId]? = some entry → entry.keyMeta.spec = .aes256Gcm → version ≠ entry.keyMeta.version →
      entry.keyMeta.tenantId = tenantId → entry.requested version = some kek → 48 ≤ wrappedDek.length →
      crypto.aesUnboundKey kek = .ok () → 12 ≤ dekNonce.length := by
  constructor
  · intro h entry kek hentry hspec hother howned hrequested
    have hread := Software.SoftwareKeystore.getKeyMaterialVersion_eq_ok_iff.2 ⟨entry, hentry, howned, hrequested⟩
    rw [rewrapDek_of_other hentry howned hspec hother, hread] at h
    exact returns_rewrapUnder_iff.1 h
  · intro h
    unfold rewrapDek
    rw [returns_runOn_bind_iff, and_iff_right returns_getKeyMetadata]
    intro kekMeta ks' hmeta
    obtain ⟨rfl, entry, hentry, rfl⟩ := runOn_getKeyMetadata_eq_ok hmeta
    unfold rewrapWith
    split
    · trivial
    · rename_i hspec
      split
      · trivial
      · rename_i hother
        rw [returns_runOn_bind_iff, and_iff_right returns_getKeyMaterialVersion]
        intro oldKek ks'' hold
        obtain ⟨rfl, entry', hentry', howned, hrequested⟩ := runOn_getKeyMaterialVersion_eq_ok hold
        rw [hentry, Option.some.injEq] at hentry'
        subst hentry'
        rw [returns_runOn_bind_iff, and_iff_right returns_getKeyMaterial]
        intro newKek ks₃ _
        exact returns_rewrapUnder_iff.2 (h entry oldKek hentry (not_not.1 hspec) hother howned hrequested)

/-- Both ways to open an envelope come back just where the nonces are long enough. -/
theorem opening_returns_iff {ciphertext dataNonce tag : Bytes} :
    Returns (runOn crypto env.toUseEnv
        (decryptWithKekVersion crypto kekId ciphertext wrappedDek dekNonce dataNonce tag tenantId version) ks).1 ∧
      Returns (runOn crypto env.toUseEnv (rewrapDek crypto env kekId wrappedDek dekNonce version tenantId) ks).1 ↔
    ∀ entry kek, ks.keys[kekId]? = some entry → entry.keyMeta.tenantId = tenantId →
      entry.requested version = some kek → NoncesFit crypto kek wrappedDek dekNonce dataNonce := by
  rw [returns_decryptWithKekVersion_iff, returns_rewrapDek_iff, and_iff_left_iff_imp]
  -- rewrapping needs no more than decryption does
  intro h entry kek hentry _ _ howned hrequested hlong hkey
  exact (h entry kek hentry howned hrequested hlong hkey).1

end

/-- A keystore with one KEK, in its first version. -/
def kekKeystore : Software.SoftwareKeystore :=
  (Software.SoftwareKeystore.perform .plain (sampleServiceEnv 7).toUseEnv (.generateKey .aes256Gcm "kek" "tenant-1")
    .new).2

/-- A nonce of eleven bytes is one too short. -/
theorem not_returns_shortNonce :
    ¬ Returns (runOn .plain (sampleServiceEnv 7).toUseEnv (decryptWithKekVersion .plain 1 [] (List.replicate 48 0)
      (List.replicate 11 0) (List.replicate 12 0) (List.replicate 16 0) "tenant-1" 0) kekKeystore).1 := by
  intro h
  have hentry : kekKeystore.keys[(1 : Uuid)]? = some ⟨Software.SoftwareKeystore.newMeta (sampleServiceEnv 7).toEnv
      .aes256Gcm "kek" "tenant-1" none, List.replicate 32 7, []⟩ := rfl
  have hfit := returns_decryptWithKekVersion_iff.1 h _ (List.replicate 32 7) hentry rfl rfl
  exact absurd (hfit (by decide) rfl).1 (by decide)

end EnvelopeService

end GmKms.Api
