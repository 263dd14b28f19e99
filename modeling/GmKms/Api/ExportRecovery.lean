import GmKms.Api.KeyService
import GmKms.Keystore.SoftwareSteps
import GmKms.Lib.Deduction
/-!
# What the recipient of an export can recover

The response of `export_key` as terms over the secrets of the run, for which the wrapping is
run on terms, and what the holder of the private key can deduce from them. The `Sm2` arm sends
the nonce along; the `RsaOaep` arm keeps it.
-/

namespace GmKms.Api.KeyService

open Lib Keystore Service

/-! ## A successful export -/

/-- The material that a request for a version exports. -/
def exported (entry : Software.KeyEntry) (version : Option UInt32) : Option Bytes :=
  match version.filter (· ≠ 0) with
  | some v => entry.materialAt v
  | none => some entry.material

section

variable {crypto : ServiceCrypto} {env : ServiceEnv} {ks : Software.SoftwareKeystore} {keyId : Uuid}
  {targetPublicKey : Bytes} {tenantId : String} {opts : ExportOptions} {response : ExportedKey}

theorem selectMaterial_eq_ok {entry : Software.KeyEntry} (hentry : ks.keys[keyId]? = some entry)
    {version : Option UInt32} {ks' : Software.SoftwareKeystore}
    {material : Bytes} (h : runOn crypto.toCrypto env.toUseEnv
      (selectMaterial keyId tenantId version entry.keyMeta entry.material) ks = (.ok material, ks')) :
    ks' = ks ∧ exported entry version = some material := by
  unfold selectMaterial at h
  unfold exported
  cases hversion : version.filter (· ≠ 0) with
  | none =>
    rw [hversion] at h
    cases h
    exact ⟨rfl, rfl⟩
  | some v =>
    have hne : v ≠ 0 := by simpa using (Option.filter_eq_some_iff.1 hversion).2
    simp only [hversion] at h ⊢
    split at h
    · obtain ⟨rfl, entry', hentry', -, hmaterial⟩ := runOn_getKeyMaterialVersion_eq_ok h
      rw [hentry, Option.some.injEq] at hentry'
      subst hentry'
      exact ⟨rfl, by rwa [Software.KeyEntry.requested_of_ne_zero hne] at hmaterial⟩
    · rename_i hcurrent
      cases h
      rw [not_not.1 hcurrent]
      exact ⟨rfl, entry.materialAt_current⟩

/-- An export that succeeds is of an active key of the tenant, and wraps the requested material. -/
theorem exportKey_eq_ok (h : (runOn crypto.toCrypto env.toUseEnv
    (exportKey crypto env keyId targetPublicKey tenantId opts) ks).1 = .ok response) :
    ∃ entry material, ks.keys[keyId]? = some entry ∧ entry.keyMeta.tenantId = tenantId ∧
      entry.keyMeta.status = .active ∧ exported entry opts.version = some material ∧
      wrapMaterial crypto env keyId tenantId opts.protection targetPublicKey material = .ok response := by
  unfold exportKey exportOwned at h
  obtain ⟨keyMeta, _, hmeta, hrest⟩ := runOn_bind_eq_ok h
  obtain ⟨rfl, entry, hentry, howned, rfl⟩ := CryptoService.runOn_fetchOwnedKeyMeta_eq_ok hmeta
  obtain ⟨_, _, hchecked, hrest⟩ := runOn_bind_eq_ok hrest
  rw [runOn_lift, Prod.mk.injEq] at hchecked
  obtain ⟨-, rfl⟩ := hchecked
  obtain ⟨currentMaterial, _, hcurrent, hselect⟩ := runOn_bind_eq_ok hrest
  obtain ⟨rfl, entry', hentry', -, hactive, rfl⟩ := runOn_exportKeyMaterial_eq_ok hcurrent
  rw [hentry, Option.some.injEq] at hentry'
  subst hentry'
  obtain ⟨material, _, hselected, hwrapped⟩ := runOn_bind_eq_ok hselect
  obtain ⟨-, hexported⟩ := selectMaterial_eq_ok hentry hselected
  exact ⟨entry, material, hentry, howned, hactive, hexported, hwrapped⟩

end

/-! ## The response as terms -/

/-- What is secret in an export. -/
inductive Secret where
  | recipient | material | transportKey | nonce
  deriving DecidableEq

abbrev ExportTerm := Term Bytes Secret

/-- The wrapping on terms: the draws are secrets, and all checks pass. -/
def WrapPrimitives.ofTerms : WrapPrimitives ExportTerm where
  fill n _ _ := .ok (.name (match n with
    | 0 => .transportKey
    | _ => .nonce))
  append := .append
  sha256 := .hash
  aesUnboundKey _ := .ok ()
  aesSeal key nonce aad plaintext := .ok (.ciphertext key nonce aad plaintext, .tag key nonce aad plaintext)
  rsaPublicKey := true
  rsaEncrypt plaintext := .ok (.encrypted .recipient plaintext)
  sm4Cipher _ := .ok ()
  sm4Encrypt key nonce aad plaintext := .ok (.ciphertext key nonce aad plaintext, .tag key nonce aad plaintext)
  sm2PublicKey := true
  sm2EncryptTo plaintext := .ok (.encrypted .recipient plaintext)

/-- The fields of the response as terms. -/
def symbolicExport (protection : ExportProtection) (exportAad : Bytes) : Except ApiAbort (WrapFields ExportTerm) :=
  wrapFields .ofTerms protection (.data exportAad) (.name .material)

/-- Ciphertext and tag of the material. -/
def sealedMaterial (exportAad : Bytes) : ExportTerm × ExportTerm :=
  (.ciphertext (.name .transportKey) (.name .nonce) (.data exportAad) (.name .material),
    .tag (.name .transportKey) (.name .nonce) (.data exportAad) (.name .material))

theorem symbolicExport_rsaOaep (exportAad : Bytes) : symbolicExport .rsaOaep exportAad =
    .ok ⟨.append (sealedMaterial exportAad).1 (sealedMaterial exportAad).2, .encrypted .recipient (.name .transportKey),
      .hash (.name .material)⟩ := rfl

theorem symbolicExport_sm2 (exportAad : Bytes) : symbolicExport .sm2 exportAad =
    .ok ⟨.append (.append (.name .nonce) (sealedMaterial exportAad).1) (sealedMaterial exportAad).2,
      .encrypted .recipient (.name .transportKey), .hash (.name .material)⟩ := rfl

/-- What the recipient knows: its private key and the response. What can be computed from the
key id and the tenant is public. -/
def knowledge (terms : WrapFields ExportTerm) : Set ExportTerm :=
  {.name .recipient, terms.wrappedKey, terms.encryptedTransportKey, terms.keyFingerprint}

/-- The secrets of a run of `export_key` and its primitives. -/
def exportAlgebra (crypto : ServiceCrypto) (env : ServiceEnv) (protection : ExportProtection)
    (privateKey targetPublicKey material : Bytes) : Term.Algebra Bytes Secret Bytes where
  data := id
  name
    | .recipient => privateKey
    | .material => material
    | .transportKey => (fill env 0 (if protection = .sm2 then 16 else 32) "transport key").toOption.getD []
    | .nonce => (fill env 1 12 "nonce").toOption.getD []
  pub _ := targetPublicKey
  append := (· ++ ·)
  hash := crypto.sha256
  seals key nonce aad plaintext ciphertext tag := match protection with
    | .rsaOaep => crypto.aesSeal key nonce aad plaintext = .ok (ciphertext, tag)
    | .sm2 => crypto.sm4Encrypt key nonce aad plaintext = .ok (ciphertext, tag)
  encrypts publicKey plaintext encrypted := match protection with
    | .rsaOaep => crypto.rsaEncrypt env.seed publicKey plaintext = .ok encrypted
    | .sm2 => crypto.sm2EncryptTo env.seed publicKey plaintext = .ok encrypted

/-- The terms have the values of the response's fields in the run. -/
structure WrapFields.Describes (terms : WrapFields ExportTerm) (A : Term.Algebra Bytes Secret Bytes)
    (response : ExportedKey) : Prop where
  wrappedKey : ∃ bytes, terms.wrappedKey.Denotes A bytes ∧ response.wrappedKey = Base64.encode bytes
  encryptedTransportKey : ∃ bytes, terms.encryptedTransportKey.Denotes A bytes ∧
    response.encryptedTransportKey = Base64.encode bytes
  keyFingerprint : ∃ bytes, terms.keyFingerprint.Denotes A bytes ∧ response.keyFingerprint = hexEncode bytes

/-- From the response and its private key the recipient can deduce the material. -/
def Recoverable (terms : WrapFields ExportTerm) : Prop := Term.Derives (knowledge terms) (.name .material)

/-! ## The terms describe the response -/

section

variable {β : Type} {P : WrapPrimitives β} {exportAad material wrappedKey encryptedTransportKey : β}

theorem wrapRsa_eq_ok (h : wrapRsa P exportAad material = .ok (wrappedKey, encryptedTransportKey)) :
    ∃ transportKey nonce ciphertext tag, P.fill 0 32 "transport key" = .ok transportKey ∧
      P.fill 1 12 "nonce" = .ok nonce ∧ P.aesSeal transportKey nonce exportAad material = .ok (ciphertext, tag) ∧
      P.rsaEncrypt transportKey = .ok encryptedTransportKey ∧ wrappedKey = P.append ciphertext tag := by
  unfold wrapRsa at h
  cases htransport : P.fill 0 32 "transport key" with
  | error e => simp [htransport, bind, Except.bind] at h
  | ok transportKey =>
    simp only [htransport, bind, Except.bind] at h
    split at h
    · cases h
    · cases hnonce : P.fill 1 12 "nonce" with
      | error e => simp [hnonce] at h
      | ok nonce =>
        simp only [hnonce] at h
        split at h
        · cases h
        · rename_i ciphertext tag hseal
          split at h
          · cases h
          · split at h
            · cases h
            · rename_i etk hetk
              cases h
              exact ⟨transportKey, nonce, ciphertext, tag, rfl, rfl, hseal, hetk, rfl⟩

theorem wrapSm2_eq_ok (h : wrapSm2 P exportAad material = .ok (wrappedKey, encryptedTransportKey)) :
    ∃ transportKey nonce ciphertext tag, P.fill 0 16 "transport key" = .ok transportKey ∧
      P.fill 1 12 "nonce" = .ok nonce ∧ P.sm4Encrypt transportKey nonce exportAad material = .ok (ciphertext, tag) ∧
      P.sm2EncryptTo transportKey = .ok encryptedTransportKey ∧
      wrappedKey = P.append (P.append nonce ciphertext) tag := by
  unfold wrapSm2 at h
  cases htransport : P.fill 0 16 "transport key" with
  | error e => simp [htransport, bind, Except.bind] at h
  | ok transportKey =>
    cases hnonce : P.fill 1 12 "nonce" with
    | error e => simp [htransport, hnonce, bind, Except.bind] at h
    | ok nonce =>
      simp only [htransport, hnonce, bind, Except.bind] at h
      split at h
      · cases h
      · split at h
        · cases h
        · rename_i ciphertext tag hseal
          split at h
          · cases h
          · split at h
            · cases h
            · rename_i etk hetk
              cases h
              exact ⟨transportKey, nonce, ciphertext, tag, rfl, rfl, hseal, hetk, rfl⟩

theorem wrapFields_eq_ok {protection : ExportProtection} {fields : WrapFields β}
    (h : wrapFields P protection exportAad material = .ok fields) :
    (match protection with
      | .rsaOaep => wrapRsa P exportAad material
      | .sm2 => wrapSm2 P exportAad material) = .ok (fields.wrappedKey, fields.encryptedTransportKey) ∧
      fields.keyFingerprint = P.sha256 material := by
  unfold wrapFields at h
  cases protection with
  | rsaOaep =>
    cases hwrapped : wrapRsa P exportAad material with
    | error e => simp [hwrapped, bind, Except.bind] at h
    | ok w =>
      simp only [hwrapped, bind, Except.bind, pure, Except.pure] at h
      cases h
      exact ⟨rfl, rfl⟩
  | sm2 =>
    cases hwrapped : wrapSm2 P exportAad material with
    | error e => simp [hwrapped, bind, Except.bind] at h
    | ok w =>
      simp only [hwrapped, bind, Except.bind, pure, Except.pure] at h
      cases h
      exact ⟨rfl, rfl⟩

end

section

variable {crypto : ServiceCrypto} {env : ServiceEnv} {targetPublicKey material : Bytes}

theorem wrapMaterial_eq_ok {keyId : Uuid} {tenantId : String} {protection : ExportProtection} {response : ExportedKey}
    (h : wrapMaterial crypto env keyId tenantId protection targetPublicKey material = .ok response) :
    ∃ fields, wrapFields (.ofBytes crypto env targetPublicKey) protection (exportWrapAad crypto.toCrypto keyId tenantId)
        material = .ok fields ∧
      response = ⟨Base64.encode fields.wrappedKey, Base64.encode fields.encryptedTransportKey,
        hexEncode fields.keyFingerprint⟩ := by
  unfold wrapMaterial at h
  dsimp only at h
  cases hfields : wrapFields (.ofBytes crypto env targetPublicKey) protection
      (exportWrapAad crypto.toCrypto keyId tenantId) material with
  | error e => simp [hfields, bind, Except.bind] at h
  | ok fields =>
    simp only [hfields, bind, Except.bind, pure, Except.pure] at h
    cases h
    exact ⟨fields, rfl, rfl⟩

/-- What a run draws, seals and encrypts are the values of the terms for it. -/
theorem denotes_wrapped {A : Term.Algebra Bytes Secret Bytes}
    {exportAad transportKey nonce ciphertext tag encryptedTransportKey : Bytes}
    (htransport : A.name .transportKey = transportKey) (hnonce : A.name .nonce = nonce)
    (hseal : A.seals transportKey nonce (A.data exportAad) (A.name .material) ciphertext tag)
    (hencrypts : A.encrypts (A.pub .recipient) transportKey encryptedTransportKey) :
    (sealedMaterial exportAad).1.Denotes A ciphertext ∧ (sealedMaterial exportAad).2.Denotes A tag ∧
      (Term.encrypted .recipient (.name .transportKey) : ExportTerm).Denotes A encryptedTransportKey ∧
      (Term.name .nonce : ExportTerm).Denotes A nonce := by
  subst htransport hnonce
  exact ⟨.ciphertext (.name _) (.name _) (.data _) (.name _) hseal, .tag (.name _) (.name _) (.data _) (.name _) hseal,
    .encrypted (.name _) hencrypts, .name _⟩

section

variable (protection : ExportProtection) (privateKey : Bytes)

theorem name_transportKey_of_fill {transportKey : Bytes}
    (h : fill env 0 (if protection = .sm2 then 16 else 32) "transport key" = .ok transportKey) :
    (exportAlgebra crypto env protection privateKey targetPublicKey material).name .transportKey = transportKey := by
  simp [exportAlgebra, h, Except.toOption]

theorem name_nonce_of_fill {nonce : Bytes} (h : fill env 1 12 "nonce" = .ok nonce) :
    (exportAlgebra crypto env protection privateKey targetPublicKey material).name .nonce = nonce := by
  simp [exportAlgebra, h, Except.toOption]

end

/-- Whatever the run draws, the fields of its response are values of the terms. -/
theorem describes_of_wrapMaterial {keyId : Uuid} {tenantId : String} {protection : ExportProtection}
    {response : ExportedKey} (privateKey : Bytes)
    (h : wrapMaterial crypto env keyId tenantId protection targetPublicKey material = .ok response) :
    ∃ terms, symbolicExport protection (exportWrapAad crypto.toCrypto keyId tenantId) = .ok terms ∧
      terms.Describes (exportAlgebra crypto env protection privateKey targetPublicKey material) response := by
  obtain ⟨⟨wrappedKey, encryptedTransportKey, keyFingerprint⟩, hfields, rfl⟩ := wrapMaterial_eq_ok h
  obtain ⟨hwrapped, hfingerprint⟩ := wrapFields_eq_ok hfields
  obtain rfl : keyFingerprint = crypto.sha256 material := hfingerprint
  have hhash : (Term.hash (.name .material) : ExportTerm).Denotes
      (exportAlgebra crypto env protection privateKey targetPublicKey material) (crypto.sha256 material) :=
    .hash (.name _)
  cases protection with
  | rsaOaep =>
    obtain ⟨transportKey, nonce, ciphertext, tag, htransport, hnonce, hseal, hencrypts, rfl⟩ := wrapRsa_eq_ok hwrapped
    obtain ⟨hciphertext, htag, hencrypted, -⟩ :=
      denotes_wrapped (name_transportKey_of_fill .rsaOaep privateKey htransport)
        (name_nonce_of_fill .rsaOaep privateKey hnonce) hseal hencrypts
    exact ⟨_, symbolicExport_rsaOaep _, ⟨_, .append hciphertext htag, rfl⟩, ⟨_, hencrypted, rfl⟩, ⟨_, hhash, rfl⟩⟩
  | sm2 =>
    obtain ⟨transportKey, nonce, ciphertext, tag, htransport, hnonce, hseal, hencrypts, rfl⟩ := wrapSm2_eq_ok hwrapped
    obtain ⟨hciphertext, htag, hencrypted, hsent⟩ :=
      denotes_wrapped (name_transportKey_of_fill .sm2 privateKey htransport)
        (name_nonce_of_fill .sm2 privateKey hnonce) hseal hencrypts
    exact ⟨_, symbolicExport_sm2 _, ⟨_, .append (.append hsent hciphertext) htag, rfl⟩, ⟨_, hencrypted, rfl⟩,
      ⟨_, hhash, rfl⟩⟩

end

/-! ## What follows from the response -/

/-- With the nonce in the response the recipient opens the material. -/
theorem recoverable_sm2 {exportAad : Bytes} {terms : WrapFields ExportTerm}
    (h : symbolicExport .sm2 exportAad = .ok terms) : Recoverable terms := by
  have hprivate : Term.Derives (knowledge terms) (.name .recipient) := .known (.inl rfl)
  have hwrapped : Term.Derives (knowledge terms) terms.wrappedKey := .known (.inr (.inl rfl))
  have hencrypted : Term.Derives (knowledge terms) terms.encryptedTransportKey := .known (.inr (.inr (.inl rfl)))
  rw [symbolicExport_sm2] at h
  obtain rfl := Except.ok.inj h
  exact .opened hwrapped.left.right hwrapped.right (.decrypted hencrypted hprivate) hwrapped.left.left (.data _)

/-- Without the nonce it has the transport key and cannot use it. -/
theorem not_recoverable_rsaOaep {exportAad : Bytes} {terms : WrapFields ExportTerm}
    (h : symbolicExport .rsaOaep exportAad = .ok terms) : ¬ Recoverable terms := by
  have hguards : ∀ t ∈ knowledge terms, t.Guards {Secret.material, Secret.nonce} := by
    rw [symbolicExport_rsaOaep] at h
    obtain rfl := Except.ok.inj h
    rintro t (rfl | rfl | rfl | rfl)
    · simp [Term.Guards]
    · simp [sealedMaterial, Term.Guards]
    · simp [Term.Guards]
    · trivial
  exact Term.not_derives_name hguards (Set.mem_insert _ _)

/-- How the recipient unwraps an export under the `Sm2` protection. -/
def openSm2Export (crypto : Crypto) (keyId : Uuid) (tenantId : String) (privateKey : Bytes) (response : ExportedKey) :
    Option Bytes := do
  let encryptedTransportKey ← Base64.decode response.encryptedTransportKey
  let wrappedKey ← Base64.decode response.wrappedKey
  let transportKey ← crypto.sm2Decrypt privateKey encryptedTransportKey
  let sealed := wrappedKey.drop 12
  crypto.sm4Decrypt transportKey (wrappedKey.take 12) (exportWrapAad crypto keyId tenantId)
    (sealed.take (sealed.length - 16)) (sealed.drop (sealed.length - 16))

/-- The deduction of `recoverable_sm2` as a computation on the response's bytes. -/
theorem openSm2Export_of_wrapMaterial {crypto : ServiceCrypto} {env : ServiceEnv} {keyId : Uuid} {tenantId : String}
    {privateKey targetPublicKey material : Bytes} {response : ExportedKey} (hcrypto : crypto.toCrypto.Decrypts)
    (htag : ∀ {key nonce aad plaintext ciphertext tag : Bytes},
      crypto.sm4Encrypt key nonce aad plaintext = .ok (ciphertext, tag) → tag.length = 16)
    (hpair : ∀ {seed : ℕ} {plaintext encrypted : Bytes},
      crypto.sm2EncryptTo seed targetPublicKey plaintext = .ok encrypted →
        crypto.sm2Decrypt privateKey encrypted = some plaintext)
    (h : wrapMaterial crypto env keyId tenantId .sm2 targetPublicKey material = .ok response) :
    openSm2Export crypto.toCrypto keyId tenantId privateKey response = some material := by
  obtain ⟨⟨wrappedKey, encryptedTransportKey, fingerprint⟩, hfields, rfl⟩ := wrapMaterial_eq_ok h
  obtain ⟨transportKey, nonce, ciphertext, tag, -, hnonce, hseal, hetk, happend⟩ :=
    wrapSm2_eq_ok (wrapFields_eq_ok hfields).1
  obtain rfl : wrappedKey = nonce ++ ciphertext ++ tag := happend
  have hnonceLength := length_of_fill hnonce
  have htagLength := htag hseal
  have htake : (nonce ++ ciphertext ++ tag).take 12 = nonce := by
    rw [List.append_assoc, ← hnonceLength, List.take_left']
    rfl
  have hdrop : (nonce ++ ciphertext ++ tag).drop 12 = ciphertext ++ tag := by
    rw [List.append_assoc, ← hnonceLength, List.drop_left']
    rfl
  have hlength : (ciphertext ++ tag).length - 16 = ciphertext.length := by
    rw [List.length_append, htagLength, Nat.add_sub_cancel]
  unfold openSm2Export
  simp only [Base64.decode_encode, Option.bind_eq_bind, Option.bind_some, hpair hetk, htake, hdrop, hlength,
    List.take_left', List.drop_left', hcrypto.sm4 hseal]

/-- The response has the values of the terms that the wrapping computes, from which the recipient can recover what was
exported exactly under the `Sm2` protection. -/
theorem recoverable_iff_sm2 {crypto : ServiceCrypto} {env : ServiceEnv} {ks : Software.SoftwareKeystore} {keyId : Uuid}
    {targetPublicKey : Bytes} {tenantId : String} {opts : ExportOptions} {response : ExportedKey} (privateKey : Bytes)
    (h : (runOn crypto.toCrypto env.toUseEnv (exportKey crypto env keyId targetPublicKey tenantId opts) ks).1 =
      .ok response) :
    ∃ entry material terms, ks.keys[keyId]? = some entry ∧ exported entry opts.version = some material ∧
      symbolicExport opts.protection (exportWrapAad crypto.toCrypto keyId tenantId) = .ok terms ∧
      terms.Describes (exportAlgebra crypto env opts.protection privateKey targetPublicKey material) response ∧
      (Recoverable terms ↔ opts.protection = .sm2) := by
  obtain ⟨entry, material, hentry, -, -, hexported, hwrapped⟩ := exportKey_eq_ok h
  obtain ⟨terms, hterms, hdescribes⟩ := describes_of_wrapMaterial privateKey hwrapped
  refine ⟨entry, material, terms, hentry, hexported, hterms, hdescribes, ?_⟩
  cases hprotection : opts.protection with
  | rsaOaep =>
    rw [hprotection] at hterms
    refine ⟨fun hrecoverable => absurd hrecoverable (not_recoverable_rsaOaep hterms), ?_⟩
    rintro ⟨⟩
  | sm2 =>
    rw [hprotection] at hterms
    exact ⟨fun _ => rfl, fun _ => recoverable_sm2 hterms⟩

/-- A keystore with one key, made of sevens. -/
def sampleKeystore : Software.SoftwareKeystore :=
  (Software.SoftwareKeystore.perform .plain (sampleServiceEnv 7).toUseEnv (.generateKey .aes256Gcm "kek" "tenant-1")
    .new).2

/-- Its export to a recipient. -/
def sampleExport (protection : ExportProtection) (targetPublicKey : Bytes) : Except ApiAbort ExportedKey :=
  (runOn Crypto.plain (sampleServiceEnv 7).toUseEnv
    (exportKey .plain (sampleServiceEnv 7) 1 targetPublicKey "tenant-1" ⟨protection, none⟩) sampleKeystore).1

def rsaTarget : Bytes := List.replicate 256 1

def sm2Target : Bytes := 4 :: List.replicate 64 1

theorem recoverable_iff_sampleExport : ∃ response, sampleExport .sm2 sm2Target = .ok response ∧
    ∃ entry material terms, sampleKeystore.keys[(1 : Uuid)]? = some entry ∧ exported entry none = some material ∧
      symbolicExport .sm2 (exportWrapAad Crypto.plain 1 "tenant-1") = .ok terms ∧
      terms.Describes (exportAlgebra .plain (sampleServiceEnv 7) .sm2 [] sm2Target material) response ∧
      (Recoverable terms ↔ ExportProtection.sm2 = .sm2) := by
  have hok : ∃ response, sampleExport .sm2 sm2Target = .ok response := ⟨_, rfl⟩
  obtain ⟨response, hresponse⟩ := hok
  exact ⟨response, hresponse, @recoverable_iff_sm2 .plain (sampleServiceEnv 7) sampleKeystore 1 sm2Target "tenant-1"
    ⟨.sm2, none⟩ response [] hresponse⟩

/-- The default export succeeds, and from the terms of its response nobody gets at the material. -/
theorem not_recoverable_sampleExport : ∃ response terms, sampleExport .rsaOaep rsaTarget = .ok response ∧
    symbolicExport .rsaOaep (exportWrapAad Crypto.plain 1 "tenant-1") = .ok terms ∧
    (∀ privateKey, terms.Describes (exportAlgebra .plain (sampleServiceEnv 7) .rsaOaep privateKey rsaTarget
      (List.replicate 32 7)) response) ∧ ¬ Recoverable terms := by
  have hok : (sampleExport .rsaOaep rsaTarget).toBool = true := by decide +kernel
  have hmaterial : (sampleKeystore.keys[(1 : Uuid)]?).map (·.material) = some (List.replicate 32 7) := by decide +kernel
  cases hresponse : sampleExport .rsaOaep rsaTarget with
  | error e => simp [hresponse, Except.toBool] at hok
  | ok response =>
    obtain ⟨entry, material, hentry, -, -, hexported, hwrapped⟩ := @exportKey_eq_ok .plain (sampleServiceEnv 7)
      sampleKeystore 1 rsaTarget "tenant-1" ⟨.rsaOaep, none⟩ response hresponse
    have hsevens : entry.material = List.replicate 32 7 := by
      simpa only [hentry, Option.map_some, Option.some.injEq] using hmaterial
    have hsame : exported entry none = some entry.material := rfl
    obtain rfl := Option.some.inj (hsame.symm.trans hexported)
    rw [hsevens] at hwrapped
    obtain ⟨terms, hterms, -⟩ := describes_of_wrapMaterial [] hwrapped
    refine ⟨response, terms, rfl, hterms, fun privateKey => ?_, not_recoverable_rsaOaep hterms⟩
    obtain ⟨terms', hterms', hdescribes⟩ := describes_of_wrapMaterial privateKey hwrapped
    obtain rfl := Except.ok.inj (hterms.symm.trans hterms')
    exact hdescribes

end GmKms.Api.KeyService
