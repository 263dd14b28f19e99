import GmKms.Api.Calls
import GmKms.Api.ExportRecovery
import GmKms.Api.WrappedDek
import GmKms.Keystore.Retention
/-!
# Version labels under concurrent rotation

The services read the version of a key and its material in two calls. With other calls
on the keystore in between, the version they report is the one of the material they
used where no rotation of the key comes between the two.
-/

namespace GmKms.Api

open Lib Keystore Service

/-- The keystore calls that a service has made, with their answers. -/
abbrev Made := List (Σ op : BackendOp, op.Reply)

/-- A method run among calls on the keystore that others make, each taken under `G`. -/
def Interleaved (crypto : ServiceCrypto) (env : ServiceEnv) {α : Type}
    (G : Made → Software.SoftwareKeystore → Software.UseCall → Prop) :
    Made → Software.SoftwareKeystore → Service α → Except ApiAbort α → Made → Software.SoftwareKeystore → Prop :=
  Program.Amid (Software.SoftwareKeystore.perform crypto.toCrypto env.toUseEnv)
    (fun ks u => (Software.SoftwareKeystore.perform crypto.toCrypto u.env u.op ks).2) G

/-- Calls that others make, one after the other. -/
def OtherCalls (crypto : ServiceCrypto) (G : Made → Software.SoftwareKeystore → Software.UseCall → Prop) (made : Made) :
    Software.SoftwareKeystore → Software.SoftwareKeystore → Prop :=
  Program.Others (fun ks u => (Software.SoftwareKeystore.perform crypto.toCrypto u.env u.op ks).2) G made

/-! ## What a label promises -/

/-- The version that the method reported or was asked for is the one of the material it used. -/
def RightlyLabelled (crypto : ServiceCrypto) (env : ServiceEnv) (id : Uuid) (tenantId : String)
    (ks : Software.SoftwareKeystore) : (op : KeyOperation) → op.Value → Prop
  | .envelopeEncrypt plaintext, response =>
    ∀ env' wrappedDek dekNonce ciphertext dataNonce tag, response.wrappedDek = Base64.encode wrappedDek →
      response.dekNonce = Base64.encode dekNonce → response.ciphertext = Base64.encode ciphertext →
      response.dataNonce = Base64.encode dataNonce → response.tag = Base64.encode tag →
      (KeyOperation.perform crypto env' id tenantId (.envelopeDecryptWithKekVersion ciphertext wrappedDek dekNonce
        dataNonce tag response.kekVersion) ks).1 = .ok plaintext
  -- data that the old wrapped key decrypts, the new one decrypts under the reported version
  | .rewrapDek oldWrapped oldNonce oldKekVersion, response =>
    ∀ env' wrappedDek dekNonce ciphertext dataNonce tag plaintext, response.wrappedDek = Base64.encode wrappedDek →
      response.dekNonce = Base64.encode dekNonce →
      (KeyOperation.perform crypto env' id tenantId (.envelopeDecryptWithKekVersion ciphertext oldWrapped oldNonce
        dataNonce tag (if oldKekVersion = 0 then response.kekVersion else oldKekVersion)) ks).1 = .ok plaintext →
      (KeyOperation.perform crypto env' id tenantId (.envelopeDecryptWithKekVersion ciphertext wrappedDek dekNonce
        dataNonce tag response.kekVersion) ks).1 = .ok plaintext
  | .hmac data aad, (mac, version) =>
    ∃ material, ks.getKeyMaterialVersion id version tenantId = .ok material ∧
      crypto.sm3Hmac material (CryptoService.buildMacInput aad data) = .ok mac
  | .exportKey targetPublicKey opts, response =>
    ∀ version, opts.version = some version → version ≠ 0 →
      ∃ material, ks.getKeyMaterialVersion id version tenantId = .ok material ∧
        KeyService.wrapMaterial crypto env id tenantId opts.protection targetPublicKey material = .ok response
  | _, _ => True

/-! ## What the other calls may do -/

/-- The call rotates the key: it passes the checks of the owner and the status. -/
structure Rotates (id : Uuid) (ks : Software.SoftwareKeystore) (u : Software.UseCall)
    (entry : Software.KeyEntry) : Prop where
  op : u.op = .rotateKey id entry.keyMeta.tenantId
  found : ks.keys[id]? = some entry
  status : entry.keyMeta.status.canRotate = true

/-- Another call gives a new key a fresh id, does not destroy the key, and finds new material for it
when it rotates it. -/
structure Tame (id : Uuid) (ks : Software.SoftwareKeystore) (u : Software.UseCall) : Prop where
  fresh : Software.FreshId ks u
  kept : u.op.destroys? ≠ some id
  generates : ∀ entry, Rotates id ks u entry → Software.SoftwareKeystore.CanGenerate entry.keyMeta.spec u.env.toEnv

/-- The call returns the current material of a key. -/
def readsCurrent : BackendOp → Bool
  | .getKeyMaterial .. | .exportKeyMaterial .. => true
  | _ => false

/-- The version in the metadata becomes a label of the current material. -/
def LabelsCurrent (keyMeta : KeyMeta) : KeyOperation → Prop
  | .exportKey _ opts => opts.version = some keyMeta.version
  | .rewrapDek _ _ oldKekVersion => oldKekVersion ≠ keyMeta.version
  | _ => True

/-- Another call rotates the key below the last version only, and not between the method's reading
of the version and of the material that it labels with it. -/
structure Settled (op : KeyOperation) (id : Uuid) (made : Made) (ks : Software.SoftwareKeystore)
    (u : Software.UseCall) :
    Prop where
  fits : ∀ entry, Rotates id ks u entry → entry.keyMeta.version.toNat + 1 < 2 ^ 32
  apart : ∀ keyMeta, ⟨.getKeyMetadata id, .ok keyMeta⟩ ∈ made → LabelsCurrent keyMeta op →
    (∀ c ∈ made, readsCurrent c.1 = false) → ∀ entry, ¬ Rotates id ks u entry

/-! ## The key over the calls of others -/

section

variable {crypto : ServiceCrypto} {env : ServiceEnv} {op : KeyOperation} {id : Uuid} {tenantId : String}
  {made made' : Made}
  {ks ks' : Software.SoftwareKeystore}

/-- A call taken under the two conditions. -/
abbrev Allowed (op : KeyOperation) (id : Uuid) (made : Made) (ks : Software.SoftwareKeystore)
    (u : Software.UseCall) : Prop :=
  Tame id ks u ∧ Settled op id made ks u

theorem perform_allowed {u : Software.UseCall} (hu : Allowed op id made ks u) {entry : Software.KeyEntry}
    (hentry : ks.keys[id]? = some entry) (hnumbered : entry.WellNumbered) :
    ∃ entry', (Software.SoftwareKeystore.perform crypto.toCrypto u.env u.op ks).2.keys[id]? = some entry' ∧
      entry.Retains entry' ∧ entry'.WellNumbered := by
  refine Software.SoftwareKeystore.perform_keepsEntry crypto.toCrypto hu.1.fresh hentry hnumbered hu.1.kept ?_
  intro hop hstatus
  have hrotates : Rotates id ks u entry := ⟨hop, hentry, hstatus⟩
  exact ⟨hu.1.generates entry hrotates, hu.2.fits entry hrotates⟩

def NumberedAt (id : Uuid) (ks : Software.SoftwareKeystore) : Prop :=
  ∀ entry, ks.keys[id]? = some entry → entry.WellNumbered

theorem perform_numberedAt {u : Software.UseCall} (hu : Allowed op id made ks u) (hks : NumberedAt id ks) :
    NumberedAt id (Software.SoftwareKeystore.perform crypto.toCrypto u.env u.op ks).2 := by
  intro entry' hentry'
  cases hentry : ks.keys[id]? with
  | some entry =>
    obtain ⟨e, he, -, hnumbered⟩ := perform_allowed hu hentry (hks entry hentry)
    rw [hentry', Option.some.injEq] at he
    rwa [he]
  | none =>
    exact Software.KeyEntry.wellNumbered_of_made (Software.SoftwareKeystore.perform_made crypto.toCrypto _ _ hentry
      hentry')

theorem others_numberedAt (h : OtherCalls crypto (Allowed op id) made ks ks') (hks : NumberedAt id ks) :
    NumberedAt id ks' := by
  induction h with
  | refl => exact hks
  | tail _ hstep ih =>
    obtain ⟨u, hu, rfl⟩ := hstep
    exact perform_numberedAt hu ih

/-- Later entries of the key find what earlier ones found. -/
theorem others_retains (h : OtherCalls crypto (Allowed op id) made ks ks') (hks : NumberedAt id ks)
    {entry : Software.KeyEntry} (hentry : ks.keys[id]? = some entry) :
    ∃ entry', ks'.keys[id]? = some entry' ∧ entry.Retains entry' := by
  induction h with
  | refl => exact ⟨entry, hentry, entry.retains_refl⟩
  | tail hprefix hstep ih =>
    obtain ⟨e, he, hretains⟩ := ih
    obtain ⟨u, hu, rfl⟩ := hstep
    obtain ⟨entry', hentry', hlater, -⟩ := perform_allowed hu he (others_numberedAt hprefix hks e he)
    exact ⟨entry', hentry', hretains.trans hlater⟩

/-- Between the reading of a label and of the material, the version and the material stay. -/
theorem others_same (h : OtherCalls crypto (Allowed op id) made ks ks') {keyMeta : KeyMeta}
    (hread : ⟨.getKeyMetadata id, .ok keyMeta⟩ ∈ made) (hlabels : LabelsCurrent keyMeta op)
    (hnone : ∀ c ∈ made, readsCurrent c.1 = false) {entry : Software.KeyEntry} (hentry : ks.keys[id]? = some entry) :
    ∃ entry', ks'.keys[id]? = some entry' ∧ entry'.keyMeta.version = entry.keyMeta.version ∧
      entry'.material = entry.material := by
  induction h with
  | refl => exact ⟨entry, hentry, rfl, rfl⟩
  | tail _ hstep ih =>
    obtain ⟨e, he, hversion, hmaterial⟩ := ih
    obtain ⟨u, hu, rfl⟩ := hstep
    have hnot : u.op = .rotateKey id e.keyMeta.tenantId → e.keyMeta.status.canRotate = false := by
      intro hop
      by_contra hstatus
      exact hu.2.apart keyMeta hread hlabels hnone e ⟨hop, he, by simpa using hstatus⟩
    obtain ⟨entry', hentry', hcase⟩ :=
      Software.SoftwareKeystore.perform_untouched crypto.toCrypto hu.1.fresh he hu.1.kept hnot
    rcases hcase with rfl | rfl
    · exact ⟨_, hentry', hversion, hmaterial⟩
    · exact ⟨_, hentry', hversion, hmaterial⟩

end

/-! ## The calls of a method, one by one -/

section

variable {crypto : ServiceCrypto} {env : ServiceEnv} {G : Made → Software.SoftwareKeystore → Software.UseCall → Prop}
  {id : Uuid} {tenantId : String} {made made' : Made} {ks ks' : Software.SoftwareKeystore} {mapErr : Error → ApiError}

theorem interleaved_ask {op : BackendOp} {v : op.Value}
    (h : Interleaved crypto env G made ks (ask op mapErr) (.ok v) made' ks') :
    ∃ ks₁, OtherCalls crypto G made ks ks₁ ∧
      (Software.SoftwareKeystore.perform crypto.toCrypto env.toUseEnv op ks₁).1 = .ok v ∧
      made' = made ++ [⟨op, .ok v⟩] ∧
      OtherCalls crypto G made' (Software.SoftwareKeystore.perform crypto.toCrypto env.toUseEnv op ks₁).2 ks' := by
  obtain ⟨ks₁, hbefore, hrest⟩ := Program.Amid.of_call h
  obtain ⟨hanswer, rfl, hafter⟩ := hrest.of_done
  have hok := answer_eq_ok_iff.1 hanswer.symm
  rw [hok] at hafter ⊢
  exact ⟨ks₁, hbefore, hok, rfl, hafter⟩

theorem interleaved_getKeyMetadata {keyMeta : KeyMeta}
    (h : Interleaved crypto env G made ks (ask (.getKeyMetadata id) mapErr) (.ok keyMeta) made' ks') :
    ∃ ks₁ entry, OtherCalls crypto G made ks ks₁ ∧ ks₁.keys[id]? = some entry ∧ entry.keyMeta = keyMeta ∧
      made' = made ++ [⟨.getKeyMetadata id, .ok keyMeta⟩] ∧ OtherCalls crypto G made' ks₁ ks' := by
  obtain ⟨ks₁, hbefore, hok, hmade, hafter⟩ := interleaved_ask h
  obtain ⟨entry, hentry, hmeta⟩ := Software.SoftwareKeystore.getKeyMetadata_eq_ok_iff.1 hok
  exact ⟨ks₁, entry, hbefore, hentry, hmeta, hmade, hafter⟩

theorem interleaved_getKeyMaterial {material : Bytes}
    (h : Interleaved crypto env G made ks (ask (.getKeyMaterial id tenantId) mapErr) (.ok material) made' ks') :
    ∃ ks₁ entry, OtherCalls crypto G made ks ks₁ ∧ ks₁.keys[id]? = some entry ∧ entry.keyMeta.tenantId = tenantId ∧
      entry.material = material ∧ made' = made ++ [⟨.getKeyMaterial id tenantId, .ok material⟩] ∧
      OtherCalls crypto G made' ks₁ ks' := by
  obtain ⟨ks₁, hbefore, hok, hmade, hafter⟩ := interleaved_ask h
  obtain ⟨entry, hentry, howned, hmaterial⟩ := Software.SoftwareKeystore.getKeyMaterial_eq_ok_iff.1 hok
  exact ⟨ks₁, entry, hbefore, hentry, howned, hmaterial, hmade, hafter⟩

theorem interleaved_exportKeyMaterial {material : Bytes}
    (h : Interleaved crypto env G made ks (ask (.exportKeyMaterial id tenantId) mapErr) (.ok material) made' ks') :
    ∃ ks₁ entry, OtherCalls crypto G made ks ks₁ ∧ ks₁.keys[id]? = some entry ∧ entry.keyMeta.tenantId = tenantId ∧
      entry.material = material ∧ made' = made ++ [⟨.exportKeyMaterial id tenantId, .ok material⟩] ∧
      OtherCalls crypto G made' ks₁ ks' := by
  obtain ⟨ks₁, hbefore, hok, hmade, hafter⟩ := interleaved_ask h
  obtain ⟨entry, hentry, howned, -, hmaterial⟩ := Software.SoftwareKeystore.exportKeyMaterial_eq_ok_iff.1 hok
  exact ⟨ks₁, entry, hbefore, hentry, howned, hmaterial, hmade, hafter⟩

theorem interleaved_getKeyMaterialVersion {version : UInt32} {material : Bytes}
    (h : Interleaved crypto env G made ks (ask (.getKeyMaterialVersion id version tenantId) mapErr) (.ok material)
      made' ks') :
    ∃ ks₁ entry, OtherCalls crypto G made ks ks₁ ∧ ks₁.keys[id]? = some entry ∧ entry.keyMeta.tenantId = tenantId ∧
      entry.requested version = some material ∧
      made' = made ++ [⟨.getKeyMaterialVersion id version tenantId, .ok material⟩] ∧
      OtherCalls crypto G made' ks₁ ks' := by
  obtain ⟨ks₁, hbefore, hok, hmade, hafter⟩ := interleaved_ask h
  obtain ⟨entry, hentry, howned, hrequested⟩ := Software.SoftwareKeystore.getKeyMaterialVersion_eq_ok_iff.1 hok
  exact ⟨ks₁, entry, hbefore, hentry, howned, hrequested, hmade, hafter⟩

theorem interleaved_fetchOwnedKeyMeta {keyMeta : KeyMeta}
    (h : Interleaved crypto env G made ks (CryptoService.fetchOwnedKeyMeta id tenantId) (.ok keyMeta) made' ks') :
    ∃ ks₁ entry, OtherCalls crypto G made ks ks₁ ∧ ks₁.keys[id]? = some entry ∧ entry.keyMeta = keyMeta ∧
      made' = made ++ [⟨.getKeyMetadata id, .ok keyMeta⟩] ∧ OtherCalls crypto G made' ks₁ ks' := by
  obtain ⟨read, made₁, ks₁, hread, hchecked⟩ := Program.Amid.of_bind h
  obtain ⟨ks₀, entry, hbefore, hentry, rfl, rfl, hbetween⟩ := interleaved_getKeyMetadata hread
  split at hchecked
  · cases (hchecked.of_done).1
  · obtain ⟨hsame, rfl, hafter⟩ := hchecked.of_done
    cases hsame
    exact ⟨ks₀, entry, hbefore, hentry, rfl, rfl, hbetween.trans hafter⟩

end

/-! ## Each method -/

section

variable {crypto : ServiceCrypto} {env : ServiceEnv} {op : KeyOperation} {id : Uuid} {tenantId : String}
  {made made' : Made}
  {ks ks' : Software.SoftwareKeystore}

theorem mem_metadata (id : Uuid) (r : Except Abort KeyMeta) :
    (⟨.getKeyMetadata id, r⟩ : Σ op : BackendOp, op.Reply) ∈ ([] ++ [⟨.getKeyMetadata id, r⟩] : Made) :=
  List.mem_singleton_self _

theorem metadata_only (id : Uuid) (r : Except Abort KeyMeta) :
    ∀ c ∈ ([] ++ [⟨.getKeyMetadata id, r⟩] : Made), readsCurrent c.1 = false := by
  intro c hc
  rw [List.mem_singleton.1 hc]
  rfl

/-- The material that was read stays under its version. -/
theorem requested_of_read (hks : NumberedAt id ks) {entry : Software.KeyEntry} (hentry : ks.keys[id]? = some entry)
    (hafter : OtherCalls crypto (Allowed op id) made ks ks') : ∃ entry', ks'.keys[id]? = some entry' ∧
      entry.Retains entry' ∧
      entry'.requested entry.keyMeta.version = some entry.material := by
  obtain ⟨entry', hentry', hretains⟩ := others_retains hafter hks hentry
  have hpositive : entry.keyMeta.version ≠ 0 := by
    intro hzero
    have := (hks entry hentry).1
    rw [hzero] at this
    exact absurd this (by decide)
  refine ⟨entry', hentry', hretains, ?_⟩
  rw [Software.KeyEntry.requested_of_ne_zero hpositive]
  exact hretains.materialAt _ _ entry.materialAt_current

theorem rightlyLabelled_envelopeEncrypt (hcrypto : InPlaceAead crypto.toCrypto) {plaintext : Bytes}
    {response : EnvelopeEncryptResponse} (hks : NumberedAt id ks)
    (h : Interleaved crypto env (Allowed (.envelopeEncrypt plaintext) id) [] ks
      (EnvelopeService.encrypt crypto.toCrypto env id plaintext tenantId) (.ok response) made' ks') :
    RightlyLabelled crypto env id tenantId ks' (.envelopeEncrypt plaintext) response := by
  obtain ⟨keyMeta, made₁, _, hmeta, hrest⟩ := Program.Amid.of_bind h
  obtain ⟨ks₁, entry₁, hbefore, hentry₁, rfl, rfl, hbetween₁⟩ := interleaved_getKeyMetadata hmeta
  unfold EnvelopeService.encryptUnder at hrest
  split at hrest
  · cases (hrest.of_done).1
  · obtain ⟨kek, made₂, _, hkek, hlifted⟩ := Program.Amid.of_bind hrest
    obtain ⟨ks₂, entry₂, hbetween₂, hentry₂, howned, rfl, rfl, hafter₁⟩ := interleaved_getKeyMaterial hkek
    obtain ⟨hsealed, rfl, hafter₂⟩ := hlifted.of_done
    have hbetween := hbetween₁.trans hbetween₂
    obtain ⟨entry, hentry, hversion, -⟩ := others_same hbetween (mem_metadata id _) trivial (metadata_only id _) hentry₁
    have hsame : entry = entry₂ := Option.some.inj (hentry.symm.trans hentry₂)
    subst hsame
    have hnumbered := others_numberedAt hbetween (others_numberedAt hbefore hks)
    obtain ⟨entry', hentry', hretains, hrequested⟩ := requested_of_read hnumbered hentry (hafter₁.trans hafter₂)
    obtain ⟨dek, wrapped, nonce, ciphertext, dataNonce, tag, hdek, hnonce, hwrapped, hopened, rfl⟩ :=
      EnvelopeService.sealEnvelope_eq_ok hcrypto hsealed.symm
    intro env' wrapped' nonce' ciphertext' dataNonce' tag' hw hn hc hd ht
    cases Base64.encode_inj hw
    cases Base64.encode_inj hn
    cases Base64.encode_inj hc
    cases Base64.encode_inj hd
    cases Base64.encode_inj ht
    rw [hversion] at hrequested
    refine EnvelopeService.decryptWithKekVersion_eq_ok_iff.2
      ⟨entry', _, hentry', hretains.tenantId.trans howned, hrequested, EnvelopeService.openEnvelope_eq_ok_iff.2 ?_⟩
    exact ⟨dek, EnvelopeService.unwraps_of_wrapDek hcrypto hwrapped hdek hnonce, hopened⟩

theorem rightlyLabelled_hmac {data : Bytes} {aad : Option Bytes} {mac : Bytes × UInt32} (hks : NumberedAt id ks)
    (h : Interleaved crypto env (Allowed (.hmac data aad) id) [] ks (CryptoService.hmac env crypto id data aad tenantId)
      (.ok mac) made' ks') : RightlyLabelled crypto env id tenantId ks' (.hmac data aad) mac := by
  obtain ⟨_, made₂, _, hprepared, hcomputed⟩ := Program.Amid.of_bind h
  obtain ⟨_, made₀, ks₀, hquota, hchecked⟩ := Program.Amid.of_bind hprepared
  obtain ⟨keyMeta, made₁, _, hmeta, hrest⟩ := Program.Amid.of_bind hchecked
  have hadmitted : made₀ = [] ∧ OtherCalls crypto (Allowed (.hmac data aad) id) [] ks ks₀ := by
    unfold CryptoService.checkQuota at hquota
    split at hquota
    · cases (hquota.of_done).1
    · exact (hquota.of_done).2
  obtain ⟨rfl, hfirst⟩ := hadmitted
  obtain ⟨ks₁, entry₁, hbefore, hentry₁, rfl, rfl, hbetween₁⟩ := interleaved_fetchOwnedKeyMeta hmeta
  obtain ⟨material, made₃, _, hmaterial, hreturned⟩ := Program.Amid.of_bind hrest
  unfold CryptoService.hmacMaterial at hmaterial
  split at hmaterial
  · cases (hmaterial.of_done).1
  · obtain ⟨ks₂, entry₂, hbetween₂, hentry₂, howned, rfl, rfl, hafter₁⟩ := interleaved_getKeyMaterial hmaterial
    obtain ⟨hpair, rfl, hafter₂⟩ := hreturned.of_done
    cases hpair
    have hbetween := hbetween₁.trans hbetween₂
    obtain ⟨entry, hentry, hversion, -⟩ := others_same hbetween (mem_metadata id _) trivial (metadata_only id _) hentry₁
    have hsame : entry = entry₂ := Option.some.inj (hentry.symm.trans hentry₂)
    subst hsame
    have hnumbered := others_numberedAt hbetween (others_numberedAt (hfirst.trans hbefore) hks)
    dsimp only at hcomputed
    split at hcomputed
    · cases (hcomputed.of_done).1
    · rename_i computed hmac
      obtain ⟨hvalue, rfl, hafter₃⟩ := hcomputed.of_done
      cases hvalue
      obtain ⟨entry', hentry', hretains, hrequested⟩ :=
        requested_of_read hnumbered hentry ((hafter₁.trans hafter₂).trans hafter₃)
      rw [hversion] at hrequested
      exact ⟨_, Software.SoftwareKeystore.getKeyMaterialVersion_eq_ok_iff.2
        ⟨entry', hentry', hretains.tenantId.trans howned, hrequested⟩, hmac⟩

theorem rightlyLabelled_rewrapDek (hcrypto : InPlaceAead crypto.toCrypto) {wrappedDek dekNonce : Bytes}
    {oldKekVersion : UInt32} {response : RewrapDekResponse} (hks : NumberedAt id ks)
    (h : Interleaved crypto env (Allowed (.rewrapDek wrappedDek dekNonce oldKekVersion) id) [] ks
      (EnvelopeService.rewrapDek crypto.toCrypto env id wrappedDek dekNonce oldKekVersion tenantId)
      (.ok response) made' ks') :
    RightlyLabelled crypto env id tenantId ks' (.rewrapDek wrappedDek dekNonce oldKekVersion) response := by
  obtain ⟨keyMeta, made₁, _, hmeta, hrest⟩ := Program.Amid.of_bind h
  obtain ⟨ks₁, entry₁, hbefore, hentry₁, rfl, rfl, hbetween₁⟩ := interleaved_getKeyMetadata hmeta
  unfold EnvelopeService.rewrapWith at hrest
  split at hrest
  · cases (hrest.of_done).1
  · split at hrest
    · -- the labels agree: the answer is the input
      rename_i hcurrent
      obtain ⟨hresponse, -, -⟩ := hrest.of_done
      cases hresponse
      intro env' wrapped' nonce' ciphertext dataNonce tag plaintext hw hn hopened
      cases Base64.encode_inj hw
      cases Base64.encode_inj hn
      have hsource : (if oldKekVersion = 0 then entry₁.keyMeta.version else oldKekVersion) =
          entry₁.keyMeta.version := by
        rw [hcurrent, ite_self]
      rwa [hsource] at hopened
    · rename_i hother
      obtain ⟨oldKek, made₂, _, hold, hnext⟩ := Program.Amid.of_bind hrest
      obtain ⟨ks₂, entry₂, hbetween₂, hentry₂, howned, hrequested₂, rfl, hbetween₃⟩ :=
        interleaved_getKeyMaterialVersion hold
      obtain ⟨newKek, made₃, _, hnew, hlifted⟩ := Program.Amid.of_bind hnext
      obtain ⟨ks₃, entry₃, hbetween₄, hentry₃, -, rfl, rfl, hafter₁⟩ := interleaved_getKeyMaterial hnew
      obtain ⟨hrewrapped, rfl, hafter₂⟩ := hlifted.of_done
      -- from the metadata to the current material the key is not rotated
      have hfirst := hbetween₁.trans hbetween₂
      have hsecond := hbetween₃.trans hbetween₄
      obtain ⟨e₂, he₂, hversion₂, -⟩ := others_same hfirst (mem_metadata id _) hother (metadata_only id _) hentry₁
      cases Option.some.inj (he₂.symm.trans hentry₂)
      have hnone : ∀ c ∈ ([] ++ [⟨.getKeyMetadata id, .ok entry₁.keyMeta⟩] ++
          [⟨.getKeyMaterialVersion id oldKekVersion tenantId, .ok oldKek⟩] : Made), readsCurrent c.1 = false := by
        intro c hc
        rcases List.mem_append.1 hc with hc | hc
        · exact metadata_only id _ c hc
        · rw [List.mem_singleton.1 hc]
          rfl
      obtain ⟨e₃, he₃, hversion₃, hmaterial₃⟩ := others_same hsecond
        (List.mem_append_left _ (mem_metadata id _)) hother hnone hentry₂
      cases Option.some.inj (he₃.symm.trans hentry₃)
      have hnumbered₂ := others_numberedAt hfirst (others_numberedAt hbefore hks)
      have hnumbered₃ := others_numberedAt hsecond hnumbered₂
      obtain ⟨e₃', he₃', hretains₂⟩ := others_retains hsecond hnumbered₂ hentry₂
      cases Option.some.inj (he₃'.symm.trans hentry₃)
      obtain ⟨entry', hentry', hretains₃, hnewRequested⟩ :=
        requested_of_read hnumbered₃ hentry₃ (hafter₁.trans hafter₂)
      have howned' := (hretains₂.trans hretains₃).tenantId.trans howned
      have hversion : entry₃.keyMeta.version = entry₁.keyMeta.version := hversion₃.trans hversion₂
      rw [hversion] at hnewRequested
      have holdRequested : entry'.requested (if oldKekVersion = 0 then entry₁.keyMeta.version else oldKekVersion) =
          some oldKek := by
        split
        · -- version 0 has been answered with the current material, which is still that of the label
          rename_i hzero
          rw [hzero] at hrequested₂
          rw [hnewRequested, hmaterial₃]
          exact hrequested₂
        · rename_i hzero
          rw [Software.KeyEntry.requested_of_ne_zero hzero] at hrequested₂ ⊢
          exact (hretains₂.trans hretains₃).materialAt _ _ hrequested₂
      obtain ⟨dek, rewrapped, newNonce, hunwraps, hnonce, hwrapped, rfl⟩ :=
        EnvelopeService.rewrapUnder_eq_ok hrewrapped.symm
      intro env' wrapped' nonce' ciphertext dataNonce tag plaintext hw hn hopened
      cases Base64.encode_inj hw
      cases Base64.encode_inj hn
      obtain ⟨e, kek, he, -, hkek, hopen⟩ := EnvelopeService.decryptWithKekVersion_eq_ok_iff.1 hopened
      cases Option.some.inj (he.symm.trans hentry')
      cases Option.some.inj (hkek.symm.trans holdRequested)
      obtain ⟨dek', hunwraps', hdata⟩ := EnvelopeService.openEnvelope_eq_ok_iff.1 hopen
      cases Option.some.inj (hunwraps'.2.2.2.symm.trans hunwraps.2.2.2)
      have hdek := hcrypto.key_length (EnvelopeService.key_of_openData hdata)
      refine EnvelopeService.decryptWithKekVersion_eq_ok_iff.2 ⟨entry', _, hentry', howned', hnewRequested, ?_⟩
      exact EnvelopeService.openEnvelope_eq_ok_iff.2
        ⟨dek, EnvelopeService.unwraps_of_wrapDek hcrypto hwrapped hdek hnonce, hdata⟩

theorem rightlyLabelled_exportKey {targetPublicKey : Bytes} {opts : ExportOptions} {response : ExportedKey}
    (hks : NumberedAt id ks)
    (h : Interleaved crypto env (Allowed (.exportKey targetPublicKey opts) id) [] ks
      (KeyService.exportKey crypto env id targetPublicKey tenantId opts) (.ok response) made' ks') :
    RightlyLabelled crypto env id tenantId ks' (.exportKey targetPublicKey opts) response := by
  intro version hrequest hpositive
  obtain ⟨keyMeta, made₁, _, hmeta, hrest⟩ := Program.Amid.of_bind h
  obtain ⟨ks₁, entry₁, hbefore, hentry₁, rfl, rfl, hbetween₁⟩ := interleaved_fetchOwnedKeyMeta hmeta
  obtain ⟨_, made₂, _, htarget, hread⟩ := Program.Amid.of_bind hrest
  obtain ⟨-, rfl, hbetween₂⟩ := htarget.of_done
  obtain ⟨current, made₃, _, hcurrent, hselected⟩ := Program.Amid.of_bind hread
  obtain ⟨ks₂, entry₂, hbetween₃, hentry₂, howned, rfl, rfl, hafter₁⟩ := interleaved_exportKeyMaterial hcurrent
  obtain ⟨material, made₄, _, hmaterial, hlifted⟩ := Program.Amid.of_bind hselected
  obtain ⟨hwrapped, rfl, hafter₃⟩ := hlifted.of_done
  have hbetween := (hbetween₁.trans hbetween₂).trans hbetween₃
  have hnumbered := others_numberedAt hbetween (others_numberedAt hbefore hks)
  have hfilter : opts.version.filter (fun v => decide (v ≠ 0)) = some version := by
    rw [hrequest, Option.filter_some, if_pos (decide_eq_true hpositive)]
  unfold KeyService.selectMaterial at hmaterial
  simp only [hfilter] at hmaterial
  refine ⟨material, ?_, hwrapped.symm⟩
  rw [Software.SoftwareKeystore.getKeyMaterialVersion_eq_ok_iff]
  split at hmaterial
  · -- another version than that in the metadata is read by its number
    obtain ⟨ks₃, entry₃, hbetween₄, hentry₃, howned₃, hrequested₃, rfl, hafter₂⟩ :=
      interleaved_getKeyMaterialVersion hmaterial
    have hnumbered₃ := others_numberedAt hbetween₄ (others_numberedAt hafter₁ hnumbered)
    obtain ⟨entry', hentry', hretains⟩ := others_retains (hafter₂.trans hafter₃) hnumbered₃ hentry₃
    rw [Software.KeyEntry.requested_of_ne_zero hpositive] at hrequested₃
    refine ⟨entry', hentry', hretains.tenantId.trans howned₃, ?_⟩
    rw [Software.KeyEntry.requested_of_ne_zero hpositive]
    exact hretains.materialAt _ _ hrequested₃
  · rename_i hlabel
    have hversion₁ : version = entry₁.keyMeta.version := not_not.1 hlabel
    obtain ⟨hsame, rfl, hafter₂⟩ := hmaterial.of_done
    cases hsame
    have hlabels : LabelsCurrent entry₁.keyMeta (.exportKey targetPublicKey opts) :=
      hrequest.trans (congrArg some hversion₁)
    obtain ⟨entry, hentry, hversion, -⟩ := others_same hbetween (mem_metadata id _) hlabels (metadata_only id _) hentry₁
    cases Option.some.inj (hentry.symm.trans hentry₂)
    obtain ⟨entry', hentry', hretains, hrequested⟩ :=
      requested_of_read hnumbered hentry ((hafter₁.trans hafter₂).trans hafter₃)
    rw [hversion, ← hversion₁] at hrequested
    exact ⟨entry', hentry', hretains.tenantId.trans howned, hrequested⟩

/-- Where no rotation comes between the two reads of a method, it labels rightly. -/
theorem rightlyLabelled_of_settled (hcrypto : InPlaceAead crypto.toCrypto) (op : KeyOperation) {value : op.Value}
    (h : Interleaved crypto env (Allowed op id) [] .new (op.service crypto env id tenantId) (.ok value) made' ks') :
    RightlyLabelled crypto env id tenantId ks' op value := by
  have hnew : NumberedAt id .new := fun entry hentry => Software.SoftwareKeystore.wellNumbered_new id entry hentry
  cases op with
  | envelopeEncrypt plaintext => exact rightlyLabelled_envelopeEncrypt hcrypto hnew h
  | rewrapDek wrappedDek dekNonce oldKekVersion => exact rightlyLabelled_rewrapDek hcrypto hnew h
  | hmac data aad => exact rightlyLabelled_hmac hnew h
  | exportKey targetPublicKey opts => exact rightlyLabelled_exportKey hnew h
  | _ => trivial

end

/-! ## A rotation between the two reads, and after them -/

/-- The services over `keyedCrypto`. -/
def ServiceCrypto.keyed : ServiceCrypto := { ServiceCrypto.plain with toCrypto := keyedCrypto }

/-- Another caller makes a key of sevens. -/
def otherGeneration : Software.UseCall :=
  ⟨(sampleServiceEnv 7).toUseEnv, .generateKey .aes256Gcm "kek" "tenant-1"⟩

/-- Another caller rotates it to nines. -/
def otherRotation : Software.UseCall := ⟨(sampleServiceEnv 9).toUseEnv, .rotateKey 1 "tenant-1"⟩

/-- One byte of data, wrapped under a key of the byte `kek`. -/
def envelopeUnder (kek : UInt8) : EnvelopeEncryptResponse where
  wrappedDek := Base64.encode (List.replicate 32 5 ++ List.replicate 16 kek)
  dekNonce := Base64.encode (List.replicate 12 5)
  ciphertext := Base64.encode [1]
  dataNonce := Base64.encode (List.replicate 12 5)
  tag := Base64.encode (List.replicate 16 5)
  kekVersion := 1

theorem tame_otherGeneration : Tame 1 .new otherGeneration where
  fresh := fun _ => rfl
  kept := by decide
  generates := by
    rintro entry ⟨⟨⟩, -, -⟩

theorem tame_otherRotation (ks : Software.SoftwareKeystore)
    (hspec : ∀ entry, ks.keys[(1 : Uuid)]? = some entry → entry.keyMeta.spec = .aes256Gcm) :
    Tame 1 ks otherRotation where
  fresh := nofun
  kept := by decide
  generates := by
    intro entry hrotates
    rw [hspec entry hrotates.found]
    exact ⟨rfl, nofun⟩

/-- A rotation after both reads does no harm. -/
theorem rightlyLabelled_rotatedAfter : ∃ made ks',
    Interleaved .keyed (sampleServiceEnv 5) (Allowed (.envelopeEncrypt [1]) 1) [] .new
      ((KeyOperation.envelopeEncrypt [1]).service .keyed (sampleServiceEnv 5) 1 "tenant-1") (.ok (envelopeUnder 7))
      made ks' ∧
    RightlyLabelled .keyed (sampleServiceEnv 5) 1 "tenant-1" ks' (.envelopeEncrypt [1]) (envelopeUnder 7) := by
  have hgeneration : ∀ made, Settled (.envelopeEncrypt [1]) 1 made .new otherGeneration := by
    intro made
    refine ⟨?_, ?_⟩
    · rintro entry ⟨⟨⟩, -, -⟩
    · rintro keyMeta - - - entry ⟨⟨⟩, -, -⟩
  obtain ⟨made, ks', hrun⟩ : ∃ made ks', Interleaved .keyed (sampleServiceEnv 5) (Allowed (.envelopeEncrypt [1]) 1)
      [] .new ((KeyOperation.envelopeEncrypt [1]).service .keyed (sampleServiceEnv 5) 1 "tenant-1")
      (.ok (envelopeUnder 7))
      made ks' := by
    refine ⟨_, _, .other otherGeneration ⟨tame_otherGeneration, hgeneration _⟩
      (.own (.own (.other otherRotation ⟨tame_otherRotation _ ?_, ?_, ?_⟩ (.done _ _ _))))⟩
    · rintro entry ⟨⟩
      rfl
    · rintro entry ⟨-, ⟨⟩, -⟩
      decide
    · -- the material has been read
      intro keyMeta _ _ hnone
      exact absurd (hnone _ (List.mem_append_right _ (List.mem_singleton_self _))) (by decide)
  exact ⟨made, ks', hrun, rightlyLabelled_of_settled keyedCrypto_inPlaceAead _ hrun⟩

/-- A rotation between the two reads: what the response is said to be wrapped under is not what it is. -/
theorem not_rightlyLabelled_rotatedBetween : ∃ made ks',
    Interleaved .keyed (sampleServiceEnv 5) (fun _ ks u => Tame 1 ks u) [] .new
      ((KeyOperation.envelopeEncrypt [1]).service .keyed (sampleServiceEnv 5) 1 "tenant-1") (.ok (envelopeUnder 9))
      made ks' ∧
    ¬ RightlyLabelled .keyed (sampleServiceEnv 5) 1 "tenant-1" ks' (.envelopeEncrypt [1]) (envelopeUnder 9) := by
  refine ⟨_, _, .other otherGeneration tame_otherGeneration
    (.own (.other otherRotation (tame_otherRotation _ ?_) (.own (.done _ _ _)))), ?_⟩
  · rintro entry ⟨⟩
    rfl
  · intro h
    exact absurd (h (sampleServiceEnv 5) _ _ _ _ _ rfl rfl rfl rfl rfl) (by decide +kernel)

end GmKms.Api
