import GmKms.Api.KeyImport
import GmKms.Api.KeyOperation
import GmKms.Lib.Noninterference
/-!
# Tenants side by side

Requests of any number of tenants to the services on one keystore, their calls in any order. What a tenant sees of the
keystore are its own keys.
-/

namespace GmKms.Api.TenantIsolation

open Lib Lib.Program Keystore Service
open Keystore.Software (SoftwareKeystore UseEnv)

/-! ## Requests -/

inductive Request where
  | create (spec : KeySpec) (name : String)
  | importKey (spec : KeySpec) (name format : String) (wrappedKey encryptedTransportKey : Bytes)
      (sourceFingerprint : String)
  | list (filter : KeyFilter)
  | onKey (keyId : Uuid) (op : KeyOperation)

inductive Response where
  | keyMeta (m : KeyMeta)
  | keys (l : List KeyMeta)
  | operation (op : KeyOperation) (v : op.Value)

/-- A request, with what its service reads from outside. -/
structure Call where
  tenantId : String
  env : ServiceEnv
  request : Request

abbrev Requests := Pool BackendOp.Reply ApiAbort Response Call SoftwareKeystore

section

variable {F : Type} (crypto : ServiceCrypto) (fromStr : String → Option (Json F))

def Call.program (c : Call) : Program BackendOp.Reply ApiAbort Response :=
  match c.request with
  | .create spec name => (KeyService.createKey c.env spec name c.tenantId).mapResult .keyMeta id
  | .importKey spec name format wrappedKey encryptedTransportKey sourceFingerprint =>
    (KeyService.importKey fromStr c.env spec name format wrappedKey encryptedTransportKey sourceFingerprint
      c.tenantId).mapResult .keyMeta id
  | .list filter => (KeyService.listKeys filter c.tenantId).mapResult .keys id
  | .onKey keyId op => (op.service crypto c.env keyId c.tenantId).mapResult (.operation op) id

/-- The requests as a machine: a move starts one or lets one make its next call on the keystore. -/
def serve : Machine Requests (Move Call UseEnv) (Option (Program.Made BackendOp.Reply Call UseEnv)) :=
  Pool.interleave (SoftwareKeystore.perform crypto.toCrypto) (Call.program crypto fromStr)

def ofTenant (tenantId : String) (c : Call) : Bool := c.tenantId = tenantId

/-- The same where every request of another tenant ends before its first call. -/
def serveOnly (tenantId : String) :
    Machine Requests (Move Call UseEnv) (Option (Program.Made BackendOp.Reply Call UseEnv)) :=
  Pool.interleave (SoftwareKeystore.perform crypto.toCrypto)
    (only (ofTenant tenantId) (.error (.internal "")) (Call.program crypto fromStr))

end

/-- The request names one key, and the service checks its owner before anything else. A listing comes in the order of a
`HashMap`, which the keys of other tenants may change. -/
def ChecksOwnerFirst : Request → Prop
  | .onKey _ (.envelopeEncrypt _) | .onKey _ (.rewrapDek ..) | .list _ => False
  | _ => True

/-! ## Which calls a request makes -/

/-- A call on the keystore that is made for the tenant. -/
def ActsFor (tenantId : String) : BackendOp → Prop
  | .generateKey _ _ t | .importKeyMaterial _ _ t _ | .encrypt _ _ t | .decrypt _ _ t | .sign _ _ t | .verify _ _ _ t
  | .rotateKey _ t | .deleteKey _ t | .exportKeyMaterial _ t | .getKeyMaterial _ t | .getKeyMaterialVersion _ _ t
  | .deriveSharedSecret _ _ _ t => t = tenantId
  | .getKeyMetadata _ => True
  | .listKeys _ | .destroyKey _ | .destroyKeyWithProof _ => False

def Lists : BackendOp → Prop
  | .listKeys _ => True
  | _ => False

section

variable {crypto : ServiceCrypto} {env : ServiceEnv} {tenantId : String} {keyId : Uuid}

theorem calls_owned {α : Type} {f : KeyMeta → Service α} (hf : ∀ m, (f m).Calls (ActsFor tenantId)) :
    (CryptoService.fetchOwnedKeyMeta keyId tenantId >>= f).Calls (ActsFor tenantId) := by
  refine Calls.bind (Calls.bind ⟨trivial, fun _ => trivial⟩ fun m => ?_) hf
  split <;> trivial

theorem calls_checked {α : Type} {f : KeyMeta → Service α} (hf : ∀ m, (f m).Calls (ActsFor tenantId)) :
    (do
      CryptoService.checkQuota env
      let keyMeta ← CryptoService.fetchOwnedKeyMeta keyId tenantId
      f keyMeta : Service α).Calls (ActsFor tenantId) := by
  refine Calls.bind ?_ fun _ => calls_owned hf
  unfold CryptoService.checkQuota
  split <;> trivial

theorem calls_prepareHmac : (CryptoService.prepareHmac env keyId tenantId).Calls (ActsFor tenantId) := by
  refine calls_checked fun m => Calls.bind ?_ fun _ => trivial
  unfold CryptoService.hmacMaterial
  split
  · trivial
  · exact ⟨rfl, fun _ => trivial⟩

theorem calls_operation (op : KeyOperation) : (op.service crypto env keyId tenantId).Calls (ActsFor tenantId) := by
  cases op with
  | getKey =>
    refine Calls.bind ⟨trivial, fun _ => trivial⟩ fun m => ?_
    split <;> trivial
  | rotateKey | deleteKey => exact calls_owned fun _ => ⟨rfl, fun _ => trivial⟩
  | exportKey targetPublicKey opts =>
    refine calls_owned fun m => Calls.bind trivial fun _ => Calls.bind ⟨rfl, fun _ => trivial⟩ fun material =>
      Calls.bind ?_ fun _ => trivial
    unfold KeyService.selectMaterial
    split
    · split
      · exact ⟨rfl, fun _ => trivial⟩
      · trivial
    · trivial
  | encrypt | decrypt | sign | verify => exact calls_checked fun _ => ⟨rfl, fun _ => trivial⟩
  | hmac | hmacVerify =>
    refine Calls.bind calls_prepareHmac fun p => ?_
    dsimp only
    split <;> trivial
  | envelopeEncrypt =>
    refine Calls.bind ⟨trivial, fun _ => trivial⟩ fun m => ?_
    unfold EnvelopeService.encryptUnder
    split
    · trivial
    · exact Calls.bind ⟨rfl, fun _ => trivial⟩ fun _ => trivial
  | envelopeDecrypt | envelopeDecryptWithKekVersion => exact Calls.bind ⟨rfl, fun _ => trivial⟩ fun _ => trivial
  | rewrapDek =>
    refine Calls.bind ⟨trivial, fun _ => trivial⟩ fun m => ?_
    unfold EnvelopeService.rewrapWith
    split
    · trivial
    · split
      · trivial
      · exact Calls.bind ⟨rfl, fun _ => trivial⟩ fun _ => Calls.bind ⟨rfl, fun _ => trivial⟩ fun _ => trivial

theorem calls_createKey {spec : KeySpec} {name : String} :
    (KeyService.createKey env spec name tenantId).Calls (ActsFor tenantId) := by
  unfold KeyService.createKey
  split
  · trivial
  · split
    · trivial
    · exact ⟨rfl, fun _ => trivial⟩

theorem calls_importKey {F : Type} {fromStr : String → Option (Json F)} {spec : KeySpec} {name format : String}
    {wrappedKey encryptedTransportKey : Bytes} {sourceFingerprint : String} :
    (KeyService.importKey fromStr env spec name format wrappedKey encryptedTransportKey sourceFingerprint
      tenantId).Calls (ActsFor tenantId) := by
  unfold KeyService.importKey
  refine Calls.bind trivial fun material => ?_
  split
  · trivial
  · exact ⟨rfl, fun _ => trivial⟩

end

/-! ## What a tenant sees -/

/-- Two keystores with the same keys of the tenant. -/
def SameView (tenantId : String) (ks ks' : SoftwareKeystore) : Prop :=
  ∀ (id : Uuid) (entry : Software.KeyEntry), entry.keyMeta.tenantId = tenantId →
  (ks.keys[id]? = some entry ↔ ks'.keys[id]? = some entry)

/-- The answer for a key that is not there, or the metadata of one of another tenant. -/
def Foreign (tenantId : String) (keyId : Uuid) : Except Abort KeyMeta → Prop
  | .ok m => m.tenantId ≠ tenantId
  | .error e => e = .error (.keyNotFound keyId.text)

/-- The metadata call is answered whoever owns the key. -/
def Alike (tenantId : String) : (op : BackendOp) → op.Reply → op.Reply → Prop
  | .getKeyMetadata keyId, r, r' => r = r' ∨ Foreign tenantId keyId r ∧ Foreign tenantId keyId r'
  | _, r, r' => r = r'

section

variable {tenantId : String} {ks ks' : SoftwareKeystore} {keyId : Uuid}

theorem SameView.put (h : SameView tenantId ks ks') (id : Uuid) (entry : Software.KeyEntry) :
    SameView tenantId (ks.put id entry) (ks'.put id entry) := by
  intro id' entry' howned
  rw [SoftwareKeystore.keys_put, SoftwareKeystore.keys_put]
  split
  · rfl
  · exact h id' entry' howned

/-- A key that the tenant does not own in one keystore it does not own in the other. -/
theorem SameView.not_owned (h : SameView tenantId ks ks')
    (hks : ∀ entry, ks.keys[keyId]? = some entry → entry.keyMeta.tenantId ≠ tenantId) :
    ∀ entry, ks'.keys[keyId]? = some entry → entry.keyMeta.tenantId ≠ tenantId :=
  fun entry hentry howned => hks entry ((h keyId entry howned).2 hentry) howned

/-- The tenant owns the key in both keystores, or in neither. -/
theorem SameView.cases (h : SameView tenantId ks ks') (keyId : Uuid) :
    (∃ entry, entry.keyMeta.tenantId = tenantId ∧ ks.keys[keyId]? = some entry ∧ ks'.keys[keyId]? = some entry) ∨
    (∀ entry, ks.keys[keyId]? = some entry → entry.keyMeta.tenantId ≠ tenantId) ∧
      ∀ entry, ks'.keys[keyId]? = some entry → entry.keyMeta.tenantId ≠ tenantId := by
  by_cases howned : ∃ entry, ks.keys[keyId]? = some entry ∧ entry.keyMeta.tenantId = tenantId
  · obtain ⟨entry, hentry, howned⟩ := howned
    exact .inl ⟨entry, howned, hentry, (h keyId entry howned).1 hentry⟩
  · have hks : ∀ entry, ks.keys[keyId]? = some entry → entry.keyMeta.tenantId ≠ tenantId :=
      fun entry hentry ho => howned ⟨entry, hentry, ho⟩
    exact .inr ⟨hks, h.not_owned hks⟩

theorem SameView.entryFor (h : SameView tenantId ks ks') (keyId : Uuid) (missing : Error) :
    ks.entryFor keyId tenantId missing = ks'.entryFor keyId tenantId missing := by
  rcases h.cases keyId with ⟨entry, howned, hks, hks'⟩ | ⟨hks, hks'⟩
  · rw [SoftwareKeystore.entryFor_of_owned hks howned, SoftwareKeystore.entryFor_of_owned hks' howned]
  · rw [SoftwareKeystore.entryFor_of_not_owned hks, SoftwareKeystore.entryFor_of_not_owned hks']

theorem foreign_getKeyMetadata (h : ∀ entry, ks.keys[keyId]? = some entry → entry.keyMeta.tenantId ≠ tenantId) :
    Foreign tenantId keyId (ks.getKeyMetadata keyId) := by
  unfold SoftwareKeystore.getKeyMetadata
  cases hentry : ks.keys[keyId]? with
  | none => rfl
  | some entry => exact h entry hentry

theorem SameView.getKeyMetadata (h : SameView tenantId ks ks') (keyId : Uuid) :
    Alike tenantId (.getKeyMetadata keyId) (ks.getKeyMetadata keyId) (ks'.getKeyMetadata keyId) := by
  rcases h.cases keyId with ⟨entry, howned, hks, hks'⟩ | ⟨hks, hks'⟩
  · left
    rw [SoftwareKeystore.getKeyMetadata, SoftwareKeystore.getKeyMetadata, hks, hks']
  · exact .inr ⟨foreign_getKeyMetadata hks, foreign_getKeyMetadata hks'⟩

theorem SameView.generateKey (h : SameView tenantId ks ks') (env : Software.Env) (spec : KeySpec) (name t : String) :
    (ks.generateKey env spec name t).1 = (ks'.generateKey env spec name t).1 ∧
      SameView tenantId (ks.generateKey env spec name t).2 (ks'.generateKey env spec name t).2 := by
  unfold SoftwareKeystore.generateKey
  cases SoftwareKeystore.generatedMaterial spec env with
  | error e => exact ⟨rfl, h⟩
  | ok material => exact ⟨rfl, h.put _ _⟩

theorem SameView.importKeyMaterial (h : SameView tenantId ks ks') (env : Software.Env) (spec : KeySpec)
    (name t : String)
    (material : Bytes) :
    (ks.importKeyMaterial env spec name t material).1 = (ks'.importKeyMaterial env spec name t material).1 ∧
      SameView tenantId (ks.importKeyMaterial env spec name t material).2
        (ks'.importKeyMaterial env spec name t material).2 := by
  unfold SoftwareKeystore.importKeyMaterial
  cases checkImport spec material with
  | error e => exact ⟨rfl, h⟩
  | ok _ => exact ⟨rfl, h.put _ _⟩

theorem SameView.rotateKey (h : SameView tenantId ks ks') (env : Software.Env) (keyId : Uuid) :
    (ks.rotateKey env keyId tenantId).1 = (ks'.rotateKey env keyId tenantId).1 ∧
      SameView tenantId (ks.rotateKey env keyId tenantId).2 (ks'.rotateKey env keyId tenantId).2 := by
  unfold SoftwareKeystore.rotateKey
  rcases h.cases keyId with ⟨entry, howned, hks, hks'⟩ | ⟨hks, hks'⟩
  · rw [SoftwareKeystore.verifyTenant_of_owned hks howned, SoftwareKeystore.verifyTenant_of_owned hks' howned]
    simp only [hks, hks']
    split
    · exact ⟨rfl, h⟩
    · split
      · exact ⟨rfl, h.put _ _⟩
      · exact ⟨rfl, h.put _ _⟩
  · rw [SoftwareKeystore.verifyTenant_of_not_owned hks, SoftwareKeystore.verifyTenant_of_not_owned hks']
    exact ⟨rfl, h⟩

theorem SameView.deleteKey (h : SameView tenantId ks ks') (keyId : Uuid) :
    (ks.deleteKey keyId tenantId).1 = (ks'.deleteKey keyId tenantId).1 ∧
      SameView tenantId (ks.deleteKey keyId tenantId).2 (ks'.deleteKey keyId tenantId).2 := by
  rcases h.cases keyId with ⟨entry, howned, hks, hks'⟩ | ⟨hks, hks'⟩
  · rw [SoftwareKeystore.deleteKey_of_owned hks howned, SoftwareKeystore.deleteKey_of_owned hks' howned]
    exact ⟨rfl, h.put _ _⟩
  · unfold SoftwareKeystore.deleteKey
    rw [SoftwareKeystore.verifyTenant_of_not_owned hks, SoftwareKeystore.verifyTenant_of_not_owned hks']
    exact ⟨rfl, h⟩

/-- A call for the tenant is answered from its own keys. -/
theorem SameView.perform (h : SameView tenantId ks ks') (crypto : Crypto) (env : UseEnv) {op : BackendOp}
    (hop : ActsFor tenantId op) :
    Alike tenantId op (SoftwareKeystore.perform crypto env op ks).1 (SoftwareKeystore.perform crypto env op ks').1 ∧
      SameView tenantId (SoftwareKeystore.perform crypto env op ks).2
        (SoftwareKeystore.perform crypto env op ks').2 := by
  cases op with
  | generateKey spec name t => exact h.generateKey _ _ _ _
  | importKeyMaterial spec name t material => exact h.importKeyMaterial _ _ _ _ _
  | getKeyMetadata keyId => exact ⟨h.getKeyMetadata keyId, h⟩
  | rotateKey keyId t =>
    obtain rfl : t = tenantId := hop
    exact h.rotateKey _ _
  | deleteKey keyId t =>
    obtain rfl : t = tenantId := hop
    exact h.deleteKey _
  | encrypt keyId plaintext t =>
    obtain rfl : t = tenantId := hop
    refine ⟨?_, h⟩
    change ks.encrypt crypto env keyId plaintext t = ks'.encrypt crypto env keyId plaintext t
    rw [SoftwareKeystore.encrypt, h.entryFor]
    rfl
  | decrypt keyId ciphertext t =>
    obtain rfl : t = tenantId := hop
    refine ⟨?_, h⟩
    change ks.decrypt crypto keyId ciphertext t = ks'.decrypt crypto keyId ciphertext t
    rw [SoftwareKeystore.decrypt, h.entryFor]
    rfl
  | sign keyId data t =>
    obtain rfl : t = tenantId := hop
    refine ⟨?_, h⟩
    change ks.sign crypto env keyId data t = ks'.sign crypto env keyId data t
    rw [SoftwareKeystore.sign, h.entryFor]
    rfl
  | verify keyId data sig t =>
    obtain rfl : t = tenantId := hop
    refine ⟨?_, h⟩
    change ks.verify crypto keyId data sig t = ks'.verify crypto keyId data sig t
    rw [SoftwareKeystore.verify, h.entryFor]
    rfl
  | exportKeyMaterial keyId t =>
    obtain rfl : t = tenantId := hop
    refine ⟨?_, h⟩
    change ks.exportKeyMaterial keyId t = ks'.exportKeyMaterial keyId t
    rw [SoftwareKeystore.exportKeyMaterial, h.entryFor]
    rfl
  | getKeyMaterial keyId t =>
    obtain rfl : t = tenantId := hop
    refine ⟨?_, h⟩
    change ks.getKeyMaterial keyId t = ks'.getKeyMaterial keyId t
    rw [SoftwareKeystore.getKeyMaterial, h.entryFor]
    rfl
  | getKeyMaterialVersion keyId version t =>
    obtain rfl : t = tenantId := hop
    refine ⟨?_, h⟩
    change ks.getKeyMaterialVersion keyId version t = ks'.getKeyMaterialVersion keyId version t
    rw [SoftwareKeystore.getKeyMaterialVersion, h.entryFor]
    rfl
  | deriveSharedSecret keyId peerPublicKey algorithm t =>
    obtain rfl : t = tenantId := hop
    refine ⟨?_, h⟩
    change ks.deriveSharedSecret crypto env keyId peerPublicKey algorithm t =
      ks'.deriveSharedSecret crypto env keyId peerPublicKey algorithm t
    rw [SoftwareKeystore.deriveSharedSecret, h.entryFor]
    rfl
  | listKeys | destroyKey | destroyKeyWithProof => exact hop.elim

/-- An id under which there is no key is drawn for a new one. -/
def Fresh (env : UseEnv) (op : BackendOp) (ks : SoftwareKeystore) : Prop :=
  op.creates = true → ks.keys[env.uuid]? = none

/-- What a call for another tenant makes of an entry, the tenant does not see. -/
theorem entry_other {env : UseEnv} {id : Uuid} {op : BackendOp} {e e' : Option Software.KeyEntry}
    (hstep : Software.EntryStep env id op e e') {t : String} (hop : ActsFor t op ∨ Lists op) (ht : t ≠ tenantId)
    (hfresh : op.creates = true → env.uuid = id → e = none)
    {entry : Software.KeyEntry} (howned : entry.keyMeta.tenantId = tenantId) : e' = some entry ↔ e = some entry := by
  have hmeta : ∀ {entry' : Software.KeyEntry}, entry'.keyMeta.tenantId = t → entry' ≠ entry := by
    rintro entry' hentry' rfl
    exact ht (hentry'.symm.trans howned)
  cases hstep with
  | kept => rfl
  | generated e new made =>
    rw [hfresh rfl new]
    obtain rfl | hlists := hop
    · simp only [Option.some.injEq, reduceCtorEq, iff_false]
      exact hmeta rfl
    · exact hlists.elim
  | imported e new accepted =>
    rw [hfresh rfl new]
    obtain rfl | hlists := hop
    · simp only [Option.some.injEq, reduceCtorEq, iff_false]
      exact hmeta rfl
    · exact hlists.elim
  | rotated | emptied | deleted =>
    obtain hop | hlists := hop
    · rw [Option.some.injEq, Option.some.injEq]
      exact iff_of_false (hmeta hop) (hmeta hop)
    · exact hlists.elim
  | destroyed e destroys =>
    have hnever : ¬ (ActsFor t op ∨ Lists op) := by
      cases op <;> first | exact not_or.2 ⟨fun h => h, fun h => h⟩ | cases destroys
    exact absurd hop hnever

theorem SameView.other (h : SameView tenantId ks ks') (crypto : Crypto) (env : UseEnv) {op : BackendOp} {t : String}
    (hop : ActsFor t op ∨ Lists op) (ht : t ≠ tenantId) (hfresh : Fresh env op ks) :
    SameView tenantId (SoftwareKeystore.perform crypto env op ks).2 ks' := by
  intro id entry howned
  rw [← h id entry howned]
  refine entry_other (SoftwareKeystore.perform_entry crypto env op ks id) hop ht ?_ howned
  rintro hcreates rfl
  exact hfresh hcreates

/-- The keystore as the tenant sees it. -/
theorem view (crypto : Crypto) (tenantId : String) :
    View (SoftwareKeystore.perform crypto) (ActsFor tenantId) (fun op => ∃ t ≠ tenantId, ActsFor t op ∨ Lists op)
      (Alike tenantId) Fresh (SameView tenantId) where
  own env _ _ _ h hop := h.perform crypto env hop
  other env _ _ _ h hop hfresh := by
    obtain ⟨t, ht, hop⟩ := hop
    exact h.other crypto env hop ht hfresh

end

/-! ## Requests that do not look at the keys of others -/

section

variable {crypto : ServiceCrypto} {env : ServiceEnv} {tenantId : String} {keyId : Uuid}

theorem uniform_ask {op : BackendOp} (h : ∀ r r', Alike tenantId op r r' → r = r') (mapErr : Error → ApiError) :
    (ask op mapErr).Uniform (Alike tenantId) :=
  ⟨fun r r' halike => by rw [h r r' halike], fun _ => trivial⟩

/-- The check of the owner gives one answer for all that the tenant does not see. -/
theorem fetched_foreign {r : Except Abort KeyMeta} (h : Foreign tenantId keyId r) :
    (Program.done (answer apiError r) >>= fun keyMeta =>
      if keyMeta.tenantId ≠ tenantId then Service.fail (.keyNotFound keyId.text) else return keyMeta :
      Service KeyMeta) =
    Service.fail (.keyNotFound keyId.text) := by
  cases r with
  | error e =>
    obtain rfl : e = .error (.keyNotFound keyId.text) := h
    rfl
  | ok m => exact if_pos h

theorem uniform_fetchOwnedKeyMeta : (CryptoService.fetchOwnedKeyMeta keyId tenantId).Uniform (Alike tenantId) := by
  refine ⟨?_, fun r => Uniform.bind (p := .done (answer apiError r)) trivial fun m => ?_⟩
  · rintro r r' (rfl | ⟨hr, hr'⟩)
    · rfl
    · exact (fetched_foreign hr).trans (fetched_foreign hr').symm
  · split <;> trivial

theorem uniform_owned {α : Type} {f : KeyMeta → Service α} (hf : ∀ m, (f m).Uniform (Alike tenantId)) :
    (CryptoService.fetchOwnedKeyMeta keyId tenantId >>= f).Uniform (Alike tenantId) :=
  uniform_fetchOwnedKeyMeta.bind hf

theorem uniform_checked {α : Type} {f : KeyMeta → Service α} (hf : ∀ m, (f m).Uniform (Alike tenantId)) :
    (do
      CryptoService.checkQuota env
      let keyMeta ← CryptoService.fetchOwnedKeyMeta keyId tenantId
      f keyMeta : Service α).Uniform (Alike tenantId) := by
  refine Uniform.bind ?_ fun _ => uniform_owned hf
  unfold CryptoService.checkQuota
  split <;> trivial

theorem uniform_prepareHmac : (CryptoService.prepareHmac env keyId tenantId).Uniform (Alike tenantId) := by
  refine uniform_checked fun m => Uniform.bind ?_ fun _ => trivial
  unfold CryptoService.hmacMaterial
  split
  · trivial
  · exact uniform_ask (by exact fun _ _ h => h) _

theorem uniform_operation {op : KeyOperation} (hop : ChecksOwnerFirst (.onKey keyId op)) :
    (op.service crypto env keyId tenantId).Uniform (Alike tenantId) := by
  cases op with
  | getKey => exact uniform_fetchOwnedKeyMeta
  | rotateKey | deleteKey => exact uniform_owned fun _ => uniform_ask (by exact fun _ _ h => h) _
  | exportKey targetPublicKey opts =>
    refine uniform_owned fun m => Uniform.bind trivial fun _ =>
      Uniform.bind (uniform_ask (by exact fun _ _ h => h) _) fun material =>
      Uniform.bind ?_ fun _ => trivial
    unfold KeyService.selectMaterial
    split
    · split
      · exact uniform_ask (by exact fun _ _ h => h) _
      · trivial
    · trivial
  | encrypt | decrypt | sign | verify => exact uniform_checked fun _ => uniform_ask (by exact fun _ _ h => h) _
  | hmac | hmacVerify =>
    refine Uniform.bind uniform_prepareHmac fun p => ?_
    dsimp only
    split <;> trivial
  | envelopeEncrypt | rewrapDek => exact hop.elim
  | envelopeDecrypt | envelopeDecryptWithKekVersion =>
    exact Uniform.bind (uniform_ask (by exact fun _ _ h => h) _) fun _ => trivial

theorem uniform_createKey {spec : KeySpec} {name : String} :
    (KeyService.createKey env spec name tenantId).Uniform (Alike tenantId) := by
  unfold KeyService.createKey
  split
  · trivial
  · split
    · trivial
    · exact uniform_ask (by exact fun _ _ h => h) _

theorem uniform_importKey {F : Type} {fromStr : String → Option (Json F)} {spec : KeySpec} {name format : String}
    {wrappedKey encryptedTransportKey : Bytes} {sourceFingerprint : String} :
    (KeyService.importKey fromStr env spec name format wrappedKey encryptedTransportKey sourceFingerprint
      tenantId).Uniform (Alike tenantId) := by
  unfold KeyService.importKey
  refine Uniform.bind trivial fun material => ?_
  split
  · trivial
  · exact uniform_ask (by exact fun _ _ h => h) _

end

/-! ## Any interleaving -/

section

variable {F : Type} {crypto : ServiceCrypto} {fromStr : String → Option (Json F)} {tenantId : String}

theorem calls_program (c : Call) : (c.program crypto fromStr).Calls fun op => ActsFor c.tenantId op ∨ Lists op := by
  unfold Call.program
  split
  · exact Calls.mapResult _ _ (calls_createKey.mono fun _ => .inl)
  · exact Calls.mapResult _ _ (calls_importKey.mono fun _ => .inl)
  · exact Calls.mapResult _ _ ⟨.inr trivial, fun _ => trivial⟩
  · exact Calls.mapResult _ _ ((calls_operation _).mono fun _ => .inl)

theorem uniform_program {c : Call} (hc : ChecksOwnerFirst c.request) :
    (c.program crypto fromStr).Uniform (Alike c.tenantId) ∧ (c.program crypto fromStr).Calls (ActsFor c.tenantId) := by
  unfold Call.program
  cases hrequest : c.request with
  | create spec name => exact ⟨uniform_createKey.mapResult _ _, Calls.mapResult _ _ calls_createKey⟩
  | importKey => exact ⟨uniform_importKey.mapResult _ _, Calls.mapResult _ _ calls_importKey⟩
  | list filter =>
    rw [hrequest] at hc
    exact hc.elim
  | onKey keyId op =>
    rw [hrequest] at hc
    exact ⟨(uniform_operation hc).mapResult _ _, Calls.mapResult _ _ (calls_operation op)⟩

/-- What a tenant's requests come to, and the keys that it is left with, do not depend on the requests of other tenants
between them. -/
theorem isolated_run {ks : SoftwareKeystore} {ms : List (Move Call UseEnv)}
    (hfirst : ∀ c, .start c ∈ ms → c.tenantId = tenantId → ChecksOwnerFirst c.request)
    (hfresh : Machine.Along (serve crypto fromStr) (fun _ s m => s.Guarded Fresh m) [] ⟨ks, []⟩ ms) :
    (∀ (i : ℕ) (c : Call) (p : Program BackendOp.Reply ApiAbort Response), c.tenantId = tenantId →
      (((serve crypto fromStr).final ⟨ks, []⟩ ms).calls[i]? = some (c, p) ↔
        ((serveOnly crypto fromStr tenantId).final ⟨ks, []⟩ ms).calls[i]? = some (c, p))) ∧
    SameView tenantId ((serve crypto fromStr).final ⟨ks, []⟩ ms).shared
      ((serveOnly crypto fromStr tenantId).final ⟨ks, []⟩ ms).shared := by
  have hwithout := Pool.without_run (ofTenant tenantId) (.error (.internal "")) (view crypto.toCrypto tenantId)
    (fun _ _ _ => Iff.rfl) ?_ ?_ hfresh
  · exact ⟨fun i c p hc => hwithout.same i c p (decide_eq_true hc), hwithout.shared⟩
  · intro c hc hown
    obtain rfl : c.tenantId = tenantId := of_decide_eq_true hown
    exact uniform_program (hfirst c hc rfl)
  · intro c _ hother
    exact (calls_program c).mono fun op hop => ⟨c.tenantId, of_decide_eq_false hother, hop⟩

end

/-- A request on an AES key that reads nothing but a constant. -/
def requestOf (tenantId : String) (request : Request) : Move Call UseEnv :=
  .start ⟨tenantId, sampleServiceEnv 7, request⟩

/-- The next call of a request, with a fresh id. -/
def next (i : ℕ) (uuid : Uuid) : Move Call UseEnv := .advance i { (sampleServiceEnv 7).toUseEnv with uuid }

/-- The first tenant makes a key and encrypts; in between the second makes one of its own, tries to delete the key of
the first, and rotates its own. -/
def twoTenants : List (Move Call UseEnv) :=
  [requestOf "acme" (.create .aes256Gcm "orders"), next 0 1, requestOf "other" (.create .aes256Gcm "spare"),
    requestOf "acme" (.onKey 1 (.encrypt [1, 2, 3])), next 2 3, next 1 2, requestOf "other" (.onKey 1 .deleteKey),
    next 3 3,
    requestOf "other" (.onKey 2 .rotateKey), next 4 3, next 4 3, next 2 3]

instance (env : UseEnv) (op : BackendOp) (ks : SoftwareKeystore) : Decidable (Fresh env op ks) :=
  inferInstanceAs (Decidable (_ → _))

theorem isolated_twoTenants :
    (∀ (i : ℕ) (c : Call) (p : Program BackendOp.Reply ApiAbort Response), c.tenantId = "acme" →
      (((serve .plain fun _ => (none : Option (Json Unit))).final ⟨.new, []⟩ twoTenants).calls[i]? = some (c, p) ↔
        ((serveOnly .plain (fun _ => (none : Option (Json Unit))) "acme").final ⟨.new, []⟩ twoTenants).calls[i]? =
          some (c, p))) ∧
    SameView "acme" ((serve .plain fun _ => (none : Option (Json Unit))).final ⟨.new, []⟩ twoTenants).shared
      ((serveOnly .plain (fun _ => (none : Option (Json Unit))) "acme").final ⟨.new, []⟩ twoTenants).shared := by
  refine isolated_run ?_ ?_
  · intro c hc _
    simp only [twoTenants, requestOf, next, List.mem_cons, Move.start.injEq, reduceCtorEq, List.not_mem_nil, or_false,
      false_or] at hc
    rcases hc with rfl | rfl | rfl | rfl | rfl <;> trivial
  · decide +kernel

end GmKms.Api.TenantIsolation
