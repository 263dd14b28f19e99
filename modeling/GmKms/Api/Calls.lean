import GmKms.Api.KeyOperation
/-!
# Runs of service calls

The keystore as a machine that answers the methods of the services, and the methods of
the keystore that the handlers call themselves, one after the other.
-/

namespace GmKms.Api

open Lib Keystore Service

inductive ServiceOp where
  | key (keyId : Uuid) (tenantId : String) (op : KeyOperation)
  | createKey (spec : KeySpec) (name tenantId : String)
  | backend (op : BackendOp)

namespace ServiceOp

@[reducible] def Value : ServiceOp → Type
  | key _ _ op => op.Value
  | createKey .. => KeyMeta
  | backend op => op.Value

def service (crypto : ServiceCrypto) (env : ServiceEnv) : (op : ServiceOp) → Service op.Value
  | key keyId tenantId op => op.service crypto env keyId tenantId
  | createKey spec name tenantId => KeyService.createKey env spec name tenantId
  | backend op => ask op apiError

/-- The one call on the keystore by which an operation can change it. -/
def change? : ServiceOp → Option BackendOp
  | key keyId tenantId .rotateKey => some (.rotateKey keyId tenantId)
  | key keyId tenantId .deleteKey => some (.deleteKey keyId tenantId)
  | key .. => none
  | createKey spec name tenantId => some (.generateKey spec name tenantId)
  | backend op => some op

def perform (crypto : ServiceCrypto) (env : ServiceEnv) (op : ServiceOp) (ks : Software.SoftwareKeystore) :
    Except ApiAbort op.Value × Software.SoftwareKeystore :=
  runOn crypto.toCrypto env.toUseEnv (op.service crypto env) ks

end ServiceOp

structure ServiceCall where
  env : ServiceEnv
  op : ServiceOp

/-- The call on the keystore by which it can change it. -/
def ServiceCall.change? (c : ServiceCall) : Option Software.UseCall := c.op.change?.map (⟨c.env.toUseEnv, ·⟩)

/-- The keystore as a machine that answers the services' methods. -/
def serve (crypto : ServiceCrypto) :
    Machine Software.SoftwareKeystore ServiceCall (Σ op : ServiceOp, Except ApiAbort op.Value) := fun ks c =>
  (⟨c.op, (c.op.perform crypto c.env ks).1⟩, (c.op.perform crypto c.env ks).2)

/-- The keystore after a run of service calls. -/
def served (crypto : ServiceCrypto) (calls : List ServiceCall) : Software.SoftwareKeystore :=
  Machine.final (serve crypto) .new calls

/-! ## The keystore calls of a service -/

/-- The call leaves the keystore as it is. -/
def ReadOnly (op : BackendOp) : Prop :=
  ∀ crypto env ks, (Software.SoftwareKeystore.perform crypto env op ks).2 = ks

section

variable {α : Type} {Q : BackendOp → Prop}

theorem calls_ask {op : BackendOp} (h : Q op) (mapErr : Error → ApiError) : (ask op mapErr).Calls Q :=
  ⟨h, fun _ => trivial⟩

theorem calls_ite {c : Prop} [Decidable c] {p q : Service α} (hp : p.Calls Q) (hq : q.Calls Q) :
    (if c then p else q).Calls Q := by
  split
  · exact hp
  · exact hq

theorem calls_fetchOwnedKeyMeta (keyId : Uuid) (tenantId : String) :
    (CryptoService.fetchOwnedKeyMeta keyId tenantId).Calls ReadOnly :=
  (calls_ask (fun _ _ _ => rfl) _).bind fun _ => calls_ite trivial trivial

theorem calls_owned {f : KeyMeta → Service α} (hf : ∀ m, (f m).Calls ReadOnly) (keyId : Uuid) (tenantId : String) :
    (CryptoService.fetchOwnedKeyMeta keyId tenantId >>= f).Calls ReadOnly :=
  (calls_fetchOwnedKeyMeta keyId tenantId).bind hf

theorem calls_quota {f : Unit → Service α} (hf : (f ()).Calls ReadOnly) (env : ServiceEnv) :
    (CryptoService.checkQuota env >>= f).Calls ReadOnly := by
  refine Program.Calls.bind ?_ fun _ => hf
  unfold CryptoService.checkQuota
  split <;> trivial

theorem calls_prepareHmac (env : ServiceEnv) (keyId : Uuid) (tenantId : String) :
    (CryptoService.prepareHmac env keyId tenantId).Calls ReadOnly := by
  refine calls_quota (calls_owned (fun m => ?_) keyId tenantId) env
  refine Program.Calls.bind ?_ fun _ => trivial
  exact calls_ite trivial (calls_ask (fun _ _ _ => rfl) _)

theorem calls_exportOwned (crypto : ServiceCrypto) (env : ServiceEnv) (keyId : Uuid) (targetPublicKey : Bytes)
    (tenantId : String) (opts : ExportOptions) (keyMeta : KeyMeta) :
    (KeyService.exportOwned crypto env keyId targetPublicKey tenantId opts keyMeta).Calls ReadOnly := by
  refine Program.Calls.bind trivial fun _ => ?_
  refine (calls_ask (fun _ _ _ => rfl) _).bind fun _ => Program.Calls.bind ?_ fun _ => trivial
  unfold KeyService.selectMaterial
  split
  · exact calls_ite (calls_ask (fun _ _ _ => rfl) _) trivial
  · trivial

/-- An operation on one key that neither rotates nor deletes it only reads. -/
theorem calls_keyOperation (crypto : ServiceCrypto) (env : ServiceEnv) (keyId : Uuid) (tenantId : String)
    {op : KeyOperation} (hop : (ServiceOp.key keyId tenantId op).change? = none) :
    (op.service crypto env keyId tenantId).Calls ReadOnly := by
  cases op with
  | rotateKey | deleteKey => cases hop
  | getKey => exact calls_fetchOwnedKeyMeta keyId tenantId
  | exportKey targetPublicKey opts =>
    exact calls_owned (calls_exportOwned crypto env keyId targetPublicKey tenantId opts) keyId tenantId
  | encrypt | decrypt | sign | verify =>
    exact calls_quota (calls_owned (fun _ => calls_ask (fun _ _ _ => rfl) _) keyId tenantId) env
  | hmac | hmacVerify =>
    refine (calls_prepareHmac env keyId tenantId).bind ?_
    rintro ⟨keyMeta, material⟩
    dsimp only
    split <;> trivial
  | envelopeEncrypt plaintext =>
    refine (calls_ask (fun _ _ _ => rfl) _).bind fun _ => calls_ite trivial ?_
    exact (calls_ask (fun _ _ _ => rfl) _).bind fun _ => trivial
  | envelopeDecrypt | envelopeDecryptWithKekVersion =>
    exact (calls_ask (fun _ _ _ => rfl) _).bind fun _ => trivial
  | rewrapDek =>
    refine (calls_ask (fun _ _ _ => rfl) _).bind fun _ => calls_ite trivial (calls_ite trivial ?_)
    exact (calls_ask (fun _ _ _ => rfl) _).bind fun _ => (calls_ask (fun _ _ _ => rfl) _).bind fun _ => trivial

end

section

variable (crypto : ServiceCrypto) {env : ServiceEnv} {ks : Software.SoftwareKeystore} {keyId : Uuid} {tenantId : String}

/-- A method that checks the owner and then makes one call leaves what that call leaves, or nothing changed. -/
theorem runOn_owned_ask (op : BackendOp) :
    (runOn crypto.toCrypto env.toUseEnv (CryptoService.fetchOwnedKeyMeta keyId tenantId >>= fun _ => ask op apiError)
      ks).2 =
        ks ∨
      (runOn crypto.toCrypto env.toUseEnv (CryptoService.fetchOwnedKeyMeta keyId tenantId >>= fun _ => ask op apiError)
        ks).2 =
        (Software.SoftwareKeystore.perform crypto.toCrypto env.toUseEnv op ks).2 := by
  by_cases howned : ∃ entry, ks.keys[keyId]? = some entry ∧ entry.keyMeta.tenantId = tenantId
  · obtain ⟨entry, hentry, howned⟩ := howned
    rw [runOn_bind_ok (CryptoService.runOn_fetchOwnedKeyMeta_of_owned hentry howned)]
    exact .inr rfl
  · rw [runOn_bind_error (CryptoService.runOn_fetchOwnedKeyMeta_of_not_owned fun entry hentry ho =>
      howned ⟨entry, hentry, ho⟩)]
    exact .inl rfl

theorem perform_of_no_change (op : KeyOperation) (hop : (ServiceOp.key keyId tenantId op).change? = none) :
    (op.perform crypto env keyId tenantId ks).2 = ks :=
  (calls_keyOperation crypto env keyId tenantId hop).run_inv (I := fun ks' => ks' = ks)
    (fun _ ks' hb hks' => (hb _ _ ks').trans hks') rfl

theorem createKey_state (spec : KeySpec) (name tenantId : String) :
    (runOn crypto.toCrypto env.toUseEnv (KeyService.createKey env spec name tenantId) ks).2 = ks ∨
      (runOn crypto.toCrypto env.toUseEnv (KeyService.createKey env spec name tenantId) ks).2 =
        (Software.SoftwareKeystore.perform crypto.toCrypto env.toUseEnv (.generateKey spec name tenantId) ks).2 := by
  unfold KeyService.createKey
  split
  · exact .inl rfl
  · split
    · exact .inl rfl
    · exact .inr rfl

/-- A service call changes the keystore by at most one call on it. -/
theorem serve_state (c : ServiceCall) : (serve crypto ks c).2 = ks ∨
    ∃ u, c.change? = some u ∧
      (serve crypto ks c).2 = (Software.SoftwareKeystore.perform crypto.toCrypto u.env u.op ks).2 := by
  obtain ⟨env, op⟩ := c
  cases op with
  | createKey spec name tenantId => exact (createKey_state crypto spec name tenantId).imp id fun h => ⟨_, rfl, h⟩
  | backend op => exact .inr ⟨_, rfl, rfl⟩
  | key keyId tenantId op =>
    cases hchange : (ServiceOp.key keyId tenantId op).change? with
    | none => exact .inl (perform_of_no_change crypto _ hchange)
    | some b =>
      cases op with
      | rotateKey => exact (runOn_owned_ask crypto _).imp id fun h => ⟨_, rfl, h⟩
      | deleteKey => exact (runOn_owned_ask crypto _).imp id fun h => ⟨_, rfl, h⟩
      | _ => cases hchange

end

/-! ## Ids of new keys -/

/-- The call makes a key under a new id. -/
def ServiceCall.creates (c : ServiceCall) : Bool := c.change?.any fun u => u.op.creates

/-- No operation on one key makes a key. -/
theorem creates_key (env : ServiceEnv) (keyId : Uuid) (tenantId : String) (op : KeyOperation) :
    (ServiceCall.mk env (.key keyId tenantId op)).creates = false := by
  cases op <;> rfl

/-- `Uuid::new_v4` returns an id that it has not returned before. -/
def NewId (h : History ServiceCall (Σ op : ServiceOp, Except ApiAbort op.Value)) (c : ServiceCall) : Prop :=
  c.creates = true → ∀ e ∈ h, e.1.creates = true → e.1.env.uuid ≠ c.env.uuid

/-- A call on a key draws no id. -/
theorem newId_key {h : History ServiceCall (Σ op : ServiceOp, Except ApiAbort op.Value)} {env : ServiceEnv}
    {keyId : Uuid} {tenantId : String} {op : KeyOperation} : NewId h ⟨env, .key keyId tenantId op⟩ := by
  intro hcreates
  rw [creates_key] at hcreates
  cases hcreates

end GmKms.Api
