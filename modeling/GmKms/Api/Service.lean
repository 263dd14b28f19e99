import GmKms.Api.Error
import GmKms.Keystore.SoftwareSteps
import GmKms.Lib.Program
/-!
# Services

A method of a service is a program over the calls it makes on the keystore. What it
draws from outside itself, and what the quota tracker answers, is its environment.
The metrics and counters that a service updates after a success are left out.
-/

namespace GmKms.Api

open Lib Keystore

/-- `quota::QuotaExceeded`. -/
structure QuotaExceeded where
  resource : String
  current : ℕ
  limit : ℕ
  deriving DecidableEq

/-- What a service call reads from outside: what the keystore reads, what
`TenantQuotaTracker` answers (`none` where it admits the request or is not
configured), and the fills of `SystemRandom` in order (`none` where one fails). -/
structure ServiceEnv extends Software.UseEnv where
  recordRequest : Option QuotaExceeded
  canCreateKey : Bool
  system : ℕ → Option (ℕ → UInt8)

/-- The primitives the services use besides: `Sm3Hmac`, and encryption to a public key. -/
structure ServiceCrypto extends Crypto where
  /-- `Sm3Hmac::compute`. -/
  sm3Hmac (key data : Bytes) : Except String Bytes
  /-- `Sm3Hmac::verify`. -/
  sm3HmacVerify (key data mac : Bytes) : Except String Bool
  /-- Whether `RsaPublicKey::from_pkcs1_der` accepts the key. -/
  rsaPublicKey (der : Bytes) : Bool
  /-- RSA-OAEP with SHA-256. -/
  rsaEncrypt (seed : ℕ) (der plaintext : Bytes) : Except String Bytes
  /-- Whether `Sm2Encryptor::new` accepts the key. -/
  sm2PublicKey (sec1 : Bytes) : Bool
  sm2EncryptTo (seed : ℕ) (sec1 plaintext : Bytes) : Except String Bytes

/-- Primitives that hide nothing, to run the services on. -/
def ServiceCrypto.plain : ServiceCrypto where
  toCrypto := Crypto.plain
  sm3Hmac key data := .ok (key ++ data)
  sm3HmacVerify key data mac := .ok (mac = key ++ data)
  rsaPublicKey _ := true
  rsaEncrypt _ _ plaintext := .ok plaintext
  sm2PublicKey _ := true
  sm2EncryptTo _ _ plaintext := .ok (List.replicate 97 0 ++ plaintext)

/-- An environment that admits every request and draws the same byte for ever. -/
def sampleServiceEnv (byte : UInt8) : ServiceEnv :=
  { uuid := 1, now := 0, random := fun _ => byte, sm2KeyPair := .error "no entropy", seed := 0, rank := fun _ => 0,
    recordRequest := none, canCreateKey := true, system := fun _ => some fun _ => byte }

/-- A method of a service. -/
abbrev Service (α : Type) : Type := Program BackendOp.Reply ApiAbort α

namespace Service

def fail {α : Type} (e : ApiError) : Service α := Program.fail (.error e)

/-- The keystore's answer, its error mapped; a panic unwinds through the service. -/
def answer {α : Type} (mapErr : Error → ApiError) : Except Abort α → Except ApiAbort α
  | .ok v => .ok v
  | .error (.error e) => .error (.error (mapErr e))
  | .error (.panic message) => .error (.panic message)

/-- A call on the keystore, its error mapped as the method maps it. -/
def ask (op : BackendOp) (mapErr : Error → ApiError) : Service op.Value := .call op fun r => .done (answer mapErr r)

/-- `SystemRandom::fill` of `len` bytes, as the `n`-th fill of the call. -/
def fill (env : ServiceEnv) (n len : ℕ) (what : String) : Except ApiAbort Bytes :=
  match env.system n with
  | none => .error (.error (.internal s!"failed to generate {what}: ring::error::Unspecified"))
  | some bytes => .ok ((List.range len).map bytes)

theorem length_of_fill {env : ServiceEnv} {n len : ℕ} {what : String} {bytes : Bytes}
    (h : fill env n len what = .ok bytes) : bytes.length = len := by
  unfold fill at h
  split at h
  · cases h
  · cases h
    simp

/-- The method on a keystore, alone. -/
def runOn {α : Type} (crypto : Crypto) (env : Software.UseEnv) (p : Service α) (ks : Software.SoftwareKeystore) :
    Except ApiAbort α × Software.SoftwareKeystore :=
  p.run (Software.SoftwareKeystore.perform crypto env) ks

section

variable {α β : Type} (crypto : Crypto) (env : Software.UseEnv) (ks : Software.SoftwareKeystore)

@[simp] theorem answer_ok (mapErr : Error → ApiError) (v : α) : answer mapErr (.ok v) = .ok v := rfl

@[simp] theorem answer_error (mapErr : Error → ApiError) (e : Error) :
    answer mapErr (.error (.error e) : Except Abort α) = .error (.error (mapErr e)) := rfl

@[simp] theorem runOn_pure (a : α) : runOn crypto env (pure a) ks = (.ok a, ks) := rfl

@[simp] theorem runOn_fail (e : ApiError) : runOn crypto env (fail e : Service α) ks = (.error (.error e), ks) := rfl

@[simp] theorem runOn_lift (r : Except ApiAbort α) : runOn crypto env (Program.lift r) ks = (r, ks) := rfl

theorem runOn_ask (op : BackendOp) (mapErr : Error → ApiError) : runOn crypto env (ask op mapErr) ks =
    (answer mapErr (Software.SoftwareKeystore.perform crypto env op ks).1,
      (Software.SoftwareKeystore.perform crypto env op ks).2) := rfl

/-! The accessors of the keystore leave it as it is. -/

theorem runOn_getKeyMetadata (keyId : Uuid) (mapErr : Error → ApiError) :
    runOn crypto env (ask (.getKeyMetadata keyId) mapErr) ks = (answer mapErr (ks.getKeyMetadata keyId), ks) := rfl

theorem runOn_getKeyMaterial (keyId : Uuid) (tenantId : String) (mapErr : Error → ApiError) :
    runOn crypto env (ask (.getKeyMaterial keyId tenantId) mapErr) ks =
      (answer mapErr (ks.getKeyMaterial keyId tenantId), ks) := rfl

theorem runOn_getKeyMaterialVersion (keyId : Uuid) (version : UInt32) (tenantId : String)
    (mapErr : Error → ApiError) : runOn crypto env (ask (.getKeyMaterialVersion keyId version tenantId) mapErr) ks =
      (answer mapErr (ks.getKeyMaterialVersion keyId version tenantId), ks) := rfl

theorem runOn_exportKeyMaterial (keyId : Uuid) (tenantId : String) (mapErr : Error → ApiError) :
    runOn crypto env (ask (.exportKeyMaterial keyId tenantId) mapErr) ks =
      (answer mapErr (ks.exportKeyMaterial keyId tenantId), ks) := rfl

variable {crypto env ks}

theorem runOn_bind_ok {p : Service α} {f : α → Service β} {a : α} {ks' : Software.SoftwareKeystore}
    (h : runOn crypto env p ks = (.ok a, ks')) : runOn crypto env (p >>= f) ks = runOn crypto env (f a) ks' :=
  Program.run_bind_ok h

theorem runOn_bind_error {p : Service α} {f : α → Service β} {e : ApiAbort} {ks' : Software.SoftwareKeystore}
    (h : runOn crypto env p ks = (.error e, ks')) : runOn crypto env (p >>= f) ks = (.error e, ks') :=
  Program.run_bind_error h

/-- A method that returns a value got one from each of its parts. -/
theorem runOn_bind_eq_ok {p : Service α} {f : α → Service β} {b : β} (h : (runOn crypto env (p >>= f) ks).1 = .ok b) :
    ∃ a ks', runOn crypto env p ks = (.ok a, ks') ∧ (runOn crypto env (f a) ks').1 = .ok b := by
  cases hp : runOn crypto env p ks with
  | mk r ks' =>
    cases r with
    | error e =>
      rw [runOn_bind_error hp] at h
      cases h
    | ok a =>
      rw [runOn_bind_ok hp] at h
      exact ⟨a, ks', rfl, h⟩

theorem answer_eq_ok_iff {mapErr : Error → ApiError} {r : Except Abort α} {v : α} :
    answer mapErr r = .ok v ↔ r = .ok v := by
  rcases r with (_ | _) | _ <;> simp [answer]

variable {keyId : Uuid} {tenantId : String} {mapErr : Error → ApiError} {ks' : Software.SoftwareKeystore}

theorem runOn_getKeyMetadata_eq_ok {keyMeta : KeyMeta}
    (h : runOn crypto env (ask (.getKeyMetadata keyId) mapErr) ks = (.ok keyMeta, ks')) :
    ks' = ks ∧ ∃ entry, ks.keys[keyId]? = some entry ∧ entry.keyMeta = keyMeta := by
  rw [runOn_getKeyMetadata, Prod.mk.injEq, answer_eq_ok_iff,
    Software.SoftwareKeystore.getKeyMetadata_eq_ok_iff] at h
  exact ⟨h.2.symm, h.1⟩

theorem runOn_getKeyMaterial_eq_ok {material : Bytes}
    (h : runOn crypto env (ask (.getKeyMaterial keyId tenantId) mapErr) ks = (.ok material, ks')) :
    ks' = ks ∧ ∃ entry, ks.keys[keyId]? = some entry ∧ entry.keyMeta.tenantId = tenantId ∧
    entry.material = material := by
  rw [runOn_getKeyMaterial, Prod.mk.injEq, answer_eq_ok_iff,
    Software.SoftwareKeystore.getKeyMaterial_eq_ok_iff] at h
  exact ⟨h.2.symm, h.1⟩

theorem runOn_getKeyMaterialVersion_eq_ok {version : UInt32} {material : Bytes}
    (h : runOn crypto env (ask (.getKeyMaterialVersion keyId version tenantId) mapErr) ks = (.ok material, ks')) :
    ks' = ks ∧ ∃ entry, ks.keys[keyId]? = some entry ∧ entry.keyMeta.tenantId = tenantId ∧
      entry.requested version = some material := by
  rw [runOn_getKeyMaterialVersion, Prod.mk.injEq, answer_eq_ok_iff,
    Software.SoftwareKeystore.getKeyMaterialVersion_eq_ok_iff] at h
  exact ⟨h.2.symm, h.1⟩

theorem runOn_exportKeyMaterial_eq_ok {material : Bytes}
    (h : runOn crypto env (ask (.exportKeyMaterial keyId tenantId) mapErr) ks = (.ok material, ks')) :
    ks' = ks ∧ ∃ entry, ks.keys[keyId]? = some entry ∧ entry.keyMeta.tenantId = tenantId ∧
      entry.keyMeta.status = .active ∧ entry.material = material := by
  rw [runOn_exportKeyMaterial, Prod.mk.injEq, answer_eq_ok_iff,
    Software.SoftwareKeystore.exportKeyMaterial_eq_ok_iff] at h
  exact ⟨h.2.symm, h.1⟩

end

end Service

end GmKms.Api
