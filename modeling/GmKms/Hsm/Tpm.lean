import GmKms.Keystore.Backend
/-!
# The simulated TPM

`SimulatedTpmKeystore`: keys in a simulated NV storage, each under its handle, and
a bank of platform configuration registers that a key can be bound to.
-/

namespace GmKms.Hsm

open Lib Keystore

instance transOrd_uint32 : Std.TransOrd UInt32 := inferInstance

/-- How a call of this backend ends without a value; two of its errors carry registers. -/
inductive TpmAbort where
  | abort (a : Abort)
  | tpmError (message : String)
  | tpmPcrMismatch (expected actual : Bytes)
  deriving DecidableEq

def failed (e : Error) : TpmAbort := .abort (.error e)

def numPcrs : ℕ := 24

/-! ## Registers -/

structure PcrBank where
  values : Fin numPcrs → Bytes

/-- Pairs of an index and the value it has to have. -/
abbrev PcrBinding := List (ℕ × Bytes)

namespace PcrBank

/-- `PcrBank::default`. -/
def default : PcrBank := ⟨fun _ => List.replicate 32 0⟩

def read (bank : PcrBank) (pcrIndex : ℕ) : Option Bytes :=
  if h : pcrIndex < numPcrs then some (bank.values ⟨pcrIndex, h⟩) else none

def extend (sha256 : Bytes → Bytes) (bank : PcrBank) (pcrIndex : ℕ) (data : Bytes) : PcrBank :=
  if h : pcrIndex < numPcrs then
    ⟨Function.update bank.values ⟨pcrIndex, h⟩ (sha256 (bank.values ⟨pcrIndex, h⟩ ++ data))⟩
  else bank

end PcrBank

/-! ## The store -/

structure TpmAuth where
  handle : UInt32
  sessionHandle : UInt32
  deriving DecidableEq

structure TpmNvEntry where
  keyMeta : KeyMeta
  sealedMaterial : Bytes
  auth : TpmAuth
  pcrBinding : Option PcrBinding
  deriving DecidableEq

structure SimulatedTpmKeystore where
  nvStorage : HashMap UInt32 TpmNvEntry
  nextNvIndex : UInt32
  pcrBank : PcrBank

/-- The primitives this backend uses besides. -/
structure TpmCrypto extends Crypto where
  /-- `Ed25519KeyPair::from_seed_and_public_key`. -/
  ed25519SeedAndPublicKey (seed publicKey : Bytes) : Bool
  ed25519VerifyPublic (publicKey data signature : Bytes) : Bool
  /-- The error of `Sm2Verifier::verify`. -/
  sm2VerifyError (key data signature : Bytes) : String

/-- What a call reads from outside, and whether `SystemRandom` can fill a buffer. -/
structure TpmEnv extends Software.UseEnv where
  randomReady : Bool

/-- Primitives to run the backend on: those of the keystore, with a hash that no two inputs share. -/
def TpmCrypto.plain : TpmCrypto where
  toCrypto := { Crypto.plain with sha256 := fun data => 1 :: data }
  ed25519SeedAndPublicKey _ _ := true
  ed25519VerifyPublic _ _ _ := true
  sm2VerifyError _ _ _ := "verification failed"

theorem TpmCrypto.plain_lawful : TpmCrypto.plain.toCrypto.Lawful where
  seal_total _ _ _ _ := ⟨_, rfl⟩
  tag_length h := by cases h; rfl
  open_seal h := by cases h; simp [plain, Crypto.plain]

/-- A call that draws the id `uuid` at the time `now`. -/
def sampleEnv (uuid : Uuid) (now : DateTime) : TpmEnv where
  uuid := uuid
  now := now
  random _ := 7
  sm2KeyPair := .error "not drawn"
  seed := 0
  rank _ := 0
  randomReady := true

def tpmNvKeyBase : UInt32 := 0x01800200

namespace SimulatedTpmKeystore

def new : SimulatedTpmKeystore := ⟨∅, tpmNvKeyBase, .default⟩

def newWithPcrs (sha256 : Bytes → Bytes) (initialPcrs : List (ℕ × Bytes)) : SimulatedTpmKeystore :=
  ⟨∅, tpmNvKeyBase, initialPcrs.foldl (fun bank p => bank.extend sha256 p.1 p.2) .default⟩

def put (tpm : SimulatedTpmKeystore) (handle : UInt32) (entry : TpmNvEntry) : SimulatedTpmKeystore :=
  { tpm with nvStorage := tpm.nvStorage.insert handle entry }

/-- `nv.values().find(..)`. One entry at most has the id, so the order of iteration does not show. -/
def entryOf? (tpm : SimulatedTpmKeystore) (keyId : Uuid) : Option (UInt32 × TpmNvEntry) :=
  tpm.nvStorage.toList.find? fun e => e.2.keyMeta.id == keyId

def entryFor (tpm : SimulatedTpmKeystore) (keyId : Uuid) : Except TpmAbort (UInt32 × TpmNvEntry) :=
  match tpm.entryOf? keyId with
  | none => .error (failed (.keyNotFound keyId.text))
  | some e => .ok e

def checkPcrBinding (tpm : SimulatedTpmKeystore) (pcrBinding : Option PcrBinding) : Except TpmAbort Unit :=
  match pcrBinding with
  | none => .ok ()
  | some bindings =>
    forM bindings fun (pcrIndex, expected) =>
      match tpm.pcrBank.read pcrIndex with
      | none => .error (.tpmError s!"invalid PCR index: {pcrIndex}")
      | some actual => if actual ≠ expected then .error (.tpmPcrMismatch expected actual) else .ok ()

/-! ## Creating keys -/

/-- The `len` of `generate_key_material`. -/
def materialLen : KeySpec → Except TpmAbort ℕ
  | .aes256Gcm | .hmacSha256 | .sm3Hmac => .ok 32
  | .ecdsaP256 | .ecdsaP384 | .ed25519 | .ed448 => .ok 32
  | .sm4 => .ok 16
  | .sm2 => .ok 32
  | .sm9Signing | .sm9Encryption => .error (failed (.notImplemented "SM9 not yet implemented in TPM backend"))
  | .rsa4096 => .error (failed (.notImplemented "RSA key generation not yet implemented"))

def generateKeyMaterial (env : TpmEnv) (spec : KeySpec) : Except TpmAbort Bytes :=
  match materialLen spec with
  | .error e => .error e
  | .ok len =>
    if env.randomReady then .ok (env.fillBytes len) else .error (failed (.internal "failed to generate random key"))

/-- The part that both ways to generate a key have in common. -/
def createKey (tpm : SimulatedTpmKeystore) (env : TpmEnv) (spec : KeySpec) (name tenantId : String)
    (pcrBinding : Option PcrBinding) : Except TpmAbort KeyMeta × SimulatedTpmKeystore :=
  match generateKeyMaterial env spec with
  | .error e => (.error e, tpm)
  | .ok material =>
    let handle := tpm.nextNvIndex
    let keyMeta := Software.SoftwareKeystore.newMeta env.toEnv spec name tenantId none
    let entry : TpmNvEntry := { keyMeta, sealedMaterial := material, auth := ⟨handle, 1⟩, pcrBinding }
    (.ok keyMeta, ({ tpm with nextNvIndex := handle + 1 } : SimulatedTpmKeystore).put handle entry)

def generateKey (tpm : SimulatedTpmKeystore) (env : TpmEnv) (spec : KeySpec) (name tenantId : String) :
    Except TpmAbort KeyMeta × SimulatedTpmKeystore := tpm.createKey env spec name tenantId none

/-- The registers as they are when the key is created. -/
def capture (bank : PcrBank) (pcrIndices : List ℕ) : PcrBinding :=
  pcrIndices.filterMap fun idx => (bank.read idx).map fun value => (idx, value)

def generateKeyWithPcrBinding (tpm : SimulatedTpmKeystore) (env : TpmEnv) (spec : KeySpec) (name tenantId : String)
    (pcrIndices : List ℕ) : Except TpmAbort KeyMeta × SimulatedTpmKeystore :=
  match pcrIndices.find? fun idx => numPcrs ≤ idx with
  | some idx =>
    let last := numPcrs - 1
    (.error (.tpmError s!"invalid PCR index: {idx}, valid range is 0-{last}"), tpm)
  | none => tpm.createKey env spec name tenantId (some (capture tpm.pcrBank pcrIndices))

/-! ## Primitives -/

section

variable (crypto : TpmCrypto)

def aesGcmEncrypt (key plaintext nonce : Bytes) : Except TpmAbort Bytes :=
  match crypto.aesUnboundKey key with
  | .error _ => .error (failed (.encryptionFailed "invalid key"))
  | .ok _ =>
    match crypto.aesSeal key nonce [] plaintext with
    | .error _ => .error (failed (.encryptionFailed "encryption failed"))
    | .ok (ciphertext, tag) => .ok (ciphertext ++ tag)

def aesGcmDecrypt (key ciphertext nonce : Bytes) : Except TpmAbort Bytes :=
  match crypto.aesUnboundKey key with
  | .error _ => .error (failed (.decryptionFailed "invalid key"))
  | .ok _ =>
    if nonce.length ≠ 12 then .error (failed (.decryptionFailed "invalid nonce length"))
    else
      match crypto.aesOpen key nonce [] ciphertext with
      | none => .error (failed .invalidCiphertext)
      | some plaintext => .ok plaintext

/-- The key is taken apart into a seed and a public key before its length has been checked for the second. -/
def ed25519Sign (privateKey data : Bytes) : Except TpmAbort Bytes :=
  if privateKey.length < 32 then .error (failed (.signatureFailed "key too short"))
  else if privateKey.length < 64 then .error (.abort (.panic "range end index out of range for slice"))
  else if crypto.ed25519SeedAndPublicKey (privateKey.take 32) ((privateKey.drop 32).take 32) then
    .ok (crypto.ed25519Sign (privateKey.take 32) data)
  else .error (failed (.signatureFailed "invalid key"))

def ed25519Verify (publicKey data signature : Bytes) : Except TpmAbort Bool :=
  if publicKey.length < 32 then .error (failed (.verificationFailed "invalid public key"))
  else .ok (crypto.ed25519VerifyPublic (publicKey.take 32) data signature)

def sm2Sign (env : TpmEnv) (privateKey data : Bytes) : Except TpmAbort Bytes :=
  match crypto.sm2KeyPair privateKey with
  | .error e => .error (failed (.signatureFailed s!"invalid SM2 key: {e}"))
  | .ok _ =>
    match crypto.sm2Sign env.seed privateKey data with
    | .error e => .error (failed (.signatureFailed e))
    | .ok signature => .ok signature

def sm2Verify (privateKey data signature : Bytes) : Except TpmAbort Bool :=
  match crypto.sm2KeyPair privateKey, crypto.sm2Verifier privateKey with
  | .error e, _ => .error (failed (.verificationFailed s!"invalid SM2 key: {e}"))
  | .ok _, .error e => .error (failed (.verificationFailed s!"invalid public key: {e}"))
  | .ok _, .ok _ =>
    if crypto.sm2Verify privateKey data signature then .ok true
    else .error (failed (.verificationFailed (crypto.sm2VerifyError privateKey data signature)))

/-! ## Using keys -/

def tpmProtect (tpm : SimulatedTpmKeystore) (env : TpmEnv) (keyId : Uuid) (plaintext : Bytes) :
    Except TpmAbort Ciphertext := do
  let (_, entry) ← tpm.entryFor keyId
  tpm.checkPcrBinding entry.pcrBinding
  if entry.sealedMaterial.length < 32 then .error (failed (.encryptionFailed "key material too short"))
  else if !env.randomReady then .error (failed (.encryptionFailed "failed to generate nonce"))
  else
    let nonce := env.fillBytes 12
    let ciphertext ← aesGcmEncrypt crypto (entry.sealedMaterial.take 32) plaintext nonce
    .ok
      { keyId
        version := entry.keyMeta.version
        formatVersion := 1
        nonce, ciphertext
        tag := List.replicate 16 0 }

def tpmUnprotect (tpm : SimulatedTpmKeystore) (keyId : Uuid) (ciphertext : Ciphertext) : Except TpmAbort Bytes := do
  let (_, entry) ← tpm.entryFor keyId
  tpm.checkPcrBinding entry.pcrBinding
  if entry.sealedMaterial.length < 32 then .error (failed (.decryptionFailed "key material too short"))
  else aesGcmDecrypt crypto (entry.sealedMaterial.take 32) ciphertext.ciphertext ciphertext.nonce

/-- The registers are not compared here. -/
def tpmSign (tpm : SimulatedTpmKeystore) (env : TpmEnv) (keyId : Uuid) (data : Bytes) : Except TpmAbort Signature := do
  let (_, entry) ← tpm.entryFor keyId
  match entry.keyMeta.spec with
  | .ed25519 =>
    let signature ← ed25519Sign crypto entry.sealedMaterial data
    .ok { keyId, version := entry.keyMeta.version, signature }
  | .sm2 =>
    let signature ← sm2Sign crypto env entry.sealedMaterial data
    .ok { keyId, version := entry.keyMeta.version, signature }
  | _ => .error (failed (.signatureFailed "sign operation not supported for this key type"))

def tpmVerify (tpm : SimulatedTpmKeystore) (keyId : Uuid) (data : Bytes) (sig : Signature) : Except TpmAbort Bool := do
  let (_, entry) ← tpm.entryFor keyId
  match entry.keyMeta.spec with
  | .ed25519 => ed25519Verify crypto entry.sealedMaterial data sig.signature
  | .sm2 => sm2Verify crypto entry.sealedMaterial data sig.signature
  | _ => .error (failed (.verificationFailed "verify operation not supported for this key type"))

/-! ## The lifecycle -/

def rotateKey (tpm : SimulatedTpmKeystore) (env : TpmEnv) (keyId : Uuid) :
    Except TpmAbort KeyMeta × SimulatedTpmKeystore :=
  match tpm.entryFor keyId with
  | .error e => (.error e, tpm)
  | .ok (handle, entry) =>
    let keyMeta := { entry.keyMeta with
      version := entry.keyMeta.version + 1
      rotatedAt := some env.now
      status := .active }
    (.ok keyMeta, tpm.put handle { entry with keyMeta })

def deleteKey (tpm : SimulatedTpmKeystore) (keyId : Uuid) : Except TpmAbort Unit × SimulatedTpmKeystore :=
  match tpm.entryFor keyId with
  | .error e => (.error e, tpm)
  | .ok (handle, entry) =>
    (.ok (), tpm.put handle { entry with keyMeta := { entry.keyMeta with status := .pendingDeletion } })

def destroyKey (tpm : SimulatedTpmKeystore) (keyId : Uuid) : Except TpmAbort Unit × SimulatedTpmKeystore :=
  match tpm.entryFor keyId with
  | .error e => (.error e, tpm)
  | .ok (_, entry) => (.ok (), { tpm with nvStorage := tpm.nvStorage.erase entry.auth.handle })

def destroyKeyWithProof (tpm : SimulatedTpmKeystore) (env : TpmEnv) (keyId : Uuid) :
    Except TpmAbort DestructionProof × SimulatedTpmKeystore :=
  match tpm.entryFor keyId with
  | .error e => (.error e, tpm)
  | .ok (_, entry) =>
    let materialHash := hexEncode (crypto.sha256 entry.sealedMaterial)
    match tpm.destroyKey keyId with
    | (.error e, tpm) => (.error e, tpm)
    | (.ok _, tpm) => (.ok (.new env.now keyId materialHash entry.sealedMaterial.length true none), tpm)

def listKeys (tpm : SimulatedTpmKeystore) (env : TpmEnv) (filter : KeyFilter) : List KeyMeta :=
  let values := (tpm.nvStorage.toList.map (·.2.keyMeta)).mergeSort fun a b => env.rank a.id ≤ env.rank b.id
  values.filter fun keyMeta => filter.tenantId.all fun t => keyMeta.tenantId = t

end

end SimulatedTpmKeystore

/-! ## Calls -/

/-- The methods of the keystore trait, and those for the registers. -/
inductive TpmOp where
  | backend (op : BackendOp)
  | extendPcr (pcrIndex : ℕ) (data : Bytes)
  | generateKeyWithPcrBinding (spec : KeySpec) (name tenantId : String) (pcrIndices : List ℕ)

@[reducible] def TpmOp.Value : TpmOp → Type
  | backend op => op.Value
  | extendPcr .. => Unit
  | generateKeyWithPcrBinding .. => KeyMeta

abbrev TpmOp.Reply (op : TpmOp) : Type := Except TpmAbort op.Value

structure TpmCall where
  env : TpmEnv
  op : TpmOp

namespace SimulatedTpmKeystore

variable (crypto : TpmCrypto)

def notSupported {α : Type} (message : String) : Except TpmAbort α := .error (failed (.notImplemented message))

/-- `impl KeystoreBackend for SimulatedTpmKeystore`. The tenant is passed on to none of them. -/
def performBackend (env : TpmEnv) :
    (op : BackendOp) → SimulatedTpmKeystore → Except TpmAbort op.Value × SimulatedTpmKeystore
  | .generateKey spec name tenantId, tpm => tpm.generateKey env spec name tenantId
  | .getKeyMetadata keyId, tpm => ((tpm.entryFor keyId).map (·.2.keyMeta), tpm)
  | .encrypt keyId plaintext _, tpm => (tpm.tpmProtect crypto env keyId plaintext, tpm)
  | .decrypt keyId ciphertext _, tpm => (tpm.tpmUnprotect crypto keyId ciphertext, tpm)
  | .sign keyId data _, tpm => (tpm.tpmSign crypto env keyId data, tpm)
  | .verify keyId data sig _, tpm => (tpm.tpmVerify crypto keyId data sig, tpm)
  | .rotateKey keyId _, tpm => tpm.rotateKey env keyId
  | .deleteKey keyId _, tpm => tpm.deleteKey keyId
  | .destroyKey keyId, tpm => tpm.destroyKey keyId
  | .destroyKeyWithProof keyId, tpm => tpm.destroyKeyWithProof crypto env keyId
  | .listKeys filter, tpm => (.ok (tpm.listKeys env filter), tpm)
  | .importKeyMaterial .., tpm => (notSupported "TPM keystore does not support importing raw key material", tpm)
  | .exportKeyMaterial .., tpm => (notSupported "TPM keystore does not support exporting key material", tpm)
  | .getKeyMaterial .., tpm => (notSupported "TPM keystore does not expose raw key material", tpm)
  -- the default of the trait, which asks for the current material first
  | .getKeyMaterialVersion .., tpm => (notSupported "TPM keystore does not expose raw key material", tpm)
  | .deriveSharedSecret .., tpm => (notSupported "TPM keystore DH key exchange not yet implemented", tpm)

def perform (env : TpmEnv) : (op : TpmOp) → SimulatedTpmKeystore → op.Reply × SimulatedTpmKeystore
  | .backend op, tpm => tpm.performBackend crypto env op
  | .extendPcr pcrIndex data, tpm =>
    (.ok (), { tpm with pcrBank := tpm.pcrBank.extend crypto.sha256 pcrIndex data })
  | .generateKeyWithPcrBinding spec name tenantId pcrIndices, tpm =>
    tpm.generateKeyWithPcrBinding env spec name tenantId pcrIndices

def use : Machine SimulatedTpmKeystore TpmCall (Σ op : TpmOp, op.Reply) := fun tpm c =>
  (⟨c.op, (perform crypto c.env c.op tpm).1⟩, (perform crypto c.env c.op tpm).2)

end SimulatedTpmKeystore

end GmKms.Hsm
