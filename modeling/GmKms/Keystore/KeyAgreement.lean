import GmKms.Keystore.SoftwareSteps
/-!
# Key agreement

Two keys agree on a secret where each side multiplies its own private key with the other's
public key. `derive_x25519` does; `derive_ecdh_p256` and `derive_ecdh_p384` multiply a fresh
ephemeral key that nobody else learns of.
-/

namespace GmKms.Keystore.Software

/-- Diffie-Hellman on a curve: `shared a B` is the multiple `a * B`, encoded as the secret. -/
structure DhCurve where
  Valid : Bytes → Prop
  publicKey : Bytes → Bytes
  shared : Bytes → Bytes → Bytes
  commute : ∀ a b, Valid a → Valid b → shared a (publicKey b) = shared b (publicKey a)

/-- A fresh private key is drawn for each exchange; with any public key, some two draws give
different secrets. -/
structure Ephemeral (curve : DhCurve) (draw : ℕ → Bytes) (ecdh : ℕ → Bytes → Except String Bytes) : Prop where
  valid : ∀ seed, curve.Valid (draw seed)
  computes : ∀ seed b, curve.Valid b →
    ecdh seed (curve.publicKey b) = .ok (curve.shared (draw seed) (curve.publicKey b))
  fresh : ∀ b, curve.Valid b →
    ∃ seed seed', curve.shared (draw seed) (curve.publicKey b) ≠ curve.shared (draw seed') (curve.publicKey b)

/-- The primitives compute on these curves: `p256` and `p384` with ephemeral keys, `x25519-dalek`
with the first 32 bytes of a private key. -/
structure Computes (crypto : Crypto) (curve : DhAlgorithm → DhCurve) : Prop where
  p256 : ∃ draw, Ephemeral (curve .ecdsaP256) draw crypto.p256Ecdh
  p384 : ∃ draw, Ephemeral (curve .ecdsaP384) draw crypto.p384Ecdh
  x25519_private : ∀ a, (curve .x25519).Valid a → 32 ≤ a.length
  x25519_public : ∀ b, (curve .x25519).Valid b → ((curve .x25519).publicKey b).length = 32
  x25519 : ∀ a b, (curve .x25519).Valid a → (curve .x25519).Valid b →
    crypto.x25519 (a.take 32) ((curve .x25519).publicKey b) = (curve .x25519).shared a ((curve .x25519).publicKey b)

/-- A key of a keystore, which its tenant can use, with material that is a private key of the curve. -/
structure Holder (curve : DhCurve) where
  ks : SoftwareKeystore
  keyId : Uuid
  tenantId : String
  entry : KeyEntry
  held : ks.keys[keyId]? = some entry
  owned : entry.keyMeta.tenantId = tenantId
  active : entry.keyMeta.status = .active
  valid : curve.Valid entry.material

namespace Holder

variable {curve : DhCurve}

def publicKey (a : Holder curve) : Bytes := curve.publicKey a.entry.material

/-- The secret that the holders share. -/
def sharedWith (a b : Holder curve) : Bytes := curve.shared a.entry.material b.publicKey

theorem sharedWith_comm (a b : Holder curve) : a.sharedWith b = b.sharedWith a :=
  curve.commute _ _ a.valid b.valid

def derive (crypto : Crypto) (env : UseEnv) (algorithm : DhAlgorithm) (a b : Holder curve) :
    Except Abort SharedSecret :=
  a.ks.deriveSharedSecret crypto env a.keyId b.publicKey algorithm a.tenantId

/-- Both sides get one secret, whatever either draws, and get it again. -/
structure Agree (crypto : Crypto) (algorithm : DhAlgorithm) (a b : Holder curve) : Prop where
  same : ∀ env env', ∃ secret, a.derive crypto env algorithm b = .ok secret ∧
    b.derive crypto env' algorithm a = .ok secret
  repeated : ∀ env env', a.derive crypto env algorithm b = a.derive crypto env' algorithm b

/-- The `match algorithm` of `derive_shared_secret`. -/
def exchange (crypto : Crypto) (env : UseEnv) (privateKey peerPublicKey : Bytes) : DhAlgorithm → Except Abort Bytes
  | .ecdsaP256 => SoftwareKeystore.deriveEcdhP256 crypto env privateKey peerPublicKey
  | .ecdsaP384 => SoftwareKeystore.deriveEcdhP384 crypto env privateKey peerPublicKey
  | .x25519 => SoftwareKeystore.deriveX25519 crypto privateKey peerPublicKey
  | .sm2Kex => SoftwareKeystore.deriveSm2Kex privateKey peerPublicKey

theorem derive_of_exchange {crypto : Crypto} {env : UseEnv} {algorithm : DhAlgorithm} {a b : Holder curve}
    {secret : Bytes}
    (h : exchange crypto env a.entry.material b.publicKey algorithm = .ok secret) :
    a.derive crypto env algorithm b = .ok { secret, kdf := some "HKDF-SHA256" } := by
  unfold derive SoftwareKeystore.deriveSharedSecret
  rw [SoftwareKeystore.entryFor_of_owned a.held a.owned]
  change (if a.entry.keyMeta.status ≠ .active then _ else _) = _
  rw [if_neg (not_not.2 a.active)]
  cases algorithm <;>
  · rw [exchange] at h
    dsimp only
    rw [h]
    rfl

end Holder

variable {crypto : Crypto} {curve : DhAlgorithm → DhCurve}

theorem derive_x25519 (h : Computes crypto curve) (env : UseEnv) (a b : Holder (curve .x25519)) :
    a.derive crypto env .x25519 b = .ok { secret := a.sharedWith b, kdf := some "HKDF-SHA256" } := by
  refine Holder.derive_of_exchange ?_
  have hprivate := h.x25519_private a.entry.material a.valid
  have hpublic : b.publicKey.length = 32 := h.x25519_public b.entry.material b.valid
  rw [Holder.exchange, SoftwareKeystore.deriveX25519, if_neg (Nat.not_lt.2 hprivate), if_neg (not_not.2 hpublic)]
  exact congrArg Except.ok (h.x25519 a.entry.material b.entry.material a.valid b.valid)

/-- Both of the other curves: the secret is that of the ephemeral key. -/
theorem not_agree_of_ephemeral {algorithm : DhAlgorithm} {draw : ℕ → Bytes} {ecdh : ℕ → Bytes → Except String Bytes}
    (h : Ephemeral (curve algorithm) draw ecdh) (a b : Holder (curve algorithm))
    (hderive : ∀ env secret, ecdh env.seed b.publicKey = .ok secret →
      a.derive crypto env algorithm b = .ok { secret, kdf := some "HKDF-SHA256" }) : ¬ a.Agree crypto algorithm b := by
  intro hagree
  obtain ⟨seed, seed', hne⟩ := h.fresh b.entry.material b.valid
  -- two calls of one holder, which draw differently
  let env : UseEnv := ⟨⟨0, 0, fun _ => 0, .error "no key"⟩, seed, fun _ => 0⟩
  have hfirst := hderive env _ (h.computes seed b.entry.material b.valid)
  have hsecond := hderive { env with seed := seed' } _ (h.computes seed' b.entry.material b.valid)
  have hsame := hagree.repeated env { env with seed := seed' }
  rw [hfirst, hsecond] at hsame
  injection hsame with hsecret
  injection hsecret with hsecret
  exact hne hsecret

/-- Two holders of keys of a curve agree exactly where the private key is read. -/
theorem agree_iff_x25519 (h : Computes crypto curve) {algorithm : DhAlgorithm} (hdh : algorithm ≠ .sm2Kex)
    (a b : Holder (curve algorithm)) : a.Agree crypto algorithm b ↔ algorithm = .x25519 := by
  cases algorithm with
  | ecdsaP256 =>
    obtain ⟨draw, hephemeral⟩ := h.p256
    refine iff_of_false (not_agree_of_ephemeral hephemeral a b fun env secret hsecret => ?_) (by decide)
    refine Holder.derive_of_exchange ?_
    rw [Holder.exchange, SoftwareKeystore.deriveEcdhP256, hsecret]
  | ecdsaP384 =>
    obtain ⟨draw, hephemeral⟩ := h.p384
    refine iff_of_false (not_agree_of_ephemeral hephemeral a b fun env secret hsecret => ?_) (by decide)
    refine Holder.derive_of_exchange ?_
    rw [Holder.exchange, SoftwareKeystore.deriveEcdhP384, hsecret]
  | x25519 =>
    refine iff_of_true ⟨fun env env' => ?_, fun env env' => ?_⟩ rfl
    · refine ⟨_, derive_x25519 h env a b, ?_⟩
      rw [derive_x25519 h env' b a, a.sharedWith_comm]
    · rw [derive_x25519 h env, derive_x25519 h env']
  | sm2Kex => exact absurd rfl hdh

/-! ## A curve of multiplications -/

/-- Private keys of 32 bytes, none of them zero, that are their own public keys. -/
def bytewise : DhCurve where
  Valid a := a.length = 32 ∧ ∀ x ∈ a, x ≠ 0
  publicKey b := b
  shared a b := List.zipWith (· * ·) a b
  commute _ _ _ _ := List.zipWith_comm_of_comm UInt8.mul_comm

def bytewiseDraw (seed : ℕ) : Bytes := List.replicate 32 (if seed = 0 then 1 else 2)

def bytewiseCrypto : Crypto :=
  { Crypto.plain with
    p256Ecdh := fun seed peer => .ok (bytewise.shared (bytewiseDraw seed) peer)
    p384Ecdh := fun seed peer => .ok (bytewise.shared (bytewiseDraw seed) peer)
    x25519 := bytewise.shared }

theorem ephemeral_bytewise :
    Ephemeral bytewise bytewiseDraw fun seed peer => .ok (bytewise.shared (bytewiseDraw seed) peer) where
  valid seed := by
    refine ⟨List.length_replicate, fun x hx => ?_⟩
    rw [List.eq_of_mem_replicate hx]
    split <;> decide
  computes seed b _ := rfl
  fresh b hb := by
    refine ⟨0, 1, fun heq => ?_⟩
    match b with
    | [] => exact absurd hb.1 (by decide)
    | x :: rest =>
      -- the first bytes are `x` and `2 * x`
      have hhead := congrArg List.head? heq
      have hsame : 1 * x = 2 * x := Option.some.inj hhead
      exact hb.2 x List.mem_cons_self (by grind)

theorem computes_bytewiseCrypto : Computes bytewiseCrypto fun _ => bytewise where
  p256 := ⟨bytewiseDraw, ephemeral_bytewise⟩
  p384 := ⟨bytewiseDraw, ephemeral_bytewise⟩
  x25519_private a ha := ha.1.ge
  x25519_public b hb := hb.1
  x25519 a b ha _ := by
    have htake : a.take 32 = a := List.take_of_length_le ha.1.le
    rw [htake]
    rfl

/-- A keystore that holds one key, of bytes `x`. -/
def sampleHolder (keyId : Uuid) (x : UInt8) (hx : x ≠ 0) : Holder bytewise :=
  let material := List.replicate 32 x
  let keyMeta : KeyMeta := ⟨keyId, "tenant-1", "dh", .ecdsaP256, .active, 0, none, 1, none, .default⟩
  { ks := ⟨(∅ : HashMap Uuid KeyEntry).insert keyId ⟨keyMeta, material, []⟩⟩
    keyId
    tenantId := "tenant-1"
    entry := ⟨keyMeta, material, []⟩
    held := Std.ExtTreeMap.getElem?_insert_self
    owned := rfl
    active := rfl
    valid := ⟨List.length_replicate, fun _ hy => List.eq_of_mem_replicate hy ▸ hx⟩ }

theorem agree_sampleHolder :
    (sampleHolder 1 5 (by decide)).Agree bytewiseCrypto .x25519 (sampleHolder 2 7 (by decide)) :=
  (agree_iff_x25519 computes_bytewiseCrypto (by decide) _ _).2 rfl

/-- Two holders of P-256 keys: the secrets that the sides get are products with 1 and with 2. -/
theorem not_agree_sampleHolder : Computes bytewiseCrypto (fun _ => bytewise) ∧
    ¬ (sampleHolder 1 5 (by decide)).Agree bytewiseCrypto .ecdsaP256 (sampleHolder 2 7 (by decide)) := by
  refine ⟨computes_bytewiseCrypto, fun hagree => ?_⟩
  let env : UseEnv := ⟨⟨0, 0, fun _ => 0, .error "no key"⟩, 0, fun _ => 0⟩
  have hsame := hagree.repeated env { env with seed := 1 }
  exact absurd hsame (by decide +kernel)

end GmKms.Keystore.Software
