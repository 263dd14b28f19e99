import GmKms.Keystore.Retention
/-!
# Ciphertexts and their context

The additional data of `aad.rs` names the key, the tenant and the version at fixed
offsets. With an ideal cipher, what `decrypt` accepts was therefore sealed by `encrypt`
for the same key, tenant and version. Of the ciphertext and the tag only the bytes one
after the other are bound: AES-256-GCM opens their concatenation.
-/

namespace GmKms.Keystore

/-! ## The additional data determines its parts -/

theorem length_beBytes (x n : ℕ) : (beBytes x n).length = n := by
  induction n generalizing x with
  | zero => rfl
  | succ n ih => rw [beBytes, List.length_append, ih, List.length_singleton]

theorem beBytes_inj {n x y : ℕ} (hx : x < 256 ^ n) (hy : y < 256 ^ n) (h : beBytes x n = beBytes y n) : x = y := by
  induction n generalizing x y with
  | zero => omega
  | succ n ih =>
    obtain ⟨hhigh, hlow⟩ := List.append_inj h (by rw [length_beBytes, length_beBytes])
    rw [Nat.pow_succ] at hx hy
    have hquot : x / 256 = y / 256 :=
      ih (Nat.div_lt_of_lt_mul (by omega)) (Nat.div_lt_of_lt_mul (by omega)) hhigh
    have hrest : x % 256 = y % 256 := by
      have := congrArg UInt8.toNat (List.singleton_inj.1 hlow)
      rwa [UInt8.toNat_ofNat', UInt8.toNat_ofNat'] at this
    omega

/-- Only the lowest bytes are written. -/
theorem beBytes_mod (x n : ℕ) : beBytes (x % 256 ^ n) n = beBytes x n := by
  induction n generalizing x with
  | zero => rfl
  | succ n ih =>
    unfold beBytes
    have hhigh : x % 256 ^ (n + 1) / 256 = x / 256 % 256 ^ n := by
      rw [Nat.pow_succ', Nat.mod_mul_right_div_self]
    have hlow : UInt8.ofNat (x % 256 ^ (n + 1)) = UInt8.ofNat x := by
      apply UInt8.toNat_inj.1
      rw [UInt8.toNat_ofNat', UInt8.toNat_ofNat', Nat.pow_succ']
      exact Nat.mod_mul_right_mod x 256 (256 ^ n)
    rw [hhigh, hlow, ih]

theorem beBytes_eq_iff {n x y : ℕ} : beBytes x n = beBytes y n ↔ x % 256 ^ n = y % 256 ^ n := by
  constructor
  · intro h
    rw [← beBytes_mod x, ← beBytes_mod y] at h
    have hpos : 0 < 256 ^ n := Nat.pow_pos (by norm_num)
    exact beBytes_inj (Nat.mod_lt _ hpos) (Nat.mod_lt _ hpos) h
  · intro h
    rw [← beBytes_mod x, h, beBytes_mod]

/-- Same purpose, key, tenant hash and version, or different data. -/
theorem buildV2_inj {p p' : Purpose} {id id' : Uuid} {hash hash' : Bytes} {v v' : UInt32}
    (h : buildV2 p id hash v = buildV2 p' id' hash' v') : p = p' ∧ id = id' ∧ hash = hash' ∧ v = v' := by
  unfold buildV2 at h
  have hlengths := congrArg List.length h
  simp only [List.length_append, length_beBytes] at hlengths
  obtain ⟨h, hversion⟩ := List.append_inj' h (by rw [length_beBytes, length_beBytes])
  obtain ⟨h, hhash⟩ := List.append_inj' h (by omega)
  obtain ⟨h, hid⟩ := List.append_inj' h (by rw [length_beBytes, length_beBytes])
  obtain ⟨-, hpurpose⟩ := List.append_inj' h (by rw [length_beBytes, length_beBytes])
  have hcode : p.code = p'.code := by
    refine beBytes_inj ?_ ?_ hpurpose
    · cases p <;> decide
    · cases p' <;> decide
  refine ⟨?_, ?_, hhash, ?_⟩
  · cases p <;> cases p' <;> first | rfl | cases hcode
  · exact BitVec.eq_of_toNat_eq (beBytes_inj (id.isLt.trans_eq (by norm_num)) (id'.isLt.trans_eq (by norm_num)) hid)
  · exact UInt32.toNat_inj.1 (beBytes_inj v.toNat_lt v'.toNat_lt hversion)

theorem userDataAad_ne_nil (crypto : Crypto) (id : Uuid) (tenantId : String) (v : UInt32) :
    userDataAad crypto id tenantId v ≠ [] := by
  intro h
  have hlength := congrArg List.length h
  simp only [userDataAad, buildV2, List.length_append, length_beBytes, List.length_nil] at hlength
  omega

namespace Software

open Lib

/-! ## What was sealed -/

inductive Cipher where
  | aesGcm | sm4Gcm
  deriving DecidableEq

/-- One sealing. -/
structure Box where
  cipher : Cipher
  key : Bytes
  nonce : Bytes
  aad : Bytes
  plaintext : Bytes
  ciphertext : Bytes
  tag : Bytes
  deriving DecidableEq

/-- The cipher of a specification that is encrypted with one. -/
def cipherOf : KeySpec → Option Cipher
  | .aes256Gcm | .hmacSha256 => some .aesGcm
  | .sm4 => some .sm4Gcm
  | _ => none

/-- The nonce that a ciphertext was sealed under. -/
def sealedNonce (c : Ciphertext) : Cipher → Bytes
  | .aesGcm => c.nonce.drop 4
  | .sm4Gcm => c.nonce

/-- The box that `encrypt` sealed for the ciphertext it returned. -/
def boxOf (crypto : Crypto) (keyId : Uuid) (entry : KeyEntry) (plaintext : Bytes) (c : Ciphertext) (cipher : Cipher) :
    Box :=
  { cipher
    key := entry.material
    nonce := sealedNonce c cipher
    aad := userDataAad crypto keyId entry.keyMeta.tenantId entry.keyMeta.version
    plaintext
    ciphertext := c.ciphertext
    tag := c.tag }

namespace SoftwareKeystore

/-- A call of the run sealed the box. -/
def Sealed (crypto : Crypto) (calls : List UseCall) (box : Box) : Prop :=
  ∃ before env keyId plaintext tenantId later entry cipher c,
    calls = before ++ ⟨env, .encrypt keyId plaintext tenantId⟩ :: later ∧
      (after crypto before).keys[keyId]? = some entry ∧ cipherOf entry.keyMeta.spec = some cipher ∧
      (after crypto before).encrypt crypto env keyId plaintext tenantId = .ok c ∧
      box = boxOf crypto keyId entry plaintext c cipher

/-- Opening succeeds only on what a call of the run sealed under the same key, nonce and
additional data. -/
structure IdealAead (crypto : Crypto) (calls : List UseCall) : Prop where
  aes : ∀ key nonce aad opened plaintext, crypto.aesOpen key nonce aad opened = some plaintext →
    ∃ ciphertext tag, ciphertext ++ tag = opened ∧
      Sealed crypto calls ⟨.aesGcm, key, nonce, aad, plaintext, ciphertext, tag⟩
  sm4 : ∀ key nonce aad ciphertext tag plaintext, crypto.sm4Decrypt key nonce aad ciphertext tag = some plaintext →
    Sealed crypto calls ⟨.sm4Gcm, key, nonce, aad, plaintext, ciphertext, tag⟩

/-- The tenant for which an operation makes a key. -/
def createsFor? : BackendOp → Option String
  | .generateKey _ _ tenantId | .importKeyMaterial _ _ tenantId _ => some tenantId
  | _ => none

/-- No two tenants for which the run makes keys have one hash. -/
def CollisionFree (crypto : Crypto) (calls : List UseCall) : Prop :=
  Set.InjOn (tenantHash crypto) {tenantId | ∃ c ∈ calls, createsFor? c.op = some tenantId}

/-- An earlier `encrypt` of the same plaintext for the same key and tenant produced the
ciphertext's bytes, at the ciphertext's version. -/
def EncryptedBefore (crypto : Crypto) (calls : List UseCall) (keyId : Uuid) (plaintext : Bytes) (tenantId : String)
    (c : Ciphertext) (cipher : Cipher) : Prop :=
  ∃ before env later sealed, calls = before ++ ⟨env, .encrypt keyId plaintext tenantId⟩ :: later ∧
    (after crypto before).encrypt crypto env keyId plaintext tenantId = .ok sealed ∧ sealed.version = c.version ∧
    sealed.ciphertext ++ sealed.tag = c.ciphertext ++ c.tag ∧
    (cipher = .sm4Gcm ∨ c.tag.length = sealed.tag.length → sealed.ciphertext = c.ciphertext ∧ sealed.tag = c.tag)

/-! ## Every key belongs to a tenant of the run -/

theorem tenantId_mem (crypto : Crypto) (calls : List UseCall) {id : Uuid} {entry : KeyEntry}
    (hentry : (after crypto calls).keys[id]? = some entry) :
    ∃ c ∈ calls, createsFor? c.op = some entry.keyMeta.tenantId := by
  induction calls using List.reverseRecOn generalizing id entry with
  | nil => simp [after, Machine.final, new] at hentry
  | append_singleton calls c ih =>
    rw [after, Machine.final_append] at hentry
    have hstep := perform_entry crypto c.env c.op (after crypto calls) id
    have hlater : (perform crypto c.env c.op (after crypto calls)).2.keys[id]? = some entry := hentry
    rw [hlater] at hstep
    have hbefore : ∀ entry', (after crypto calls).keys[id]? = some entry' →
        ∃ d ∈ calls ++ [c], createsFor? d.op = some entry'.keyMeta.tenantId := by
      intro entry' hentry'
      obtain ⟨d, hd, htenant⟩ := ih hentry'
      exact ⟨d, List.mem_append_left _ hd, htenant⟩
    have hc : c ∈ calls ++ [c] := List.mem_append_right _ (List.mem_singleton_self c)
    generalize hop : c.op = op at hstep
    generalize hold : (after crypto calls).keys[id]? = old at hstep
    cases hstep with
    | kept => exact hbefore entry hold
    | generated => exact ⟨c, hc, by rw [hop]; rfl⟩
    | imported => exact ⟨c, hc, by rw [hop]; rfl⟩
    | rotated => exact (hbefore _ hold :)
    | emptied => exact (hbefore _ hold :)
    | deleted => exact (hbefore _ hold :)

/-! ## What decrypts was encrypted -/

theorem decrypt_eq_ok {crypto : Crypto} {ks : SoftwareKeystore} {keyId : Uuid} {tenantId : String} {c : Ciphertext}
    {plaintext : Bytes} (h : ks.decrypt crypto keyId c tenantId = .ok plaintext) :
    ∃ entry material, ks.keys[keyId]? = some entry ∧ entry.keyMeta.tenantId = tenantId ∧
      entry.materialAt c.version = some material ∧
      decryptWith crypto keyId entry.keyMeta material c = .ok plaintext := by
  unfold decrypt at h
  cases hentry : ks.entryFor keyId tenantId (.keyNotFound keyId.text) with
  | error e => simp [hentry, bind, Except.bind] at h
  | ok entry =>
    obtain ⟨hget, howned⟩ := entryFor_eq_ok_iff.1 hentry
    simp only [hentry, bind, Except.bind] at h
    split at h
    · cases h
    · cases hmaterial : entry.materialAt c.version with
      | none => simp [hmaterial] at h
      | some material => exact ⟨entry, material, hget, howned, hmaterial, by simpa [hmaterial] using h⟩

/-- The format version chooses between no additional data and the key's own. -/
theorem decryptAad_eq_ok {crypto : Crypto} {keyId : Uuid} {tenantId : String} {c : Ciphertext} {aad : Bytes}
    (h : decryptAad crypto keyId tenantId c = .ok aad) :
    aad = [] ∨ aad = userDataAad crypto keyId tenantId c.version := by
  unfold decryptAad at h
  split at h
  · exact .inl (Except.ok.inj h).symm
  · split at h
    · exact .inr (Except.ok.inj h).symm
    · cases h

/-- With an ideal cipher, decryption opened a box of the run, sealed with the additional data that
it opened with. -/
theorem sealed_of_decryptWith {crypto : Crypto} {calls : List UseCall} (hideal : IdealAead crypto calls) {keyId : Uuid}
    {keyMeta : KeyMeta} {material plaintext : Bytes} {c : Ciphertext} {cipher : Cipher}
    (hcipher : cipherOf keyMeta.spec = some cipher)
    (h : decryptWith crypto keyId keyMeta material c = .ok plaintext) :
    ∃ box, Sealed crypto calls box ∧ box.plaintext = plaintext ∧ box.ciphertext ++ box.tag = c.ciphertext ++ c.tag ∧
      (box.aad = [] ∨ box.aad = userDataAad crypto keyId keyMeta.tenantId c.version) ∧
      (cipher = .sm4Gcm ∨ c.tag.length = box.tag.length → box.ciphertext = c.ciphertext ∧ box.tag = c.tag) := by
  unfold decryptWith at h
  cases hspec : keyMeta.spec <;> simp only [hspec, cipherOf, Option.some.injEq, reduceCtorEq] at h hcipher
  case aes256Gcm | hmacSha256 =>
    subst hcipher
    cases hkey : crypto.aesUnboundKey material with
    | error e => simp [hkey] at h
    | ok _ =>
      cases haad : decryptAad crypto keyId keyMeta.tenantId c with
      | error e => simp [hkey, haad] at h
      | ok aad =>
        simp only [hkey, haad] at h
        split at h
        · cases h
        · rename_i opened hopen
          cases h
          obtain ⟨ciphertext, tag, hbytes, hsealed⟩ := hideal.aes _ _ _ _ _ hopen
          refine ⟨_, hsealed, rfl, hbytes, decryptAad_eq_ok haad, ?_⟩
          rintro (hne | hlength)
          · cases hne
          · exact List.append_inj' hbytes hlength.symm
  case sm4 =>
    subst hcipher
    cases hkey : crypto.sm4Cipher material with
    | error e => simp [hkey] at h
    | ok _ =>
      cases haad : decryptAad crypto keyId keyMeta.tenantId c with
      | error e => simp [hkey, haad] at h
      | ok aad =>
        simp only [hkey, haad] at h
        split at h
        · cases h
        · rename_i opened hopen
          cases h
          exact ⟨_, hideal.sm4 _ _ _ _ _ _ hopen, rfl, rfl, decryptAad_eq_ok haad, fun _ => ⟨rfl, rfl⟩⟩

theorem version_of_encryptWith {crypto : Crypto} {env : UseEnv} {keyId : Uuid} {entry : KeyEntry} {plaintext : Bytes}
    {c : Ciphertext} (h : encryptWith crypto env keyId entry plaintext = .ok c) :
    c.version = entry.keyMeta.version := by
  unfold encryptWith at h
  cases hspec : entry.keyMeta.spec <;> simp only [hspec, reduceCtorEq] at h
  all_goals
    repeat' split at h
    all_goals cases h
    all_goals rfl

/-- What `decrypt` accepts was produced by `encrypt` in the same context. -/
theorem encryptedBefore_of_decrypt {crypto : Crypto} {calls : List UseCall} (hideal : IdealAead crypto calls)
    (hhash : CollisionFree crypto calls) {keyId : Uuid} {entry : KeyEntry}
    (hentry : (after crypto calls).keys[keyId]? = some entry) {cipher : Cipher}
    (hcipher : cipherOf entry.keyMeta.spec = some cipher) {tenantId : String} {c : Ciphertext} {plaintext : Bytes}
    (h : (after crypto calls).decrypt crypto keyId c tenantId = .ok plaintext) :
    EncryptedBefore crypto calls keyId plaintext tenantId c cipher := by
  obtain ⟨entry', material, hentry', rfl, -, hopened⟩ := decrypt_eq_ok h
  rw [hentry, Option.some.injEq] at hentry'
  subst hentry'
  obtain ⟨box, ⟨before, env, keyId', plaintext', tenantId', later, sealer, cipher', sealed, hcalls, hsealer, hcipher',
    hencrypt, rfl⟩, rfl, hbytes, haad, hexact⟩ := sealed_of_decryptWith hideal hcipher hopened
  obtain ⟨sealer', hsealer', rfl, -, hsealing⟩ := encrypt_eq_ok_iff.1 hencrypt
  rw [hsealer, Option.some.injEq] at hsealer'
  subst hsealer'
  rcases haad with hnil | hcontext
  · exact absurd hnil (userDataAad_ne_nil crypto _ _ _)
  · obtain ⟨-, rfl, htenants, hversion⟩ := buildV2_inj hcontext
    have hmem : ∃ d ∈ calls, createsFor? d.op = some sealer.keyMeta.tenantId := by
      obtain ⟨d, hd, htenant⟩ := tenantId_mem crypto before hsealer
      exact ⟨d, hcalls ▸ List.mem_append_left _ hd, htenant⟩
    have htenant := hhash hmem (tenantId_mem crypto calls hentry) htenants
    rw [htenant] at hcalls hencrypt
    exact ⟨before, env, later, sealed, hcalls, hencrypt, (version_of_encryptWith hsealing).trans hversion, hbytes,
      hexact⟩

/-! ## The boundary between ciphertext and tag -/

/-- Primitives that open the one box of `sealedRun` and nothing else. -/
def tableCrypto : Crypto :=
  { Crypto.plain with
    aesOpen := fun key nonce aad opened =>
      if key = List.replicate 32 7 ∧ nonce = List.replicate 12 7 ∧ aad = userDataAad .plain 1 "tenant-1" 1 ∧
          opened = [5] ++ List.replicate 16 0 then some [5]
      else none
    sm4Decrypt := fun _ _ _ _ _ => none }

/-- A key is generated and one byte encrypted under it. -/
def sealedRun : List UseCall :=
  [⟨sampleUseEnv 7, .generateKey .aes256Gcm "data" "tenant-1"⟩, ⟨sampleUseEnv 7, .encrypt 1 [5] "tenant-1"⟩]

/-- The key of the run. -/
def sealedEntry : KeyEntry :=
  { keyMeta := newMeta (sampleUseEnv 7).toEnv .aes256Gcm "data" "tenant-1" none
    material := List.replicate 32 7
    versions := [] }

def produced : Ciphertext :=
  { keyId := 1, version := 1, formatVersion := 2, nonce := List.replicate 16 7, ciphertext := [5],
    tag := List.replicate 16 0 }

/-- The same bytes, all of them as ciphertext. -/
def shifted : Ciphertext := { produced with ciphertext := produced.ciphertext ++ produced.tag, tag := [] }

theorem sealed_sealedRun : Sealed tableCrypto sealedRun
    ⟨.aesGcm, List.replicate 32 7, List.replicate 12 7, userDataAad .plain 1 "tenant-1" 1, [5], [5],
      List.replicate 16 0⟩ :=
  ⟨sealedRun.take 1, sampleUseEnv 7, 1, [5], "tenant-1", [], sealedEntry, .aesGcm, produced, rfl, rfl, rfl, rfl, rfl⟩

theorem idealAead_sealedRun : IdealAead tableCrypto sealedRun where
  aes key nonce aad opened plaintext h := by
    have hif : (if key = List.replicate 32 7 ∧ nonce = List.replicate 12 7 ∧ aad = userDataAad .plain 1 "tenant-1" 1 ∧
        opened = [5] ++ List.replicate 16 0 then some [5] else none) = some plaintext := h
    split at hif
    · rename_i hbox
      obtain ⟨rfl, rfl, rfl, rfl⟩ := hbox
      cases hif
      exact ⟨_, _, rfl, sealed_sealedRun⟩
    · cases hif
  sm4 _ _ _ _ _ _ h := by cases h

theorem collisionFree_sealedRun : CollisionFree tableCrypto sealedRun := by
  rintro t ⟨c, hc, ht⟩ t' ⟨c', hc', ht'⟩ -
  simp only [sealedRun, List.mem_cons, List.not_mem_nil, or_false] at hc hc'
  rcases hc with rfl | rfl <;> rcases hc' with rfl | rfl <;> simp_all [createsFor?]

theorem decrypt_shifted : (after tableCrypto sealedRun).decrypt tableCrypto 1 shifted "tenant-1" = .ok [5] := by
  rfl

theorem encryptedBefore_shifted : EncryptedBefore tableCrypto sealedRun 1 [5] "tenant-1" shifted .aesGcm :=
  have hentry : (after tableCrypto sealedRun).keys[(1 : Uuid)]? = some sealedEntry := rfl
  encryptedBefore_of_decrypt idealAead_sealedRun collisionFree_sealedRun hentry rfl decrypt_shifted

/-- The shifted ciphertext decrypts, though nothing ever produced its ciphertext and tag. -/
theorem not_produced_shifted :
    (IdealAead tableCrypto sealedRun ∧ CollisionFree tableCrypto sealedRun) ∧
      (after tableCrypto sealedRun).decrypt tableCrypto 1 shifted "tenant-1" = .ok [5] ∧
      ¬ ∃ before env later sealed, sealedRun = before ++ ⟨env, .encrypt 1 [5] "tenant-1"⟩ :: later ∧
        (after tableCrypto before).encrypt tableCrypto env 1 [5] "tenant-1" = .ok sealed ∧
        sealed.version = shifted.version ∧ sealed.ciphertext = shifted.ciphertext ∧ sealed.tag = shifted.tag := by
  refine ⟨⟨idealAead_sealedRun, collisionFree_sealedRun⟩, decrypt_shifted, ?_⟩
  rintro ⟨before, env, later, sealed, hcalls, hencrypt, -, -, htag⟩
  have hproduced : (after tableCrypto (sealedRun.take 1)).encrypt tableCrypto (sampleUseEnv 7) 1 [5] "tenant-1" =
      .ok produced := rfl
  -- the run has one encryption, its second call
  rcases before with _ | ⟨b, _ | ⟨b', before⟩⟩
  · cases hcalls
  · cases hcalls
    have hsame := Except.ok.inj (hproduced.symm.trans hencrypt)
    rw [← hsame] at htag
    cases htag
  · have hlength := congrArg List.length hcalls
    simp [sealedRun] at hlength

end SoftwareKeystore

end Software

end GmKms.Keystore
