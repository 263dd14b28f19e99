import GmKms.Keystore.SoftwareSteps
import GmKms.Keystore.ValidMaterial
/-!
# Keys of the software keystore that work

A key that was handed out works while it is active if its material is valid, and the
material stays valid in runs whose imports bring valid material and whose rotations
of SM2 keys can generate some.
-/

namespace GmKms.Keystore.Software

open Lib

/-- The key that an answer hands out. -/
def handedOut? : (Σ op : BackendOp, op.Reply) → Option KeyMeta
  | ⟨.generateKey .., r⟩ | ⟨.importKeyMaterial .., r⟩ | ⟨.rotateKey .., r⟩ => r.toOption
  | _ => none

/-- The id that a call draws for a new key. -/
def UseCall.newId? (c : UseCall) : Option Uuid := if c.op.creates then some c.env.uuid else none

/-- The current material of an entry and all it had before are valid. -/
structure KeyEntry.Valid (entry : KeyEntry) : Prop where
  material : ValidMaterial entry.keyMeta.spec entry.material
  versions : ∀ v ∈ entry.versions, ValidMaterial entry.keyMeta.spec v.2

namespace SoftwareKeystore

variable (crypto : Crypto)

/-- The key signs and encrypts for its owner, as far as keys of its specification do. -/
structure Usable (ks : SoftwareKeystore) (keyMeta : KeyMeta) : Prop where
  signs : signs keyMeta.spec = true → ∀ env data, ∃ sig,
    ks.sign crypto env keyMeta.id data keyMeta.tenantId = .ok sig ∧
      ks.verify crypto keyMeta.id data sig keyMeta.tenantId = .ok true
  encrypts : encrypts keyMeta.spec = true → ∀ env plaintext, ∃ ciphertext,
    ks.encrypt crypto env keyMeta.id plaintext keyMeta.tenantId = .ok ciphertext ∧
      ks.decrypt crypto keyMeta.id ciphertext keyMeta.tenantId = .ok plaintext

/-- After the run every key that it has handed out works while it is active, and every SM2 key is in range. -/
structure KeysUsable (ks : SoftwareKeystore) (is : List UseCall) : Prop where
  usable : ∀ is₁ c is₂ keyMeta current, is = is₁ ++ c :: is₂ →
    handedOut? (use crypto ((use crypto).final ks is₁) c).1 = some keyMeta →
    ((use crypto).final ks is).getKeyMetadata keyMeta.id = .ok current → current.status = .active →
    Usable crypto ((use crypto).final ks is) keyMeta
  sm2 : ∀ (id : Uuid) (entry : KeyEntry), ((use crypto).final ks is).keys[id]? = some entry →
    entry.keyMeta.spec = .sm2 →
    Sm2Scalar entry.material ∧ ∀ v ∈ entry.versions, Sm2Scalar v.2

/-- An import brings valid material, and a rotation that an SM2 key gets as far as generates some. -/
def BringsValid (ks : SoftwareKeystore) (c : UseCall) : Prop :=
  match c.op with
  | .importKeyMaterial spec _ _ material => ImportsValid spec material
  | .rotateKey keyId tenantId => ∀ entry, ks.keys[keyId]? = some entry → entry.keyMeta.tenantId = tenantId →
    entry.keyMeta.status.canRotate = true → entry.keyMeta.spec = .sm2 →
      ∃ material, generateSm2Key c.env.toEnv = .ok material
  | _ => True

variable {crypto}

/-! ## A valid key -/

section

variable (env : UseEnv) (keyId : Uuid) {entry : KeyEntry}

theorem signWith_of_valid (hcrypto : crypto.Correct) (hvalid : ValidMaterial entry.keyMeta.spec entry.material)
    (hsigns : signs entry.keyMeta.spec = true) (data : Bytes) :
    ∃ sig, signWith crypto env keyId entry data = .ok sig ∧ verifyWith crypto entry data sig = .ok true := by
  unfold signWith verifyWith
  cases hspec : entry.keyMeta.spec with
  | ed25519 =>
    rw [hspec] at hvalid
    simp only [hcrypto.ed25519_key.2 hvalid]
    exact ⟨_, rfl, congrArg Except.ok (hcrypto.ed25519_sign hvalid data)⟩
  | sm2 =>
    rw [hspec] at hvalid
    obtain ⟨signature, hsign, hverifier, hverify⟩ := hcrypto.sm2_sign hvalid env.seed data
    simp only [hcrypto.sm2_key.2 hvalid, hsign, hverifier]
    exact ⟨_, rfl, congrArg Except.ok hverify⟩
  | ed448 | ecdsaP256 | ecdsaP384 | rsa4096 | aes256Gcm | sm4 | hmacSha256 | sm3Hmac | sm9Signing | sm9Encryption =>
    rw [hspec] at hsigns
    cases hsigns

theorem encryptWith_of_valid (hcrypto : crypto.Correct) (hvalid : ValidMaterial entry.keyMeta.spec entry.material)
    (hencrypts : encrypts entry.keyMeta.spec = true) (plaintext : Bytes) :
    ∃ c, encryptWith crypto env keyId entry plaintext = .ok c ∧ c.version = entry.keyMeta.version ∧
      decryptWith crypto keyId entry.keyMeta entry.material c = .ok plaintext := by
  unfold encryptWith decryptWith
  cases hspec : entry.keyMeta.spec with
  | aes256Gcm | hmacSha256 =>
    rw [hspec] at hvalid
    have hkey := hcrypto.aes_key.2 hvalid
    obtain ⟨⟨ciphertext, tag⟩, hseal⟩ := hcrypto.seal_total hkey ((env.fillBytes 16).drop 4)
      (userDataAad crypto keyId entry.keyMeta.tenantId entry.keyMeta.version) plaintext
    simp only [hkey, hseal]
    refine ⟨_, rfl, rfl, ?_⟩
    have hlen : (env.fillBytes 16).length = 16 := by simp [Env.fillBytes]
    simp [decryptAad, decryptNonce, hlen, hcrypto.open_seal hseal]
  | sm4 =>
    rw [hspec] at hvalid
    have hkey := hcrypto.sm4_key.2 hvalid
    obtain ⟨⟨ciphertext, tag⟩, hseal⟩ := hcrypto.sm4_total hvalid (env.fillBytes 12)
      (userDataAad crypto keyId entry.keyMeta.tenantId entry.keyMeta.version) plaintext
    simp only [hkey, hseal]
    refine ⟨_, rfl, rfl, ?_⟩
    simp [decryptAad, hcrypto.sm4 hseal]
  | sm2 =>
    rw [hspec] at hvalid
    obtain ⟨data, hencrypt, hlen⟩ := hcrypto.sm2_total hvalid env.seed plaintext
    simp only [hcrypto.sm2_key.2 hvalid, hencrypt, if_neg (not_lt.2 hlen)]
    refine ⟨_, rfl, rfl, ?_⟩
    obtain ⟨hnonce, htag, hparts⟩ := sm2_parts hlen
    simp only [hnonce, htag, hparts, hcrypto.sm2 hencrypt]
    simp
  | ed25519 | ed448 | ecdsaP256 | ecdsaP384 | rsa4096 | sm3Hmac | sm9Signing | sm9Encryption =>
    rw [hspec] at hencrypts
    cases hencrypts

variable {ks : SoftwareKeystore} {keyMeta : KeyMeta}

theorem usable_of_valid (hcrypto : crypto.Correct) (hentry : ks.keys[keyMeta.id]? = some entry)
    (htenant : entry.keyMeta.tenantId = keyMeta.tenantId) (hspec : entry.keyMeta.spec = keyMeta.spec)
    (hactive : entry.keyMeta.status = .active) (hvalid : ValidMaterial entry.keyMeta.spec entry.material) :
    Usable crypto ks keyMeta := by
  have hfor := entryFor_of_owned hentry htenant
  constructor
  · intro hsigns env data
    obtain ⟨sig, hsign, hverify⟩ := signWith_of_valid env keyMeta.id hcrypto hvalid (hspec ▸ hsigns) data
    refine ⟨sig, ?_, ?_⟩
    · simp [sign, hfor, bind, Except.bind, hactive, hsign]
    · rw [verify_of_owned crypto hentry htenant, hverify]
  · intro hencrypts env plaintext
    obtain ⟨c, hencrypt, hversion, hdecrypt⟩ := encryptWith_of_valid env keyMeta.id hcrypto hvalid (hspec ▸ hencrypts)
      plaintext
    refine ⟨c, encrypt_eq_ok_iff.2 ⟨entry, hentry, htenant, hactive, hencrypt⟩, ?_⟩
    simp [decrypt, hfor, bind, Except.bind, hactive, KeyStatus.canDecrypt, hversion, KeyEntry.materialAt_current,
      hdecrypt]

end

/-! ## Valid material in a run -/

theorem sm2Scalar_of_generated {env : Env} {material : Bytes} (h : generateSm2Key env = .ok material) :
    Sm2Scalar material := by
  unfold generateSm2Key at h
  split at h
  · cases h
  · split at h
    · cases h
    · rename_i hrange
      obtain rfl := Except.ok.inj h
      exact sm2ScalarInRange_eq_ok_iff.1 hrange

theorem valid_of_generated {spec : KeySpec} {env : Env} {material : Bytes}
    (h : generatedMaterial spec env = .ok material) :
    ValidMaterial spec material := by
  cases spec with
  | sm2 => exact sm2Scalar_of_generated h
  | aes256Gcm | hmacSha256 | sm4 | ed25519 =>
    obtain rfl := Except.ok.inj h
    simp [ValidMaterial, generateAesKey, generateSm4Key, generateEd25519Key, Env.fillBytes]
  | ed448 | ecdsaP256 | ecdsaP384 | sm3Hmac | sm9Signing | sm9Encryption | rsa4096 => trivial

theorem valid_of_rotation {spec : KeySpec} {env : Env} {material : Bytes}
    (h : rotationMaterial spec env = .ok material) :
    ValidMaterial spec material := by
  cases spec with
  | sm2 => exact sm2Scalar_of_generated h
  | aes256Gcm | hmacSha256 | sm4 | ed25519 =>
    obtain rfl := Except.ok.inj h
    simp [ValidMaterial, generateAesKey, generateSm4Key, generateEd25519Key, Env.fillBytes]
  | ed448 | ecdsaP256 | ecdsaP384 | sm3Hmac | sm9Signing | sm9Encryption | rsa4096 => trivial

/-- The entries are valid and under their ids. -/
def Sound (ks : SoftwareKeystore) : Prop :=
  ∀ (id : Uuid) (entry : KeyEntry), ks.keys[id]? = some entry → entry.keyMeta.id = id ∧ entry.Valid

theorem valid_archive {entry : KeyEntry} (h : entry.Valid) :
    ∀ v ∈ (archive entry).versions, ValidMaterial entry.keyMeta.spec v.2 := by
  intro v hv
  rcases List.mem_append.1 hv with hv | hv
  · exact h.versions v hv
  · rw [List.mem_singleton.1 hv]
    exact h.material

theorem sound_step {ks : SoftwareKeystore} {c : UseCall} (h : ks.Sound) (hbrings : BringsValid ks c) :
    (use crypto ks c).2.Sound := by
  obtain ⟨env, op⟩ := c
  intro id entry hentry
  have hstep := perform_entry crypto env op ks id
  replace hentry : (perform crypto env op ks).2.keys[id]? = some entry := hentry
  rw [hentry] at hstep
  generalize hbefore : ks.keys[id]? = e at hstep
  cases hstep with
  | kept => exact h id entry hbefore
  | generated e hnew hmade => exact ⟨hnew, valid_of_generated hmade, by simp⟩
  | imported e hnew haccepted => exact ⟨hnew, validMaterial_of_checkImport haccepted hbrings, by simp⟩
  | @rotated old material hrotatable hmade =>
    obtain ⟨hid, hvalid⟩ := h id old hbefore
    exact ⟨hid, valid_of_rotation hmade, valid_archive hvalid⟩
  | @emptied old a hrotatable hfailed =>
    obtain ⟨hid, hvalid⟩ := h id old hbefore
    refine ⟨hid, ?_, valid_archive hvalid⟩
    change ValidMaterial old.keyMeta.spec []
    cases hspec : old.keyMeta.spec with
    | sm2 =>
      obtain ⟨material, hmaterial⟩ := hbrings old hbefore rfl hrotatable hspec
      rw [hspec] at hfailed
      replace hfailed : generateSm2Key env.toEnv = .error a := hfailed
      rw [hmaterial] at hfailed
      cases hfailed
    | aes256Gcm | hmacSha256 | sm4 | ed25519 =>
      rw [hspec] at hfailed
      cases hfailed
    | ed448 | ecdsaP256 | ecdsaP384 | sm3Hmac | sm9Signing | sm9Encryption | rsa4096 => trivial
  | @deleted old =>
    obtain ⟨hid, hvalid⟩ := h id old hbefore
    exact ⟨hid, hvalid.material, hvalid.versions⟩

/-- The key is still the one of its tenant and specification, if it is there. -/
def IsKey (ks : SoftwareKeystore) (keyMeta : KeyMeta) : Prop :=
  ∀ entry, ks.keys[keyMeta.id]? = some entry →
    entry.keyMeta.tenantId = keyMeta.tenantId ∧ entry.keyMeta.spec = keyMeta.spec

theorem isKey_step {ks : SoftwareKeystore} {c : UseCall} {keyMeta : KeyMeta} (h : ks.IsKey keyMeta)
    (hnew : c.newId? ≠ some keyMeta.id) : (use crypto ks c).2.IsKey keyMeta := by
  obtain ⟨env, op⟩ := c
  intro entry hentry
  have hstep := perform_entry crypto env op ks keyMeta.id
  replace hentry : (perform crypto env op ks).2.keys[keyMeta.id]? = some entry := hentry
  rw [hentry] at hstep
  generalize hbefore : ks.keys[keyMeta.id]? = e at hstep
  cases hstep with
  | kept => exact h entry hbefore
  | generated e hid => exact absurd (congrArg some hid) hnew
  | imported e hid => exact absurd (congrArg some hid) hnew
  | @rotated old => exact h old hbefore
  | @emptied old => exact h old hbefore
  | @deleted old => exact h old hbefore

/-- A key that is handed out is stored. -/
theorem entry_of_handedOut {ks : SoftwareKeystore} {c : UseCall} {keyMeta : KeyMeta} (h : ks.Sound)
    (hout : handedOut? (use crypto ks c).1 = some keyMeta) :
    ∃ entry, (use crypto ks c).2.keys[keyMeta.id]? = some entry ∧ entry.keyMeta = keyMeta := by
  obtain ⟨env, op⟩ := c
  cases op with
  | generateKey spec name tenantId =>
    replace hout : (ks.generateKey env.toEnv spec name tenantId).1.toOption = some keyMeta := hout
    change ∃ entry, (ks.generateKey env.toEnv spec name tenantId).2.keys[keyMeta.id]? = some entry ∧ _
    unfold generateKey at hout ⊢
    split at hout
    · cases hout
    · obtain rfl := Option.some.inj hout
      exact ⟨_, (keys_put ..).trans (if_pos rfl), rfl⟩
  | importKeyMaterial spec name tenantId material =>
    replace hout : (ks.importKeyMaterial env.toEnv spec name tenantId material).1.toOption = some keyMeta := hout
    change ∃ entry, (ks.importKeyMaterial env.toEnv spec name tenantId material).2.keys[keyMeta.id]? = some entry ∧ _
    unfold importKeyMaterial at hout ⊢
    split at hout
    · cases hout
    · obtain rfl := Option.some.inj hout
      exact ⟨_, (keys_put ..).trans (if_pos rfl), rfl⟩
  | rotateKey keyId tenantId =>
    replace hout : (ks.rotateKey env.toEnv keyId tenantId).1.toOption = some keyMeta := hout
    change ∃ entry, (ks.rotateKey env.toEnv keyId tenantId).2.keys[keyMeta.id]? = some entry ∧ _
    by_cases hkey : ∃ entry, ks.keys[keyId]? = some entry ∧ entry.keyMeta.tenantId = tenantId ∧
        entry.keyMeta.status.canRotate = true
    · obtain ⟨old, hold, rfl, hstatus⟩ := hkey
      rw [rotateKey_of_owned hold rfl hstatus] at hout ⊢
      split at hout
      · cases hout
      · rename_i material hmaterial
        obtain rfl := Option.some.inj hout
        have hid : (rotatedEntry old env.now material).keyMeta.id = keyId := (h keyId old hold).1
        exact ⟨_, (keys_put ..).trans (if_pos hid.symm), rfl⟩
    · have hrefused : ∀ entry, ks.keys[keyId]? = some entry → entry.keyMeta.tenantId = tenantId →
          entry.keyMeta.status.canRotate = false := fun entry hentry howned =>
        Bool.eq_false_iff.2 fun hstatus => hkey ⟨entry, hentry, howned, hstatus⟩
      obtain ⟨-, e, he⟩ : _ ∧ ∃ e, (ks.rotateKey env.toEnv keyId tenantId).1 = .error e := rotateKey_refused hrefused
      rw [he] at hout
      cases hout
  | getKeyMetadata | encrypt | decrypt | sign | verify | deleteKey | destroyKey | destroyKeyWithProof | listKeys
  | exportKeyMaterial | getKeyMaterial | getKeyMaterialVersion | deriveSharedSecret => cases hout

theorem sound_new : new.Sound := by
  intro id entry h
  simp [new] at h

theorem sound_final {is : List UseCall} {ks : SoftwareKeystore} {H : History UseCall (Σ op : BackendOp, op.Reply)}
    (h : ks.Sound) (hbrings : (use crypto).Along (fun _ ks c => BringsValid ks c) H ks is) :
    ((use crypto).final ks is).Sound :=
  hbrings.inv (I := fun _ ks => ks.Sound) (fun _ _ _ => sound_step) h

theorem isKey_final {is : List UseCall} {ks : SoftwareKeystore} {keyMeta : KeyMeta} (h : ks.IsKey keyMeta)
    (hnew : keyMeta.id ∉ is.filterMap UseCall.newId?) : ((use crypto).final ks is).IsKey keyMeta := by
  induction is generalizing ks with
  | nil => exact h
  | cons c is ih =>
    have hc : c.newId? ≠ some keyMeta.id := fun hc => hnew (List.mem_filterMap.2 ⟨c, by simp, hc⟩)
    refine ih (isKey_step h hc) fun hmem => hnew ?_
    obtain ⟨c', hc', hid⟩ := List.mem_filterMap.1 hmem
    exact List.mem_filterMap.2 ⟨c', List.mem_cons_of_mem _ hc', hid⟩

/-- The id of every key was drawn by a call. -/
theorem drawn_of_final {is : List UseCall} {id : Uuid} {entry : KeyEntry}
    (h : ((use crypto).final new is).keys[id]? = some entry) : id ∈ is.filterMap UseCall.newId? := by
  induction is using List.reverseRecOn generalizing entry with
  | nil =>
    replace h : new.keys[id]? = some entry := h
    simp [new] at h
  | append_singleton is c ih =>
    rw [Machine.final_append] at h
    obtain ⟨env, op⟩ := c
    have hstep := perform_entry crypto env op ((use crypto).final new is) id
    replace h : (perform crypto env op ((use crypto).final new is)).2.keys[id]? = some entry := h
    rw [h] at hstep
    generalize hbefore : ((use crypto).final new is).keys[id]? = e at hstep
    rw [List.filterMap_append, List.mem_append]
    cases hstep with
    | kept => exact .inl (ih hbefore)
    | generated e hnew => exact .inr (by simp [UseCall.newId?, BackendOp.creates, hnew])
    | imported e hnew => exact .inr (by simp [UseCall.newId?, BackendOp.creates, hnew])
    | rotated => exact .inl (ih hbefore)
    | emptied => exact .inl (ih hbefore)
    | deleted => exact .inl (ih hbefore)

/-- Keys work in runs whose imports and rotations bring valid material. -/
theorem keysUsable_of_along (hcrypto : crypto.Correct) {is : List UseCall} (hids : (is.filterMap UseCall.newId?).Nodup)
    (hbrings : (use crypto).Along (fun _ ks c => BringsValid ks c) [] new is) : KeysUsable crypto new is := by
  have hsound : ((use crypto).final new is).Sound := sound_final sound_new hbrings
  constructor
  · rintro is₁ c is₂ keyMeta current rfl hout hcurrent hactive
    obtain ⟨entry, hentry, rfl⟩ := getKeyMetadata_eq_ok_iff.1 hcurrent
    have hsound₁ : ((use crypto).final new is₁).Sound := sound_final sound_new (Machine.along_append.1 hbrings).1
    obtain ⟨out, hstored, rfl⟩ := entry_of_handedOut hsound₁ hout
    have hkey : (use crypto ((use crypto).final new is₁) c).2.IsKey out.keyMeta := by
      intro entry' hentry'
      rw [Option.some.inj (hentry'.symm.trans hstored)]
      exact ⟨rfl, rfl⟩
    -- no later call draws the id again
    have hstored' : ((use crypto).final new (is₁ ++ [c])).keys[out.keyMeta.id]? = some out := by
      rw [Machine.final_append]
      exact hstored
    have hdrawn := drawn_of_final hstored'
    have hlater : out.keyMeta.id ∉ is₂.filterMap UseCall.newId? := by
      rw [← List.singleton_append, ← List.append_assoc, List.filterMap_append] at hids
      exact fun hmem => (List.nodup_append.1 hids).2.2 _ hdrawn _ hmem rfl
    have hfinal : ((use crypto).final new (is₁ ++ c :: is₂)).IsKey out.keyMeta := by
      rw [Machine.final_append]
      change ((use crypto).final (use crypto ((use crypto).final new is₁) c).2 is₂).IsKey out.keyMeta
      exact isKey_final hkey hlater
    obtain ⟨htenant, hspec⟩ := hfinal entry hentry
    exact usable_of_valid hcrypto hentry htenant hspec hactive (hsound _ _ hentry).2.material
  · intro id entry hentry hspec
    obtain ⟨hmaterial, hversions⟩ := (hsound id entry hentry).2
    rw [hspec] at hmaterial hversions
    exact ⟨hmaterial, hversions⟩

end SoftwareKeystore

end GmKms.Keystore.Software
