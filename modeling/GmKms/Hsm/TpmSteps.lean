import GmKms.Hsm.Tpm
import GmKms.Lib.ExceptRel
/-!
# What a call makes of the NV storage

Where each entry comes from: it was there before, with its key, its material and its
binding, or the call has created it. And what a success of a call says about the entry
it was about.
-/

namespace GmKms.Hsm

open Lib Keystore

/-- The same key: whatever else happens to it, its material and its binding stay. -/
structure TpmNvEntry.SameKey (e e' : TpmNvEntry) : Prop where
  id : e'.keyMeta.id = e.keyMeta.id
  tenantId : e'.keyMeta.tenantId = e.keyMeta.tenantId
  spec : e'.keyMeta.spec = e.keyMeta.spec
  sealedMaterial : e'.sealedMaterial = e.sealedMaterial
  auth : e'.auth = e.auth
  pcrBinding : e'.pcrBinding = e.pcrBinding

theorem TpmNvEntry.SameKey.rfl' {e : TpmNvEntry} : e.SameKey e := ⟨rfl, rfl, rfl, rfl, rfl, rfl⟩

theorem TpmNvEntry.SameKey.trans {e e' e'' : TpmNvEntry} (h : e.SameKey e') (h' : e'.SameKey e'') : e.SameKey e'' :=
  ⟨h'.id.trans h.id, h'.tenantId.trans h.tenantId, h'.spec.trans h.spec, h'.sealedMaterial.trans h.sealedMaterial,
    h'.auth.trans h.auth, h'.pcrBinding.trans h.pcrBinding⟩

/-- The id that a call draws for a new key. -/
def TpmCall.newId? (c : TpmCall) : Option Uuid :=
  match c.op with
  | .backend (.generateKey ..) | .generateKeyWithPcrBinding .. => some c.env.uuid
  | _ => none

namespace SimulatedTpmKeystore

/-- The entry that a call creates. -/
inductive Made (tpm : SimulatedTpmKeystore) (env : TpmEnv) : TpmOp → TpmNvEntry → Prop where
  | plain {spec : KeySpec} {name tenantId : String} {material : Bytes}
      (made : generateKeyMaterial env spec = .ok material) :
      Made tpm env (.backend (.generateKey spec name tenantId))
        ⟨Software.SoftwareKeystore.newMeta env.toEnv spec name tenantId none, material, ⟨tpm.nextNvIndex, 1⟩, none⟩
  | bound {spec : KeySpec} {name tenantId : String} {pcrIndices : List ℕ} {material : Bytes}
      (made : generateKeyMaterial env spec = .ok material) (valid : ∀ idx ∈ pcrIndices, idx < numPcrs) :
      Made tpm env (.generateKeyWithPcrBinding spec name tenantId pcrIndices)
        ⟨Software.SoftwareKeystore.newMeta env.toEnv spec name tenantId none, material,
          ⟨tpm.nextNvIndex, 1⟩, some (capture tpm.pcrBank pcrIndices)⟩

variable {crypto : TpmCrypto} {tpm : SimulatedTpmKeystore} {env : TpmEnv} {keyId : Uuid} {handle handle' : UInt32}
  {e e' : TpmNvEntry}

theorem nvStorage_put : (tpm.put handle e).nvStorage[handle']? = if handle' = handle then some e
    else tpm.nvStorage[handle']? :=
  HashMap.getElem?_insert _ _ _ _

theorem spec_of_entryOf? (h : tpm.entryOf? keyId = some (handle, e)) :
    tpm.nvStorage[handle]? = some e ∧ e.keyMeta.id = keyId :=
  ⟨Std.ExtTreeMap.mem_toList_iff_getElem?_eq_some.1 (List.mem_of_find?_eq_some h), beq_iff_eq.1 (List.find?_some h :)⟩

theorem entryFor_eq_ok_iff {r : UInt32 × TpmNvEntry} : tpm.entryFor keyId = .ok r ↔ tpm.entryOf? keyId = some r := by
  unfold entryFor
  cases tpm.entryOf? keyId <;> simp

/-- A new key, or what was there. -/
theorem createKey_cases {spec : KeySpec} {name tenantId : String} {pcrBinding : Option PcrBinding}
    (h : (tpm.createKey env spec name tenantId pcrBinding).2.nvStorage[handle]? = some e) :
    tpm.nvStorage[handle]? = some e ∨ handle = tpm.nextNvIndex ∧
    ∃ material, generateKeyMaterial env spec = .ok material ∧
      e = ⟨Software.SoftwareKeystore.newMeta env.toEnv spec name tenantId none, material, ⟨tpm.nextNvIndex, 1⟩,
        pcrBinding⟩ := by
  unfold createKey at h
  split at h
  · exact .inl h
  · rename_i material hmaterial
    rw [nvStorage_put] at h
    split at h
    · rename_i hhandle
      exact .inr ⟨hhandle, material, hmaterial, (Option.some.inj h).symm⟩
    · exact .inl h

/-- An entry whose metadata is rewritten is the same key. -/
theorem put_cases {keyMeta : KeyMeta} (hfind : tpm.entryOf? keyId = some (handle, e)) (hid : keyMeta.id = e.keyMeta.id)
    (htenant : keyMeta.tenantId = e.keyMeta.tenantId) (hspec : keyMeta.spec = e.keyMeta.spec)
    (h : (tpm.put handle { e with keyMeta }).nvStorage[handle']? = some e') :
    ∃ e₀, tpm.nvStorage[handle']? = some e₀ ∧ e₀.SameKey e' := by
  rw [nvStorage_put] at h
  split at h
  · rename_i heq
    obtain rfl := Option.some.inj h
    exact ⟨e, heq ▸ (spec_of_entryOf? hfind).1, hid, htenant, hspec, rfl, rfl, rfl⟩
  · exact ⟨e', h, .rfl'⟩

theorem destroyKey_cases (h : (tpm.destroyKey keyId).2.nvStorage[handle]? = some e) :
    tpm.nvStorage[handle]? = some e := by
  unfold destroyKey at h
  split at h
  · exact h
  · rw [Std.ExtTreeMap.getElem?_erase] at h
    split at h
    · cases h
    · exact h

/-- Where an entry comes from. -/
theorem entry_origin {c : TpmCall} (h : (use crypto tpm c).2.nvStorage[handle]? = some e) :
    (∃ e₀, tpm.nvStorage[handle]? = some e₀ ∧ e₀.SameKey e) ∨ Made tpm c.env c.op e ∧ handle = tpm.nextNvIndex := by
  obtain ⟨env, op⟩ := c
  have hkept : tpm.nvStorage[handle]? = some e → (∃ e₀, tpm.nvStorage[handle]? = some e₀ ∧ e₀.SameKey e) ∨
      Made tpm env op e ∧ handle = tpm.nextNvIndex := fun h => .inl ⟨e, h, .rfl'⟩
  cases op with
  | extendPcr pcrIndex data => exact hkept h
  | generateKeyWithPcrBinding spec name tenantId pcrIndices =>
    replace h : (tpm.generateKeyWithPcrBinding env spec name tenantId pcrIndices).2.nvStorage[handle]? = some e := h
    unfold generateKeyWithPcrBinding at h
    split at h
    · exact hkept h
    · rename_i hvalid
      rcases createKey_cases h with h | ⟨hhandle, material, hmaterial, rfl⟩
      · exact hkept h
      · refine .inr ⟨.bound hmaterial fun idx hidx => ?_, hhandle⟩
        simpa using List.find?_eq_none.1 hvalid idx hidx
  | backend op =>
    cases op with
    | generateKey spec name tenantId =>
      rcases createKey_cases h with h | ⟨hhandle, material, hmaterial, rfl⟩
      · exact hkept h
      · exact .inr ⟨.plain hmaterial, hhandle⟩
    | rotateKey keyId tenantId =>
      replace h : (tpm.rotateKey env keyId).2.nvStorage[handle]? = some e := h
      unfold rotateKey at h
      split at h
      · exact hkept h
      · rename_i hfind
        refine .inl (put_cases (entryFor_eq_ok_iff.1 hfind) ?_ ?_ ?_ h)
        all_goals rfl
    | deleteKey keyId tenantId =>
      replace h : (tpm.deleteKey keyId).2.nvStorage[handle]? = some e := h
      unfold deleteKey at h
      split at h
      · exact hkept h
      · rename_i hfind
        refine .inl (put_cases (entryFor_eq_ok_iff.1 hfind) ?_ ?_ ?_ h)
        all_goals rfl
    | destroyKey keyId => exact hkept (destroyKey_cases h)
    | destroyKeyWithProof keyId =>
      replace h : (tpm.destroyKeyWithProof crypto env keyId).2.nvStorage[handle]? = some e := h
      unfold destroyKeyWithProof at h
      split at h
      · exact hkept h
      · have hdestroyed : (tpm.destroyKey keyId).2.nvStorage[handle]? = some e := by
          simp only at h
          split at h
          all_goals
            rename_i hdestroy
            rw [hdestroy]
            exact h
        exact hkept (destroyKey_cases hdestroyed)
    | getKeyMetadata | encrypt | decrypt | sign | verify | listKeys | importKeyMaterial | exportKeyMaterial
    | getKeyMaterial | getKeyMaterialVersion | deriveSharedSecret => exact hkept h

theorem newId?_of_made {op : TpmOp} (h : Made tpm env op e) : TpmCall.newId? ⟨env, op⟩ = some e.keyMeta.id := by
  cases h <;> rfl

theorem handle_of_made {op : TpmOp} (h : Made tpm env op e) : e.auth.handle = tpm.nextNvIndex := by
  cases h <;> rfl

/-- Every entry of a run from an empty storage was created by a call of the run, and is under its handle. -/
theorem origin_of_final {is : List TpmCall} (hempty : tpm.nvStorage = ∅)
    (h : ((use crypto).final tpm is).nvStorage[handle]? = some e) :
    ∃ is₁ c is₂ e₀, is = is₁ ++ c :: is₂ ∧ Made ((use crypto).final tpm is₁) c.env c.op e₀ ∧ e₀.SameKey e ∧
      e.auth.handle = handle := by
  induction is using List.reverseRecOn generalizing handle e with
  | nil =>
    replace h : tpm.nvStorage[handle]? = some e := h
    rw [hempty] at h
    simp at h
  | append_singleton is c ih =>
    rw [Machine.final_append] at h
    rcases entry_origin h with ⟨e₁, h₁, hsame⟩ | ⟨hmade, rfl⟩
    · obtain ⟨is₁, c', is₂, e₀, rfl, hmade, hsame', hhandle⟩ := ih h₁
      exact ⟨is₁, c', is₂ ++ [c], e₀, by simp, hmade, hsame'.trans hsame, hsame.auth ▸ hhandle⟩
    · exact ⟨is, c, [], e, rfl, hmade, .rfl', handle_of_made hmade⟩

/-- An id is in one entry at most, as calls draw different ids. -/
theorem handle_eq_of_id {is : List TpmCall} (hempty : tpm.nvStorage = ∅) (hids : (is.filterMap TpmCall.newId?).Nodup)
    (h : ((use crypto).final tpm is).nvStorage[handle]? = some e)
    (h' : ((use crypto).final tpm is).nvStorage[handle']? = some e') (hid : e.keyMeta.id = e'.keyMeta.id) :
    handle = handle' := by
  obtain ⟨is₁, c, is₂, e₀, heq, hmade, hsame, rfl⟩ := origin_of_final hempty h
  obtain ⟨js₁, c', js₂, e₁, heq', hmade', hsame', rfl⟩ := origin_of_final hempty h'
  have hname : TpmCall.newId? c = some e.keyMeta.id := hsame.id ▸ newId?_of_made hmade
  have hname' : TpmCall.newId? c' = some e.keyMeta.id := by rw [newId?_of_made hmade', hid, hsame'.id]
  obtain ⟨rfl, rfl, -⟩ := Machine.eq_of_nodup_filterMap hids heq heq' hname hname'
  rw [hsame.auth, hsame'.auth, handle_of_made hmade, handle_of_made hmade']

/-- The entry under an id is the one that is found. -/
theorem entryOf?_of_id {is : List TpmCall} (hempty : tpm.nvStorage = ∅) (hids : (is.filterMap TpmCall.newId?).Nodup)
    (h : ((use crypto).final tpm is).nvStorage[handle]? = some e) :
    ((use crypto).final tpm is).entryOf? e.keyMeta.id = some (handle, e) := by
  cases hfind : ((use crypto).final tpm is).entryOf? e.keyMeta.id with
  | none =>
    have hmem := Std.ExtTreeMap.mem_toList_iff_getElem?_eq_some.2 h
    exact absurd (beq_self_eq_true e.keyMeta.id) (List.find?_eq_none.1 hfind _ hmem)
  | some r =>
    obtain ⟨handle', e'⟩ := r
    obtain ⟨hstored, hid⟩ := spec_of_entryOf? hfind
    obtain rfl := handle_eq_of_id hempty hids h hstored hid.symm
    rw [h] at hstored
    rw [Option.some.inj hstored]

/-! ## What a success says -/

theorem checkPcrBinding_some_iff {bindings : PcrBinding} : tpm.checkPcrBinding (some bindings) = .ok () ↔
    ∀ b ∈ bindings, tpm.pcrBank.read b.1 = some b.2 := by
  unfold checkPcrBinding
  simp only
  induction bindings with
  | nil => simp [pure, Except.pure]
  | cons b bindings ih =>
    rw [List.forM_cons, List.forall_mem_cons, ← ih]
    cases hread : tpm.pcrBank.read b.1 with
    | none => simp [bind, Except.bind]
    | some actual =>
      by_cases heq : actual = b.2
      · simp [bind, Except.bind, heq]
      · simp [bind, Except.bind, heq]

theorem checkPcrBinding_capture_iff {bank : PcrBank} {pcrIndices : List ℕ}
    (hvalid : ∀ idx ∈ pcrIndices, idx < numPcrs) :
    tpm.checkPcrBinding (some (capture bank pcrIndices)) = .ok () ↔
      ∀ idx ∈ pcrIndices, tpm.pcrBank.read idx = bank.read idx := by
  rw [checkPcrBinding_some_iff]
  have hread : ∀ idx ∈ pcrIndices, ∃ value, bank.read idx = some value := fun idx hidx =>
    ⟨_, dif_pos (hvalid idx hidx)⟩
  constructor
  · intro h idx hidx
    obtain ⟨value, hvalue⟩ := hread idx hidx
    rw [hvalue]
    exact h (idx, value) (List.mem_filterMap.2 ⟨idx, hidx, by rw [hvalue]; rfl⟩)
  · intro h b hb
    obtain ⟨idx, hidx, hb⟩ := List.mem_filterMap.1 hb
    obtain ⟨value, hvalue, rfl⟩ := Option.map_eq_some_iff.1 hb
    rw [← hvalue]
    exact h idx hidx

theorem tpmProtect_ok {plaintext : Bytes} {ciphertext : Ciphertext}
    (h : tpm.tpmProtect crypto env keyId plaintext = .ok ciphertext) :
    ∃ handle e, tpm.entryOf? keyId = some (handle, e) ∧ tpm.checkPcrBinding e.pcrBinding = .ok () ∧
      32 ≤ e.sealedMaterial.length ∧ env.randomReady = true ∧ ∃ sealed,
        aesGcmEncrypt crypto (e.sealedMaterial.take 32) plaintext (env.fillBytes 12) = .ok sealed ∧
        ciphertext = ⟨keyId, e.keyMeta.version, 1, env.fillBytes 12, sealed, List.replicate 16 0⟩ := by
  obtain ⟨⟨handle, e⟩, hentry, h⟩ := bind_eq_ok h
  obtain ⟨_, hcheck, h⟩ := bind_eq_ok h
  split at h
  · cases h
  · rename_i hlen
    split at h
    · cases h
    · rename_i hrandom
      obtain ⟨sealed, hsealed, h⟩ := bind_eq_ok h
      exact ⟨handle, e, entryFor_eq_ok_iff.1 hentry, hcheck, not_lt.1 hlen, by simpa using hrandom, sealed, hsealed,
        (Except.ok.inj h).symm⟩

theorem tpmUnprotect_ok {ciphertext : Ciphertext} {plaintext : Bytes}
    (h : tpm.tpmUnprotect crypto keyId ciphertext = .ok plaintext) :
    ∃ handle e, tpm.entryOf? keyId = some (handle, e) ∧ tpm.checkPcrBinding e.pcrBinding = .ok () ∧
      32 ≤ e.sealedMaterial.length ∧
      aesGcmDecrypt crypto (e.sealedMaterial.take 32) ciphertext.ciphertext ciphertext.nonce = .ok plaintext := by
  obtain ⟨⟨handle, e⟩, hentry, h⟩ := bind_eq_ok h
  obtain ⟨_, hcheck, h⟩ := bind_eq_ok h
  split at h
  · cases h
  · rename_i hlen
    exact ⟨handle, e, entryFor_eq_ok_iff.1 hentry, hcheck, not_lt.1 hlen, h⟩

/-- A signature is one of an SM2 key, or of an Ed25519 key with a public half. -/
theorem tpmSign_ok {data : Bytes} {sig : Signature} (h : tpm.tpmSign crypto env keyId data = .ok sig) :
    ∃ handle e, tpm.entryOf? keyId = some (handle, e) ∧
      ((e.keyMeta.spec = .sm2 ∧ ∃ s, sm2Sign crypto env e.sealedMaterial data = .ok s) ∨
        e.keyMeta.spec = .ed25519 ∧ 64 ≤ e.sealedMaterial.length) := by
  obtain ⟨⟨handle, e⟩, hentry, h⟩ := bind_eq_ok h
  refine ⟨handle, e, entryFor_eq_ok_iff.1 hentry, ?_⟩
  simp only at h
  split at h
  · rename_i hspec
    obtain ⟨s, hs, -⟩ := bind_eq_ok h
    refine .inr ⟨hspec, ?_⟩
    unfold ed25519Sign at hs
    split at hs
    · cases hs
    · split at hs
      · cases hs
      · rename_i hlen
        exact not_lt.1 hlen
  · rename_i hspec
    obtain ⟨s, hs, -⟩ := bind_eq_ok h
    exact .inl ⟨hspec, s, hs⟩
  · cases h

theorem tpmSign_of_sm2 {data s : Bytes} (hentry : tpm.entryOf? keyId = some (handle, e)) (hspec : e.keyMeta.spec = .sm2)
    (hs : sm2Sign crypto env e.sealedMaterial data = .ok s) :
    tpm.tpmSign crypto env keyId data = .ok ⟨keyId, e.keyMeta.version, s⟩ := by
  have hfor := entryFor_eq_ok_iff.2 hentry
  simp [tpmSign, hfor, hspec, hs, bind, Except.bind]

theorem generateKeyMaterial_length {spec : KeySpec} {material : Bytes}
    (h : generateKeyMaterial env spec = .ok material) :
    ∃ len, materialLen spec = .ok len ∧ material.length = len := by
  unfold generateKeyMaterial at h
  split at h
  · cases h
  · rename_i len hlen
    split at h
    · obtain rfl := Except.ok.inj h
      exact ⟨len, hlen, by simp [Software.Env.fillBytes]⟩
    · cases h

theorem spec_of_made {op : TpmOp} (h : Made tpm env op e) :
    generateKeyMaterial env e.keyMeta.spec = .ok e.sealedMaterial := by
  cases h <;> assumption

/-- Every entry has the material of its specification, so that no Ed25519 key has a public half. -/
theorem sealedMaterial_of_final {is : List TpmCall} (hempty : tpm.nvStorage = ∅)
    (h : ((use crypto).final tpm is).nvStorage[handle]? = some e) :
    ∃ len, materialLen e.keyMeta.spec = .ok len ∧ e.sealedMaterial.length = len := by
  obtain ⟨is₁, c, is₂, e₀, -, hmade, hsame, -⟩ := origin_of_final hempty h
  obtain ⟨len, hlen, hmaterial⟩ := generateKeyMaterial_length (spec_of_made hmade)
  exact ⟨len, hsame.spec ▸ hlen, hsame.sealedMaterial ▸ hmaterial⟩

/-- So a key that signs is an SM2 key. -/
theorem sm2Sign_of_final {is : List TpmCall} {data : Bytes} {sig : Signature} (hempty : tpm.nvStorage = ∅)
    (h : ((use crypto).final tpm is).tpmSign crypto env keyId data = .ok sig) :
    ∃ handle e s, ((use crypto).final tpm is).entryOf? keyId = some (handle, e) ∧ e.keyMeta.spec = .sm2 ∧
      sm2Sign crypto env e.sealedMaterial data = .ok s := by
  obtain ⟨handle, e, hentry, hsigned⟩ := tpmSign_ok h
  rcases hsigned with ⟨hspec, s, hs⟩ | ⟨hspec, hlen⟩
  · exact ⟨handle, e, s, hentry, hspec, hs⟩
  · obtain ⟨len, hmaterial, hlength⟩ := sealedMaterial_of_final hempty (spec_of_entryOf? hentry).1
    rw [hspec] at hmaterial
    obtain rfl : 32 = len := Except.ok.inj hmaterial
    omega

end SimulatedTpmKeystore

end GmKms.Hsm
