import GmKms.Hsm.TpmSteps
/-!
# The rules of the keystore on the simulated TPM

The rules by which the software keystore answers: a key works for its own tenant, a
deleted key neither encrypts nor signs nor comes back, and a rotation gives new
material while what was encrypted before stays readable. The simulated TPM keeps the
last part only; the others hold in runs that ask for nothing else.
-/

namespace GmKms.Hsm

open Lib Keystore

/-- The operations that both backends have for a key they generate. -/
def TpmOp.shared : TpmOp → Bool
  | backend (.generateKey ..) | backend (.encrypt ..) | backend (.decrypt ..) | backend (.sign ..)
  | backend (.rotateKey ..) | backend (.deleteKey ..) => true
  | _ => false

/-- The key and the tenant of an operation that acts for a tenant on a key. -/
def TpmOp.tenantKey? : TpmOp → Option (Uuid × String)
  | backend (.encrypt keyId _ tenantId) | backend (.decrypt keyId _ tenantId) | backend (.sign keyId _ tenantId)
  | backend (.rotateKey keyId tenantId) | backend (.deleteKey keyId tenantId) => some (keyId, tenantId)
  | _ => none

/-- The key that an operation encrypts or signs with. -/
def TpmOp.makes? : TpmOp → Option Uuid
  | backend (.encrypt keyId ..) | backend (.sign keyId ..) => some keyId
  | _ => none

/-- The metadata after a rotation at the time `now`. -/
def rotatedMeta (keyMeta : KeyMeta) (now : DateTime) : KeyMeta :=
  { keyMeta with
    version := keyMeta.version + 1
    rotatedAt := some now
    status := .active }

/-- The metadata of a deleted key. -/
def deletedMeta (keyMeta : KeyMeta) : KeyMeta := { keyMeta with status := .pendingDeletion }

namespace SimulatedTpmKeystore

variable (crypto : TpmCrypto)

/-- The rules for one call. -/
structure CallRules (tpm : SimulatedTpmKeystore) (c : TpmCall) : Prop where
  tenant : ∀ keyId tenantId handle e value, c.op.tenantKey? = some (keyId, tenantId) →
    tpm.entryOf? keyId = some (handle, e) → (perform crypto c.env c.op tpm).1 = .ok value →
    e.keyMeta.tenantId = tenantId
  deleted : ∀ keyId handle e value, c.op.makes? = some keyId → tpm.entryOf? keyId = some (handle, e) →
    (perform crypto c.env c.op tpm).1 = .ok value → e.keyMeta.status ≠ .pendingDeletion
  stays : ∀ (handle : UInt32) e e', tpm.nvStorage[handle]? = some e → e.keyMeta.status = .pendingDeletion →
    (use crypto tpm c).2.nvStorage[handle]? = some e' → e'.keyMeta.id = e.keyMeta.id → e'.keyMeta.status ≠ .active

/-- The rules over a run. -/
structure ObeysRules (tpm : SimulatedTpmKeystore) (is : List TpmCall) : Prop where
  call : ∀ is₁ c is₂, is = is₁ ++ c :: is₂ → CallRules crypto ((use crypto).final tpm is₁) c
  newMaterial : ∀ is₁ env keyId tenantId is₂ env' plaintext tenantId' is₃ keyMeta ciphertext,
    is = is₁ ++ ⟨env, .backend (.rotateKey keyId tenantId)⟩ ::
      (is₂ ++ ⟨env', .backend (.encrypt keyId plaintext tenantId')⟩ :: is₃) →
    (((use crypto).final tpm is₁).rotateKey env keyId).1 = .ok keyMeta →
    ((use crypto).final tpm (is₁ ++ ⟨env, .backend (.rotateKey keyId tenantId)⟩ :: is₂)).tpmProtect crypto env' keyId
      plaintext = .ok ciphertext →
    ∀ handle e handle' e', ((use crypto).final tpm is₁).entryOf? keyId = some (handle, e) →
      ((use crypto).final tpm (is₁ ++ ⟨env, .backend (.rotateKey keyId tenantId)⟩ :: is₂)).entryOf? keyId =
        some (handle', e') → e'.sealedMaterial ≠ e.sealedMaterial
  readable : ∀ is₁ env keyId plaintext tenantId is₂ is₃ ciphertext,
    is = is₁ ++ ⟨env, .backend (.encrypt keyId plaintext tenantId)⟩ :: (is₂ ++ is₃) →
    ((use crypto).final tpm is₁).tpmProtect crypto env keyId plaintext = .ok ciphertext →
    ((use crypto).final tpm (is₁ ++ ⟨env, .backend (.encrypt keyId plaintext tenantId)⟩ :: is₂)).tpmUnprotect crypto
    keyId
      ciphertext = .ok plaintext

/-- A call that would be answered asks for what the rules allow: it comes from the key's tenant, it does not encrypt,
sign or rotate with a deleted key, and it does not encrypt with a rotated one. -/
def KeepsRules (tpm : SimulatedTpmKeystore) (c : TpmCall) : Prop :=
  match c.op with
  | .backend (.encrypt keyId plaintext tenantId) => ∀ handle e ciphertext, tpm.entryOf? keyId = some (handle, e) →
    32 ≤ e.sealedMaterial.length → c.env.randomReady = true →
    aesGcmEncrypt crypto (e.sealedMaterial.take 32) plaintext (c.env.fillBytes 12) = .ok ciphertext →
    e.keyMeta.tenantId = tenantId ∧ e.keyMeta.status ≠ .pendingDeletion ∧ e.keyMeta.rotatedAt = none
  | .backend (.decrypt keyId ciphertext tenantId) => ∀ handle e plaintext, tpm.entryOf? keyId = some (handle, e) →
    32 ≤ e.sealedMaterial.length →
    aesGcmDecrypt crypto (e.sealedMaterial.take 32) ciphertext.ciphertext ciphertext.nonce = .ok plaintext →
    e.keyMeta.tenantId = tenantId
  | .backend (.sign keyId data tenantId) => ∀ handle e signature, tpm.entryOf? keyId = some (handle, e) →
    e.keyMeta.spec = .sm2 → sm2Sign crypto c.env e.sealedMaterial data = .ok signature →
    e.keyMeta.tenantId = tenantId ∧ e.keyMeta.status ≠ .pendingDeletion
  | .backend (.rotateKey keyId tenantId) => ∀ handle e, tpm.entryOf? keyId = some (handle, e) →
    e.keyMeta.tenantId = tenantId ∧ e.keyMeta.status ≠ .pendingDeletion
  | .backend (.deleteKey keyId tenantId) => ∀ handle e, tpm.entryOf? keyId = some (handle, e) →
    e.keyMeta.tenantId = tenantId
  | _ => True

/-- A new key does not get the handle of another: the counter of 32 bits has not come round. -/
def FreshHandle (tpm : SimulatedTpmKeystore) (c : TpmCall) : Prop :=
  (TpmCall.newId? c).isSome → tpm.nvStorage[tpm.nextNvIndex]? = none

/-- What the rules need a call to be, as the keystore itself does not see to them. -/
structure Guarded (tpm : SimulatedTpmKeystore) (c : TpmCall) : Prop where
  keepsRules : KeepsRules crypto tpm c
  freshHandle : FreshHandle tpm c

/-- What a call makes of the entry under a handle. -/
inductive EntryStep (tpm : SimulatedTpmKeystore) (c : TpmCall) (handle : UInt32) : TpmNvEntry → TpmNvEntry → Prop where
  | kept (e : TpmNvEntry) : EntryStep tpm c handle e e
  | rotated {e : TpmNvEntry} {keyId : Uuid} {tenantId : String} (asked : c.op = .backend (.rotateKey keyId tenantId))
      (found : tpm.entryOf? keyId = some (handle, e)) :
      EntryStep tpm c handle e { e with keyMeta := rotatedMeta e.keyMeta c.env.now }
  | deleted {e : TpmNvEntry} {keyId : Uuid} {tenantId : String} (asked : c.op = .backend (.deleteKey keyId tenantId))
      (found : tpm.entryOf? keyId = some (handle, e)) :
      EntryStep tpm c handle e { e with keyMeta := deletedMeta e.keyMeta }

variable {crypto} {tpm : SimulatedTpmKeystore} {c : TpmCall} {e e' : TpmNvEntry} {handle : UInt32}

theorem EntryStep.sameKey (h : EntryStep tpm c handle e e') : e.SameKey e' := by
  cases h with
  | kept => exact .rfl'
  | rotated => exact ⟨rfl, rfl, rfl, rfl, rfl, rfl⟩
  | deleted => exact ⟨rfl, rfl, rfl, rfl, rfl, rfl⟩

theorem EntryStep.rotatedAt (h : EntryStep tpm c handle e e') (hrotated : e.keyMeta.rotatedAt.isSome) :
    e'.keyMeta.rotatedAt.isSome := by
  cases h with
  | kept => exact hrotated
  | rotated => rfl
  | deleted => exact hrotated

theorem rotateKey_of_entryOf? {env : TpmEnv} {keyId : Uuid} (h : tpm.entryOf? keyId = some (handle, e)) :
    tpm.rotateKey env keyId = (.ok (rotatedMeta e.keyMeta env.now),
      tpm.put handle { e with keyMeta := rotatedMeta e.keyMeta env.now }) := by
  rw [rotateKey, entryFor_eq_ok_iff.2 h]
  rfl

theorem deleteKey_of_entryOf? {keyId : Uuid} (h : tpm.entryOf? keyId = some (handle, e)) :
    tpm.deleteKey keyId = (.ok (), tpm.put handle { e with keyMeta := deletedMeta e.keyMeta }) := by
  rw [deleteKey, entryFor_eq_ok_iff.2 h]
  rfl

theorem entryFor_of_none {keyId : Uuid} (h : tpm.entryOf? keyId = none) :
    tpm.entryFor keyId = .error (failed (.keyNotFound keyId.text)) := by rw [entryFor, h]

/-- No entry is lost, and each changes by a rotation or a deletion only. -/
theorem entryStep (hshared : c.op.shared = true) (hfree : FreshHandle tpm c) (h : tpm.nvStorage[handle]? = some e) :
    ∃ e', (use crypto tpm c).2.nvStorage[handle]? = some e' ∧ EntryStep tpm c handle e e' := by
  obtain ⟨env, op⟩ := c
  cases op with
  | extendPcr => cases hshared
  | generateKeyWithPcrBinding => cases hshared
  | backend op =>
    cases op with
    | generateKey spec name tenantId =>
      refine ⟨e, ?_, .kept e⟩
      change (tpm.createKey env spec name tenantId none).2.nvStorage[handle]? = some e
      unfold createKey
      split
      · exact h
      · have hne : handle ≠ tpm.nextNvIndex := by
          rintro rfl
          rw [hfree rfl] at h
          cases h
        rw [nvStorage_put, if_neg hne]
        exact h
    | rotateKey keyId tenantId =>
      change ∃ e', (tpm.rotateKey env keyId).2.nvStorage[handle]? = some e' ∧ _
      cases hfind : tpm.entryOf? keyId with
      | none =>
        rw [rotateKey, entryFor_of_none hfind]
        exact ⟨e, h, .kept e⟩
      | some r =>
        obtain ⟨handle', e₀⟩ := r
        rw [rotateKey_of_entryOf? hfind, nvStorage_put]
        split
        · rename_i heq
          subst heq
          obtain rfl : e = e₀ := Option.some.inj (h.symm.trans (spec_of_entryOf? hfind).1)
          exact ⟨_, rfl, .rotated rfl hfind⟩
        · exact ⟨e, h, .kept e⟩
    | deleteKey keyId tenantId =>
      change ∃ e', (tpm.deleteKey keyId).2.nvStorage[handle]? = some e' ∧ _
      cases hfind : tpm.entryOf? keyId with
      | none =>
        rw [deleteKey, entryFor_of_none hfind]
        exact ⟨e, h, .kept e⟩
      | some r =>
        obtain ⟨handle', e₀⟩ := r
        rw [deleteKey_of_entryOf? hfind, nvStorage_put]
        split
        · rename_i heq
          subst heq
          obtain rfl : e = e₀ := Option.some.inj (h.symm.trans (spec_of_entryOf? hfind).1)
          exact ⟨_, rfl, .deleted rfl hfind⟩
        · exact ⟨e, h, .kept e⟩
    | encrypt | decrypt | sign => exact ⟨e, h, .kept e⟩
    | getKeyMetadata | verify | destroyKey | destroyKeyWithProof | listKeys | importKeyMaterial | exportKeyMaterial
    | getKeyMaterial | getKeyMaterialVersion | deriveSharedSecret => cases hshared

/-- An entry stays, with its material, and stays rotated. -/
theorem entry_kept {is : List TpmCall} {H : History TpmCall (Σ op : TpmOp, op.Reply)}
    (hshared : ∀ c ∈ is, c.op.shared = true)
    (hguard : (use crypto).Along (fun _ tpm c => Guarded crypto tpm c) H tpm is)
    (h : tpm.nvStorage[handle]? = some e) : ∃ e', ((use crypto).final tpm is).nvStorage[handle]? = some e' ∧
      e.SameKey e' ∧ (e.keyMeta.rotatedAt.isSome → e'.keyMeta.rotatedAt.isSome) := by
  have hall : (use crypto).Along (fun _ _ c => c.op.shared = true) H tpm is := by
    refine Machine.along_iff_forall.2 fun is₁ c is₂ heq => hshared c ?_
    rw [heq]
    simp
  refine (hall.and hguard).exists_rel (f := fun tpm => tpm.nvStorage[handle]?)
    (R := fun e e' => e.SameKey e' ∧ (e.keyMeta.rotatedAt.isSome → e'.keyMeta.rotatedAt.isSome))
    (fun _ => ⟨.rfl', id⟩) (fun _ _ _ h₁ h₂ => ⟨h₁.1.trans h₂.1, h₂.2 ∘ h₁.2⟩) ?_ h
  rintro _ tpm c e ⟨hc, hguarded⟩ he
  obtain ⟨e', he', hstep⟩ : ∃ e', (use crypto tpm c).2.nvStorage[handle]? = some e' ∧ EntryStep tpm c handle e e' :=
    entryStep hc hguarded.freshHandle he
  exact ⟨e', he', hstep.sameKey, hstep.rotatedAt⟩

/-- A key that is found is found later, under its handle. -/
theorem entryOf?_later {is js : List TpmCall} {keyId : Uuid} (hempty : tpm.nvStorage = ∅)
    (hshared : ∀ c ∈ is ++ js, c.op.shared = true) (hids : ((is ++ js).filterMap TpmCall.newId?).Nodup)
    (hguard : (use crypto).Along (fun _ tpm c => Guarded crypto tpm c) [] tpm (is ++ js))
    (hentry : ((use crypto).final tpm is).entryOf? keyId = some (handle, e)) :
    ∃ e', ((use crypto).final tpm (is ++ js)).entryOf? keyId = some (handle, e') ∧ e.SameKey e' ∧
      (e.keyMeta.rotatedAt.isSome → e'.keyMeta.rotatedAt.isSome) := by
  obtain ⟨hstored, rfl⟩ := spec_of_entryOf? hentry
  have hlater := Machine.along_append.1 hguard
  obtain ⟨e', hstored', hsame, hrotated⟩ :=
    entry_kept (fun c hc => hshared c (List.mem_append_right _ hc)) hlater.2 hstored
  rw [← Machine.final_append] at hstored'
  refine ⟨e', ?_, hsame, hrotated⟩
  rw [← hsame.id]
  exact entryOf?_of_id hempty hids hstored'

/-- A key of these runs is bound to no register. -/
theorem pcrBinding_of_final {is : List TpmCall} (hempty : tpm.nvStorage = ∅) (hshared : ∀ c ∈ is, c.op.shared = true)
    (h : ((use crypto).final tpm is).nvStorage[handle]? = some e) : e.pcrBinding = none := by
  obtain ⟨is₁, c, is₂, e₀, rfl, hmade, hsame, -⟩ := origin_of_final hempty h
  have hc := hshared c (by simp)
  rw [hsame.pcrBinding]
  obtain ⟨env, op⟩ := c
  cases hmade with
  | plain => rfl
  | bound => cases hc

/-! ## One call -/

theorem callRules_of_guarded {is : List TpmCall} (hempty : tpm.nvStorage = ∅) (hshared : c.op.shared = true)
    (hguard : Guarded crypto ((use crypto).final tpm is) c) : CallRules crypto ((use crypto).final tpm is) c := by
  obtain ⟨env, op⟩ := c
  obtain ⟨hrules, hfree⟩ := hguard
  constructor
  · intro keyId tenantId handle e value htenant hentry hok
    cases op with
    | extendPcr => cases hshared
    | generateKeyWithPcrBinding => cases hshared
    | backend op =>
      cases op with
      | encrypt keyId' plaintext tenantId' =>
        cases htenant
        obtain ⟨handle', e', hentry', -, hlen, hrandom, sealed, hsealed, -⟩ := tpmProtect_ok hok
        obtain ⟨rfl, rfl⟩ := Prod.mk.inj (Option.some.inj (hentry.symm.trans hentry'))
        exact (hrules handle e sealed hentry hlen hrandom hsealed).1
      | decrypt keyId' ciphertext tenantId' =>
        cases htenant
        obtain ⟨handle', e', hentry', -, hlen, hopened⟩ := tpmUnprotect_ok hok
        obtain ⟨rfl, rfl⟩ := Prod.mk.inj (Option.some.inj (hentry.symm.trans hentry'))
        exact hrules handle e value hentry hlen hopened
      | sign keyId' data tenantId' =>
        cases htenant
        obtain ⟨handle', e', s, hentry', hspec, hs⟩ := sm2Sign_of_final hempty hok
        obtain ⟨rfl, rfl⟩ := Prod.mk.inj (Option.some.inj (hentry.symm.trans hentry'))
        exact (hrules handle e s hentry hspec hs).1
      | rotateKey keyId' tenantId' =>
        cases htenant
        exact (hrules handle e hentry).1
      | deleteKey keyId' tenantId' =>
        cases htenant
        exact hrules handle e hentry
      | generateKey | getKeyMetadata | verify | destroyKey | destroyKeyWithProof | listKeys | importKeyMaterial
      | exportKeyMaterial | getKeyMaterial | getKeyMaterialVersion | deriveSharedSecret => cases htenant
  · intro keyId handle e value hmakes hentry hok
    cases op with
    | extendPcr => cases hshared
    | generateKeyWithPcrBinding => cases hshared
    | backend op =>
      cases op with
      | encrypt keyId' plaintext tenantId' =>
        cases hmakes
        obtain ⟨handle', e', hentry', -, hlen, hrandom, sealed, hsealed, -⟩ := tpmProtect_ok hok
        obtain ⟨rfl, rfl⟩ := Prod.mk.inj (Option.some.inj (hentry.symm.trans hentry'))
        exact (hrules handle e sealed hentry hlen hrandom hsealed).2.1
      | sign keyId' data tenantId' =>
        cases hmakes
        obtain ⟨handle', e', s, hentry', hspec, hs⟩ := sm2Sign_of_final hempty hok
        obtain ⟨rfl, rfl⟩ := Prod.mk.inj (Option.some.inj (hentry.symm.trans hentry'))
        exact (hrules handle e s hentry hspec hs).2
      | decrypt | rotateKey | deleteKey | generateKey | getKeyMetadata | verify | destroyKey | destroyKeyWithProof
      | listKeys | importKeyMaterial | exportKeyMaterial | getKeyMaterial | getKeyMaterialVersion
      | deriveSharedSecret => cases hmakes
  · intro handle e e' hstored hpending hstored' hid
    obtain ⟨e₁, h₁, hstep⟩ : ∃ e₁, (use crypto ((use crypto).final tpm is) ⟨env, op⟩).2.nvStorage[handle]? = some e₁ ∧
        EntryStep ((use crypto).final tpm is) ⟨env, op⟩ handle e e₁ := entryStep hshared hfree hstored
    obtain rfl := Option.some.inj (h₁.symm.trans hstored')
    cases hstep with
    | kept => simp [hpending]
    | deleted => simp [deletedMeta]
    | rotated hasked hfound =>
      -- only a rotation makes a key active, and the guard asks for another status
      replace hasked : op = _ := hasked
      subst hasked
      exact absurd hpending (hrules handle e hfound).2

/-! ## The run -/

theorem decrypts_of_lawful (hlawful : crypto.toCrypto.Lawful) {key plaintext nonce sealed : Bytes}
    (hnonce : nonce.length = 12) (h : aesGcmEncrypt crypto key plaintext nonce = .ok sealed) :
    aesGcmDecrypt crypto key sealed nonce = .ok plaintext := by
  unfold aesGcmEncrypt at h
  unfold aesGcmDecrypt
  split at h
  · cases h
  · split at h
    · cases h
    · rename_i hkey _ ciphertext tag hsealed
      obtain rfl := Except.ok.inj h
      simp [hnonce, hlawful.open_seal hsealed]

theorem tpmUnprotect_of_entryOf? {ciphertext : Ciphertext} {plaintext : Bytes} {keyId : Uuid}
    (hentry : tpm.entryOf? keyId = some (handle, e)) (hbinding : e.pcrBinding = none)
    (hlen : 32 ≤ e.sealedMaterial.length)
    (hopened : aesGcmDecrypt crypto (e.sealedMaterial.take 32) ciphertext.ciphertext ciphertext.nonce = .ok plaintext) :
    tpm.tpmUnprotect crypto keyId ciphertext = .ok plaintext := by
  have hfor := entryFor_eq_ok_iff.2 hentry
  simp [tpmUnprotect, hfor, hbinding, checkPcrBinding, not_lt.2 hlen, hopened, bind, Except.bind]

/-- The rules are kept over a run from an empty storage whose calls ask for what the rules allow. -/
theorem obeysRules_of_along (hlawful : crypto.toCrypto.Lawful) (initialPcrs : List (ℕ × Bytes)) (is : List TpmCall)
    (hshared : ∀ c ∈ is, c.op.shared = true) (hids : (is.filterMap TpmCall.newId?).Nodup)
    (hguard : (use crypto).Along (fun _ tpm c => Guarded crypto tpm c) [] (newWithPcrs crypto.sha256 initialPcrs) is) :
    ObeysRules crypto (newWithPcrs crypto.sha256 initialPcrs) is := by
  have hempty : (newWithPcrs crypto.sha256 initialPcrs).nvStorage = ∅ := rfl
  generalize newWithPcrs crypto.sha256 initialPcrs = tpm at hguard hempty ⊢
  have hstep := Machine.along_iff_forall.1 hguard
  constructor
  · rintro is₁ c is₂ rfl
    exact callRules_of_guarded hempty (hshared c (by simp)) (hstep is₁ c is₂ rfl)
  · rintro is₁ env keyId tenantId is₂ env' plaintext tenantId' is₃ keyMeta ciphertext rfl hrotated hencrypted handle e
      handle'
      e' hentry hentry'
    -- the rotation marks the entry, the mark stays, and the guard lets no marked entry encrypt
    have hafter : ((use crypto).final tpm (is₁ ++ [⟨env, .backend (.rotateKey keyId tenantId)⟩])).entryOf? keyId =
        some (handle, { e with keyMeta := rotatedMeta e.keyMeta env.now }) := by
      obtain ⟨hstored, rfl⟩ := spec_of_entryOf? hentry
      have hput : ((use crypto).final tpm
        (is₁ ++ [⟨env, .backend (.rotateKey e.keyMeta.id tenantId)⟩])).nvStorage[handle]? =
          some { e with keyMeta := rotatedMeta e.keyMeta env.now } := by
        rw [Machine.final_append]
        change (((use crypto).final tpm is₁).rotateKey env e.keyMeta.id).2.nvStorage[handle]? = _
        rw [rotateKey_of_entryOf? hentry, nvStorage_put, if_pos rfl]
      refine entryOf?_of_id hempty (hids.sublist (List.Sublist.filterMap _ ?_)) hput
      simp
    have hsplit : is₁ ++ ⟨env, .backend (.rotateKey keyId tenantId)⟩ :: (is₂ ++
        ⟨env', .backend (.encrypt keyId plaintext tenantId')⟩ :: is₃) = is₁ ++
        [⟨env, .backend (.rotateKey keyId tenantId)⟩] ++ is₂ ++
          ⟨env', .backend (.encrypt keyId plaintext tenantId')⟩ :: is₃ := by simp
    rw [hsplit] at hguard hshared hids hstep
    obtain ⟨e₂, hentry₂, -, hmark⟩ := entryOf?_later hempty (fun c hc => hshared c (List.mem_append_left _ hc))
      (hids.sublist (List.Sublist.filterMap _ (List.sublist_append_left _ _))) (Machine.along_append.1 hguard).1 hafter
    obtain ⟨handle₃, e₃, hentry₃, -, hlen, hrandom, sealed, hsealed, -⟩ := tpmProtect_ok hencrypted
    rw [show is₁ ++ ⟨env, .backend (.rotateKey keyId tenantId)⟩ :: is₂ = is₁ ++
      [⟨env, .backend (.rotateKey keyId tenantId)⟩] ++ is₂ by simp] at hentry₃
    obtain ⟨rfl, rfl⟩ := Prod.mk.inj (Option.some.inj (hentry₂.symm.trans hentry₃))
    have hnot := ((hstep _ _ _ rfl).keepsRules handle e₂ sealed hentry₂ hlen hrandom hsealed).2.2
    have hsome := hmark rfl
    rw [hnot] at hsome
    cases hsome
  · rintro is₁ env keyId plaintext tenantId is₂ is₃ ciphertext rfl hencrypted
    obtain ⟨handle, e, hentry, -, hlen, -, sealed, hsealed, rfl⟩ := tpmProtect_ok hencrypted
    rw [← List.cons_append, ← List.append_assoc] at hguard hshared hids
    obtain ⟨e', hentry', hsame, -⟩ := entryOf?_later hempty (fun c hc => hshared c (List.mem_append_left _ hc))
      (hids.sublist (List.Sublist.filterMap _ (List.sublist_append_left _ _))) (Machine.along_append.1 hguard).1 hentry
    have hbinding := pcrBinding_of_final hempty (fun c hc => hshared c (List.mem_append_left _ hc))
      (spec_of_entryOf? hentry').1
    refine tpmUnprotect_of_entryOf? hentry' hbinding (hsame.sealedMaterial ▸ hlen) ?_
    rw [hsame.sealedMaterial]
    exact decrypts_of_lawful hlawful (by simp [Software.Env.fillBytes]) hsealed

/-- A key that is used and rotated by its tenant. -/
def ownedRun : List TpmCall :=
  [⟨sampleEnv 1 0, .backend (.generateKey .aes256Gcm "data-key" "tenant-a")⟩,
    ⟨sampleEnv 2 1, .backend (.encrypt 1 [1, 2, 3] "tenant-a")⟩, ⟨sampleEnv 3 2, .backend (.rotateKey 1 "tenant-a")⟩]

theorem obeysRules_of_along_ownedRun : ObeysRules .plain (newWithPcrs TpmCrypto.plain.sha256 []) ownedRun := by
  refine obeysRules_of_along TpmCrypto.plain_lawful [] ownedRun (by decide) (by decide) ⟨⟨trivial, fun _ => rfl⟩,
    ⟨?_, fun h => by cases h⟩, ⟨?_, fun h => by cases h⟩, trivial⟩
  · intro handle e ciphertext hentry _ _ _
    obtain ⟨-, rfl⟩ := Prod.mk.inj (Option.some.inj hentry)
    exact ⟨rfl, by decide, rfl⟩
  · intro handle e hentry
    obtain ⟨-, rfl⟩ := Prod.mk.inj (Option.some.inj hentry)
    exact ⟨rfl, by decide⟩

/-- A key of one tenant that another encrypts with. -/
def otherTenantRun : List TpmCall :=
  [⟨sampleEnv 1 0, .backend (.generateKey .aes256Gcm "data-key" "tenant-a")⟩,
    ⟨sampleEnv 2 1, .backend (.encrypt 1 [1, 2, 3] "tenant-b")⟩]

/-- The other tenant's call is answered. -/
theorem not_obeysRules_otherTenantRun : ¬ ObeysRules .plain (newWithPcrs TpmCrypto.plain.sha256 []) otherTenantRun := by
  intro h
  have hcall := h.call [⟨sampleEnv 1 0, .backend (.generateKey .aes256Gcm "data-key" "tenant-a")⟩]
    ⟨sampleEnv 2 1, .backend (.encrypt 1 [1, 2, 3] "tenant-b")⟩ [] rfl
  have htenant := hcall.tenant 1 "tenant-b" _ _ _ rfl rfl rfl
  exact absurd htenant (by decide)

end SimulatedTpmKeystore

end GmKms.Hsm
