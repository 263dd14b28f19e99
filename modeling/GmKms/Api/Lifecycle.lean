import GmKms.Api.Calls
import GmKms.Api.ExportRecovery
/-!
# After a key is deleted

A key marked for deletion stays so until it is destroyed. The methods of the keystore
that protect something new ask for an active key; the services that fetch the raw
material and use it themselves do not.
-/

namespace GmKms.Api

open Lib Keystore Service

/-- The operation makes something new with the key. -/
def KeyOperation.Protects (keyMeta : KeyMeta) : KeyOperation → Prop
  | encrypt _ | sign _ | hmac .. | envelopeEncrypt _ | exportKey .. => True
  | rewrapDek _ _ oldKekVersion => oldKekVersion ≠ keyMeta.version
  | _ => False

/-- The call makes something new with the key under the id. -/
def ServiceOp.ProtectsWith (id : Uuid) (keyMeta : KeyMeta) : ServiceOp → Prop
  | key keyId _ op => keyId = id ∧ op.Protects keyMeta
  | backend (.encrypt keyId ..) | backend (.sign keyId ..) | backend (.exportKeyMaterial keyId ..)
  | backend (.deriveSharedSecret keyId ..) => keyId = id
  | _ => False

/-- The operation uses raw material of a key with this metadata without asking for its status. -/
def KeyOperation.UsesMaterial (keyMeta : KeyMeta) : KeyOperation → Prop
  | hmac .. => keyMeta.spec = .sm3Hmac
  | envelopeEncrypt _ => keyMeta.spec = .aes256Gcm
  | rewrapDek _ _ oldKekVersion => keyMeta.spec = .aes256Gcm ∧ oldKekVersion ≠ keyMeta.version
  | _ => False

/-- Where a call uses raw material of its tenant's key, the key is active. -/
def ActiveForUse (ks : Software.SoftwareKeystore) (c : ServiceCall) : Prop :=
  ∀ keyId tenantId op entry, c.op = .key keyId tenantId op → ks.keys[keyId]? = some entry →
    entry.keyMeta.tenantId = tenantId → op.UsesMaterial entry.keyMeta → entry.keyMeta.status = .active

/-- After the calls the key is there and not active. -/
def Inactive (crypto : ServiceCrypto) (calls : List ServiceCall) (id : Uuid) : Prop :=
  ∃ entry, (served crypto calls).keys[id]? = some entry ∧
    (entry.keyMeta.status = .pendingDeletion ∨ entry.keyMeta.status = .obsolete)

/-- Once a key is not active it does not become so again, and nothing new is made with it. -/
structure ProtectsNothingNew (crypto : ServiceCrypto) (calls : List ServiceCall) : Prop where
  never_active : ∀ before mid rest id (entry : Software.KeyEntry), calls = before ++ mid ++ rest →
    Inactive crypto before id →
    (served crypto (before ++ mid)).keys[id]? = some entry → entry.keyMeta.status ≠ .active
  nothing_new : ∀ before mid c rest id (entry : Software.KeyEntry), calls = before ++ mid ++ c :: rest →
    Inactive crypto before id → (served crypto (before ++ mid)).keys[id]? = some entry →
    c.op.ProtectsWith id entry.keyMeta → ∀ v, (c.op.perform crypto c.env (served crypto (before ++ mid))).1 ≠ .ok v

/-! ## Statuses over a run -/

/-- Every key was made by a call of the history, and is active or marked for deletion. -/
def Accounted (made : Set Uuid) (ks : Software.SoftwareKeystore) : Prop :=
  ∀ (id : Uuid) (entry : Software.KeyEntry), ks.keys[id]? = some entry →
    id ∈ made ∧ (entry.keyMeta.status = .active ∨ entry.keyMeta.status = .pendingDeletion)

/-- The key, where it is there, is marked for deletion. -/
def Pending (id : Uuid) (ks : Software.SoftwareKeystore) : Prop :=
  ∀ entry, ks.keys[id]? = some entry → entry.keyMeta.status = .pendingDeletion

theorem perform_accounted (crypto : Crypto) {env : Software.UseEnv} {made : Set Uuid} {op : BackendOp}
    (hmade : op.creates = true → env.uuid ∈ made) {ks : Software.SoftwareKeystore} (hks : Accounted made ks) :
    Accounted made (Software.SoftwareKeystore.perform crypto env op ks).2 := by
  intro id entry' hentry'
  have hstep := Software.SoftwareKeystore.perform_entry crypto env op ks id
  rw [hentry'] at hstep
  generalize hbefore : ks.keys[id]? = before at hstep
  cases hstep with
  | kept => exact hks id entry' hbefore
  | generated _ hid => exact ⟨hid ▸ hmade rfl, .inl rfl⟩
  | imported _ hid => exact ⟨hid ▸ hmade rfl, .inl rfl⟩
  | rotated => exact ⟨(hks id _ hbefore).1, .inl rfl⟩
  | emptied => exact (hks id _ hbefore :)
  | deleted => exact ⟨(hks id _ hbefore).1, .inr rfl⟩

theorem perform_pending (crypto : Crypto) {env : Software.UseEnv} {id : Uuid} {op : BackendOp}
    (hnew : op.creates = true → env.uuid ≠ id) {ks : Software.SoftwareKeystore} (hks : Pending id ks) :
    Pending id (Software.SoftwareKeystore.perform crypto env op ks).2 := by
  intro entry' hentry'
  have hstep := Software.SoftwareKeystore.perform_entry crypto env op ks id
  rw [hentry'] at hstep
  generalize hbefore : ks.keys[id]? = before at hstep
  cases hstep with
  | kept => exact hks entry' hbefore
  | generated _ hid => exact absurd hid (hnew rfl)
  | imported _ hid => exact absurd hid (hnew rfl)
  | rotated hrotatable =>
    -- a key marked for deletion cannot be rotated
    rw [hks _ hbefore] at hrotatable
    cases hrotatable
  | emptied hrotatable =>
    rw [hks _ hbefore] at hrotatable
    cases hrotatable
  | deleted => rfl

/-- The ids of the keys that a history made. -/
def madeBy (h : History ServiceCall (Σ op : ServiceOp, Except ApiAbort op.Value)) : Set Uuid :=
  {id | ∃ e ∈ h, e.1.creates = true ∧ e.1.env.uuid = id}

theorem creates_of_change {c : ServiceCall} {u : Software.UseCall} (hu : c.change? = some u) :
    u.env = c.env.toUseEnv ∧ c.creates = u.op.creates := by
  have henv : u.env = c.env.toUseEnv := by
    obtain ⟨b, -, rfl⟩ := Option.map_eq_some_iff.1 hu
    rfl
  exact ⟨henv, by rw [ServiceCall.creates, hu, Option.any_some]⟩

theorem serve_accounted (crypto : ServiceCrypto) {h : History ServiceCall (Σ op : ServiceOp, Except ApiAbort op.Value)}
    {ks : Software.SoftwareKeystore} (hks : Accounted (madeBy h) ks) (c : ServiceCall) :
    Accounted (madeBy (h ++ [(c, (serve crypto ks c).1)])) (serve crypto ks c).2 := by
  have hgrown : Accounted (madeBy (h ++ [(c, (serve crypto ks c).1)])) ks := by
    intro id entry hentry
    obtain ⟨⟨e, he, hmade⟩, hstatus⟩ := hks id entry hentry
    exact ⟨⟨e, List.mem_append_left _ he, hmade⟩, hstatus⟩
  rcases serve_state crypto c with hsame | ⟨u, hu, hchanged⟩
  · rwa [hsame]
  · obtain ⟨henv, hcreates⟩ := creates_of_change hu
    rw [hchanged]
    refine perform_accounted crypto.toCrypto (fun hc => ?_) hgrown
    rw [← hcreates] at hc
    exact ⟨_, List.mem_append_right _ (List.mem_singleton_self _), hc, by rw [henv]⟩

theorem serve_pending (crypto : ServiceCrypto) {id : Uuid} {ks : Software.SoftwareKeystore} {c : ServiceCall}
    (hnew : c.creates = true → c.env.uuid ≠ id) (hks : Pending id ks) : Pending id (serve crypto ks c).2 := by
  rcases serve_state crypto c with hsame | ⟨u, hu, hchanged⟩
  · rwa [hsame]
  · obtain ⟨henv, hcreates⟩ := creates_of_change hu
    rw [hchanged]
    refine perform_pending crypto.toCrypto (fun hc => ?_) hks
    rw [henv]
    exact hnew (hcreates ▸ hc)

/-! ## What a key marked for deletion is used for -/

section

variable {crypto : ServiceCrypto} {ks : Software.SoftwareKeystore} {id : Uuid}

/-- Where the material is used of active keys only, nothing new is made with one marked for deletion. -/
theorem makes_nothing {c : ServiceCall} {entry : Software.KeyEntry} (hentry : ks.keys[id]? = some entry)
    (hpending : entry.keyMeta.status = .pendingDeletion) (hactive : ActiveForUse ks c)
    (hprotects : c.op.ProtectsWith id entry.keyMeta) (v : c.op.Value) : (c.op.perform crypto c.env ks).1 ≠ .ok v := by
  intro h
  -- whichever way the method got at the material, its key was active
  have hcontra : ∀ entry', ks.keys[id]? = some entry' → entry'.keyMeta.status ≠ .active := by
    intro entry' hentry' hstatus
    rw [hentry, Option.some.injEq] at hentry'
    rw [← hentry', hpending] at hstatus
    cases hstatus
  obtain ⟨env, op⟩ := c
  cases op with
  | createKey => exact hprotects
  | backend op =>
    cases op with
    | encrypt =>
      subst hprotects
      obtain ⟨entry', hentry', -, hstatus, -⟩ := Software.SoftwareKeystore.encrypt_eq_ok_iff.1 (answer_eq_ok_iff.1 h)
      exact hcontra entry' hentry' hstatus
    | sign =>
      subst hprotects
      obtain ⟨entry', hentry', -, hstatus, -⟩ := Software.SoftwareKeystore.sign_eq_ok (answer_eq_ok_iff.1 h)
      exact hcontra entry' hentry' hstatus
    | exportKeyMaterial =>
      subst hprotects
      obtain ⟨entry', hentry', -, hstatus, -⟩ :=
        Software.SoftwareKeystore.exportKeyMaterial_eq_ok_iff.1 (answer_eq_ok_iff.1 h)
      exact hcontra entry' hentry' hstatus
    | deriveSharedSecret =>
      subst hprotects
      obtain ⟨entry', hentry', -, hstatus⟩ := Software.SoftwareKeystore.deriveSharedSecret_eq_ok (answer_eq_ok_iff.1 h)
      exact hcontra entry' hentry' hstatus
    | _ => exact hprotects
  | key keyId tenantId op =>
    obtain ⟨rfl, hprotects⟩ := hprotects
    have huse : ∀ entry', ks.keys[keyId]? = some entry' → entry'.keyMeta.tenantId = tenantId →
        ¬ op.UsesMaterial entry'.keyMeta :=
      fun entry' hentry' howned huses => hcontra entry' hentry' (hactive _ _ _ _ rfl hentry' howned huses)
    cases op with
    | encrypt =>
      obtain ⟨-, _, -, -, hencrypt⟩ := CryptoService.runOn_checked_eq_ok h
      obtain ⟨entry', hentry', -, hstatus, -⟩ :=
        Software.SoftwareKeystore.encrypt_eq_ok_iff.1 (answer_eq_ok_iff.1 hencrypt)
      exact hcontra entry' hentry' hstatus
    | sign =>
      obtain ⟨entry', hentry', -, hstatus, -⟩ := CryptoService.sign_eq_ok h
      exact hcontra entry' hentry' hstatus
    | exportKey =>
      obtain ⟨entry', _, hentry', -, hstatus, -⟩ := KeyService.exportKey_eq_ok h
      exact hcontra entry' hentry' hstatus
    | hmac =>
      obtain ⟨entry', hentry', howned, hspec, -⟩ := CryptoService.hmac_eq_ok h
      exact huse entry' hentry' howned hspec
    | envelopeEncrypt =>
      obtain ⟨entry', hentry', howned, hspec, -⟩ := EnvelopeService.encrypt_eq_ok h
      exact huse entry' hentry' howned hspec
    | rewrapDek =>
      obtain ⟨entry', hentry', hspec, hcase⟩ := EnvelopeService.rewrapDek_eq_ok h
      rcases hcase with ⟨hcurrent, -⟩ | ⟨hother, howned, -⟩
      · rw [hentry, Option.some.injEq] at hentry'
        exact hprotects (hentry' ▸ hcurrent)
      · exact huse entry' hentry' howned ⟨hspec, hother⟩
    | _ => exact hprotects

/-- A key that the history made stays marked for deletion. -/
theorem along_pending {h : History ServiceCall (Σ op : ServiceOp, Except ApiAbort op.Value)} {calls : List ServiceCall}
    (hnew : Machine.Along (serve crypto) (fun h _ c => NewId h c) h ks calls) (hmade : id ∈ madeBy h)
    (hks : Pending id ks) : Pending id (Machine.final (serve crypto) ks calls) := by
  refine (hnew.inv (I := fun h ks => id ∈ madeBy h ∧ Pending id ks) ?_ ⟨hmade, hks⟩).2
  rintro h ks c ⟨⟨e, he, hcreates, hid⟩, hks⟩ hc
  refine ⟨⟨e, List.mem_append_left _ he, hcreates, hid⟩, serve_pending crypto (fun hc' => ?_) hks⟩
  rw [← hid]
  exact (hc hc' e he hcreates).symm

/-- While raw material is used of active keys only, nothing new is protected with any other. -/
theorem protectsNothingNew_of_activeForUse {calls : List ServiceCall}
    (hnew : Machine.Along (serve crypto) (fun h _ c => NewId h c) [] .new calls)
    (hactive : Machine.Along (serve crypto) (fun _ ks c => ActiveForUse ks c) [] .new calls) :
    ProtectsNothingNew crypto calls := by
  have hpending : ∀ before mid rest id, calls = before ++ mid ++ rest → Inactive crypto before id →
      Pending id (served crypto (before ++ mid)) := by
    rintro before mid rest id rfl ⟨entry, hentry, hstatus⟩
    rw [List.append_assoc, Machine.along_append, Machine.along_append] at hnew
    have hfirst : Accounted (madeBy []) Software.SoftwareKeystore.new := by
      intro id entry h
      simp [Software.SoftwareKeystore.new] at h
    have haccounted := Machine.run_inv (M := serve crypto) (I := fun h ks => Accounted (madeBy h) ks)
      (fun h ks c hks => serve_accounted crypto hks c) hfirst before
    obtain ⟨hmade, hstatuses⟩ := haccounted id entry hentry
    rw [served, Machine.final_append]
    refine along_pending hnew.2.1 hmade fun entry' hentry' => ?_
    have hsame : entry = entry' := Option.some.inj (hentry.symm.trans hentry')
    subst hsame
    rcases hstatuses with hactive | hpending
    · rw [hactive] at hstatus
      rcases hstatus with h | h <;> cases h
    · exact hpending
  refine ⟨?_, ?_⟩
  · intro before mid rest id entry hcalls hinactive hentry hstatus
    rw [hpending before mid rest id hcalls hinactive entry hentry] at hstatus
    cases hstatus
  · intro before mid c rest id entry hcalls hinactive hentry hprotects
    have hentryPending := hpending before mid _ id hcalls hinactive entry hentry
    rw [hcalls, Machine.along_append] at hactive
    exact makes_nothing hentry hentryPending hactive.2.1 hprotects

end

/-- A MAC key is made, marked for deletion, and then called with `op`. -/
def deletedRun (op : KeyOperation) : List ServiceCall :=
  [⟨sampleServiceEnv 7, .createKey .sm3Hmac "mac" "tenant-1"⟩, ⟨sampleServiceEnv 7, .key 1 "tenant-1" .deleteKey⟩,
    ⟨sampleServiceEnv 7, .key 1 "tenant-1" op⟩]

theorem along_newId_deletedRun (op : KeyOperation) :
    Machine.Along (serve .plain) (fun h _ c => NewId h c) [] .new (deletedRun op) :=
  ⟨fun _ _ he => absurd he List.not_mem_nil, newId_key, newId_key, trivial⟩

/-- A key protects a message and a data key, is deleted, and is to protect another message. -/
def usedBeforeDeleted : List ServiceCall :=
  [⟨sampleServiceEnv 7, .createKey .aes256Gcm "kek" "tenant-1"⟩,
    ⟨sampleServiceEnv 7, .key 1 "tenant-1" (.envelopeEncrypt [1])⟩,
    ⟨sampleServiceEnv 7, .key 1 "tenant-1" (.encrypt [1])⟩, ⟨sampleServiceEnv 7, .key 1 "tenant-1" .deleteKey⟩,
    ⟨sampleServiceEnv 7, .key 1 "tenant-1" (.encrypt [2])⟩]

theorem protectsNothingNew_usedBeforeDeleted : ProtectsNothingNew .plain usedBeforeDeleted := by
  have hcreated : ActiveForUse .new ⟨sampleServiceEnv 7, .createKey .aes256Gcm "kek" "tenant-1"⟩ := by
    rintro _ _ _ _ ⟨⟩
  -- the only call that uses the raw material finds the key as it was made
  have hused : ActiveForUse (served .plain (usedBeforeDeleted.take 1))
      ⟨sampleServiceEnv 7, .key 1 "tenant-1" (.envelopeEncrypt [1])⟩ := by
    rintro _ _ _ entry ⟨⟩ hentry _ _
    rw [Option.some.inj (hentry.symm.trans rfl)]
    rfl
  have hother : ∀ ks op, (∀ keyMeta, ¬KeyOperation.UsesMaterial keyMeta op) →
      ActiveForUse ks ⟨sampleServiceEnv 7, .key 1 "tenant-1" op⟩ := by
    rintro ks op hop _ _ _ _ ⟨⟩ _ _ huses
    exact absurd huses (hop _)
  exact protectsNothingNew_of_activeForUse
    ⟨fun _ _ he => absurd he List.not_mem_nil, newId_key, newId_key, newId_key, newId_key, trivial⟩
    ⟨hcreated, hused, hother _ _ fun _ => id, hother _ _ fun _ => id, hother _ _ fun _ => id, trivial⟩

/-- The deleted key still makes MACs. -/
theorem not_protectsNothingNew_deletedRun :
    Machine.Along (serve .plain) (fun h _ c => NewId h c) [] .new (deletedRun (.hmac [1] none)) ∧
      ¬ ProtectsNothingNew .plain (deletedRun (.hmac [1] none)) := by
  refine ⟨along_newId_deletedRun _, fun h => ?_⟩
  have hinactive : Inactive .plain ((deletedRun (.hmac [1] none)).take 2) 1 := ⟨_, rfl, .inl rfl⟩
  have hnothing := h.nothing_new _ [] ⟨sampleServiceEnv 7, .key 1 "tenant-1" (.hmac [1] none)⟩ [] 1 _ rfl hinactive rfl
    ⟨rfl, trivial⟩
  exact hnothing _ rfl

end GmKms.Api
