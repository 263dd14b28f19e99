import GmKms.Keystore.Destruction
import GmKms.Keystore.Reload
/-!
# Rotation in the PostgreSQL keystore

`rotate_key` writes to the database five times without a transaction. This module
says how a rotation can end, and when one that fails has left no trace.
-/

namespace GmKms.Keystore.Postgres

open Lib Lib.Effect

/-! ## Conditions on a rotation -/

/-- The entry is in the database, which answers. -/
structure Loads (crypto : Crypto) (env : Env) (keyId : Uuid) (s : Store) (entry : KeyEntry) : Prop where
  findById : env.fault (.findById keyId) = none
  findEncryptedMaterial : env.fault (.findEncryptedMaterial keyId) = none
  keyMeta : s.db.findById keyId = some entry.keyMeta
  material : ∃ encrypted, s.db.findEncryptedMaterial keyId = some encrypted ∧
    decryptMaterial crypto s.kek keyId encrypted = .ok entry.material

/-- The entry that `entry_for` finds for the tenant: in the cache or else in the database. -/
def Resolves (crypto : Crypto) (env : Env) (keyId : Uuid) (tenantId : String) (s : Store) (entry : KeyEntry) : Prop :=
  entry.keyMeta.tenantId = tenantId ∧
    match s.keys.getCloned keyId with
    | some cached => entry = cached
    | none => Loads crypto env keyId s entry

/-- The store after `entry_for` has found the entry: one that was not cached is cached. -/
def Store.resolved (s : Store) (keyId : Uuid) (entry : KeyEntry) : Store :=
  match s.keys.getCloned keyId with
  | some _ => s
  | none => { s with keys := s.keys.insertWithEviction keyId entry }

/-- The database answers and takes the row. -/
def Insertable (env : Env) (s : Store) (m : KeyMeta) : Prop :=
  env.fault (.insert m.id) = none ∧ ∃ db, s.db.insert m = .ok db

/-- The rotation of the entry gets as far as the row of its new key, and the database takes it. -/
structure Writable (crypto : Crypto) (env : Env) (s : Store) (entry : KeyEntry) : Prop where
  status : entry.keyMeta.status.canRotate = true
  material : ∃ material, generateKeyMaterial env entry.keyMeta.spec = .ok material ∧
    ∃ encrypted, encryptMaterial crypto env 1 s.kek (env.uuid 0) material = .ok encrypted
  row : Insertable env s (rotatedMeta env entry.keyMeta)

/-- Nothing after the row of the new key can fail: the database answers, the old material is
sealed, and its version of the key has not been recorded before. -/
structure Finishable (crypto : Crypto) (env : Env) (s : Store) (entry : KeyEntry) : Prop where
  updateEncryptedMaterial : env.fault (.updateEncryptedMaterial (env.uuid 0)) = none
  updateStatus : env.fault (.updateStatus entry.keyMeta.id) = none
  material : ∃ encrypted, encryptMaterial crypto env 2 s.kek entry.keyMeta.id entry.material = .ok encrypted
  insertVersion : env.fault (.insertVersion entry.keyMeta.id) = none
  newVersion : ∀ v ∈ s.db.keyVersions, v.id ≠ env.uuid 1 ∧
    ¬(v.keyId = entry.keyMeta.id ∧ v.version = entry.keyMeta.version.toInt32)
  hasRow : entry.keyMeta.id ∈ s.db.keys ∨ entry.keyMeta.id = env.uuid 0
  updateVersionRotatedAt : env.fault (.updateVersionRotatedAt entry.keyMeta.id) = none

/-- A rotation that returns an error leaves both tables and the contents of the cache as they were. -/
def AllOrNothing (crypto : Crypto) (env : Env) (keyId : Uuid) (tenantId : String) (s : Store) : Prop :=
  ∀ e s', outcome (rotateKey crypto env keyId tenantId) s = (.error (.error e), s') →
    s'.db = s.db ∧ s'.keys.map = s.keys.map

/-! ## Statements that may fail -/

section

variable {crypto : Crypto} {env : Env}

theorem spec_kekOf_bind {β : Type} {f : Bytes → M β} {s : Store} {Q : Except Abort β → Store → Prop}
    (h : Spec (f s.kek) s Q) : Spec (kekOf >>= f) s Q := by
  unfold Spec at *
  rwa [outcome_bind_ok (outcome_kekOf s)]

theorem spec_lift_bind {α β : Type} {r : Except Abort α} {f : α → M β} {s : Store} {Q : Except Abort β → Store → Prop}
    (hok : ∀ a, r = .ok a → Spec (f a) s Q) (herr : ∀ a, r = .error a → Q (.error a) s) : Spec (lift r >>= f) s Q := by
  cases r with
  | error a => exact herr a rfl
  | ok a => exact hok a rfl

/-- A statement that only the connection can fail. -/
theorem spec_write_or_fault {c : RepoCall} {f : Db → Db} {s : Store} :
    Spec (mapInternal (repo env c fun db => .ok ((), f db))) s fun r s' => match r with
      | .ok _ => env.fault c = none ∧ s' = { s with db := f s.db }
      | .error a => env.fault c ≠ none ∧ (∃ e, a = .error e) ∧ s' = s := by
  unfold Spec
  rw [outcome_mapInternal]
  cases hfault : env.fault c with
  | some e => simp [outcome, repo, hfault]
  | none => simp [outcome, repo, hfault]

/-- A statement that the connection or the database can fail. -/
theorem spec_tryWrite_or_fault {c : RepoCall} {f : Db → Except String Db} {s : Store} :
    Spec (mapInternal (repo env c fun db => (f db).map fun db => ((), db))) s fun r s' => match r with
      | .ok _ => env.fault c = none ∧ f s.db = .ok s'.db ∧ s' = { s with db := s'.db }
      | .error a => ¬(env.fault c = none ∧ ∃ db, f s.db = .ok db) ∧ (∃ e, a = .error e) ∧ s' = s := by
  unfold Spec
  rw [outcome_mapInternal]
  cases hfault : env.fault c with
  | some e => simp [outcome, repo, hfault]
  | none =>
    cases hwrite : f s.db with
    | error e => simp [outcome, repo, hfault, hwrite, Except.map]
    | ok db => simp [outcome, repo, hfault, hwrite, Except.map]

theorem mem_keys_insert {db db' : Db} {m : KeyMeta} (h : db.insert m = .ok db') {k : Uuid} :
    k ∈ db'.keys ↔ k = m.id ∨ k ∈ db.keys := by
  unfold Db.insert at h
  split_ifs at h
  cases h
  rw [Std.ExtTreeMap.mem_insert, Std.compare_eq_iff_eq, eq_comm]

theorem exists_insertVersion_iff {db : Db} {rowId keyId : Uuid} {now : DateTime} {version : UInt32}
    {dek : Option Bytes} {status : String} :
    (∃ db', db.insertVersion rowId now keyId version dek status = .ok db') ↔
      (∀ v ∈ db.keyVersions, v.id ≠ rowId ∧ ¬(v.keyId = keyId ∧ v.version = version.toInt32)) ∧ keyId ∈ db.keys := by
  unfold Db.insertVersion
  split_ifs with hpkey hunique hkey
  · obtain ⟨v, hv, hid⟩ := List.any_eq_true.1 hpkey
    exact iff_of_false (by simp) fun h => (h.1 v hv).1 (of_decide_eq_true hid)
  · obtain ⟨v, hv, hversion⟩ := List.any_eq_true.1 hunique
    simp only [Bool.and_eq_true, decide_eq_true_eq] at hversion
    exact iff_of_false (by simp) fun h => (h.1 v hv).2 hversion
  · refine iff_of_true ⟨_, rfl⟩ ⟨fun v hv => ⟨fun hid => hpkey ?_, fun hversion => hunique ?_⟩, hkey⟩
    · exact List.any_eq_true.2 ⟨v, hv, decide_eq_true hid⟩
    · exact List.any_eq_true.2 ⟨v, hv, by simp [hversion]⟩
  · exact iff_of_false (by simp) fun h => hkey h.2

/-! ## Failures that are errors -/

theorem encryptMaterial_error {n : ℕ} {kek material : Bytes} {id : Uuid} {a : Abort}
    (h : encryptMaterial crypto env n kek id material = .error a) : ∃ e, a = .error e := by
  unfold encryptMaterial at h
  split at h
  · exact ⟨_, (Except.error.inj h).symm⟩
  · split at h
    · exact ⟨_, (Except.error.inj h).symm⟩
    · split at h
      · exact ⟨_, (Except.error.inj h).symm⟩
      · cases h

theorem decryptMaterial_error {kek encrypted : Bytes} {id : Uuid} {a : Abort}
    (h : decryptMaterial crypto kek id encrypted = .error a) : ∃ e, a = .error e := by
  unfold decryptMaterial at h
  split at h
  · exact ⟨_, (Except.error.inj h).symm⟩
  · split at h
    · exact ⟨_, (Except.error.inj h).symm⟩
    · split at h
      · exact ⟨_, (Except.error.inj h).symm⟩
      · cases h

theorem generateKeyMaterial_error {spec : KeySpec} {a : Abort} (h : generateKeyMaterial env spec = .error a) :
    ∃ e, a = .error e := by
  unfold generateKeyMaterial at h
  split at h
  · rename_i hlen
    cases spec <;> simp only [materialLen, reduceCtorEq, Except.error.injEq] at hlen <;> subst hlen <;>
      exact ⟨_, (Except.error.inj h).symm⟩
  · split at h
    · exact ⟨_, (Except.error.inj h).symm⟩
    · cases h

/-! ## How a rotation ends -/

/-- The tables hold the row of the new key, and no version beyond those of `s`. -/
structure RowWritten (newId : Uuid) (s s' : Store) : Prop where
  fresh : newId ∉ s.db.keys
  keys : ∀ k, k ∈ s'.db.keys ↔ k = newId ∨ k ∈ s.db.keys
  keyVersions : s'.db.keyVersions = s.db.keyVersions
  kek : s'.kek = s.kek

theorem RowWritten.updateLive {newId id : Uuid} {s s' : Store} (h : RowWritten newId s s') (f : KeyRow → KeyRow) :
    RowWritten newId s { s' with db := s'.db.updateLive id f } where
  fresh := h.fresh
  keys k := mem_keys_updateLive.trans (h.keys k)
  keyVersions := (Db.keyVersions_updateLive ..).trans h.keyVersions
  kek := h.kek

theorem rowWritten_insert {m : KeyMeta} {s : Store} {db : Db} (h : s.db.insert m = .ok db) :
    RowWritten m.id s { s with db } := by
  refine ⟨?_, fun k => mem_keys_insert h, (insert_fields h).1, rfl⟩
  unfold Db.insert at h
  split_ifs at h with _ hmem
  exact hmem

theorem persistKey_ends {s : Store} {m : KeyMeta} {encrypted : Bytes} :
    Spec (persistKey env m encrypted) s fun r s' => match r with
      | .ok _ => Insertable env s m ∧ env.fault (.updateEncryptedMaterial m.id) = none ∧ RowWritten m.id s s'
      | .error a => (∃ e, a = .error e) ∧ (¬Insertable env s m ∧ s' = s ∨
          Insertable env s m ∧ env.fault (.updateEncryptedMaterial m.id) ≠ none ∧ RowWritten m.id s s') := by
  refine .bind spec_tryWrite_or_fault (fun _ s₁ h₁ => ?_) fun a s₁ h₁ => ⟨h₁.2.1, .inl ⟨h₁.1, h₁.2.2⟩⟩
  obtain ⟨hfault, hinsert, hs₁⟩ := h₁
  have hinsertable : Insertable env s m := ⟨hfault, _, hinsert⟩
  have hwritten : RowWritten m.id s s₁ := by
    rw [hs₁]
    exact rowWritten_insert hinsert
  refine spec_write_or_fault.mono fun r s₂ h₂ => ?_
  cases r with
  | ok _ =>
    obtain ⟨hfault₂, rfl⟩ := h₂
    exact ⟨hinsertable, hfault₂, hwritten.updateLive _⟩
  | error a =>
    obtain ⟨hfault₂, herror, rfl⟩ := h₂
    exact ⟨herror, .inr ⟨hinsertable, hfault₂, hwritten⟩⟩

/-- Persisting a rotation writes nothing, or all of it, or ends with the new key's row written. -/
theorem persistRotation_ends {s : Store} {entry : KeyEntry} {encryptedNew : Bytes} :
    Spec (persistRotation crypto env entry.keyMeta entry.material (rotatedMeta env entry.keyMeta) encryptedNew) s
      fun r s' => match r with
        | .ok _ => Insertable env s (rotatedMeta env entry.keyMeta) ∧ Finishable crypto env s entry
        | .error a => (∃ e, a = .error e) ∧ (¬Insertable env s (rotatedMeta env entry.keyMeta) ∧ s' = s ∨
            Insertable env s (rotatedMeta env entry.keyMeta) ∧ ¬Finishable crypto env s entry ∧
              env.uuid 0 ∉ s.db.keys ∧ env.uuid 0 ∈ s'.db.keys) := by
  refine .bind persistKey_ends (fun _ s₁ h₁ => ?_) fun a s₁ h₁ => ?_
  swap
  · obtain ⟨herror, ⟨hnot, hs₁⟩ | ⟨hinsertable, hfault, hwritten⟩⟩ := h₁
    · exact ⟨herror, .inl ⟨hnot, hs₁⟩⟩
    · exact ⟨herror, .inr ⟨hinsertable, fun h => hfault h.updateEncryptedMaterial, hwritten.fresh,
        (hwritten.keys _).2 (.inl rfl)⟩⟩
  obtain ⟨hinsertable, hmaterial, hwritten⟩ := h₁
  -- from here on the new row is there, whatever fails
  have hbroken : ∀ {a : Abort} {s' : Store}, (∃ e, a = .error e) → ¬Finishable crypto env s entry →
      RowWritten (env.uuid 0) s s' → (∃ e, a = .error e) ∧ (¬Insertable env s (rotatedMeta env entry.keyMeta) ∧ s' = s ∨
            Insertable env s (rotatedMeta env entry.keyMeta) ∧ ¬Finishable crypto env s entry ∧
              env.uuid 0 ∉ s.db.keys ∧ env.uuid 0 ∈ s'.db.keys) :=
    fun herror hnot hwritten => ⟨herror, .inr ⟨hinsertable, hnot, hwritten.fresh, (hwritten.keys _).2 (.inl rfl)⟩⟩
  refine .bind spec_write_or_fault (fun _ s₂ h₂ => ?_) fun a s₂ h₂ => ?_
  swap
  · obtain ⟨hfault, herror, rfl⟩ := h₂
    exact hbroken herror (fun h => hfault h.updateStatus) hwritten
  obtain ⟨hstatus, hs₂⟩ := h₂
  replace hwritten : RowWritten (env.uuid 0) s s₂ := hs₂ ▸ hwritten.updateLive _
  refine spec_kekOf_bind (spec_lift_bind (fun encryptedDek hsealed => ?_) fun a hsealed => ?_)
  swap
  · refine hbroken (encryptMaterial_error hsealed) (fun h => ?_) hwritten
    obtain ⟨encrypted, hencrypted⟩ := h.material
    rw [← hwritten.kek, hsealed] at hencrypted
    cases hencrypted
  have hversion := @exists_insertVersion_iff s₂.db (env.uuid 1) entry.keyMeta.id (env.now 1) entry.keyMeta.version
    (some encryptedDek) "Rotated"
  rw [hwritten.keyVersions, hwritten.keys] at hversion
  refine .bind spec_tryWrite_or_fault (fun _ s₃ h₃ => ?_) fun a s₃ h₃ => ?_
  swap
  · obtain ⟨hrefused, herror, rfl⟩ := h₃
    exact hbroken herror (fun h => hrefused ⟨h.insertVersion, hversion.2 ⟨h.newVersion, h.hasRow.symm⟩⟩) hwritten
  obtain ⟨hfault, hinsert, hs₃⟩ := h₃
  obtain ⟨hnew, hrow⟩ := hversion.1 ⟨_, hinsert⟩
  refine spec_write_or_fault.mono fun r s₄ h₄ => ?_
  cases r with
  | ok _ => exact ⟨hinsertable, hmaterial, hstatus, ⟨_, hwritten.kek ▸ hsealed⟩, hfault, hnew, hrow.symm, h₄.1⟩
  | error a =>
    obtain ⟨hfault₄, herror, rfl⟩ := h₄
    refine ⟨herror, .inr ⟨hinsertable, fun h => hfault₄ h.updateVersionRotatedAt, hwritten.fresh, ?_⟩⟩
    rw [keys_insertVersion hinsert]
    exact (hwritten.keys _).2 (.inl rfl)

theorem Loads.unique {keyId : Uuid} {s : Store} {entry entry' : KeyEntry} (h : Loads crypto env keyId s entry)
    (h' : Loads crypto env keyId s entry') : entry = entry' := by
  obtain ⟨encrypted, hfound, hdecrypt⟩ := h.material
  obtain ⟨encrypted', hfound', hdecrypt'⟩ := h'.material
  cases hfound.symm.trans hfound'
  cases entry
  cases entry'
  cases h.keyMeta.symm.trans h'.keyMeta
  cases hdecrypt.symm.trans hdecrypt'
  rfl

theorem Resolves.unique {keyId : Uuid} {tenantId : String} {s : Store} {entry entry' : KeyEntry}
    (h : Resolves crypto env keyId tenantId s entry) (h' : Resolves crypto env keyId tenantId s entry') :
    entry = entry' := by
  unfold Resolves at h h'
  cases hcached : s.keys.getCloned keyId with
  | some cached =>
    rw [hcached] at h h'
    exact h.2.trans h'.2.symm
  | none =>
    rw [hcached] at h h'
    exact h.2.unique h'.2

/-- A repository call that only reads. -/
theorem spec_read_or_fault {α : Type} {c : RepoCall} {f : Db → α} {s : Store} :
    Spec (repo env c fun db => .ok (f db, db)) s fun r s' => match r with
      | .ok a => env.fault c = none ∧ a = f s.db ∧ s' = s
      | .error a => env.fault c ≠ none ∧ ∃ e, a = .error e := by
  unfold Spec
  cases hfault : env.fault c with
  | some e => simp [outcome, repo, hfault]
  | none => simp [outcome, repo, hfault]

theorem loadEntryFromDb_ends {keyId : Uuid} {s : Store} :
    Spec (loadEntryFromDb crypto env keyId) s fun r _ => match r with
      | .ok entry => Loads crypto env keyId s entry
      | .error a => (∀ entry, ¬Loads crypto env keyId s entry) ∧ ∃ e, a = .error e := by
  refine .bind spec_read_or_fault (fun found s₁ h₁ => ?_) fun a s₁ h₁ => ⟨fun _ h => h₁.1 h.findById, h₁.2⟩
  obtain ⟨hfault₁, hfound, rfl⟩ := h₁
  cases found with
  | none =>
    refine ⟨fun entry h => ?_, _, rfl⟩
    cases hfound.trans h.keyMeta
  | some keyMeta =>
    refine .bind spec_read_or_fault (fun material s₂ h₂ => ?_) fun a s₂ h₂ =>
      ⟨fun _ h => h₂.1 h.findEncryptedMaterial, h₂.2⟩
    obtain ⟨hfault₂, hmaterial, rfl⟩ := h₂
    cases material with
    | none =>
      refine ⟨fun entry h => ?_, _, rfl⟩
      obtain ⟨encrypted, hencrypted, -⟩ := h.material
      cases hmaterial.trans hencrypted
    | some encrypted =>
      have hnone : ∀ a, decryptMaterial crypto s₂.kek keyId encrypted = .error a →
          ∀ entry, ¬Loads crypto env keyId s₂ entry := by
        intro a hdecrypt entry h
        obtain ⟨encrypted', hencrypted, hdecrypt'⟩ := h.material
        cases hmaterial.trans hencrypted
        cases hdecrypt.symm.trans hdecrypt'
      refine spec_kekOf_bind ?_
      cases hdecrypt : decryptMaterial crypto s₂.kek keyId encrypted with
      | error a =>
        cases a with
        | error e => exact ⟨hnone _ hdecrypt, _, rfl⟩
        | panic message =>
          obtain ⟨e, he⟩ := decryptMaterial_error hdecrypt
          cases he
      | ok material => exact ⟨hfault₁, hfault₂, hfound.symm, encrypted, hmaterial.symm, hdecrypt⟩

/-- What `entry_for` finds is resolved, and where it finds nothing it leaves no trace. -/
theorem entryFor_ends {keyId : Uuid} {tenantId : String} {s : Store} :
    Spec (entryFor crypto env keyId tenantId) s fun r s' => match r with
      | .ok entry => Resolves crypto env keyId tenantId s entry ∧ s' = s.resolved keyId entry
      | .error a => (∀ entry, ¬Resolves crypto env keyId tenantId s entry) ∧ (∃ e, a = .error e) ∧ s' = s := by
  unfold Spec
  cases hcached : s.keys.map[keyId]? with
  | some cached =>
    rw [outcome_entryFor_hit crypto env keyId tenantId hcached]
    by_cases htenant : cached.keyMeta.tenantId = tenantId
    · rw [if_neg (not_not.2 htenant)]
      exact ⟨⟨htenant, by simp [BoundedKeyCache.getCloned, hcached]⟩, by simp [Store.resolved,
        BoundedKeyCache.getCloned, hcached]⟩
    · rw [if_pos htenant]
      refine ⟨fun entry h => htenant ?_, ⟨_, rfl⟩, rfl⟩
      have heq : entry = cached := by simpa [BoundedKeyCache.getCloned, hcached] using h.2
      exact heq ▸ h.1
  | none =>
    have hload : Spec (loadEntryFromDb crypto env keyId) s _ := loadEntryFromDb_ends
    have hresolves : ∀ entry, Resolves crypto env keyId tenantId s entry ↔
        entry.keyMeta.tenantId = tenantId ∧ Loads crypto env keyId s entry := by
      intro entry
      simp [Resolves, BoundedKeyCache.getCloned, hcached]
    rw [outcome_entryFor_miss crypto env keyId tenantId hcached]
    unfold Spec at hload
    cases hresult : (outcome (loadEntryFromDb crypto env keyId) s).1 with
    | error a =>
      rw [hresult] at hload
      exact ⟨fun entry h => hload.1 entry ((hresolves entry).1 h).2, hload.2, rfl⟩
    | ok entry =>
      rw [hresult] at hload
      dsimp only at hload ⊢
      by_cases htenant : entry.keyMeta.tenantId = tenantId
      · rw [if_neg (not_not.2 htenant)]
        exact ⟨(hresolves entry).2 ⟨htenant, hload⟩, by simp [Store.resolved, BoundedKeyCache.getCloned, hcached]⟩
      · rw [if_pos htenant]
        refine ⟨fun entry' h => htenant ?_, ⟨_, rfl⟩, rfl⟩
        obtain ⟨htenant', hload'⟩ := (hresolves entry').1 h
        exact hload.unique hload' ▸ htenant'

/-- Every way `rotate_key` ends. -/
inductive RotateStep (crypto : Crypto) (env : Env) (keyId : Uuid) (tenantId : String) (s : Store) :
    Except Abort KeyMeta × Store → Prop where
  | unresolved (e : Error) (why : ∀ entry, ¬Resolves crypto env keyId tenantId s entry) :
      RotateStep crypto env keyId tenantId s (.error (.error e), s)
  | refused (entry : KeyEntry) (e : Error) (found : Resolves crypto env keyId tenantId s entry)
      (why : ¬Writable crypto env s entry) :
      RotateStep crypto env keyId tenantId s (.error (.error e), s.resolved keyId entry)
  | broken (entry : KeyEntry) (e : Error) (s' : Store) (found : Resolves crypto env keyId tenantId s entry)
      (written : Writable crypto env s entry) (why : ¬Finishable crypto env s entry) (fresh : env.uuid 0 ∉ s.db.keys)
      (left : env.uuid 0 ∈ s'.db.keys) : RotateStep crypto env keyId tenantId s (.error (.error e), s')
  | rotated (entry : KeyEntry) (keyMeta : KeyMeta) (s' : Store) (found : Resolves crypto env keyId tenantId s entry)
      (written : Writable crypto env s entry) (finished : Finishable crypto env s entry) :
      RotateStep crypto env keyId tenantId s (.ok keyMeta, s')

@[simp] theorem db_resolved (s : Store) (keyId : Uuid) (entry : KeyEntry) : (s.resolved keyId entry).db = s.db := by
  unfold Store.resolved
  split <;> rfl

@[simp] theorem kek_resolved (s : Store) (keyId : Uuid) (entry : KeyEntry) : (s.resolved keyId entry).kek = s.kek := by
  unfold Store.resolved
  split <;> rfl

theorem finishable_resolved {s : Store} {keyId : Uuid} {entry entry' : KeyEntry} :
    Finishable crypto env (s.resolved keyId entry') entry ↔ Finishable crypto env s entry := by
  constructor
  · rintro ⟨h₁, h₂, h₃, h₄, h₅, h₆, h₇⟩
    simp only [db_resolved, kek_resolved] at h₃ h₅ h₆
    exact ⟨h₁, h₂, h₃, h₄, h₅, h₆, h₇⟩
  · rintro ⟨h₁, h₂, h₃, h₄, h₅, h₆, h₇⟩
    refine ⟨h₁, h₂, ?_, h₄, ?_, ?_, h₇⟩
    · simpa only [kek_resolved] using h₃
    · simpa only [db_resolved] using h₅
    · simpa only [db_resolved] using h₆

theorem rotate_ends (crypto : Crypto) (env : Env) (keyId : Uuid) (tenantId : String) (s : Store) :
    Spec (rotateKey crypto env keyId tenantId) s fun r s' => RotateStep crypto env keyId tenantId s (r, s') := by
  refine .bind entryFor_ends (fun entry s₁ h₁ => ?_) fun a s₁ h₁ => ?_
  swap
  · obtain ⟨hnone, ⟨e, rfl⟩, rfl⟩ := h₁
    exact .unresolved e hnone
  obtain ⟨hfound, rfl⟩ := h₁
  cases hstatus : entry.keyMeta.status.canRotate with
  | false =>
    refine RotateStep.refused entry _ hfound fun h => ?_
    rw [h.status] at hstatus
    cases hstatus
  | true =>
    refine spec_lift_bind (fun material hmaterial => spec_kekOf_bind ?_) fun a hmaterial => ?_
    swap
    · obtain ⟨e, rfl⟩ := generateKeyMaterial_error hmaterial
      refine RotateStep.refused entry e hfound fun h => ?_
      obtain ⟨material, hgenerated, -⟩ := h.material
      cases hmaterial.symm.trans hgenerated
    rw [kek_resolved]
    refine spec_lift_bind (fun encryptedNew hencrypted => ?_) fun a hencrypted => ?_
    swap
    · obtain ⟨e, rfl⟩ := encryptMaterial_error hencrypted
      refine RotateStep.refused entry e hfound fun h => ?_
      obtain ⟨material', hgenerated, encrypted, hencrypted'⟩ := h.material
      cases hmaterial.symm.trans hgenerated
      cases hencrypted.symm.trans hencrypted'
    have hinsertable : Insertable env (s.resolved keyId entry) (rotatedMeta env entry.keyMeta) ↔
        Insertable env s (rotatedMeta env entry.keyMeta) := by rw [Insertable, db_resolved, Insertable]
    refine .bind persistRotation_ends (fun _ s₁ h₁ => ?_) fun a s₁ h₁ => ?_
    · rw [hinsertable, finishable_resolved] at h₁
      exact .rotated entry _ _ hfound ⟨hstatus, ⟨_, hmaterial, _, hencrypted⟩, h₁.1⟩ h₁.2
    · rw [hinsertable, finishable_resolved, db_resolved] at h₁
      obtain ⟨⟨e, rfl⟩, ⟨hnot, rfl⟩ | ⟨hrow, hnot, hfresh, hleft⟩⟩ := h₁
      · exact .refused entry e hfound fun h => hnot h.row
      · exact .broken entry e s₁ hfound ⟨hstatus, ⟨_, hmaterial, _, hencrypted⟩, hrow⟩ hnot hfresh hleft

end

/-- A rotation is all or nothing just when, for the key it finds, either all of its steps
succeed or it does not come to write the new key's row and finding the key left the
contents of the cache alone. -/
theorem rotateKey_allOrNothing_iff (crypto : Crypto) (env : Env) (keyId : Uuid) (tenantId : String) (s : Store) :
    AllOrNothing crypto env keyId tenantId s ↔ ∀ entry, Resolves crypto env keyId tenantId s entry →
      (Writable crypto env s entry → Finishable crypto env s entry) ∧
      (¬Writable crypto env s entry → (s.resolved keyId entry).keys.map = s.keys.map) := by
  have hends : RotateStep crypto env keyId tenantId s (outcome (rotateKey crypto env keyId tenantId) s) :=
    rotate_ends crypto env keyId tenantId s
  unfold AllOrNothing
  generalize outcome (rotateKey crypto env keyId tenantId) s = r at hends
  constructor
  · intro hwhole entry hentry
    cases hends with
    | unresolved e why => exact absurd hentry (why entry)
    | refused entry' e found why =>
      obtain rfl := hentry.unique found
      exact ⟨fun written => absurd written why, fun _ => (hwhole e _ rfl).2⟩
    | broken entry' e s' found written why fresh left =>
      rw [(hwhole e s' rfl).1] at left
      exact absurd left fresh
    | rotated entry' keyMeta s' found written finished =>
      obtain rfl := hentry.unique found
      exact ⟨fun _ => finished, fun hnot => absurd written hnot⟩
  · rintro hcondition e s' heq
    cases hends with
    | unresolved e' why =>
      cases heq
      exact ⟨rfl, rfl⟩
    | refused entry e' found why =>
      cases heq
      exact ⟨db_resolved s keyId entry, (hcondition entry found).2 why⟩
    | broken entry e' s'' found written why fresh left => exact absurd ((hcondition entry found).1 written) why
    | rotated entry keyMeta s'' found written finished => cases heq

/-- A keystore whose key has been rotated once. -/
def rotatedOnce : Store :=
  (call .plain).final (.start none (List.replicate 32 1))
    [⟨sampleEnv 1, .generateKey .aes256Gcm "key" "tenant-1"⟩, ⟨sampleEnv 2, .rotateKey 1 "tenant-1"⟩]

/-- Rotated again, the key has the version already, after the row of a third key has been written. -/
theorem not_allOrNothing_rotatedTwice : ¬AllOrNothing .plain (sampleEnv 3) 1 "tenant-1" rotatedOnce := by
  intro hwhole
  have herror : (outcome (rotateKey .plain (sampleEnv 3) 1 "tenant-1") rotatedOnce).1 =
      .error (.error (.internal (Error.internal ("error returned from database: duplicate key value violates unique " ++
        "constraint \"key_versions_key_id_version_key\"")).text)) := by decide +kernel
  have hleft : (3 : Uuid) ∈ (outcome (rotateKey .plain (sampleEnv 3) 1 "tenant-1") rotatedOnce).2.db.keys := by
    decide +kernel
  have hfresh : (3 : Uuid) ∉ rotatedOnce.db.keys := by decide +kernel
  obtain ⟨hdb, -⟩ := hwhole _ (outcome (rotateKey .plain (sampleEnv 3) 1 "tenant-1") rotatedOnce).2
    (Prod.ext herror rfl)
  rw [hdb] at hleft
  exact hfresh hleft

end GmKms.Keystore.Postgres
