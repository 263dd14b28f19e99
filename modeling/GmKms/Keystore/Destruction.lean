import GmKms.Keystore.PostgresCalls
/-!
# Destruction of keys

`destroy_key` takes a key out of the cache and leaves its row alone. This module
says when the key is gone nevertheless, and for how long.
-/

namespace GmKms.Keystore.Postgres

open Lib Lib.Effect

/-- The key is neither in the cache nor to be had from the database. -/
structure Gone (id : Uuid) (s : Store) : Prop where
  uncached : s.keys.map[id]? = none
  noMaterial : s.db.findEncryptedMaterial id = none

/-! ## What the repository leaves gone -/

theorem findEncryptedMaterial_updateLive {db : Db} {id id' : Uuid} {f : KeyRow → KeyRow}
    (h : db.findEncryptedMaterial id = none)
    (hf : id' = id → ∀ row, row.encryptedMaterial = none → (f row).encryptedMaterial = none) :
    (db.updateLive id' f).findEncryptedMaterial id = none := by
  unfold Db.findEncryptedMaterial at *
  rw [Db.live_updateLive]
  split
  · rename_i hid
    subst hid
    cases hlive : db.live id' with
    | none => rfl
    | some row =>
      rw [hlive] at h
      simp only [Option.map_some, Option.filter_some]
      split
      · exact hf rfl row h
      · rfl
  · exact h

theorem findEncryptedMaterial_of_keys_eq {db db' : Db} (h : db'.keys = db.keys) (id : Uuid) :
    db'.findEncryptedMaterial id = db.findEncryptedMaterial id := by
  simp only [Db.findEncryptedMaterial, Db.live, h]

theorem findEncryptedMaterial_insert {db db' : Db} {m : KeyMeta} {id : Uuid} (h : db.insert m = .ok db')
    (hid : m.id ≠ id) : db'.findEncryptedMaterial id = db.findEncryptedMaterial id := by
  rw [Db.findEncryptedMaterial, Db.live_insert h, if_neg hid, Db.findEncryptedMaterial]

theorem keys_insertVersion {db db' : Db} {rowId keyId : Uuid} {now : DateTime} {version : UInt32} {dek : Option Bytes}
    {status : String} (h : db.insertVersion rowId now keyId version dek status = .ok db') : db'.keys = db.keys := by
  unfold Db.insertVersion at h
  split_ifs at h
  cases h
  rfl

/-! ## What the keystore's programs leave gone -/

section

variable {crypto : Crypto} {env : Env} {id : Uuid}

/-- What holds before a statement holds after it if it holds of the tables that the statement leaves. -/
theorem ensures_repo_of {α : Type} {c : RepoCall} {f : Db → Except String (α × Db)} {I : Store → Prop} {R : α → Prop}
    (h : ∀ s a db', I s → f s.db = .ok (a, db') → I { s with db := db' } ∧ R a) : Ensures I (repo env c f) R := by
  intro s hs
  unfold Spec outcome repo
  cases env.fault c with
  | some e => exact ⟨hs, by rintro _ ⟨⟩⟩
  | none =>
    cases hf : f s.db with
    | error e => exact ⟨hs, by rintro _ ⟨⟩⟩
    | ok out =>
      obtain ⟨a, db'⟩ := out
      obtain ⟨hI, hR⟩ := h s a db' hs hf
      exact ⟨hI, by rintro _ ⟨⟩; exact hR⟩

theorem ensures_repo {α : Type} {c : RepoCall} {f : Db → Except String (α × Db)} {R : α → Prop}
    (h : ∀ db a db', f db = .ok (a, db') → db.findEncryptedMaterial id = none →
      db'.findEncryptedMaterial id = none ∧ R a) : Ensures (Gone id) (repo env c f) R := by
  refine ensures_repo_of fun s a db' hs hf => ?_
  obtain ⟨hmaterial, hR⟩ := h s.db a db' hf hs.noMaterial
  exact ⟨⟨hs.uncached, hmaterial⟩, hR⟩

/-- A call that only reads the tables. -/
theorem ensures_repo_read {α : Type} {c : RepoCall} {f : Db → α} {R : α → Prop}
    (h : ∀ db, db.findEncryptedMaterial id = none → R (f db)) :
    Ensures (Gone id) (repo env c fun db => .ok (f db, db)) R :=
  ensures_repo fun db a db' heq hnone => by cases heq; exact ⟨hnone, h db hnone⟩

/-- A call that changes the tables and cannot be refused. -/
theorem ensures_repo_write {c : RepoCall} {f : Db → Db} {R : Unit → Prop} (hR : R ())
    (h : ∀ db, db.findEncryptedMaterial id = none → (f db).findEncryptedMaterial id = none) :
    Ensures (Gone id) (repo env c fun db => .ok ((), f db)) R :=
  ensures_repo fun db a db' heq hnone => by cases heq; exact ⟨h db hnone, hR⟩

theorem ensures_lift {α : Type} {P : Store → Prop} {R : α → Prop} {r : Except Abort α} (h : ∀ a, r = .ok a → R a) :
    Ensures P (lift r) R := by
  intro s hs
  cases r with
  | error e => exact ⟨hs, by rintro _ ⟨⟩⟩
  | ok a => exact ⟨hs, by rintro _ ⟨⟩; exact h a rfl⟩

theorem ensures_mapInternal {α : Type} {P : Store → Prop} {R : α → Prop} {x : M α} (h : Ensures P x R) :
    Ensures P (mapInternal x) R := by
  intro s hs
  have hx := h s hs
  unfold Spec at *
  rw [outcome_mapInternal]
  rcases hr : outcome x s with ⟨⟨⟨⟩⟩ | a, s'⟩ <;> rw [hr] at hx
  · exact ⟨hx.1, by rintro _ ⟨⟩⟩
  · exact hx
  · exact hx

theorem ensures_insertWithEviction {key : Uuid} {entry : KeyEntry} (h : key ≠ id) :
    Ensures (Gone id) (modifyKeys (·.insertWithEviction key entry)) fun _ => True := by
  refine .modify (fun s hs => ⟨?_, hs.noMaterial⟩) trivial
  cases hlook : (s.keys.insertWithEviction key entry).map[id]? with
  | none => rfl
  | some entry' =>
    have := BoundedKeyCache.of_getElem?_insertWithEviction hlook
    rw [if_neg h, hs.uncached] at this
    cases this

theorem ensures_mutate {key : Uuid} {f : KeyEntry → KeyEntry} :
    Ensures (Gone id) (modifyKeys (·.mutate key f)) fun _ => True := by
  refine .modify (fun s hs => ⟨?_, hs.noMaterial⟩) trivial
  dsimp only
  rw [BoundedKeyCache.getElem?_mutate]
  split
  · subst key
    rw [hs.uncached]
    rfl
  · exact hs.uncached

theorem ensures_insert {m : KeyMeta} (h : m.id ≠ id) : Ensures (Gone id) (Repo.insert env m) fun _ => True := by
  refine ensures_repo fun db a db' heq hnone => ⟨?_, trivial⟩
  cases hinsert : db.insert m with
  | error e =>
    rw [hinsert] at heq
    cases heq
  | ok db'' =>
    rw [hinsert] at heq
    cases heq
    rw [findEncryptedMaterial_insert hinsert h, hnone]

theorem ensures_updateEncryptedMaterial {id' : Uuid} {encrypted : Bytes} (h : id' ≠ id) :
    Ensures (Gone id) (Repo.updateEncryptedMaterial env id' encrypted) fun _ => True :=
  ensures_repo_write trivial fun _ hnone => findEncryptedMaterial_updateLive hnone fun heq => absurd heq h

theorem ensures_updateStatus {id' : Uuid} {status : KeyStatus} :
    Ensures (Gone id) (Repo.updateStatus env id' status) fun _ => True :=
  ensures_repo_write trivial fun _ hnone => findEncryptedMaterial_updateLive hnone fun _ _ hrow => hrow

theorem ensures_softDelete {id' : Uuid} {deletedBy : String} :
    Ensures (Gone id) (Repo.softDelete env id' deletedBy) fun _ => True :=
  ensures_repo_write trivial fun _ hnone => findEncryptedMaterial_updateLive hnone fun _ _ hrow => hrow

theorem ensures_insertVersion {rowId keyId : Uuid} {now : DateTime} {version : UInt32} {dek : Option Bytes}
    {status : String} : Ensures (Gone id) (Repo.insertVersion env rowId now keyId version dek status) fun _ =>
      True := by
  refine ensures_repo fun db a db' heq hnone => ⟨?_, trivial⟩
  cases hinsert : db.insertVersion rowId now keyId version dek status with
  | error e =>
    rw [hinsert] at heq
    cases heq
  | ok db'' =>
    rw [hinsert] at heq
    cases heq
    rw [findEncryptedMaterial_of_keys_eq (keys_insertVersion hinsert), hnone]

theorem ensures_updateVersionRotatedAt {keyId : Uuid} {now : DateTime} {version : UInt32} :
    Ensures (Gone id) (Repo.updateVersionRotatedAt env now keyId version) fun _ => True :=
  ensures_repo_write trivial fun _ hnone => hnone

/-- The material of a key that is gone is not found. -/
theorem ensures_findEncryptedMaterial {id' : Uuid} :
    Ensures (Gone id) (Repo.findEncryptedMaterial env id') fun found => found.isSome → id' ≠ id :=
  ensures_repo_read fun db hnone hfound heq => by simp [heq, hnone] at hfound

theorem ensures_kekOf {P : Store → Prop} : Ensures P kekOf fun _ => True :=
  fun _ hs => ⟨hs, fun _ _ => trivial⟩

theorem ensures_loadEntryFromDb {keyId : Uuid} :
    Ensures (Gone id) (loadEntryFromDb crypto env keyId) fun _ => keyId ≠ id := by
  refine .bind (ensures_repo_read (R := fun _ => True) fun _ _ => trivial) fun found _ => ?_
  cases found with
  | none => exact .throw _
  | some keyMeta =>
    refine .bind ensures_findEncryptedMaterial fun material hfound => ?_
    cases material with
    | none => exact .throw _
    | some encrypted =>
      refine .bind ensures_kekOf fun s _ => ?_
      split
      · exact .throw _
      · exact .throw _
      · exact .pure (hfound rfl)

/-- No entry of a key that is gone can be resolved. -/
theorem ensures_entryFor {keyId : Uuid} {tenantId : String} :
    Ensures (Gone id) (entryFor crypto env keyId tenantId) fun _ => keyId ≠ id := by
  refine .bind (R := fun s => s.keys.map[id]? = none) (.get fun s hs => hs.uncached) fun s huncached => ?_
  split
  · rename_i entry hcached
    refine .ite (fun _ => .throw _) fun _ => .pure ?_
    rintro rfl
    exact absurd (hcached.symm.trans huncached) (by simp)
  · refine .bind ensures_loadEntryFromDb fun entry hne => ?_
    refine .ite (fun _ => .throw _) fun _ => ?_
    exact .bind (ensures_insertWithEviction hne) fun _ _ => .pure hne

theorem ensures_persistKey {keyMeta : KeyMeta} {encrypted : Bytes} (h : keyMeta.id ≠ id) :
    Ensures (Gone id) (persistKey env keyMeta encrypted) fun _ => True :=
  .bind (ensures_mapInternal (ensures_insert h)) fun _ _ =>
    ensures_mapInternal (ensures_updateEncryptedMaterial h)

theorem ensures_storeNew {keyMeta : KeyMeta} {material encrypted : Bytes} (h : keyMeta.id ≠ id) :
    Ensures (Gone id) (storeNew env keyMeta material encrypted) fun _ => True :=
  .bind (ensures_insertWithEviction h) fun _ _ => .bind (ensures_persistKey h) fun _ _ => .pure trivial

theorem ensures_persistRotation {oldMeta newMeta : KeyMeta} {oldMaterial encryptedNew : Bytes}
    (hfresh : newMeta.id ≠ id) :
    Ensures (Gone id) (persistRotation crypto env oldMeta oldMaterial newMeta encryptedNew) fun _ => True := by
  refine .bind (ensures_persistKey hfresh) fun _ _ => ?_
  refine .bind (ensures_mapInternal ensures_updateStatus) fun _ _ => ?_
  refine .bind ensures_kekOf fun _ _ => ?_
  refine .bind (ensures_lift (R := fun _ => True) fun _ _ => trivial) fun encryptedDek _ => ?_
  refine .bind (ensures_mapInternal ensures_insertVersion) fun _ _ => ?_
  exact ensures_mapInternal ensures_updateVersionRotatedAt

theorem ensures_rotateKey {keyId : Uuid} {tenantId : String} (hfresh : env.uuid 0 ≠ id) :
    Ensures (Gone id) (rotateKey crypto env keyId tenantId) fun _ => keyId ≠ id := by
  refine .bind ensures_entryFor fun entry hne => ?_
  refine .ite (fun _ => .throw _) fun _ => ?_
  refine .bind (ensures_lift (R := fun _ => True) fun _ _ => trivial) fun newMaterial _ => ?_
  refine .bind ensures_kekOf fun _ _ => ?_
  refine .bind (ensures_lift (R := fun _ => True) fun _ _ => trivial) fun encryptedNew _ => ?_
  refine .bind (ensures_persistRotation hfresh) fun _ _ => ?_
  refine .bind ensures_mutate fun _ _ => ?_
  exact .bind (ensures_insertWithEviction hfresh) fun _ _ => .pure hne

theorem ensures_deleteKey {keyId : Uuid} {tenantId : String} :
    Ensures (Gone id) (deleteKey crypto env keyId tenantId) fun _ => keyId ≠ id := by
  refine .bind ensures_entryFor fun entry hne => ?_
  refine .bind (ensures_mapInternal ensures_softDelete) fun _ _ => ?_
  exact ensures_mutate.mono fun _ _ => hne

theorem ensures_removeKey {keyId : Uuid} : Ensures (Gone id) (removeKey keyId) fun _ => True := by
  intro s hs
  refine ⟨?_, fun _ _ => trivial⟩
  unfold removeKey
  rw [outcome_bind_ok (outcome_get s)]
  have hkeys := BoundedKeyCache.getElem?_remove s.keys keyId id
  rcases hremove : s.keys.remove keyId with ⟨_ | entry, keys⟩
  · exact hs
  · rw [hremove] at hkeys
    refine ⟨?_, hs.noMaterial⟩
    change keys.map[id]? = none
    rw [hkeys, hs.uncached, ite_self]

/-- What is removed while its row has no material is gone. -/
theorem gone_of_removeKey {s : Store} (keyId : Uuid) (h : s.db.findEncryptedMaterial keyId = none) {entry : KeyEntry}
    (hok : (outcome (removeKey keyId) s).1 = .ok entry) : Gone keyId (outcome (removeKey keyId) s).2 := by
  unfold removeKey at hok ⊢
  rw [outcome_bind_ok (outcome_get s)] at hok ⊢
  have hkeys := BoundedKeyCache.getElem?_remove s.keys keyId keyId
  rcases hremove : s.keys.remove keyId with ⟨_ | removed, keys⟩
  · rw [hremove] at hok
    cases hok
  · rw [hremove, if_pos rfl] at hkeys
    exact ⟨hkeys, h⟩

theorem ensures_materialForVersion {keyId : Uuid} {version : UInt32} :
    Ensures (Gone id) (materialForVersion crypto env keyId version) fun _ => True := by
  refine .bind (ensures_mapInternal (ensures_repo_read (R := fun _ => True) fun _ _ => trivial)) fun found _ => ?_
  cases found with
  | none => exact .throw _
  | some row =>
    dsimp only
    split
    · exact .throw _
    · exact .bind ensures_kekOf fun _ _ => ensures_lift fun _ _ => trivial

theorem ensures_loadOneIntoCache {keyMeta : KeyMeta} :
    Ensures (Gone id) (loadOneIntoCache crypto env keyMeta) fun _ => True := by
  refine .bind ensures_findEncryptedMaterial fun material hfound => ?_
  cases material with
  | none => exact .pure trivial
  | some encrypted =>
    refine .bind ensures_kekOf fun _ _ => ?_
    split
    · exact .throw _
    · exact .throw _
    · exact .bind (ensures_insertWithEviction (hfound rfl)) fun _ _ => .pure trivial

/-- What the load of each key keeps, the loop keeps. -/
theorem ensures_preload_of {I : Store → Prop} {metas : List KeyMeta}
    (hloads : ∀ m ∈ metas, Ensures I (loadOneIntoCache crypto env m) fun _ => True) :
    Ensures I (preload crypto env metas) fun _ => True := by
  induction metas with
  | nil => exact .pure trivial
  | cons keyMeta metas ih =>
    have ih := ih fun m hm => hloads m (List.mem_cons_of_mem _ hm)
    intro s hs
    refine ⟨?_, fun _ _ => trivial⟩
    have hload := (hloads keyMeta List.mem_cons_self s hs).1
    have hcount : Ensures I (do return (← preload crypto env metas) + 1) fun _ => True :=
      .bind ih fun _ _ => .pure trivial
    simp only [outcome, preload] at hload ⊢
    split at hload <;> rename_i heq <;> simp only [heq]
    · rename_i loaded s'
      cases loaded
      · exact (ih s' hload).1
      · exact (hcount s' hload).1
    · rename_i e s'
      cases e
      · exact (ih s' hload).1
      · exact hload

theorem ensures_preload (metas : List KeyMeta) : Ensures (Gone id) (preload crypto env metas) fun _ => True :=
  ensures_preload_of fun _ _ => ensures_loadOneIntoCache

theorem ensures_spawnLoadKeys : Ensures (Gone id) (spawnLoadKeys crypto env) fun _ => True := by
  refine .bind (R := fun _ => True) (ensures_repo fun db a db' heq hnone => ⟨?_, trivial⟩) fun metas _ => ?_
  · cases hlist : db.listAllTenants env.rank none none <;> rw [hlist] at heq <;> cases heq
    exact hnone
  · refine .bind (ensures_preload metas) fun _ _ => ?_
    exact .bind (.modify (R := fun _ => True) (fun s hs => ⟨hs.uncached, hs.noMaterial⟩) trivial) fun _ _ =>
      .pure trivial

/-- An operation that resolves its entry first never returns for a key that is gone. -/
theorem ensures_of_entryFor {α : Type} {keyId : Uuid} {tenantId : String} {f : KeyEntry → M α}
    (hf : ∀ entry, Ensures (Gone id) (f entry) fun _ => True) :
    Ensures (Gone id) (entryFor crypto env keyId tenantId >>= f) fun _ => keyId ≠ id :=
  .bind ensures_entryFor fun entry hne => (hf entry).mono fun _ _ => hne

theorem ensures_value {α : Type} {P : Store → Prop} {R : Prop} {x : M α} {f : α → Value}
    (h : Ensures P x fun _ => R) : Ensures P (do return f (← x)) fun _ => R :=
  .bind h fun _ hR => .pure hR

/-- Every operation leaves a key gone that is gone, if it draws another id for a
new key, and none that acts for a tenant on such a key returns. -/
theorem ensures_run (op : Op) (hfresh : env.uuid 0 ≠ id) :
    Ensures (Gone id) (op.run crypto env) fun _ => ∀ k, op.tenantKey? = some k → k.1 ≠ id := by
  have hlift : ∀ {α : Type} (r : Except Abort α), Ensures (Gone id) (lift r) fun _ => True :=
    fun _ => ensures_lift fun _ _ => trivial
  have hnokey : ∀ {x : M Value}, op.tenantKey? = none → (Ensures (Gone id) x fun _ => True) →
      Ensures (Gone id) x fun _ => ∀ k, op.tenantKey? = some k → k.1 ≠ id :=
    fun hop hx => hx.mono fun _ _ k hk => by rw [hop] at hk; cases hk
  have hkey : ∀ {x : M Value} {keyId : Uuid} {tenantId : String}, op.tenantKey? = some (keyId, tenantId) →
      (Ensures (Gone id) x fun _ => keyId ≠ id) →
      Ensures (Gone id) x fun _ => ∀ k, op.tenantKey? = some k → k.1 ≠ id :=
    fun hop hx => hx.mono fun _ hne k hk => by rw [hop] at hk; cases hk; exact hne
  cases op with
  | generateKey spec name tenantId =>
    refine hnokey rfl (ensures_value (.bind (hlift _) fun _ _ => ?_))
    exact .bind ensures_kekOf fun _ _ => .bind (hlift _) fun _ _ => ensures_storeNew hfresh
  | importKeyMaterial spec name tenantId material =>
    refine hnokey rfl (ensures_value (.bind (hlift _) fun _ _ => ?_))
    exact .bind ensures_kekOf fun _ _ => .bind (hlift _) fun _ _ => ensures_storeNew hfresh
  | rotateKey keyId tenantId => exact hkey rfl (ensures_value (ensures_rotateKey hfresh))
  | deleteKey keyId tenantId => exact hkey rfl (.bind ensures_deleteKey fun _ hne => .pure hne)
  | destroyKey keyId =>
    exact hnokey rfl (.bind (R := fun _ => True) (.bind ensures_removeKey fun _ _ => .pure trivial) fun _ _ =>
      .pure trivial)
  | destroyKeyWithProof keyId =>
    exact hnokey rfl (ensures_value (.bind ensures_removeKey fun _ _ => .pure trivial))
  | getKeyMetadata keyId =>
    refine hnokey rfl (ensures_value (.bind (.get (R := fun _ => True) fun _ _ => trivial) fun _ _ => ?_))
    split
    · exact .pure trivial
    · refine .bind (ensures_repo_read (R := fun _ => True) fun _ _ => trivial) fun found _ => ?_
      cases found with
      | none => exact .throw _
      | some keyMeta => exact .pure trivial
  | encrypt keyId plaintext tenantId =>
    exact hkey rfl (ensures_value (ensures_of_entryFor fun _ => .ite (fun _ => .throw _) fun _ => hlift _))
  | decrypt keyId ciphertext tenantId =>
    refine hkey rfl (ensures_value (ensures_of_entryFor fun _ => .ite (fun _ => .throw _) fun _ => ?_))
    exact .bind (.ite (fun _ => .pure trivial) fun _ => ensures_materialForVersion) fun _ _ => hlift _
  | sign keyId data tenantId =>
    exact hkey rfl (ensures_value (ensures_of_entryFor fun _ => .ite (fun _ => .throw _) fun _ => hlift _))
  | verify keyId data sig tenantId => exact hkey rfl (ensures_value (ensures_of_entryFor fun _ => hlift _))
  | exportKeyMaterial keyId tenantId =>
    exact hkey rfl (ensures_value (ensures_of_entryFor fun _ => .ite (fun _ => .throw _) fun _ => .pure trivial))
  | getKeyMaterial keyId tenantId => exact hkey rfl (ensures_value (ensures_of_entryFor fun _ => .pure trivial))
  | getKeyMaterialVersion keyId version tenantId =>
    refine hkey rfl (ensures_value (ensures_of_entryFor fun _ => ?_))
    exact .ite (fun _ => .pure trivial) fun _ => ensures_materialForVersion
  | deriveSharedSecret keyId peerPublicKey algorithm tenantId =>
    refine hkey rfl (ensures_value (ensures_of_entryFor fun _ => ?_))
    exact .bind (hlift _) fun _ _ => .pure trivial
  | listKeys filter =>
    refine hnokey rfl (ensures_value ?_)
    unfold listKeys
    split
    · exact .throw _
    · refine ensures_mapInternal (ensures_repo fun db a db' heq hnone => ⟨?_, trivial⟩)
      rename_i tenantId _
      cases hlist : db.list env.rank tenantId (filter.limit.map Db.asI64) (filter.offset.map Db.asI64) <;>
        rw [hlist] at heq <;> cases heq
      exact hnone
  | health =>
    refine hnokey rfl (ensures_value fun s hs => ⟨?_, fun _ _ => trivial⟩)
    have hlist : Ensures (Gone id) (Repo.listAllTenants env (some 1) none) fun _ => True := by
      refine ensures_repo fun db a db' heq hnone => ⟨?_, trivial⟩
      cases hlist : db.listAllTenants env.rank (some 1) none <;> rw [hlist] at heq <;> cases heq
      exact hnone
    have hs' := (hlist s hs).1
    simp only [outcome, Postgres.health] at hs' ⊢
    split at hs' <;> rename_i heq <;> simp only [heq] <;> exact hs'
  | loadKeys =>
    exact hnokey rfl (.bind (R := fun _ => True) (.bind ensures_spawnLoadKeys fun _ _ => .pure trivial) fun _ _ =>
      .pure trivial)
  | spawnLoadKeys => exact hnokey rfl (ensures_value ensures_spawnLoadKeys)
  | restart kek =>
    refine hnokey rfl (.bind (R := fun _ => True) (.modify (fun s hs => ⟨?_, hs.noMaterial⟩) trivial) fun _ _ =>
      .pure trivial)
    simp [BoundedKeyCache.new]

end

/-! ## Over a run -/

/-- A call that destroys the key and returns. -/
def Destroyed (id : Uuid) (ev : Call × Except Abort Value) : Prop :=
  ev.1.op.destroys? = some id ∧ ∃ v, ev.2 = .ok v

/-- After the key has been destroyed in the first event, the second, if it acts for
a tenant on the key, has failed. -/
def StaysDestroyed (ev ev' : Call × Except Abort Value) : Prop :=
  ∀ id tenantId, Destroyed id ev → ev'.1.op.tenantKey? = some (id, tenantId) → ∀ v, ev'.2 ≠ .ok v

/-- The call draws no id that was destroyed before; and if it destroys a key that is
in the cache, the database has no material of that key left. -/
structure DestroysLast (h : History Call (Except Abort Value)) (s : Store) (c : Call) : Prop where
  fresh : ∀ id, (∃ ev ∈ h, Destroyed id ev) → c.env.uuid 0 ≠ id
  noMaterial : ∀ id, c.op.destroys? = some id → (s.keys.map[id]?).isSome → s.db.findEncryptedMaterial id = none

theorem gone_of_destroyed {crypto : Crypto} {s : Store} {c : Call} {id : Uuid} (hop : c.op.destroys? = some id)
    {v : Value} (hok : (call crypto s c).1 = .ok v)
    (h : (s.keys.map[id]?).isSome → s.db.findEncryptedMaterial id = none) : Gone id (call crypto s c).2 := by
  have key : ∀ {f : KeyEntry → M Value}, (∀ entry s, (outcome (f entry) s).2 = s) →
      (outcome (removeKey id >>= f) s).1 = .ok v → Gone id (outcome (removeKey id >>= f) s).2 := by
    intro f hf hok
    rcases hremove : outcome (removeKey id) s with ⟨_ | entry, s'⟩
    · rw [outcome_bind_error hremove] at hok
      cases hok
    · have hcached : (s.keys.map[id]?).isSome := by
        unfold removeKey at hremove
        rw [outcome_bind_ok (outcome_get s)] at hremove
        have hfst := BoundedKeyCache.remove_fst s.keys id
        rcases hkeys : s.keys.remove id with ⟨_ | removed, keys⟩
        · rw [hkeys] at hremove
          cases hremove
        · rw [hkeys] at hfst
          simp [← hfst]
      have hgone := gone_of_removeKey (s := s) id (h hcached) (by rw [hremove])
      rw [outcome_bind_ok hremove, hf]
      rwa [hremove] at hgone
  obtain ⟨env, op⟩ := c
  cases op <;> simp only [Op.destroys?, reduceCtorEq, Option.some.injEq] at hop
  case destroyKey keyId =>
    subst hop
    simp only [call, Op.run, destroyKey, bind_assoc, pure_bind] at hok ⊢
    exact key (fun _ _ => rfl) hok
  case destroyKeyWithProof keyId =>
    subst hop
    simp only [call, Op.run, destroyKeyWithProof, bind_assoc, pure_bind] at hok ⊢
    exact key (fun _ _ => rfl) hok

/-- Destruction is final in every run whose steps destroy a cached key only when its
row has no material left, whatever the capacity, the clock, the random bytes and
the repository calls that fail. -/
theorem destruction_final (crypto : Crypto) (capacity : Option ℕ) (kek : Bytes) (calls : List Call)
    (h : Machine.Along (call crypto) DestroysLast [] (.start capacity kek) calls) :
    (Machine.trace (call crypto) (.start capacity kek) calls).Pairwise StaysDestroyed := by
  have hrun := h.pairwise (I := fun h s => ∀ id, (∃ ev ∈ h, Destroyed id ev) → Gone id s) (R := StaysDestroyed)
    ?_ ?_ (by simp) .nil
  · simpa using hrun
  · rintro h s c hinv hg id ⟨ev, hev, hd⟩
    rcases List.mem_append.1 hev with hev | hev
    · exact (ensures_run c.op (hg.fresh id ⟨ev, hev, hd⟩) s (hinv id ⟨ev, hev, hd⟩)).1
    · rw [List.mem_singleton.1 hev] at hd
      obtain ⟨hop, v, hok⟩ := hd
      exact gone_of_destroyed hop hok (hg.noMaterial id hop)
  · rintro h s c hinv hg ev hev id tenantId hd hkey v hok
    exact (ensures_run c.op (hg.fresh id ⟨ev, hev, hd⟩) s (hinv id ⟨ev, hev, hd⟩)).2 v hok (id, tenantId) hkey rfl

/-! ## Two runs -/

def sampleStart : Store := .start none (List.replicate 32 1)

/-- A key is generated, destroyed, and asked for again. -/
def destroyedOnly : List Call :=
  [⟨sampleEnv 1, .generateKey .aes256Gcm "key" "tenant-1"⟩, ⟨sampleEnv 2, .destroyKey 1⟩,
   ⟨sampleEnv 2, .getKeyMaterial 1 "tenant-1"⟩]

/-- The destroyed key's material is handed out from the database. -/
theorem not_final_destroyedOnly :
    ¬ (Machine.trace (call .plain) sampleStart destroyedOnly).Pairwise StaysDestroyed := by
  intro h
  obtain ⟨-, h, -⟩ : _ ∧ _ ∧ _ := by simpa only [Machine.trace, destroyedOnly, List.pairwise_cons] using h
  refine h _ (List.mem_singleton_self _) 1 "tenant-1" ⟨rfl, .unit, ?_⟩ rfl (.bytes (List.replicate 32 7)) ?_
  · decide +kernel
  · decide +kernel

/-- A key is generated, deleted, destroyed, and asked for again. -/
def deletedThenDestroyed : List Call :=
  [⟨sampleEnv 1, .generateKey .aes256Gcm "key" "tenant-1"⟩, ⟨sampleEnv 2, .deleteKey 1 "tenant-1"⟩,
   ⟨sampleEnv 2, .destroyKey 1⟩, ⟨sampleEnv 2, .getKeyMaterial 1 "tenant-1"⟩]

theorem destruction_final_deletedThenDestroyed :
    (Machine.trace (call .plain) sampleStart deletedThenDestroyed).Pairwise StaysDestroyed := by
  refine destruction_final .plain none (List.replicate 32 1) deletedThenDestroyed ?_
  have hother : ∀ {h : History Call (Except Abort Value)} {s : Store} {c : Call}, c.env = sampleEnv 2 →
      (∀ ev ∈ h, ev.1.op.destroys? ≠ some 2) →
      (∀ id, c.op.destroys? = some id → s.db.findEncryptedMaterial id = none) → DestroysLast h s c := by
    intro h s c henv hh hnone
    refine ⟨?_, fun id hop _ => hnone id hop⟩
    rintro id ⟨ev, hev, hd⟩ rfl
    rw [henv] at hd
    exact hh ev hev hd.1
  refine ⟨⟨by simp, by simp [Op.destroys?]⟩, ?_, ?_, ?_, trivial⟩
  · exact hother rfl (by simp [Op.destroys?]) (by simp [Op.destroys?])
  · refine hother rfl (by simp [Op.destroys?]) fun id hid => ?_
    cases hid
    decide +kernel
  · exact hother rfl (by simp [Op.destroys?]) (by simp [Op.destroys?])

end GmKms.Keystore.Postgres
