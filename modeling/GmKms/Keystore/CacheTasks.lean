import GmKms.Keystore.PostgresValid
/-!
# Tasks over the cache and the database

The methods of `PostgresKeystore` that fill or refresh the cache, as the reads, writes and cache
operations they make one after the other: lazy loads, rotation, deletion, destruction and the
background preload. Any number of them run at once, and their steps come in any order. Alone, a
task does what the method does.
-/

namespace GmKms.Keystore.Postgres

open Lib Lib.Effect

/-- What a key is resolved for. -/
inductive Goal where
  | use | rotate | delete

/-- What `rotate_key` holds once it has made the new key. -/
structure Rotation where
  keyId : Uuid
  old : KeyEntry
  newMaterial : Bytes
  encryptedNew : Bytes

/-- What a task does next. -/
inductive Stage where
  | getCloned (goal : Goal) (keyId : Uuid) (tenantId : String)
  | findById (goal : Goal) (keyId : Uuid) (tenantId : String)
  | findEncryptedMaterial (goal : Goal) (keyId : Uuid) (tenantId : String) (keyMeta : KeyMeta)
  | writeBack (goal : Goal) (keyId : Uuid) (entry : KeyEntry)
  | insert (r : Rotation)
  | updateEncryptedMaterial (r : Rotation)
  | updateStatus (r : Rotation)
  | insertVersion (r : Rotation)
  | updateVersionRotatedAt (r : Rotation)
  | markObsolete (r : Rotation)
  | insertNew (r : Rotation)
  | softDelete (keyId : Uuid)
  | markPendingDeletion (keyId : Uuid)
  | remove (keyId : Uuid)
  | listAllTenants
  | preload (metas : List KeyMeta) (loaded : ℕ)
  | preloadInsert (entry : KeyEntry) (metas : List KeyMeta) (loaded : ℕ)

inductive TaskResult where
  | entry (entry : KeyEntry)
  | rotated (keyMeta : KeyMeta)
  | deleted
  | destroyed (keyId : Uuid)
  | loaded (n : ℕ)

inductive Progress where
  | next (stage : Stage)
  | done (r : Except Abort TaskResult)

/-- One access of the store, and what follows from what it answers. -/
def accessThen {α : Type} (x : M α) (next : α → Progress) (s : Store) : Progress × Store :=
  match outcome x s with
  | (.ok a, s') => (next a, s')
  | (.error e, s') => (.done (.error e), s')

section

variable (crypto : Crypto) (env : Env)

/-- What `load_entry_from_db` makes of the material it read. -/
def loadedEntry (kek : Bytes) (keyId : Uuid) (keyMeta : KeyMeta) : Option Bytes → Except Abort KeyEntry
  | none =>
    let id := keyId.text
    .error (.error (.internal (s!"key {id} found in DB but has no encrypted material " ++
      "(may predate persistence; skip via load_keys restart)")))
  | some encrypted =>
    match decryptMaterial crypto kek keyId encrypted with
    | .error (.error e) =>
      let id := keyId.text
      let reason := e.text
      .error (.error (.internal (s!"lazy-load KEK decrypt failed for {id}: {reason}. " ++
        "This likely indicates the KEK has changed since startup.")))
    | .error (.panic message) => .error (.panic message)
    | .ok material => .ok { keyMeta, material }

/-- What `rotate_key` does between `entry_for` and its first write. -/
def startRotation (kek : Bytes) (keyId : Uuid) (entry : KeyEntry) : Except Abort Rotation :=
  if !entry.keyMeta.status.canRotate then
    let id := keyId.text
    .error (.error (.keyOperationNotAllowed s!"Key {id} cannot be rotated"))
  else
    match generateKeyMaterial env entry.keyMeta.spec with
    | .error e => .error e
    | .ok newMaterial =>
      match encryptMaterial crypto env 1 kek (rotatedMeta env entry.keyMeta).id newMaterial with
      | .error e => .error e
      | .ok encryptedNew => .ok { keyId, old := entry, newMaterial, encryptedNew }

/-- How the method goes on that has resolved the key. -/
def resolvedFor (kek : Bytes) (goal : Goal) (keyId : Uuid) (entry : KeyEntry) : Progress :=
  match goal with
  | .use => .done (.ok (.entry entry))
  | .delete => .next (.softDelete keyId)
  | .rotate =>
    match startRotation crypto env kek keyId entry with
    | .error e => .done (.error e)
    | .ok r => .next (.insert r)

def Rotation.newEntry (r : Rotation) : KeyEntry := ⟨rotatedMeta env r.old.keyMeta, r.newMaterial⟩

/-- The step of a task. -/
def advance : Stage → Store → Progress × Store
  | .getCloned goal keyId tenantId => fun s =>
    match s.keys.getCloned keyId with
    | some entry =>
      if entry.keyMeta.tenantId ≠ tenantId then (.done (.error (.error (.keyNotFound keyId.text))), s)
      else (resolvedFor crypto env s.kek goal keyId entry, s)
    | none => (.next (.findById goal keyId tenantId), s)
  | .findById goal keyId tenantId =>
    accessThen (Repo.findById env keyId) fun
      | none => .done (.error (.error (.keyNotFound keyId.text)))
      | some keyMeta => .next (.findEncryptedMaterial goal keyId tenantId keyMeta)
  | .findEncryptedMaterial goal keyId tenantId keyMeta => fun s =>
    accessThen (Repo.findEncryptedMaterial env keyId) (fun material =>
      match loadedEntry crypto s.kek keyId keyMeta material with
      | .error e => .done (.error e)
      | .ok entry =>
        if entry.keyMeta.tenantId ≠ tenantId then .done (.error (.error (.keyNotFound keyId.text)))
        else .next (.writeBack goal keyId entry)) s
  | .writeBack goal keyId entry => fun s =>
    (resolvedFor crypto env s.kek goal keyId entry, { s with keys := s.keys.insertWithEviction keyId entry })
  | .insert r =>
    accessThen (mapInternal (Repo.insert env (r.newEntry env).keyMeta)) fun _ => .next (.updateEncryptedMaterial r)
  | .updateEncryptedMaterial r =>
    accessThen (mapInternal (Repo.updateEncryptedMaterial env (r.newEntry env).keyMeta.id r.encryptedNew)) fun _ =>
      .next (.updateStatus r)
  | .updateStatus r =>
    accessThen (mapInternal (Repo.updateStatus env r.old.keyMeta.id .obsolete)) fun _ => .next (.insertVersion r)
  | .insertVersion r => fun s =>
    match encryptMaterial crypto env 2 s.kek r.old.keyMeta.id r.old.material with
    | .error e => (.done (.error e), s)
    | .ok encryptedDek =>
      accessThen (mapInternal (Repo.insertVersion env (env.uuid 1) (env.now 1) r.old.keyMeta.id r.old.keyMeta.version
        (some encryptedDek) "Rotated")) (fun _ => .next (.updateVersionRotatedAt r)) s
  | .updateVersionRotatedAt r =>
    accessThen (mapInternal (Repo.updateVersionRotatedAt env (env.now 2) r.old.keyMeta.id r.old.keyMeta.version))
    fun _ =>
      .next (.markObsolete r)
  | .markObsolete r => fun s =>
    (.next (.insertNew r), { s with keys := s.keys.mutate r.keyId (·.withStatus .obsolete) })
  | .insertNew r => fun s =>
    (.done (.ok (.rotated (r.newEntry env).keyMeta)),
      { s with keys := s.keys.insertWithEviction (r.newEntry env).keyMeta.id (r.newEntry env) })
  | .softDelete keyId =>
    accessThen (mapInternal (Repo.softDelete env keyId "kms-system")) fun _ => .next (.markPendingDeletion keyId)
  | .markPendingDeletion keyId => fun s =>
    (.done (.ok .deleted), { s with keys := s.keys.mutate keyId (·.withStatus .pendingDeletion) })
  | .remove keyId => accessThen (destroyKey keyId) fun _ => .done (.ok (.destroyed keyId))
  | .listAllTenants => accessThen (Repo.listAllTenants env none none) fun metas => .next (.preload metas 0)
  | .preload [] loaded => fun s => (.done (.ok (.loaded loaded)), { s with keysReady := true })
  | .preload (keyMeta :: metas) loaded => fun s =>
    -- a key that cannot be read or decrypted is skipped
    match outcome (Repo.findEncryptedMaterial env keyMeta.id) s with
    | (.ok (some encrypted), s) =>
      match decryptMaterial crypto s.kek keyMeta.id encrypted with
      | .ok material => (.next (.preloadInsert { keyMeta, material } metas loaded), s)
      | .error _ => (.next (.preload metas loaded), s)
    | (_, s) => (.next (.preload metas loaded), s)
  | .preloadInsert entry metas loaded => fun s =>
    (.next (.preload metas (loaded + 1)), { s with keys := s.keys.insertWithEviction entry.keyMeta.id entry })

end

/-! ## A task on its own -/

inductive TaskCall where
  | entryFor (keyId : Uuid) (tenantId : String)
  | rotateKey (keyId : Uuid) (tenantId : String)
  | deleteKey (keyId : Uuid) (tenantId : String)
  | destroyKey (keyId : Uuid)
  | spawnLoadKeys

def TaskCall.stage : TaskCall → Stage
  | entryFor keyId tenantId => .getCloned .use keyId tenantId
  | rotateKey keyId tenantId => .getCloned .rotate keyId tenantId
  | deleteKey keyId tenantId => .getCloned .delete keyId tenantId
  | destroyKey keyId => .remove keyId
  | spawnLoadKeys => .listAllTenants

/-- What a call's method does. -/
def TaskCall.method (crypto : Crypto) (env : Env) : TaskCall → M TaskResult
  | entryFor keyId tenantId => .entry <$> Postgres.entryFor crypto env keyId tenantId
  | rotateKey keyId tenantId => .rotated <$> Postgres.rotateKey crypto env keyId tenantId
  | deleteKey keyId tenantId => (fun _ => .deleted) <$> Postgres.deleteKey crypto env keyId tenantId
  | destroyKey keyId => (fun _ => .destroyed keyId) <$> Postgres.destroyKey keyId
  | spawnLoadKeys => .loaded <$> Postgres.spawnLoadKeys crypto env

/-- A task that runs to its end with no other. -/
inductive Finishes (crypto : Crypto) (env : Env) : Progress → Store → Except Abort TaskResult → Store → Prop
  | done (r : Except Abort TaskResult) (s : Store) : Finishes crypto env (.done r) s r s
  | next {stage : Stage} {s s' : Store} {r : Except Abort TaskResult}
      (h : Finishes crypto env (advance crypto env stage s).1 (advance crypto env stage s).2 r s') :
      Finishes crypto env (.next stage) s r s'

/-- It ends as the program does. -/
def Does (crypto : Crypto) (env : Env) (p : Progress) (s : Store) (x : M TaskResult) : Prop :=
  Finishes crypto env p s (outcome x s).1 (outcome x s).2

section

variable {crypto : Crypto} {env : Env} {s : Store}

theorem kek_of_repo {α : Type} {c : RepoCall} {f : Db → Except String (α × Db)} {s s' : Store} {r : Except Abort α}
    (h : outcome (repo env c f) s = (r, s')) : s'.kek = s.kek := by
  unfold outcome repo at h
  cases hfault : env.fault c with
  | some e =>
    rw [hfault] at h
    cases h
    rfl
  | none =>
    rcases hf : f s.db with e | ⟨a, db⟩ <;> simp only [hfault, hf] at h <;> cases h <;> rfl

theorem does_access {α : Type} {x : M α} {next : α → Progress} {f : α → M TaskResult}
    (h : ∀ a s', outcome x s = (.ok a, s') → Does crypto env (next a) s' (f a)) :
    Finishes crypto env (accessThen x next s).1 (accessThen x next s).2 (outcome (x >>= f) s).1
      (outcome (x >>= f) s).2 := by
  unfold accessThen
  rw [outcome_bind]
  rcases hx : outcome x s with ⟨e | a, s'⟩
  · exact .done _ _
  · exact h a s' hx

theorem does_resolve {goal : Goal} {keyId : Uuid} {tenantId : String} {f : KeyEntry → M TaskResult}
    (h : ∀ entry s, Does crypto env (resolvedFor crypto env s.kek goal keyId entry) s (f entry)) :
    Does crypto env (.next (.getCloned goal keyId tenantId)) s (entryFor crypto env keyId tenantId >>= f) := by
  refine .next ?_
  simp only [advance]
  unfold entryFor
  rw [bind_assoc, outcome_bind_ok (outcome_get s)]
  cases s.keys.getCloned keyId with
  | some entry =>
    dsimp only
    split
    · exact .done _ _
    · rw [pure_bind]
      exact h entry s
  | none =>
    refine .next ?_
    unfold loadEntryFromDb
    simp only [bind_assoc]
    refine does_access fun found s₁ _ => ?_
    cases found with
    | none => exact .done _ _
    | some keyMeta =>
      refine .next ?_
      simp only [bind_assoc]
      refine does_access fun material s₂ hread => ?_
      have hkek : s₂.kek = s₁.kek := kek_of_repo hread
      cases material with
      | none => exact .done _ _
      | some encrypted =>
        simp only [bind_assoc]
        unfold Does
        rw [outcome_bind_ok (outcome_kekOf s₂), hkek, loadedEntry]
        rcases decryptMaterial crypto s₁.kek keyId encrypted with (e | message) | opened
        · exact .done _ _
        · exact .done _ _
        · dsimp only
          rw [pure_bind]
          split
          · exact .done _ _
          · refine .next ?_
            rw [bind_assoc, modifyKeys, outcome_bind_ok (outcome_modify _ s₂), pure_bind]
            exact h { keyMeta, material := opened }
              { s₂ with keys := s₂.keys.insertWithEviction keyId { keyMeta, material := opened } }

/-- The writes of a rotation and its refresh of the cache. -/
theorem does_rotation (r : Rotation) : Does crypto env (.next (.insert r)) s (.rotated <$> do
    persistRotation crypto env r.old.keyMeta r.old.material (rotatedMeta env r.old.keyMeta) r.encryptedNew
    modifyKeys (·.mutate r.keyId (·.withStatus .obsolete))
    modifyKeys (·.insertWithEviction (rotatedMeta env r.old.keyMeta).id (r.newEntry env))
    return rotatedMeta env r.old.keyMeta) := by
  unfold persistRotation persistKey
  simp only [map_bind, bind_assoc]
  refine .next (does_access fun _ _ _ => .next (does_access fun _ _ _ => .next (does_access fun _ s _ => .next ?_)))
  rw [outcome_bind_ok (outcome_kekOf s)]
  dsimp only [advance]
  cases encryptMaterial crypto env 2 s.kek r.old.keyMeta.id r.old.material with
  | error e => exact .done _ _
  | ok encryptedDek =>
    exact does_access fun _ _ _ => .next (does_access fun _ _ _ => .next (.next (.done _ _)))

theorem does_rotateKey {keyId : Uuid} {tenantId : String} :
    Does crypto env (.next (.getCloned .rotate keyId tenantId)) s
      (.rotated <$> rotateKey crypto env keyId tenantId) := by
  unfold rotateKey
  rw [map_bind]
  refine does_resolve fun entry s => ?_
  simp only [resolvedFor, startRotation]
  by_cases hrotate : (!entry.keyMeta.status.canRotate) = true
  · simp only [if_pos hrotate]
    exact .done _ _
  · simp only [if_neg hrotate]
    cases generateKeyMaterial env entry.keyMeta.spec with
    | error e => exact .done _ _
    | ok newMaterial =>
      have hmade : outcome (lift (.ok newMaterial) : M Bytes) s = (.ok newMaterial, s) := rfl
      unfold Does
      rw [map_bind, outcome_bind_ok hmade, map_bind, outcome_bind_ok (outcome_kekOf s), map_bind]
      dsimp only
      cases encryptMaterial crypto env 1 s.kek (rotatedMeta env entry.keyMeta).id newMaterial with
      | error e => exact .done _ _
      | ok encryptedNew =>
        have hsealed : outcome (lift (.ok encryptedNew) : M Bytes) s = (.ok encryptedNew, s) := rfl
        rw [outcome_bind_ok hsealed]
        exact does_rotation { keyId, old := entry, newMaterial, encryptedNew }

theorem does_deleteKey {keyId : Uuid} {tenantId : String} :
    Does crypto env (.next (.getCloned .delete keyId tenantId)) s
      ((fun _ => .deleted) <$> deleteKey crypto env keyId tenantId) := by
  unfold deleteKey
  rw [map_bind]
  refine does_resolve fun entry s => .next ?_
  rw [map_bind]
  exact does_access fun _ _ _ => .next (.done _ _)

theorem not_panic_of_repo {α : Type} {c : RepoCall} {f : Db → Except String (α × Db)} {s s' : Store}
    {message : String} :
    outcome (repo env c f) s ≠ (.error (.panic message), s') := by
  intro h
  unfold outcome repo at h
  cases hfault : env.fault c with
  | some e => simp [hfault] at h
  | none => rcases hf : f s.db with e | ⟨a, db⟩ <;> simp [hfault, hf] at h

theorem not_panic_of_decryptMaterial {kek : Bytes} {id : Uuid} {encrypted : Bytes} {message : String} :
    decryptMaterial crypto kek id encrypted ≠ .error (.panic message) := by
  unfold decryptMaterial
  split
  · rintro ⟨⟩
  · split
    · rintro ⟨⟩
    · split <;> rintro ⟨⟩

/-- The loop of the preload from any count of keys loaded so far. -/
theorem does_preload (metas : List KeyMeta) (loaded : ℕ) : Does crypto env (.next (.preload metas loaded)) s (do
    let more ← preload crypto env metas
    modify fun s => { s with keysReady := true }
    return .loaded (loaded + more)) := by
  induction metas generalizing loaded s with
  | nil => exact .next (.done _ _)
  | cons keyMeta metas ih =>
    refine .next ?_
    -- a key that is not loaded leaves the rest of the list to load
    have hskip : ∀ s', outcome (loadOneIntoCache crypto env keyMeta) s = (.ok false, s') ∨
        (∃ e, outcome (loadOneIntoCache crypto env keyMeta) s = (.error (.error e), s')) →
        outcome (preload crypto env (keyMeta :: metas)) s = outcome (preload crypto env metas) s' := by
      rintro s' (hload | ⟨e, hload⟩) <;> rw [outcome_preload, hload]
    have hread : Spec (Repo.findEncryptedMaterial env keyMeta.id) s _ := spec_read _ _
    unfold Spec at hread
    dsimp only [advance]
    rw [outcome_bind]
    rcases houtcome : outcome (Repo.findEncryptedMaterial env keyMeta.id) s with ⟨(e | message) | found, s'⟩ <;>
      rw [houtcome] at hread <;> obtain ⟨rfl, -⟩ := hread
    · rw [hskip s' (.inr ⟨e, outcome_bind_error houtcome⟩), ← outcome_bind]
      exact ih loaded
    · exact absurd houtcome not_panic_of_repo
    · cases found with
      | none =>
        rw [hskip s' (.inl (outcome_bind_ok houtcome)), ← outcome_bind]
        exact ih loaded
      | some encrypted =>
        have hload : outcome (loadOneIntoCache crypto env keyMeta) s' = _ := outcome_bind_ok houtcome
        dsimp only at hload ⊢
        rw [outcome_bind_ok (outcome_kekOf s')] at hload
        cases hopens : decryptMaterial crypto s'.kek keyMeta.id encrypted with
        | error e =>
          cases e with
          | panic message => exact absurd hopens not_panic_of_decryptMaterial
          | error e =>
            rw [hopens] at hload
            rw [hskip s' (.inr ⟨_, hload⟩), ← outcome_bind]
            exact ih loaded
        | ok material =>
          have hcount : (do
              let more ← (do return (← preload crypto env metas) + 1 : M ℕ)
              modify fun s => { s with keysReady := true }
              return .loaded (loaded + more) : M TaskResult) = (do
              let more ← preload crypto env metas
              modify fun s => { s with keysReady := true }
              return .loaded (loaded + 1 + more)) := by
            simp only [bind_assoc, pure_bind, add_assoc, add_comm 1]
          have hloaded : outcome (loadOneIntoCache crypto env keyMeta) s' = (.ok true,
              { s' with keys := s'.keys.insertWithEviction keyMeta.id { keyMeta, material } }) := by
            rw [hload, hopens]
            rfl
          rw [outcome_preload, hloaded, ← outcome_bind, hcount]
          refine .next ?_
          exact ih (s := { s' with keys := s'.keys.insertWithEviction keyMeta.id { keyMeta, material } }) (loaded + 1)

theorem does_spawnLoadKeys : Does crypto env (.next .listAllTenants) s (.loaded <$> spawnLoadKeys crypto env) := by
  unfold spawnLoadKeys
  rw [map_bind]
  refine .next (does_access fun metas s' _ => ?_)
  have hloads : Does crypto env (.next (.preload metas 0)) s' _ := does_preload metas 0
  simpa only [map_bind, map_pure, zero_add] using hloads

/-- Alone, a task does what its call's method does. -/
theorem does_method (c : TaskCall) : Does crypto env (.next c.stage) s (c.method crypto env) := by
  cases c with
  | entryFor keyId tenantId =>
    have hmap : TaskCall.method crypto env (.entryFor keyId tenantId) =
      entryFor crypto env keyId tenantId >>= fun entry => pure (.entry entry) := map_eq_pure_bind ..
    rw [hmap]
    exact does_resolve fun entry s => .done _ _
  | rotateKey keyId tenantId => exact does_rotateKey
  | deleteKey keyId tenantId => exact does_deleteKey
  | destroyKey keyId =>
    refine .next (does_access fun _ s' _ => ?_)
    exact .done _ _
  | spawnLoadKeys => exact does_spawnLoadKeys

end

/-! ## Tasks side by side -/

structure Task where
  env : Env
  stage : Stage

structure TaskRun where
  store : Store
  tasks : ℕ → Option Task

inductive TaskInput where
  | start (task : ℕ) (env : Env) (call : TaskCall)
  | advance (task : ℕ)

def TaskInput.task : TaskInput → ℕ
  | start n .. | advance n => n

inductive TaskReply where
  /-- There is no such task, or the number is taken. -/
  | idle
  | pending
  | returned (r : Except Abort TaskResult)

namespace TaskRun

/-- A process just started over a database. -/
def start (db : Db) (capacity : Option ℕ) (kek : Bytes) : TaskRun :=
  ⟨⟨db, .new capacity, kek, false⟩, fun _ => none⟩

def step (crypto : Crypto) : Machine TaskRun TaskInput TaskReply
  | s, .start task env call =>
    match s.tasks task with
    | some _ => (.idle, s)
    | none => (.pending, { s with tasks := Function.update s.tasks task (some ⟨env, call.stage⟩) })
  | s, .advance task =>
    match s.tasks task with
    | none => (.idle, s)
    | some t =>
      match Postgres.advance crypto t.env t.stage s.store with
      | (.next stage, store) => (.pending, ⟨store, Function.update s.tasks task (some { t with stage })⟩)
      | (.done r, store) => (.returned r, ⟨store, Function.update s.tasks task none⟩)

end TaskRun

end GmKms.Keystore.Postgres
