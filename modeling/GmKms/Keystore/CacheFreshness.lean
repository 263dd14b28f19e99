import GmKms.Keystore.CacheTasks
/-!
# How current the cache is

A load reads a row and fills the cache later; a rotation and a deletion write the row first and
refresh the cache later. Once all tasks have ended the cache says what the rows say, as long as what
is filled in is current, or some task is still to refresh it.
-/

namespace GmKms.Keystore.Postgres

open Lib Lib.Effect

/-- The status a row stands for: a soft-deleted one for that which `delete_key` gives the cached entry. -/
def currentStatus (row : KeyRow) : KeyStatus :=
  if row.deletedAt.isSome then .pendingDeletion else (statusOfText row.status).getD .active

/-- The key's row has the material. -/
def Holds (crypto : Crypto) (s : Store) (id : Uuid) (material : Bytes) : Prop :=
  ∃ row encrypted, s.db.keys[id]? = some row ∧ row.encryptedMaterial = some encrypted ∧
    decryptMaterial crypto s.kek id encrypted = .ok material

namespace Stage

/-- The task is past its write of the key's row and is still to give the cached entry the status. -/
def Refreshes (id : Uuid) (status : KeyStatus) : Stage → Prop
  | insertVersion r | updateVersionRotatedAt r | markObsolete r => id = r.keyId ∧ status = .obsolete
  | markPendingDeletion keyId => id = keyId ∧ status = .pendingDeletion
  | _ => False

end Stage

namespace TaskRun

/-- `destroy_key` has returned `Ok`. -/
def Destroyed (id : Uuid) (h : History TaskInput TaskReply) : Prop := ∃ e ∈ h, e.2 = .returned (.ok (.destroyed id))

/-- Every resident entry has the status and the material of its row, and no destroyed key is resident. -/
structure Settled (crypto : Crypto) (h : History TaskInput TaskReply) (s : TaskRun) : Prop where
  status : ∀ (id : Uuid) (entry : KeyEntry), s.store.keys.map[id]? = some entry →
    ∃ row, s.store.db.keys[id]? = some row ∧ entry.keyMeta.status = currentStatus row
  material : ∀ (id : Uuid) (entry : KeyEntry), s.store.keys.map[id]? = some entry →
    Holds crypto s.store id entry.material
  destroyed : ∀ id : Uuid, Destroyed id h → s.store.keys.map[id]? = none

def SettledAtEnd (crypto : Crypto) (h : History TaskInput TaskReply) (s : TaskRun) : Prop :=
  (∀ n, s.tasks n = none) → Settled crypto h s

/-- Another task is to give the cached entry the status. -/
def Refreshing (s : TaskRun) (n : ℕ) (id : Uuid) (status : KeyStatus) : Prop :=
  ∃ other t, other ≠ n ∧ s.tasks other = some t ∧ t.stage.Refreshes id status

/-- The cached entry says what its row says, or another task will see to it. -/
def CurrentWithout (s : TaskRun) (n : ℕ) (id : Uuid) (entry : KeyEntry) : Prop :=
  ∀ row, s.store.db.keys[id]? = some row →
    entry.keyMeta.status = currentStatus row ∨ s.Refreshing n id (currentStatus row)

/-- An entry that stays in the cache is current, and not that of a destroyed key. -/
def FillsCurrent (h : History TaskInput TaskReply) (s : TaskRun) (n : ℕ) (id : Uuid) (entry : KeyEntry) : Prop :=
  (s.store.keys.insertWithEviction id entry).map[id]? = some entry → ¬ Destroyed id h ∧ s.CurrentWithout n id entry

def VersionInsertable (crypto : Crypto) (env : Env) (s : Store) (r : Rotation) : Prop :=
  env.fault (.insertVersion r.old.keyMeta.id) = none ∧ ∃ encryptedDek db,
    encryptMaterial crypto env 2 s.kek r.old.keyMeta.id r.old.material = .ok encryptedDek ∧
    s.db.insertVersion (env.uuid 1) (env.now 1) r.old.keyMeta.id r.old.keyMeta.version (some encryptedDek) "Rotated" =
    .ok db

/-- A fill is current; a rotation that has set the row's status fails only where the cached entry does not need
it; and it makes no entry obsolete whose row is soft-deleted. -/
def KeepsUp (crypto : Crypto) (h : History TaskInput TaskReply) (s : TaskRun) : TaskInput → Prop
  | .start .. => True
  | .advance n => ∀ t, s.tasks n = some t →
    match t.stage with
    | .writeBack _ keyId entry => s.FillsCurrent h n keyId entry
    | .preloadInsert entry _ _ => s.FillsCurrent h n entry.keyMeta.id entry
    | .insertNew r => s.FillsCurrent h n (t.env.uuid 0) (r.newEntry t.env)
    | .insertVersion r => VersionInsertable crypto t.env s.store r ∨
        ∀ entry : KeyEntry, s.store.keys.map[r.keyId]? = some entry → s.CurrentWithout n r.keyId entry
    | .updateVersionRotatedAt r => t.env.fault (.updateVersionRotatedAt r.old.keyMeta.id) = none ∨
        ∀ entry : KeyEntry, s.store.keys.map[r.keyId]? = some entry → s.CurrentWithout n r.keyId entry
    | .markObsolete r => ∀ (entry : KeyEntry) (row : KeyRow), s.store.keys.map[r.keyId]? = some entry →
        s.store.db.keys[r.keyId]? = some row → row.deletedAt.isSome → s.Refreshing n r.keyId .pendingDeletion
    | _ => True

end TaskRun

/-! ## What the statements leave -/

/-- A row gains what it lacks and loses nothing. -/
structure Ages (row row' : KeyRow) : Prop where
  deleted : row.deletedAt.isSome → row'.deletedAt.isSome
  obsolete : row.status = KeyStatus.debug .obsolete → row'.status = KeyStatus.debug .obsolete
  material : ∀ encrypted, row.encryptedMaterial = some encrypted → row'.encryptedMaterial = some encrypted

/-- Every row ages, and one that has no material yet stays as it is until it is written. -/
def Grows (written : Option Uuid) (db db' : Db) : Prop :=
  ∀ (id : Uuid) (row : KeyRow), db.keys[id]? = some row → ∃ row', db'.keys[id]? = some row' ∧ Ages row row' ∧
    (row.encryptedMaterial = none → written ≠ some id → row' = row)

theorem Ages.refl (row : KeyRow) : Ages row row := ⟨id, id, fun _ => id⟩

theorem grows_of_keys {db db' : Db} (written : Option Uuid)
    (hkeys : ∀ (id : Uuid) (row : KeyRow), db.keys[id]? = some row → db'.keys[id]? = some row) : Grows written db db' :=
  fun id row hrow => ⟨row, hkeys id row hrow, .refl row, fun _ _ => rfl⟩

theorem grows_updateLive {db : Db} {id : Uuid} (written : Option Uuid) {f : KeyRow → KeyRow}
    (hf : ∀ row, Ages row (f row))
    (hmaterial : ∀ row, db.keys[id]? = some row → row.encryptedMaterial ≠ none) :
    Grows written db (db.updateLive id f) := by
  intro k row hrow
  refine ⟨_, Db.keys_updateLive_of_some hrow, ?_, fun hnone _ => if_neg ?_⟩
  · split
    · exact hf row
    · exact .refl row
  · rintro ⟨rfl, -⟩
    exact hmaterial row hrow hnone

theorem grows_insert {db db' : Db} {m : KeyMeta} (written : Option Uuid) (hinsert : db.insert m = .ok db') :
    Grows written db db' := by
  obtain ⟨hnone, -, hkeys⟩ := keys_of_insert hinsert
  refine grows_of_keys written fun id row hrow => ?_
  rw [hkeys, if_neg, hrow]
  rintro rfl
  rw [hnone] at hrow
  cases hrow

/-- A row that has no material gets it. -/
theorem grows_updateEncryptedMaterial {db : Db} {id : Uuid} (encrypted : Bytes)
    (hnone : ∀ row, db.keys[id]? = some row → row.encryptedMaterial = none) :
    Grows (some id) db (db.updateEncryptedMaterial id encrypted) := by
  intro k row hrow
  refine ⟨_, Db.keys_updateLive_of_some hrow, ?_, fun _ hne => if_neg fun hid => hne (congrArg some hid.1)⟩
  split
  · rename_i hid
    rw [← hid.1] at hrow
    refine ⟨fun h => h, fun h => h, fun encrypted' h => ?_⟩
    rw [hnone row hrow] at h
    cases h
  · exact .refl row

end GmKms.Keystore.Postgres
