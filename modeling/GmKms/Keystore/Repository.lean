import GmKms.Core.Key
import GmKms.Lib.Json
import Mathlib
/-!
# The key repository

`PostgresKeyRepository` and the two tables behind it. A statement is a function
on the tables; one that the database refuses returns the text of its error.
Columns hold what the source binds to them: specifications and statuses as
their `Debug` text, versions as `i32`, times in whole microseconds, and no text
with a NUL character.
-/

namespace GmKms.Keystore

open Lib

/-- A row of `keys`, less its id. -/
structure KeyRow where
  tenantId : String
  name : String
  spec : String
  status : String
  version : Int32
  createdAt : DateTime
  rotatedAt : Option DateTime
  description : Option String
  metadata : Option (Json Empty)
  encryptedMaterial : Option Bytes
  deletedAt : Option DateTime
  deletedBy : Option String

/-- A row of `key_versions`. -/
structure KeyVersionEntity where
  id : Uuid
  keyId : Uuid
  version : Int32
  encryptedDek : Option Bytes
  status : String
  createdAt : DateTime
  rotatedAt : Option DateTime

structure Db where
  keys : HashMap Uuid KeyRow
  keyVersions : List KeyVersionEntity

namespace Db

/-- The tables after `migrate` on an empty database. -/
def empty : Db := ⟨∅, []⟩

end Db

/-! ## Column encodings -/

/-- 2000-01-01, from which `TIMESTAMPTZ` counts microseconds. -/
def pgEpoch : DateTime := 946684800 * 1000000000

/-- A time after a round trip through a `TIMESTAMPTZ` column. -/
def pgTimestamp (t : DateTime) : DateTime := pgEpoch + (t - pgEpoch).tdiv 1000 * 1000

/-- Text that a `TEXT` or `JSONB` column refuses. -/
def hasNul (s : String) : Bool := s.toList.any (·.toNat = 0)

namespace KeyMetadata

/-- `serde_json::to_value`. -/
def toValue (m : KeyMetadata) : Json Empty :=
  .obj [
    ("allowed_operations", .arr (m.allowedOperations.map .str)),
    ("current_usage_count", .int m.currentUsageCount),
    ("labels", .obj ((m.labels.mergeSort (fun a b => a.1 ≤ b.1)).map fun l => (l.1, .str l.2))),
    ("max_usage_count", m.maxUsageCount.elim .null fun n => .int n),
    ("tags", .arr (m.tags.map .str))]

def stringsOf {F : Type} : Json F → Option (List String)
  | .arr items => items.mapM Json.asString?
  | _ => none

def labelsOf {F : Type} : Json F → Option (List (String × String))
  | .obj fields => fields.mapM fun l => l.2.asString?.map (l.1, ·)
  | _ => none

def maxUsageCountOf {F : Type} : Json F → Option (Option ℕ)
  | .null => some none
  | v => v.asU64?.map some

/-- `serde_json::from_value` on the objects that `to_value` makes; every field
has a default. -/
def fromValue {F : Type} : Json F → Option KeyMetadata
  | .obj fields => do
    let tags ← (Json.field? fields "tags").elim (some []) stringsOf
    let labels ← (Json.field? fields "labels").elim (some []) labelsOf
    let maxUsageCount ← (Json.field? fields "max_usage_count").elim (some none) maxUsageCountOf
    let currentUsageCount ← (Json.field? fields "current_usage_count").elim (some 0) Json.asU64?
    let allowedOperations ← (Json.field? fields "allowed_operations").elim (some []) stringsOf
    return { tags, labels, maxUsageCount, currentUsageCount, allowedOperations }
  | _ => none

theorem fromValue_toValue_default : fromValue (toValue .default) = some .default := by decide +kernel

/-- The texts that `to_value` puts into the column. -/
def texts (m : KeyMetadata) : List String :=
  m.tags ++ m.labels.map (·.1) ++ m.labels.map (·.2) ++ m.allowedOperations

end KeyMetadata

/-- The specification that the text of a `spec` column stands for, for the seven
names the repository knows. -/
def specOfText : String → Option KeySpec
  | "Aes256Gcm" => some .aes256Gcm
  | "Ed25519" => some .ed25519
  | "EcdsaP256" => some .ecdsaP256
  | "Sm4" => some .sm4
  | "Sm2" => some .sm2
  | "HmacSha256" => some .hmacSha256
  | "Rsa4096" => some .rsa4096
  | _ => none

def statusOfText : String → Option KeyStatus
  | "Active" => some .active
  | "PendingDeletion" => some .pendingDeletion
  | "Obsolete" => some .obsolete
  | "Destroyed" => some .destroyed
  | _ => none

theorem statusOfText_debug (status : KeyStatus) : statusOfText status.debug = some status := by
  cases status <;> rfl

/-- `impl From<KeyEntity> for KeyMeta`. -/
def KeyRow.toMeta (id : Uuid) (e : KeyRow) : KeyMeta :=
  { id
    tenantId := e.tenantId
    name := e.name
    spec := (specOfText e.spec).getD .aes256Gcm
    status := (statusOfText e.status).getD .active
    version := e.version.toUInt32
    createdAt := e.createdAt
    rotatedAt := e.rotatedAt
    description := e.description
    metadata := (e.metadata.bind KeyMetadata.fromValue).getD .default }

/-- The row that `insert` writes. -/
def KeyRow.ofMeta (m : KeyMeta) : KeyRow :=
  { tenantId := m.tenantId
    name := m.name
    spec := m.spec.debug
    status := m.status.debug
    version := m.version.toInt32
    createdAt := pgTimestamp m.createdAt
    rotatedAt := m.rotatedAt.map pgTimestamp
    description := m.description
    metadata := some (KeyMetadata.toValue m.metadata)
    encryptedMaterial := none
    deletedAt := none
    deletedBy := none }

namespace Db

/-! ## Statements -/

/-- The rows `WHERE id = $1 AND deleted_at IS NULL`. -/
def live (db : Db) (id : Uuid) : Option KeyRow :=
  (db.keys[id]?).filter (·.deletedAt.isNone)

/-- `UPDATE keys SET .. WHERE id = $1 AND deleted_at IS NULL`. -/
def updateLive (db : Db) (id : Uuid) (f : KeyRow → KeyRow) : Db :=
  match db.live id with
  | some row => { db with keys := db.keys.insert id (f row) }
  | none => db

def insert (db : Db) (m : KeyMeta) : Except String Db :=
  if ([m.tenantId, m.name] ++ m.description.toList ++ KeyMetadata.texts m.metadata).any hasNul then
    .error "error returned from database: invalid byte sequence for encoding \"UTF8\": 0x00"
  else if m.id ∈ db.keys then
    .error "error returned from database: duplicate key value violates unique constraint \"keys_pkey\""
  else .ok { db with keys := db.keys.insert m.id (.ofMeta m) }

def findById (db : Db) (id : Uuid) : Option KeyMeta := (db.live id).map (·.toMeta id)

def findEncryptedMaterial (db : Db) (id : Uuid) : Option Bytes := (db.live id).bind (·.encryptedMaterial)

def updateEncryptedMaterial (db : Db) (id : Uuid) (encryptedMaterial : Bytes) : Db :=
  db.updateLive id fun row => { row with encryptedMaterial := some encryptedMaterial }

def updateStatus (db : Db) (id : Uuid) (status : KeyStatus) : Db :=
  db.updateLive id fun row => { row with status := status.debug }

def softDelete (db : Db) (id : Uuid) (now : DateTime) (deletedBy : String) : Db :=
  db.updateLive id fun row => { row with deletedAt := some (pgTimestamp now), deletedBy := some deletedBy }

/-- A `usize` cast to `i64`. -/
def asI64 (n : ℕ) : ℤ := (n : ℤ).bmod (2 ^ 64)

theorem asI64_eq_self {n : ℕ} (h : n < 2 ^ 63) : asI64 n = n := by
  unfold asI64
  rw [Int.bmod_eq_of_le] <;> omega

/-- `LIMIT` and `OFFSET`, which the database wants non-negative. -/
def page {α : Type} (limit offset : ℤ) (rows : List α) : Except String (List α) :=
  if limit < 0 then .error "error returned from database: LIMIT must not be negative"
  else if offset < 0 then .error "error returned from database: OFFSET must not be negative"
  else .ok ((rows.drop offset.toNat).take limit.toNat)

/-- `ORDER BY created_at DESC`; `rank` decides between rows of the same time. -/
def newestFirst (rank : Uuid → ℕ) (rows : List (Uuid × KeyRow)) : List (Uuid × KeyRow) :=
  rows.mergeSort fun a b =>
    b.2.createdAt < a.2.createdAt || (a.2.createdAt = b.2.createdAt && rank a.1 ≤ rank b.1)

def list (db : Db) (rank : Uuid → ℕ) (tenantId : String) (limit offset : Option ℤ) : Except String (List KeyMeta) := do
  let rows := newestFirst rank (db.keys.toList.filter fun r => r.2.tenantId = tenantId && r.2.deletedAt.isNone)
  let rows ← page (limit.getD 100) (offset.getD 0) rows
  return rows.map fun r => r.2.toMeta r.1

def listAllTenants (db : Db) (rank : Uuid → ℕ) (limit offset : Option ℤ) : Except String (List KeyMeta) := do
  let rows := newestFirst rank (db.keys.toList.filter fun r => r.2.deletedAt.isNone)
  let rows ← page (limit.getD 100) (offset.getD 0) rows
  return rows.map fun r => r.2.toMeta r.1

def insertVersion (db : Db) (id : Uuid) (now : DateTime) (keyId : Uuid) (version : UInt32)
    (encryptedDek : Option Bytes) (status : String) : Except String Db :=
  if db.keyVersions.any (·.id = id) then
    .error "error returned from database: duplicate key value violates unique constraint \"key_versions_pkey\""
  else if db.keyVersions.any (fun v => v.keyId = keyId && v.version = version.toInt32) then
    .error ("error returned from database: duplicate key value violates unique constraint " ++
      "\"key_versions_key_id_version_key\"")
  else if keyId ∉ db.keys then
    .error ("error returned from database: insert or update on table \"key_versions\" violates foreign key " ++
      "constraint \"key_versions_key_id_fkey\"")
  else
    let row : KeyVersionEntity :=
      { id, keyId
        version := version.toInt32
        encryptedDek, status
        createdAt := pgTimestamp now
        rotatedAt := some (pgTimestamp now) }
    .ok { db with keyVersions := db.keyVersions ++ [row] }

def getVersion (db : Db) (keyId : Uuid) (version : UInt32) : Option KeyVersionEntity :=
  db.keyVersions.find? fun v => v.keyId = keyId && v.version = version.toInt32

def updateVersionRotatedAt (db : Db) (now : DateTime) (keyId : Uuid) (version : UInt32) : Db :=
  { db with keyVersions := db.keyVersions.map fun v =>
      if v.keyId = keyId && v.version = version.toInt32 then
        { v with rotatedAt := some (pgTimestamp now), status := "Rotated" }
      else v }

/-! ## Lookups after each statement -/

theorem mem_of_page {α : Type} {limit offset : ℤ} {rows rows' : List α} (h : page limit offset rows = .ok rows')
    {a : α} (ha : a ∈ rows') : a ∈ rows := by
  unfold page at h
  split at h
  · cases h
  · split at h
    · cases h
    · cases h
      exact List.mem_of_mem_drop (List.mem_of_mem_take ha)

theorem live_eq_some_iff {db : Db} {id : Uuid} {row : KeyRow} :
    db.live id = some row ↔ db.keys[id]? = some row ∧ row.deletedAt = none := by
  simp [live, Option.filter_eq_some_iff]

/-- An update leaves soft-deleted rows alone. -/
theorem keys_updateLive (db : Db) (id id' : Uuid) (f : KeyRow → KeyRow) :
    (db.updateLive id f).keys[id']? =
      db.keys[id']?.map fun row => if id = id' ∧ row.deletedAt = none then f row else row := by
  unfold updateLive
  cases hlive : db.live id with
  | some row =>
    obtain ⟨hrow, hdeleted⟩ := live_eq_some_iff.1 hlive
    dsimp only
    rw [HashMap.getElem?_insert]
    split
    · rename_i hid
      rw [hid, hrow, Option.map_some, if_pos ⟨rfl, hdeleted⟩]
    · rename_i hid
      simp [Ne.symm hid]
  | none =>
    cases hrow : db.keys[id']? with
    | none => rfl
    | some row =>
      have hnot : ¬(id = id' ∧ row.deletedAt = none) := by
        rintro ⟨rfl, hdeleted⟩
        rw [live_eq_some_iff.2 ⟨hrow, hdeleted⟩] at hlive
        cases hlive
      rw [Option.map_some, if_neg hnot]

theorem keys_updateLive_of_some {db : Db} {id id' : Uuid} {f : KeyRow → KeyRow} {row : KeyRow}
    (hrow : db.keys[id']? = some row) :
    (db.updateLive id f).keys[id']? = some (if id = id' ∧ row.deletedAt = none then f row else row) := by
  rw [keys_updateLive, hrow, Option.map_some]

@[simp] theorem keyVersions_updateLive (db : Db) (id : Uuid) (f : KeyRow → KeyRow) :
    (db.updateLive id f).keyVersions = db.keyVersions := by
  unfold updateLive
  split <;> rfl

theorem live_insert {db db' : Db} {m : KeyMeta} (h : db.insert m = .ok db') (id : Uuid) :
    db'.live id = if m.id = id then some (.ofMeta m) else db.live id := by
  unfold insert at h
  split_ifs at h
  cases h
  by_cases hid : m.id = id
  · simp [live, hid, KeyRow.ofMeta]
  · simp [live, Std.ExtTreeMap.getElem?_insert, hid]

theorem live_updateLive (db : Db) (id id' : Uuid) (f : KeyRow → KeyRow) :
    (db.updateLive id f).live id' = if id = id' then
      ((db.live id).map f).filter (·.deletedAt.isNone) else db.live id' := by
  unfold live
  rw [keys_updateLive]
  by_cases hid : id = id'
  · subst id'
    rw [if_pos rfl]
    cases db.keys[id]? with
    | none => rfl
    | some row => cases hdeleted : row.deletedAt <;> simp [Option.filter_some, hdeleted]
  · simp [hid]

end Db

end GmKms.Keystore
