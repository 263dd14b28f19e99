import GmKms.Keystore.Crypto
import GmKms.Lib.Base64
import GmKms.Mfa.Totp
/-!
# Encrypting stored secrets

`MfaManager` over the tables that its `migrate` creates: `load_totp_config` reads the secrets of `mfa_configs`, and
`migrate_plaintext_secrets` is to encrypt those that are plaintext. A statement is a function on the tables; one that
the database refuses returns the text of its error.
-/

namespace GmKms.Mfa.SecretMigration

open Lib
open Keystore (Crypto)

/-! ## Tables -/

inductive ColumnType where
  | text | bytea | integer | boolean | timestamptz
  deriving DecidableEq

inductive SqlValue where
  | null
  | text (t : String)
  | bytea (b : Bytes)
  | integer (n : Int32)
  | boolean (b : Bool)
  | timestamptz (t : DateTime)
  deriving DecidableEq

abbrev Row := List SqlValue

structure Table where
  columns : List (String × ColumnType)
  rows : List Row

abbrev Database := HashMap String Table

namespace Table

def column? (table : Table) (name : String) : Option ℕ := table.columns.findIdx? fun c => c.1 = name

def value (table : Table) (name : String) (row : Row) : SqlValue :=
  ((table.column? name).bind fun i => row[i]?).getD .null

/-- `UPDATE ... SET column = $1 WHERE key = $2`. -/
def update (table : Table) (column : String) (v : SqlValue) (key : String) (k : SqlValue) : Table :=
  match table.column? column with
  | none => table
  | some i => { table with rows := table.rows.map fun row => if table.value key row = k then row.set i v else row }

end Table

def mfaConfigs : String := "mfa_configs"

/-- The columns of `CREATE TABLE IF NOT EXISTS mfa_configs`. -/
def mfaConfigsColumns : List (String × ColumnType) :=
  [("user_id", .text), ("totp_secret", .bytea), ("totp_algorithm", .text), ("totp_digits", .integer),
    ("totp_period_secs", .integer), ("totp_window", .integer), ("backup_codes", .text), ("enabled", .boolean),
    ("created_at", .timestamptz), ("updated_at", .timestamptz)]

def mfaLockoutStateColumns : List (String × ColumnType) :=
  [("user_id", .text), ("failed_attempts", .integer), ("locked_until", .timestamptz), ("backup_code_usage", .integer),
    ("last_attempt_at", .timestamptz), ("updated_at", .timestamptz)]

namespace Database

def createTableIfNotExists (db : Database) (name : String) (columns : List (String × ColumnType)) : Database :=
  match db[name]? with
  | some _ => db
  | none => db.insert name ⟨columns, []⟩

/-- `MfaManager::migrate`. -/
def migrate (db : Database) : Database :=
  (createTableIfNotExists db mfaConfigs mfaConfigsColumns).createTableIfNotExists "mfa_lockout_state"
    mfaLockoutStateColumns

/-- The column that a query names. -/
def column (table : Table) (name : String) : Except String ℕ :=
  match table.column? name with
  | none => .error s!"error returned from database: column \"{name}\" does not exist"
  | some i => .ok i

def table (db : Database) (name : String) : Except String Table :=
  match db[name]? with
  | none => .error s!"error returned from database: relation \"{name}\" does not exist"
  | some table => .ok table

/-- A column of a row decoded into a `String`. -/
def decodeText : SqlValue → Except String String
  | .text t => .ok t
  | .null => .error "unexpected null; try decoding as an `Option`"
  | _ => .error "mismatched types; Rust type `alloc::string::String` (as SQL type `TEXT`) is not compatible"

/-- `SELECT key, column FROM name WHERE column IS NOT NULL` into pairs of texts. -/
def selectTexts (db : Database) (name key column : String) : Except String (List (String × String)) := do
  let table ← db.table name
  let i ← Database.column table key
  let j ← Database.column table column
  (table.rows.filter fun row => row.getD j .null ≠ .null).mapM fun row => do
    return (← decodeText (row.getD i .null), ← decodeText (row.getD j .null))

/-- `UPDATE name SET column = $1 WHERE key = $2`. -/
def updateText (db : Database) (name column : String) (v : String) (key k : String) : Except String Database := do
  let table ← db.table name
  let _ ← Database.column table column
  let _ ← Database.column table key
  return db.insert name (table.update column (.text v) key (.text k))

end Database

/-! ## The manager -/

structure Manager where
  pool : Bool
  kek : Option Bytes

/-- What `migrate_plaintext_secrets` returns, if it returns. -/
inductive Failure where
  | error (text : String)
  | panic (message : String)
  deriving DecidableEq

namespace Manager

section

variable (crypto : Crypto) (m : Manager)

/-- `encrypt_secret`; `nonce` is what the random generator fills in. -/
def encryptSecret (nonce : Option Bytes) (secret : Bytes) : Except Failure (Option Bytes) :=
  match m.kek with
  | none => .ok none
  | some kek =>
    match crypto.aesUnboundKey kek with
    | .error _ => .ok none
    | .ok _ =>
      match nonce with
      | none => .error (.panic "failed to generate nonce")
      | some nonce =>
        match crypto.aesSeal kek nonce [] secret with
        | .error _ => .ok none
        | .ok (ciphertext, tag) => .ok (some (nonce ++ ciphertext ++ tag))

/-- `decrypt_secret`, which gives back what it cannot decrypt. -/
def decryptSecret (encrypted : Bytes) : Option Bytes :=
  match m.kek with
  | none => some encrypted
  | some kek =>
    if encrypted.length < 12 + 16 then some encrypted
    else
      match crypto.aesUnboundKey kek with
      | .error _ => none
      | .ok _ => some ((crypto.aesOpen kek (encrypted.take 12) [] (encrypted.drop 12)).getD encrypted)

/-- The row of `mfa_configs` that `load_totp_config` decodes. -/
def configOf (table : Table) (row : Row) : Option TotpConfig :=
  match table.value "totp_secret" row, table.value "totp_algorithm" row, table.value "totp_digits" row,
    table.value "totp_period_secs" row, table.value "totp_window" row with
  | .bytea encryptedSecret, .text algStr, .integer digits, .integer period, .integer window => do
    let secret ← m.decryptSecret crypto encryptedSecret
    let algorithm :=
      match algStr with
      | "Sha256" => .sha256
      | "Sha512" => .sha512
      | _ => .sha1
    return { secret
             timeStep := period.toInt64.toUInt64.toNat
             digits := digits.toUInt32.toNat
             algorithm
             window := window.toUInt32.toNat }
  | _, _, _, _, _ => none

/-- `load_totp_config` with a pool. -/
def loadTotpConfig (db : Database) (userId : String) : Option TotpConfig := do
  let table ← db[mfaConfigs]?
  let row ← table.rows.find? fun row => table.value "user_id" row = .text userId
  m.configOf crypto table row

def totpConfigs : String := "mfa_totp_configs"

/-- A secret that decrypts, or falls back to itself, and is the Base64 of more than 32 bytes. -/
def likelyEncrypted (secret : String) : Bool :=
  (m.decryptSecret crypto secret.toUTF8.toList).isSome && (Base64.decode secret).any fun decoded => 32 < decoded.length

/-- The loop of `migrate_plaintext_secrets`; the `k`-th row is encrypted with the nonce `nonces k`. -/
def migrateRows (nonces : ℕ → Option Bytes) : ℕ → List (String × String) → ℕ → Database →
    Except Failure ℕ × Database
  | _, [], migrated, db => (.ok migrated, db)
  | k, (userId, secret) :: rows, migrated, db =>
    if m.likelyEncrypted crypto secret then migrateRows nonces (k + 1) rows migrated db
    else
      match m.encryptSecret crypto (nonces k) secret.toUTF8.toList with
      | .error failure => (.error failure, db)
      | .ok none => migrateRows nonces (k + 1) rows migrated db
      | .ok (some encrypted) =>
        match db.updateText totpConfigs "totp_secret" (Base64.encode encrypted) "user_id" userId with
        | .error e => (.error (.error s!"Failed to update secret for user {userId}: {e}"), db)
        | .ok db => migrateRows nonces (k + 1) rows (migrated + 1) db

def migratePlaintextSecrets (nonces : ℕ → Option Bytes) (db : Database) : Except Failure ℕ × Database :=
  if !m.pool then (.error (.error "No database pool configured"), db)
  else if m.kek.isNone then (.error (.error "No KEK configured — cannot encrypt"), db)
  else
    match db.selectTexts totpConfigs "user_id" "totp_secret" with
    | .error e => (.error (.error s!"Failed to query TOTP configs: {e}"), db)
    | .ok rows => m.migrateRows crypto nonces 0 rows 0 db

end

/-! ## What the migration is for -/

section

variable (crypto : Crypto)

/-- The rows of the users' configurations. -/
def configRows (db : Database) : List Row := (db[mfaConfigs]?).elim [] (·.rows)

/-- The migration returns the number of rows with plaintext secrets; afterwards every user has the secret he had and
there is no plaintext left, so that there is nothing to do the second time. `plaintext` tells the rows with plaintext
secrets from the others. -/
def Migrates (m : Manager) (plaintext : Row → Bool) (nonces nonces' : ℕ → Option Bytes) (db : Database) : Prop :=
  (m.migratePlaintextSecrets crypto nonces db).1 = .ok ((configRows db).countP plaintext) ∧
    let db' := (m.migratePlaintextSecrets crypto nonces db).2
    (∀ userId, (m.loadTotpConfig crypto db' userId).map (·.secret) = (m.loadTotpConfig crypto db userId).map
      (·.secret)) ∧
      (∀ row ∈ configRows db', plaintext row = false) ∧ (m.migratePlaintextSecrets crypto nonces' db').1 = .ok 0

/-- A database that `migrate` has created, with the rows that its tables have since got. -/
def created (rows : String → List Row) : Database :=
  (Database.migrate ∅).map fun name table => { table with rows := rows name }

/-- Neither statement of `migrate` creates the table that the migration of secrets reads. -/
theorem created_totpConfigs (rows : String → List Row) : (created rows)[totpConfigs]? = none := by
  have hmigrate : (Database.migrate ∅)[totpConfigs]? = none := by decide +kernel
  rw [created, Std.ExtTreeMap.getElem?_map, hmigrate]
  rfl

/-- The migration fails on the first query, whatever is stored, and changes nothing. -/
theorem migratePlaintextSecrets_created (m : Manager) (hpool : m.pool = true) (hkek : m.kek.isSome = true)
    (nonces : ℕ → Option Bytes) (rows : String → List Row) : m.migratePlaintextSecrets crypto nonces (created rows) =
      (.error (.error ("Failed to query TOTP configs: error returned from database: relation \"mfa_totp_configs\" " ++
        "does not exist")), created rows) := by
  have hselect : (created rows).selectTexts totpConfigs "user_id" "totp_secret" =
      .error "error returned from database: relation \"mfa_totp_configs\" does not exist" := by
    rw [Database.selectTexts, Database.table, created_totpConfigs]
    rfl
  obtain ⟨kek, hkek⟩ := Option.isSome_iff_exists.1 hkek
  rw [migratePlaintextSecrets, hpool, hkek, hselect]
  rfl

/-- The migration does what it is for on no database that `migrate` has created. -/
theorem not_migrates (kek : Bytes) (plaintext : Row → Bool) (nonces nonces' : ℕ → Option Bytes)
    (rows : String → List Row) :
    ¬ Migrates crypto ⟨true, some kek⟩ plaintext nonces nonces' (created rows) := by
  rintro ⟨hcount, -⟩
  rw [migratePlaintextSecrets_created crypto _ rfl rfl] at hcount
  cases hcount

end

/-- A user whose secret of ten bytes was stored before there was a key. -/
def plaintextRow : Row :=
  [.text "user-1", .bytea (List.replicate 10 7), .text "Sha1", .integer 6, .integer 30, .integer 1, .text "[]",
    .boolean true, .timestamptz 0, .timestamptz 0]

def plaintextRows (name : String) : List Row := if name = mfaConfigs then [plaintextRow] else []

example : ((⟨true, some (List.replicate 32 1)⟩ : Manager).loadTotpConfig .plain (created plaintextRows) "user-1").map
    (·.secret) = some (List.replicate 10 7) := by decide +kernel

theorem not_migrates_plaintextRow : ¬ ∀ (crypto : Crypto) (kek : Bytes) (plaintext : Row → Bool)
    (nonces nonces' : ℕ → Option Bytes) (rows : String → List Row), crypto.Lawful →
      Migrates crypto ⟨true, some kek⟩ plaintext nonces nonces' (created rows) := by
  intro h
  exact not_migrates .plain _ _ _ _ _
    (h .plain (List.replicate 32 1) (fun row => row = plaintextRow) (fun _ => some (List.replicate 12 0))
      (fun _ => some (List.replicate 12 1)) plaintextRows Crypto.plain_lawful)

end Manager

end GmKms.Mfa.SecretMigration
