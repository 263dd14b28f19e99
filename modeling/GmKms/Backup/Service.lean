import GmKms.Core.Key
import GmKms.Lib.JsonText
/-!
# The backup service

`backup.rs` of `kms-core`: keys are encrypted under a master key, signed and written to a
file each; the master key itself is kept in the same directory under a passphrase. Errors
are their outermost texts. What `gm_crypto` and `serde_json` compute is a parameter; what
the file system answers is part of a call's environment.
-/

namespace GmKms.Backup

open Lib

structure KeyBackup where
  version : UInt32
  keyMeta : KeyMeta
  encryptedMaterial : Bytes
  nonce : Bytes
  materialHash : String
  backedUpAt : DateTime
  description : Option String
  deriving DecidableEq

structure SignedBackup where
  data : String
  signature : String
  deriving DecidableEq

structure EncryptedMasterKey where
  id : Uuid
  encryptedMaterial : Bytes
  nonce : Bytes
  salt : Bytes
  kdfIterations : UInt32
  deriving DecidableEq

/-- `gm_crypto`, and `serde_json` on the three envelopes. -/
structure Primitives where
  sm3 (data : Bytes) : Except String Bytes
  sm3Hex (data : Bytes) : Except String String
  sm3HmacHex (key data : Bytes) : Except String String
  /-- `Sm4Cipher::new`. -/
  sm4Cipher (key : Bytes) : Except String Unit
  /-- Ciphertext and tag, without additional data. -/
  encryptGcm (key nonce plaintext : Bytes) : Except String (Bytes × Bytes)
  decryptGcm (key nonce ciphertext tag : Bytes) : Except String Bytes
  backupText (backup : KeyBackup) : Option String
  parseBackup (text : String) : Option KeyBackup
  signedText (signed : SignedBackup) : Option String
  parseSigned (text : String) : Option SignedBackup
  masterText (encrypted : EncryptedMasterKey) : Option String
  parseMaster (text : String) : Option EncryptedMasterKey

/-- What was encrypted is decrypted, and what was written is read. -/
structure Primitives.Lawful (P : Primitives) : Prop where
  gcm : ∀ {key nonce plaintext ciphertext tag : Bytes}, P.encryptGcm key nonce plaintext = .ok (ciphertext, tag) →
    tag.length = 16 ∧ P.decryptGcm key nonce ciphertext tag = .ok plaintext
  backup : ∀ {backup : KeyBackup} {text : String}, P.backupText backup = some text → P.parseBackup text = some backup
  signed : ∀ {signed : SignedBackup} {text : String}, P.signedText signed = some text → P.parseSigned text = some signed
  master : ∀ {encrypted : EncryptedMasterKey} {text : String}, P.masterText encrypted = some text →
    P.parseMaster text = some encrypted

/-- Signing and writing always succeed. -/
structure Primitives.Total (P : Primitives) : Prop where
  hmac : ∀ key data, ∃ signature, P.sm3HmacHex key data = .ok signature
  backup : ∀ backup, ∃ text, P.backupText backup = some text
  signed : ∀ signed, ∃ text, P.signedText signed = some text

def backupVersion : UInt32 := 2

def masterKeyFile : String := "master_key.enc"

def sm4KeySize : ℕ := 16

def sm4NonceSize : ℕ := 12

def hmacKeySize : ℕ := 32

/-- `str::as_bytes`. -/
def utf8 (s : String) : Bytes := s.toUTF8.toList

/-- `with_context` or `context`. -/
def context {α : Type} (text : String) : Option α → Except String α
  | none => .error text
  | some a => .ok a

def mapErr {α : Type} (what : String) (x : Except String α) : Except String α := x.mapError fun e => s!"{what}: {e}"

/-- The tag is the last 16 bytes. -/
def splitTag (sealed : Bytes) : Bytes × Bytes := sealed.splitAt (sealed.length - 16)

/-! ## Files -/

structure File where
  text : String
  modified : DateTime

/-- The backup directory, if it is there, and its files. -/
structure Disk where
  present : Bool
  files : Std.HashMap String File

/-- `Path::extension`. -/
def extension (name : String) : Option String :=
  let reversed := name.toList.reverse
  match reversed.dropWhile (· ≠ '.') with
  -- no dot, or the only dot comes first
  | [] | [_] => none
  | _ => some (String.ofList (reversed.takeWhile (· ≠ '.')).reverse)

/-- What `std::fs::write` leaves at the path; a failed one may have emptied it or written a part. -/
inductive WriteOutcome where
  | written | untouched | broken (text : String)

namespace Disk

variable (disk : Disk)

/-- `create_dir_all`, where it is made or is there. -/
def createDir : Disk := { disk with present := true }

def put (name text : String) (modified : DateTime) : Disk :=
  { disk with files := disk.files.insert name ⟨text, modified⟩ }

/-- `std::fs::write`. -/
def write (name text : String) (modified : DateTime) : WriteOutcome → Option Unit × Disk
  | .written => (some (), disk.put name text modified)
  | .untouched => (none, disk)
  | .broken part => (none, disk.put name part modified)

end Disk

/-! ## The master key -/

structure MasterKey where
  id : Uuid
  material : Bytes
  deriving DecidableEq

def MasterKey.sm4Key (key : MasterKey) : Bytes := key.material.take sm4KeySize

def MasterKey.hmacKey (key : MasterKey) : Bytes := key.material.drop sm4KeySize

/-- What a start reads from outside. -/
structure StartEnv where
  /-- The bytes of its `n`-th draw. -/
  random (n : ℕ) : ℕ → UInt8
  uuid : Uuid
  /-- `SecureBox::new` of a length. -/
  secureBox (len : ℕ) : Except String Unit
  createDir : Bool
  /-- Whether `write_owner_only` succeeds; it leaves all of the file or nothing. -/
  writeKey : Bool
  modified : DateTime

def StartEnv.fill (env : StartEnv) (n len : ℕ) : Bytes := (List.range len).map (env.random n)

structure BackupConfig where
  backupPath : String
  retentionDays : ℕ
  kdfIterations : UInt32

section

variable (P : Primitives)

/-- The iterations of `derive_key_from_passphrase`. -/
def iterateHash (buf : Bytes) : ℕ → Bytes → Except String Bytes
  | 0, hash => .ok hash
  | n + 1, hash => do
    let hash ← mapErr "SM3 KDF failed" (P.sm3 (hash ++ buf))
    iterateHash buf n hash

/-- The derived key, less the memory it is put in. -/
def deriveKey (passphrase : String) (salt : Bytes) (iterations : UInt32) : Except String Bytes := do
  let buf := salt ++ utf8 passphrase
  let hash ← mapErr "SM3 KDF failed" (P.sm3 buf)
  let hash ← iterateHash P buf (iterations.toNat - 1) hash
  return hash.take sm4KeySize

def deriveKeyFromPassphrase (env : StartEnv) (passphrase : String) (salt : Bytes) (iterations : UInt32) :
    Except String Bytes := do
  env.secureBox sm4KeySize
  deriveKey P passphrase salt iterations

namespace MasterKey

def generate (env : StartEnv) : Except String MasterKey := do
  env.secureBox (sm4KeySize + hmacKeySize)
  return { id := env.uuid, material := env.fill 0 (sm4KeySize + hmacKeySize) }

def exportEncrypted (env : StartEnv) (key : MasterKey) (passphrase : String) (kdfIterations : UInt32) :
    Except String EncryptedMasterKey := do
  env.secureBox 32
  let salt := env.fill 1 32
  let derivedKey ← deriveKeyFromPassphrase P env passphrase salt kdfIterations
  let nonce := env.fill 2 sm4NonceSize
  mapErr "Failed to create SM4 cipher for export" (P.sm4Cipher derivedKey)
  let (ciphertext, tag) ← mapErr "Failed to encrypt master key" (P.encryptGcm derivedKey nonce key.material)
  return { id := key.id, encryptedMaterial := ciphertext ++ tag, nonce, salt, kdfIterations }

/-- `import_encrypted`, less the memory it puts the keys in. -/
def openEncrypted (encrypted : EncryptedMasterKey) (passphrase : String) : Except String MasterKey := do
  let derivedKey ← deriveKey P passphrase encrypted.salt encrypted.kdfIterations
  mapErr "Failed to create SM4 cipher for import" (P.sm4Cipher derivedKey)
  if encrypted.encryptedMaterial.length < 16 then .error "Encrypted master key too short"
  else
    let (ciphertext, tag) := splitTag encrypted.encryptedMaterial
    if encrypted.nonce.length ≠ 12 then .error "Invalid nonce length"
    else
      let plaintext ← mapErr "Failed to decrypt master key" (P.decryptGcm derivedKey encrypted.nonce ciphertext tag)
      return { id := encrypted.id, material := plaintext }

def importEncrypted (env : StartEnv) (encrypted : EncryptedMasterKey) (passphrase : String) : Except String MasterKey :=
  do
  env.secureBox sm4KeySize
  let key ← openEncrypted P encrypted passphrase
  env.secureBox key.material.length
  return key

/-- `save_encrypted`: the file of the key is replaced, or stays as it was. -/
def saveEncrypted (env : StartEnv) (disk : Disk) (key : MasterKey) (passphrase : String) (kdfIterations : UInt32) :
    Except String Unit × Disk :=
  match exportEncrypted P env key passphrase kdfIterations with
  | .error e => (.error e, disk)
  | .ok encrypted =>
    match P.masterText encrypted with
    | none => (.error "Failed to serialize encrypted master key", disk)
    | some json =>
      if !env.createDir then (.error "Failed to create master key directory", disk)
      else if !env.writeKey then (.error "Failed to write encrypted master key", disk.createDir)
      else (.ok (), disk.createDir.put masterKeyFile json env.modified)

/-- `load_encrypted` of a file that is there. -/
def loadEncrypted (env : StartEnv) (file : File) (passphrase : String) : Except String MasterKey := do
  let encrypted ← context "Failed to parse encrypted master key file" (P.parseMaster file.text)
  importEncrypted P env encrypted passphrase

end MasterKey

/-! ## The service -/

structure BackupRecord where
  keyId : Uuid
  backupId : Uuid
  backedUpAt : DateTime
  materialHash : String

structure KeyBackupService where
  config : BackupConfig
  masterKey : MasterKey
  backupRegistry : List BackupRecord

/-- What a backup reads from outside. -/
structure BackupEnv where
  random : ℕ → UInt8
  uuid : Uuid
  now : DateTime
  createDir : Bool
  write : WriteOutcome
  /-- The file system's clock. -/
  modified : DateTime
  /-- `set_permissions`; where the metadata cannot be read it is not called. -/
  setPermissions : Except String Unit

/-- What a cleanup reads from outside. -/
structure CleanupEnv where
  now : DateTime
  /-- What `read_dir` yields, in its order. -/
  entries : Except String (List (Except String String))
  /-- Whether the metadata of a file can be read. -/
  metadata (name : String) : Bool
  /-- `remove_file`. -/
  remove (name : String) : Except String Unit

/-- `{key_id}-{unix_timestamp}.json`. -/
def fileName (keyId : Uuid) (backedUpAt : DateTime) : String :=
  String.ofList (keyId.text.toList ++ '-' :: JsonText.writeInt (backedUpAt / 10 ^ 9) ++ ".json".toList)

namespace KeyBackupService

def new (config : BackupConfig) (masterKey : MasterKey) : KeyBackupService := ⟨config, masterKey, []⟩

variable (svc : KeyBackupService)

def encryptWithMaster (plaintext nonce : Bytes) : Except String Bytes := do
  mapErr "Failed to create SM4 cipher" (P.sm4Cipher svc.masterKey.sm4Key)
  let (ciphertext, tag) ← mapErr "SM4-GCM encryption failed" (P.encryptGcm svc.masterKey.sm4Key nonce plaintext)
  return ciphertext ++ tag

def decryptWithMaster (ciphertext nonce : Bytes) : Except String Bytes :=
  if ciphertext.length < 16 then .error "Ciphertext too short for SM4-GCM (need at least 16 bytes for tag)"
  else do
    let (ct, tag) := splitTag ciphertext
    mapErr "Failed to create SM4 cipher" (P.sm4Cipher svc.masterKey.sm4Key)
    mapErr "SM4-GCM decryption failed" (P.decryptGcm svc.masterKey.sm4Key nonce ct tag)

def computeHmac (data : Bytes) : Except String String :=
  mapErr "SM3-HMAC computation failed" (P.sm3HmacHex svc.masterKey.hmacKey data)

def selfCheck (env : StartEnv) : Except String Unit := do
  let probe := utf8 "kms-backup-masterkey-self-check"
  let nonce := env.fill 3 sm4NonceSize
  let ct ← svc.encryptWithMaster P probe nonce
  let back ← svc.decryptWithMaster P ct nonce
  if back ≠ probe then .error "backup master key self-check failed: SM4-GCM round-trip mismatch"
  else
    let _ ← svc.computeHmac P probe
    return ()

/-- `Path::join`. -/
def joined (path name : String) : String := if path.endsWith "/" then path ++ name else path ++ "/" ++ name

/-- The master key of the directory, or a new one that is saved. -/
def masterKeyFor (env : StartEnv) (disk : Disk) (config : BackupConfig) (passphrase : String) :
    Except String MasterKey × Disk :=
  match disk.files[masterKeyFile]? with
  | some file =>
    let path := joined config.backupPath masterKeyFile
    ((MasterKey.loadEncrypted P env file passphrase).mapError fun _ =>
      s!"failed to load backup master key from {path} (wrong passphrase or corrupted file)", disk)
  | none =>
    match MasterKey.generate env with
    | .error e => (.error e, disk)
    | .ok key =>
      let (saved, disk) := MasterKey.saveEncrypted P env disk key passphrase config.kdfIterations
      (saved.map fun _ => key, disk)

def loadOrCreate (env : StartEnv) (disk : Disk) (config : BackupConfig) (passphrase : String) :
    Except String KeyBackupService × Disk :=
  if passphrase = "" then (.error "backup master key passphrase must not be empty", disk)
  else
    match masterKeyFor P env disk config passphrase with
    | (.error e, disk) => (.error e, disk)
    | (.ok masterKey, disk) =>
      let svc := new config masterKey
      ((svc.selfCheck P env).map fun _ => svc, disk)

/-- The text of the file of a backup. -/
def signedJson (backup : KeyBackup) : Except String String := do
  let data ← context "Failed to serialize backup" (P.backupText backup)
  let signature ← svc.computeHmac P (utf8 data)
  context "Failed to serialize signed backup" (P.signedText { data, signature })

def saveBackup (env : BackupEnv) (disk : Disk) (backup : KeyBackup) : Except String Unit × Disk :=
  if !disk.present && !env.createDir then (.error "Failed to create backup directory", disk)
  else
    match svc.signedJson P backup with
    | .error e => (.error e, disk.createDir)
    | .ok json =>
      match disk.createDir.write (fileName backup.keyMeta.id backup.backedUpAt) json env.modified env.write with
      | (none, disk) => (.error "Failed to write backup file", disk)
      | (some _, disk) => (env.setPermissions, disk)

/-- The backup that `backup_key` makes before it registers it. -/
def makeBackup (env : BackupEnv) (keyMeta : KeyMeta) (keyMaterial : Bytes) (description : Option String) :
    Except String KeyBackup := do
  let nonce := (List.range sm4NonceSize).map env.random
  let materialHash ← mapErr "SM3 hash failed" (P.sm3Hex keyMaterial)
  let encryptedMaterial ← svc.encryptWithMaster P keyMaterial nonce
  return {
    version := backupVersion
    keyMeta, encryptedMaterial, nonce, materialHash
    backedUpAt := env.now
    description }

/-- The backup is registered, and then saved. -/
def backupKey (env : BackupEnv) (disk : Disk) (keyMeta : KeyMeta) (keyMaterial : Bytes) (description : Option String) :
    Except String KeyBackup × KeyBackupService × Disk :=
  match svc.makeBackup P env keyMeta keyMaterial description with
  | .error e => (.error e, svc, disk)
  | .ok backup =>
    let record := ⟨keyMeta.id, env.uuid, backup.backedUpAt, backup.materialHash⟩
    let (saved, disk) := svc.saveBackup P env disk backup
    (saved.map fun _ => backup, { svc with backupRegistry := svc.backupRegistry ++ [record] }, disk)

def restoreKey (backup : KeyBackup) : Except String Bytes := do
  if backup.version ≠ backupVersion then
    let version := backup.version.toNat
    let expected := backupVersion.toNat
    .error s!"Unsupported backup version: {version} (expected {expected})"
  else if backup.nonce.length ≠ 12 then .error "Invalid nonce length in backup"
  else
    let keyMaterial ← svc.decryptWithMaster P backup.encryptedMaterial backup.nonce
    let computedHash ← mapErr "SM3 hash failed" (P.sm3Hex keyMaterial)
    if computedHash ≠ backup.materialHash then
      let id := backup.keyMeta.id.text
      .error s!"Key material SM3 integrity check failed for key {id}"
    else return keyMaterial

/-- `verify_backup_file` of a text that was read. -/
def verifyText (text : String) : Except String KeyBackup := do
  let signed ← context "Failed to parse signed backup file" (P.parseSigned text)
  let computedSig ← svc.computeHmac P (utf8 signed.data)
  if computedSig ≠ signed.signature then .error "Backup file HMAC signature verification failed"
  else
    let backup ← context "Failed to parse backup data" (P.parseBackup signed.data)
    if backup.version ≠ backupVersion then
      let version := backup.version.toNat
      .error s!"Backup version mismatch: {version}"
    else return backup

def verifyBackupFile (disk : Disk) (name : String) : Except String KeyBackup := do
  let file ← context "Failed to read backup file for verification" disk.files[name]?
  svc.verifyText P file.text

def restoreFromFile (disk : Disk) (name : String) : Except String (KeyBackup × Bytes) := do
  let backup ← svc.verifyBackupFile P disk name
  let material ← svc.restoreKey P backup
  return (backup, material)

def listBackups (keyId : Uuid) : List DateTime :=
  (svc.backupRegistry.filter fun r => r.keyId = keyId).map (·.backedUpAt)

/-- The loop of `cleanup_old_backups`: the names it removed, and where it ended. -/
def removeExpired (env : CleanupEnv) (cutoff : DateTime) : List (Except String String) → List String → Disk →
    Except String Unit × List String × Disk
  | [], removed, disk => (.ok (), removed, disk)
  | .error e :: _, removed, disk => (.error e, removed, disk)
  | .ok name :: entries, removed, disk =>
    match disk.files[name]? with
    | none => removeExpired env cutoff entries removed disk
    | some file =>
      if extension name = some "json" ∧ env.metadata name = true ∧ file.modified < cutoff then
        match env.remove name with
        | .error e => (.error e, removed, disk)
        | .ok _ => removeExpired env cutoff entries (removed ++ [name]) { disk with files := disk.files.erase name }
      else removeExpired env cutoff entries removed disk

/-- The retention period before now. -/
def cutoff (now : DateTime) : DateTime := now - svc.config.retentionDays * (24 * 60 * 60 * 10 ^ 9)

def cleanupOldBackups (env : CleanupEnv) (disk : Disk) : Except String ℕ × List String × Disk :=
  let (r, removed, disk) :=
    if disk.present then
      match env.entries with
      | .error e => (.error e, [], disk)
      | .ok entries => removeExpired env (svc.cutoff env.now) entries [] disk
    else (.ok (), [], disk)
  (r.map fun _ => removed.length, removed, disk)

end KeyBackupService

end

end GmKms.Backup
