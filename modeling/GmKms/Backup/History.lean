import GmKms.Backup.PlainPrimitives
import GmKms.Lib.ExceptRel
import GmKms.Lib.Machine
/-!
# What backups leave

Runs of one backup directory: starts of the service with one passphrase, backups, and
cleanups. A backup that returned `Ok` is kept until a cleanup removes its file. Its name
has the second it was taken in, so that a key has one file a second; and the registry
that is listed knows the backups of its own process, saved or not.
-/

namespace GmKms.Backup

open Lib KeyBackupService

/-! ## What the functions do -/

section

variable {P : Primitives}

theorem mapErr_eq_ok {α : Type} {what : String} {x : Except String α} {a : α} (h : mapErr what x = .ok a) :
    x = .ok a := by
  cases x with
  | error e => cases h
  | ok b => exact h

theorem context_eq_ok {α : Type} {text : String} {x : Option α} {a : α} (h : context text x = .ok a) : x = some a := by
  cases x with
  | none => cases h
  | some b => exact congrArg some (Except.ok.inj h)

/-- Taking the tag off and putting it back. -/
theorem splitTag_append {ciphertext tag : Bytes} (h : tag.length = 16) :
    splitTag (ciphertext ++ tag) = (ciphertext, tag) := by
  rw [splitTag, List.length_append, h, Nat.add_sub_cancel, List.splitAt_eq, List.take_left, List.drop_left]

theorem not_short {ciphertext tag : Bytes} (h : tag.length = 16) : ¬ (ciphertext ++ tag).length < 16 := by
  rw [List.length_append]
  omega

variable {svc : KeyBackupService}

/-- Under one master key, what was encrypted is decrypted. -/
theorem decryptWithMaster_of_encrypt (hP : P.Lawful) {plaintext nonce ciphertext : Bytes}
    (h : svc.encryptWithMaster P plaintext nonce = .ok ciphertext) :
    svc.decryptWithMaster P ciphertext nonce = .ok plaintext := by
  obtain ⟨u, hcipher, h⟩ := bind_eq_ok h
  obtain ⟨⟨ct, tag⟩, hsealed, h⟩ := bind_eq_ok h
  cases h
  obtain ⟨htag, hopened⟩ := hP.gcm (mapErr_eq_ok hsealed)
  unfold decryptWithMaster
  rw [if_neg (not_short htag), splitTag_append htag, hcipher]
  change mapErr "SM4-GCM decryption failed" (P.decryptGcm svc.masterKey.sm4Key nonce ct tag) = _
  rw [hopened]
  rfl

/-- A backup that was made can be restored. -/
theorem restoreKey_of_makeBackup (hP : P.Lawful) {env : BackupEnv} {keyMeta : KeyMeta} {keyMaterial : Bytes}
    {description : Option String} {backup : KeyBackup}
    (h : svc.makeBackup P env keyMeta keyMaterial description = .ok backup) :
    backup.keyMeta = keyMeta ∧ backup.backedUpAt = env.now ∧ backup.version = backupVersion ∧
      svc.restoreKey P backup = .ok keyMaterial := by
  obtain ⟨hash, hhash, h⟩ := bind_eq_ok h
  obtain ⟨encrypted, hencrypted, h⟩ := bind_eq_ok h
  cases h
  refine ⟨rfl, rfl, rfl, ?_⟩
  unfold restoreKey
  have hnonce : ¬ ((List.range sm4NonceSize).map env.random).length ≠ 12 := by simp [sm4NonceSize]
  rw [if_neg (not_not.2 rfl), if_neg hnonce, decryptWithMaster_of_encrypt hP hencrypted]
  change (mapErr "SM3 hash failed" (P.sm3Hex keyMaterial) >>= _) = _
  rw [hhash]
  exact if_neg (not_not.2 rfl)

theorem verifyText_of_signedJson (hP : P.Lawful) {backup : KeyBackup} {json : String}
    (h : svc.signedJson P backup = .ok json) (hversion : backup.version = backupVersion) :
    svc.verifyText P json = .ok backup := by
  obtain ⟨data, hdata, h⟩ := bind_eq_ok h
  obtain ⟨signature, hsignature, h⟩ := bind_eq_ok h
  unfold verifyText
  rw [hP.signed (context_eq_ok h)]
  change (svc.computeHmac P (utf8 data) >>= _) = _
  rw [hsignature]
  change (if signature ≠ signature then _ else _) = _
  rw [if_neg (not_not.2 rfl), hP.backup (context_eq_ok hdata)]
  exact if_neg (not_not.2 hversion)

/-- Restoring looks at the master key of the service only. -/
theorem restoreFromFile_congr {svc' : KeyBackupService} (h : svc'.masterKey = svc.masterKey) (disk : Disk)
    (name : String) :
    svc'.restoreFromFile P disk name = svc.restoreFromFile P disk name := by
  obtain ⟨config, masterKey, registry⟩ := svc
  obtain ⟨config', masterKey', registry'⟩ := svc'
  cases h
  rfl

theorem restoreFromFile_of_file {disk disk' : Disk} {name : String} (h : disk'.files[name]? = disk.files[name]?) :
    svc.restoreFromFile P disk' name = svc.restoreFromFile P disk name := by
  unfold restoreFromFile verifyBackupFile
  rw [h]

/-! ### Backups -/

/-- A save that succeeds leaves a file that verifies, and any save leaves the other files. -/
theorem saveBackup_spec (hP : P.Lawful) (env : BackupEnv) (disk : Disk) {backup : KeyBackup}
    (hversion : backup.version = backupVersion) :
    (∀ name, name ≠ fileName backup.keyMeta.id backup.backedUpAt →
      (svc.saveBackup P env disk backup).2.files[name]? = disk.files[name]?) ∧
    ((svc.saveBackup P env disk backup).1 = .ok () →
      svc.verifyBackupFile P (svc.saveBackup P env disk backup).2 (fileName backup.keyMeta.id backup.backedUpAt) =
        .ok backup) := by
  unfold saveBackup
  split
  · exact ⟨fun _ _ => rfl, nofun⟩
  · cases hjson : svc.signedJson P backup with
    | error e => exact ⟨fun _ _ => rfl, nofun⟩
    | ok json =>
      have hother : ∀ (name text : String), name ≠ fileName backup.keyMeta.id backup.backedUpAt →
          (disk.createDir.put (fileName backup.keyMeta.id backup.backedUpAt) text env.modified).files[name]? =
            disk.files[name]? := by
        intro name text hname
        change (disk.files.insert _ _)[name]? = _
        rw [Std.HashMap.getElem?_insert, if_neg (by simpa using Ne.symm hname)]
      cases env.write with
      | untouched => exact ⟨fun _ _ => rfl, nofun⟩
      | broken part => exact ⟨fun name hname => hother name part hname, nofun⟩
      | written =>
        refine ⟨fun name hname => hother name json hname, fun _ => ?_⟩
        unfold verifyBackupFile
        change (context _ (disk.files.insert _ (⟨json, env.modified⟩ : File))[_]? >>= _) = _
        rw [Std.HashMap.getElem?_insert, if_pos (beq_self_eq_true _)]
        exact verifyText_of_signedJson hP hjson hversion

theorem backupKey_of_error {env : BackupEnv} {disk : Disk} {keyMeta : KeyMeta} {keyMaterial : Bytes}
    {description : Option String} {e : String} (h : svc.makeBackup P env keyMeta keyMaterial description = .error e) :
    svc.backupKey P env disk keyMeta keyMaterial description = (.error e, svc, disk) := by
  unfold backupKey
  rw [h]

theorem backupKey_of_made {env : BackupEnv} {disk : Disk} {keyMeta : KeyMeta} {keyMaterial : Bytes}
    {description : Option String} {backup : KeyBackup}
    (h : svc.makeBackup P env keyMeta keyMaterial description = .ok backup) :
    svc.backupKey P env disk keyMeta keyMaterial description =
      ((svc.saveBackup P env disk backup).1.map fun _ => backup,
        { svc with backupRegistry := svc.backupRegistry ++
            [⟨keyMeta.id, env.uuid, backup.backedUpAt, backup.materialHash⟩] },
        (svc.saveBackup P env disk backup).2) := by
  unfold backupKey
  rw [h]

/-- A backup touches its own file only, and one that succeeds can be restored from it. -/
theorem backupKey_spec (hP : P.Lawful) (env : BackupEnv) (disk : Disk) (keyMeta : KeyMeta) (keyMaterial : Bytes)
    (description : Option String) :
    (svc.backupKey P env disk keyMeta keyMaterial description).2.1.masterKey = svc.masterKey ∧
    (∀ name, name ≠ fileName keyMeta.id env.now →
      (svc.backupKey P env disk keyMeta keyMaterial description).2.2.files[name]? = disk.files[name]?) ∧
    ∀ backup, (svc.backupKey P env disk keyMeta keyMaterial description).1 = .ok backup →
      backup.keyMeta = keyMeta ∧ backup.backedUpAt = env.now ∧
        svc.restoreFromFile P (svc.backupKey P env disk keyMeta keyMaterial description).2.2
          (fileName keyMeta.id env.now) = .ok (backup, keyMaterial) := by
  cases hmade : svc.makeBackup P env keyMeta keyMaterial description with
  | error e =>
    rw [backupKey_of_error hmade]
    refine ⟨rfl, fun _ _ => rfl, fun backup h => ?_⟩
    cases h
  | ok backup =>
    obtain ⟨hmeta, hnow, hversion, hrestored⟩ := restoreKey_of_makeBackup hP hmade
    obtain ⟨hother, hverified⟩ := @saveBackup_spec P svc hP env disk backup hversion
    rw [hnow, hmeta] at hother hverified
    rw [backupKey_of_made hmade]
    refine ⟨rfl, hother, fun backup' hbackup' => ?_⟩
    dsimp only at hbackup' ⊢
    cases hsaved : (svc.saveBackup P env disk backup).1 with
    | error e =>
      rw [hsaved] at hbackup'
      cases hbackup'
    | ok u =>
      rw [hsaved] at hbackup'
      cases hbackup'
      refine ⟨hmeta, hnow, ?_⟩
      unfold restoreFromFile
      rw [hverified hsaved]
      change (svc.restoreKey P backup >>= _) = _
      rw [hrestored]
      rfl

/-! ### Cleanups -/

/-- A cleanup removes files of backups and leaves the others. -/
theorem removeExpired_spec (env : CleanupEnv) (cutoff : DateTime) (entries : List (Except String String))
    (removed : List String) (disk : Disk) :
    (∀ name ∈ removed, name ∈ (removeExpired env cutoff entries removed disk).2.1) ∧
    (∀ name ∈ (removeExpired env cutoff entries removed disk).2.1, name ∈ removed ∨ extension name = some "json") ∧
    ∀ name, name ∉ (removeExpired env cutoff entries removed disk).2.1 →
      (removeExpired env cutoff entries removed disk).2.2.files[name]? = disk.files[name]? := by
  induction entries generalizing removed disk with
  | nil => exact ⟨fun _ h => h, fun _ h => .inl h, fun _ _ => rfl⟩
  | cons entry entries ih =>
    cases entry with
    | error e => exact ⟨fun _ h => h, fun _ h => .inl h, fun _ _ => rfl⟩
    | ok name =>
      unfold removeExpired
      cases hfile : disk.files[name]? with
      | none => exact ih removed disk
      | some file =>
        dsimp only
        split
        · rename_i hexpired
          cases env.remove name with
          | error e => exact ⟨fun _ h => h, fun _ h => .inl h, fun _ _ => rfl⟩
          | ok u =>
            obtain ⟨hkept, honly, hother⟩ := ih (removed ++ [name]) { disk with files := disk.files.erase name }
            refine ⟨fun n hn => hkept n (List.mem_append_left _ hn), fun n hn => ?_, fun n hn => ?_⟩
            · rcases honly n hn with h | h
              · rcases List.mem_append.1 h with h | h
                · exact .inl h
                · rw [List.mem_singleton.1 h]
                  exact .inr hexpired.1
              · exact .inr h
            · have hne : name ≠ n := by
                rintro rfl
                exact hn (hkept name (List.mem_append_right _ (List.mem_singleton_self name)))
              refine (hother n hn).trans ?_
              rw [Std.HashMap.getElem?_erase, if_neg (by simpa using hne)]
        · exact ih removed disk

theorem cleanupOldBackups_spec (env : CleanupEnv) (disk : Disk) :
    (∀ name ∈ (svc.cleanupOldBackups env disk).2.1, extension name = some "json") ∧
    ∀ name, name ∉ (svc.cleanupOldBackups env disk).2.1 →
      (svc.cleanupOldBackups env disk).2.2.files[name]? = disk.files[name]? := by
  unfold cleanupOldBackups
  cases disk.present with
  | true =>
    cases env.entries with
    | error e => exact ⟨fun _ h => (by cases h), fun _ _ => rfl⟩
    | ok entries =>
      obtain ⟨-, honly, hother⟩ := removeExpired_spec env (svc.cutoff env.now) entries [] disk
      exact ⟨fun name hname => (honly name hname).resolve_left List.not_mem_nil, hother⟩
  | false => exact ⟨fun _ h => (by cases h), fun _ _ => rfl⟩

/-! ### Starts -/

variable {config : BackupConfig} {passphrase : String}

/-- The master key that the directory keeps under the passphrase. -/
def Persisted (P : Primitives) (passphrase : String) (disk : Disk) (key : MasterKey) : Prop :=
  ∃ file encrypted, disk.files[masterKeyFile]? = some file ∧ P.parseMaster file.text = some encrypted ∧
    MasterKey.openEncrypted P encrypted passphrase = .ok key

theorem Persisted.unique {disk : Disk} {key key' : MasterKey} (h : Persisted P passphrase disk key)
    (h' : Persisted P passphrase disk key') : key' = key := by
  obtain ⟨file, encrypted, hfile, hparsed, hopened⟩ := h
  obtain ⟨file', encrypted', hfile', hparsed', hopened'⟩ := h'
  rw [hfile, Option.some.injEq] at hfile'
  subst hfile'
  rw [hparsed, Option.some.injEq] at hparsed'
  subst hparsed'
  rw [hopened, Except.ok.injEq] at hopened'
  exact hopened'.symm

/-- It is kept as long as its file is. -/
theorem Persisted.of_file {disk disk' : Disk} {key : MasterKey} (h : Persisted P passphrase disk key)
    (hfile : disk'.files[masterKeyFile]? = disk.files[masterKeyFile]?) : Persisted P passphrase disk' key := by
  obtain ⟨file, encrypted, hold, hrest⟩ := h
  exact ⟨file, encrypted, hfile.trans hold, hrest⟩

/-- A key that was exported opens under the same passphrase. -/
theorem openEncrypted_of_export (hP : P.Lawful) {env : StartEnv} {key : MasterKey} {kdfIterations : UInt32}
    {encrypted : EncryptedMasterKey}
    (h : MasterKey.exportEncrypted P env key passphrase kdfIterations = .ok encrypted) :
    MasterKey.openEncrypted P encrypted passphrase = .ok key := by
  obtain ⟨_, -, h⟩ := bind_eq_ok h
  obtain ⟨derived, hderived, h⟩ := bind_eq_ok h
  obtain ⟨_, hcipher, h⟩ := bind_eq_ok h
  obtain ⟨⟨ciphertext, tag⟩, hsealed, h⟩ := bind_eq_ok h
  obtain ⟨_, -, hderived⟩ := bind_eq_ok hderived
  cases h
  obtain ⟨htag, hopened⟩ := hP.gcm (mapErr_eq_ok hsealed)
  have hcipher' : mapErr "Failed to create SM4 cipher for import" (P.sm4Cipher derived) = .ok () := by
    rw [mapErr_eq_ok hcipher]
    rfl
  have hnonce : ¬ (env.fill 2 sm4NonceSize).length ≠ 12 := by simp [StartEnv.fill, sm4NonceSize]
  unfold MasterKey.openEncrypted
  simp only [hderived, hcipher', bind, Except.bind, if_neg (not_short htag), splitTag_append htag, if_neg hnonce,
    hopened]
  rfl

theorem loadEncrypted_eq_ok {env : StartEnv} {file : File} {key : MasterKey}
    (h : MasterKey.loadEncrypted P env file passphrase = .ok key) :
    ∃ encrypted, P.parseMaster file.text = some encrypted ∧
    MasterKey.openEncrypted P encrypted passphrase = .ok key := by
  obtain ⟨encrypted, hparsed, h⟩ := bind_eq_ok h
  obtain ⟨_, -, h⟩ := bind_eq_ok h
  obtain ⟨key', hopened, h⟩ := bind_eq_ok h
  obtain ⟨_, -, h⟩ := bind_eq_ok h
  cases h
  exact ⟨encrypted, context_eq_ok hparsed, hopened⟩

/-- A save that succeeds keeps the key; one that fails leaves the files. -/
theorem saveEncrypted_spec (hP : P.Lawful) (env : StartEnv) (disk : Disk) (key : MasterKey) (kdfIterations : UInt32) :
    ((MasterKey.saveEncrypted P env disk key passphrase kdfIterations).1 = .ok () →
      Persisted P passphrase (MasterKey.saveEncrypted P env disk key passphrase kdfIterations).2 key) ∧
    ∀ e, (MasterKey.saveEncrypted P env disk key passphrase kdfIterations).1 = .error e →
      (MasterKey.saveEncrypted P env disk key passphrase kdfIterations).2.files = disk.files := by
  unfold MasterKey.saveEncrypted
  cases hexported : MasterKey.exportEncrypted P env key passphrase kdfIterations with
  | error e => exact ⟨fun h => (by cases h), fun _ _ => rfl⟩
  | ok encrypted =>
    dsimp only
    cases htext : P.masterText encrypted with
    | none => exact ⟨fun h => (by cases h), fun _ _ => rfl⟩
    | some json =>
      dsimp only
      split
      · exact ⟨fun h => (by cases h), fun _ _ => rfl⟩
      · split
        · exact ⟨fun h => (by cases h), fun _ _ => rfl⟩
        · refine ⟨fun _ => ?_, fun _ h => (by cases h)⟩
          refine ⟨⟨json, env.modified⟩, encrypted, ?_, hP.master htext, openEncrypted_of_export hP hexported⟩
          change (disk.files.insert _ _)[_]? = _
          rw [Std.HashMap.getElem?_insert, if_pos (beq_self_eq_true _)]

/-- The key of a start is the one that the directory keeps afterwards; a key that is there is not replaced. -/
theorem masterKeyFor_spec (hP : P.Lawful) (env : StartEnv) (disk : Disk) :
    (∀ key, Persisted P passphrase disk key → (masterKeyFor P env disk config passphrase).2 = disk) ∧
    (∀ key, (masterKeyFor P env disk config passphrase).1 = .ok key →
      Persisted P passphrase (masterKeyFor P env disk config passphrase).2 key) ∧
    ∀ e, (masterKeyFor P env disk config passphrase).1 = .error e →
      (masterKeyFor P env disk config passphrase).2.files = disk.files := by
  unfold masterKeyFor
  cases hfile : disk.files[masterKeyFile]? with
  | some file =>
    dsimp only
    refine ⟨fun _ _ => rfl, fun key h => ?_, fun _ _ => rfl⟩
    cases hload : MasterKey.loadEncrypted P env file passphrase with
    | error e =>
      rw [hload] at h
      cases h
    | ok key' =>
      rw [hload] at h
      cases h
      obtain ⟨encrypted, hparsed, hopened⟩ := loadEncrypted_eq_ok hload
      exact ⟨file, encrypted, hfile, hparsed, hopened⟩
  | none =>
    dsimp only
    constructor
    · rintro key ⟨file, _, hthere, -⟩
      rw [hfile] at hthere
      cases hthere
    · cases MasterKey.generate env with
      | error e => exact ⟨fun _ h => (by cases h), fun _ _ => rfl⟩
      | ok key =>
        dsimp only
        obtain ⟨hkept, hfailed⟩ := @saveEncrypted_spec P passphrase hP env disk key config.kdfIterations
        cases hsaved : (MasterKey.saveEncrypted P env disk key passphrase config.kdfIterations).1 with
        | error e => exact ⟨fun _ h => (by cases h), fun _ _ => hfailed e hsaved⟩
        | ok u =>
          refine ⟨fun key' h => ?_, fun _ h => (by cases h)⟩
          cases h
          exact hkept hsaved

/-- A service that starts has the master key of its directory. -/
theorem loadOrCreate_eq_ok {env : StartEnv} {disk : Disk} {svc : KeyBackupService}
    (h : (loadOrCreate P env disk config passphrase).1 = .ok svc) :
    ∃ key, (masterKeyFor P env disk config passphrase).1 = .ok key ∧ svc = new config key := by
  unfold loadOrCreate at h
  split at h
  · cases h
  · generalize masterKeyFor P env disk config passphrase = made at h ⊢
    obtain ⟨r, disk'⟩ := made
    cases r with
    | error e => cases h
    | ok key =>
      dsimp only at h
      cases hchecked : (new config key).selfCheck P env with
      | error e =>
        rw [hchecked] at h
        cases h
      | ok u =>
        rw [hchecked] at h
        cases h
        exact ⟨key, rfl, rfl⟩

/-- The disk is left as making the master key leaves it. -/
theorem loadOrCreate_snd (env : StartEnv) (disk : Disk) (h : passphrase ≠ "") :
    (loadOrCreate P env disk config passphrase).2 = (masterKeyFor P env disk config passphrase).2 := by
  rw [loadOrCreate, if_neg h]
  generalize masterKeyFor P env disk config passphrase = made
  obtain ⟨r, disk'⟩ := made
  cases r <;> rfl

theorem loadOrCreate_of_empty (env : StartEnv) (disk : Disk) :
    loadOrCreate P env disk config "" = (.error "backup master key passphrase must not be empty", disk) :=
  if_pos rfl

theorem loadOrCreate_spec (hP : P.Lawful) (env : StartEnv) (disk : Disk) :
    (∀ key, Persisted P passphrase disk key → (loadOrCreate P env disk config passphrase).2 = disk) ∧
    (∀ svc, (loadOrCreate P env disk config passphrase).1 = .ok svc →
      Persisted P passphrase (loadOrCreate P env disk config passphrase).2 svc.masterKey) ∧
    ((loadOrCreate P env disk config passphrase).2.files = disk.files ∨
      ∃ key, Persisted P passphrase (loadOrCreate P env disk config passphrase).2 key) := by
  by_cases hempty : passphrase = ""
  · subst hempty
    rw [loadOrCreate_of_empty]
    exact ⟨fun _ _ => rfl, fun _ h => (by cases h), .inl rfl⟩
  obtain ⟨hsame, hkey, hfailed⟩ := @masterKeyFor_spec P config passphrase hP env disk
  rw [loadOrCreate_snd env disk hempty]
  refine ⟨hsame, fun svc h => ?_, ?_⟩
  · obtain ⟨key, hmade, rfl⟩ := loadOrCreate_eq_ok h
    exact hkey key hmade
  · cases hmade : (masterKeyFor P env disk config passphrase).1 with
    | error e => exact .inl (hfailed e hmade)
    | ok key => exact .inr ⟨key, hkey key hmade⟩

end

/-! ## The directory and its service -/

structure Host where
  disk : Disk
  service : Option KeyBackupService

/-- An empty directory and no process. -/
def Host.new : Host := ⟨⟨false, {}⟩, none⟩

inductive Call where
  | start (env : StartEnv)
  | backup (env : BackupEnv) (keyMeta : KeyMeta) (keyMaterial : Bytes) (description : Option String)
  | cleanup (env : CleanupEnv)

inductive Answer where
  | started (r : Except String Unit)
  | backedUp (r : Except String KeyBackup)
  /-- The answer of the service, and the names that it removed. -/
  | cleaned (r : Except String ℕ) (removed : List String)
  | notRunning

section

variable (P : Primitives) (config : BackupConfig) (passphrase : String)

/-- A start replaces the process that is running. -/
def step : Machine Host Call Answer
  | s, .start env =>
    let (r, disk) := loadOrCreate P env s.disk config passphrase
    (.started (r.map fun _ => ()), ⟨disk, r.toOption⟩)
  | ⟨disk, some svc⟩, .backup env keyMeta keyMaterial description =>
    let (r, svc, disk) := svc.backupKey P env disk keyMeta keyMaterial description
    (.backedUp r, ⟨disk, some svc⟩)
  | ⟨disk, some svc⟩, .cleanup env =>
    let (r, removed, disk) := svc.cleanupOldBackups env disk
    (.cleaned r removed, ⟨disk, some svc⟩)
  | s, _ => (.notRunning, s)

end

/-- A call of `backup_key` that returned `Ok`. -/
structure Made where
  keyMeta : KeyMeta
  material : Bytes
  backup : KeyBackup

def Made.name (m : Made) : String := fileName m.keyMeta.id m.backup.backedUpAt

def made? : Call × Answer → Option Made
  | (.backup _ keyMeta material _, .backedUp (.ok backup)) => some ⟨keyMeta, material, backup⟩
  | _ => none

/-- The calls that returned `Ok`. -/
def made (h : History Call Answer) : List Made := h.filterMap made?

/-- The files that the event removed. -/
def removedBy : Call × Answer → List String
  | (_, .cleaned _ removed) => removed
  | _ => []

/-- Those whose files no cleanup has removed since. -/
def kept (h : History Call Answer) : List Made :=
  h.foldl (fun kept e => kept.filter (fun m => m.name ∉ removedBy e) ++ (made? e).toList) []

theorem made_snoc (h : History Call Answer) (e : Call × Answer) : made (h ++ [e]) = made h ++ (made? e).toList := by
  rw [made, made, List.filterMap_append]
  cases hm : made? e <;> simp [hm]

theorem kept_snoc (h : History Call Answer) (e : Call × Answer) :
    kept (h ++ [e]) = (kept h).filter (fun m => m.name ∉ removedBy e) ++ (made? e).toList := by
  rw [kept, List.foldl_append]
  rfl

section

variable (P : Primitives)

/-- Every backup that is kept has a file of its own, which the service restores. -/
structure FilesKept (h : History Call Answer) (s : Host) : Prop where
  opens : ∀ svc, s.service = some svc → ∀ m ∈ kept h, m.backup.keyMeta = m.keyMeta ∧
    svc.restoreFromFile P s.disk m.name = .ok (m.backup, m.material)
  own : ((kept h).map Made.name).Nodup

end

/-- The service lists the calls that returned `Ok`. -/
def Listed (h : History Call Answer) (s : Host) : Prop :=
  ∀ svc, s.service = some svc → ∀ keyId, svc.listBackups keyId =
    ((made h).filter fun m => m.keyMeta.id = keyId).map (·.backup.backedUpAt)

/-- No backup of the key that is kept was taken in the same second. -/
def OwnSecond (h : History Call Answer) (_ : Host) : Call → Prop
  | .backup env keyMeta _ _ => ∀ m ∈ kept h, m.keyMeta.id = keyMeta.id → m.backup.backedUpAt / 10 ^ 9 ≠ env.now / 10 ^ 9
  | _ => True

/-- The file system takes a backup, and a process starts only while none has been taken. -/
def Listable (h : History Call Answer) (s : Host) : Call → Prop
  | .start _ => made h = []
  | .backup env _ _ _ => (s.disk.present = true ∨ env.createDir = true) ∧ env.write = .written ∧
      env.setPermissions = .ok ()
  | .cleanup _ => True

/-! ## Names -/

/-- A name stands for a key and a second. -/
theorem fileName_inj {id id' : Uuid} {t t' : DateTime} (h : fileName id t = fileName id' t') :
    id = id' ∧ t / 10 ^ 9 = t' / 10 ^ 9 := by
  have hchars := congrArg String.toList h
  simp only [fileName, String.toList_ofList] at hchars
  obtain ⟨hchars, -⟩ := List.append_inj' hchars rfl
  -- the texts of ids have one length
  have hlengths : id.text.toList.length = id'.text.toList.length := by
    rw [Uuid.length_text, Uuid.length_text]
  obtain ⟨hid, hrest⟩ := List.append_inj hchars hlengths
  refine ⟨Uuid.text_injective (String.toList_inj.1 hid), ?_⟩
  have hseconds := List.tail_eq_of_cons_eq hrest
  have hread := congrArg JsonText.readInt hseconds
  rwa [JsonText.readInt_writeInt, JsonText.readInt_writeInt, Option.some.injEq] at hread

theorem fileName_ne_masterKeyFile (id : Uuid) (t : DateTime) : fileName id t ≠ masterKeyFile := by
  intro h
  have hlast := congrArg (fun s : String => s.toList.getLast?) h
  simp only [fileName, String.toList_ofList] at hlast
  rw [List.getLast?_append_of_ne_nil _ (by decide)] at hlast
  exact absurd hlast (by decide)

/-! ## Runs -/

section

variable {P : Primitives} {config : BackupConfig} {passphrase : String}

/-- There is no master key and nothing else, or one that all of the directory is under. -/
def UnderOneKey (P : Primitives) (passphrase : String) (h : History Call Answer) (s : Host) : Prop :=
  (s.service = none ∧ kept h = [] ∧ s.disk.files[masterKeyFile]? = none) ∨
    ∃ key, Persisted P passphrase s.disk key ∧ (∀ svc, s.service = some svc → svc.masterKey = key) ∧
      ∀ m ∈ kept h, m.backup.keyMeta = m.keyMeta ∧ ∀ svc : KeyBackupService, svc.masterKey = key →
        svc.restoreFromFile P s.disk m.name = .ok (m.backup, m.material)

theorem step_start (s : Host) (env : StartEnv) : step P config passphrase s (.start env) =
    (.started ((loadOrCreate P env s.disk config passphrase).1.map fun _ => ()),
      ⟨(loadOrCreate P env s.disk config passphrase).2, (loadOrCreate P env s.disk config passphrase).1.toOption⟩) :=
        rfl

theorem step_backup {s : Host} {svc : KeyBackupService} (hsvc : s.service = some svc) (env : BackupEnv)
    (keyMeta : KeyMeta)
    (keyMaterial : Bytes) (description : Option String) :
    step P config passphrase s (.backup env keyMeta keyMaterial description) =
      (.backedUp (svc.backupKey P env s.disk keyMeta keyMaterial description).1,
        ⟨(svc.backupKey P env s.disk keyMeta keyMaterial description).2.2,
          some (svc.backupKey P env s.disk keyMeta keyMaterial description).2.1⟩) := by
  obtain ⟨disk, service⟩ := s
  cases hsvc
  rfl

theorem step_cleanup {s : Host} {svc : KeyBackupService} (hsvc : s.service = some svc) (env : CleanupEnv) :
    step P config passphrase s (.cleanup env) =
      (.cleaned (svc.cleanupOldBackups env s.disk).1 (svc.cleanupOldBackups env s.disk).2.1,
        ⟨(svc.cleanupOldBackups env s.disk).2.2, some svc⟩) := by
  obtain ⟨disk, service⟩ := s
  cases hsvc
  rfl

/-- Without a process nothing but a start does anything. -/
theorem step_none {s : Host} (hsvc : s.service = none) {c : Call} (hc : ∀ env, c ≠ .start env) :
    step P config passphrase s c = (.notRunning, s) := by
  obtain ⟨disk, service⟩ := s
  cases hsvc
  cases c with
  | start env => exact absurd rfl (hc env)
  | backup | cleanup => rfl

theorem underOneKey_start (hP : P.Lawful) {h : History Call Answer} {s : Host} (hI : UnderOneKey P passphrase h s)
    (env : StartEnv) : UnderOneKey P passphrase (h ++ [(.start env, (step P config passphrase s (.start env)).1)])
      (step P config passphrase s (.start env)).2 := by
  obtain ⟨hsame, hstarted, hleft⟩ := @loadOrCreate_spec P config passphrase hP env s.disk
  rw [step_start]
  have hkept : ∀ r, kept (h ++ [(.start env, .started r)]) = kept h := by
    intro r
    rw [kept_snoc]
    simp [removedBy, made?]
  generalize loadOrCreate P env s.disk config passphrase = started at hsame hstarted hleft
  obtain ⟨r, disk⟩ := started
  dsimp only at hsame hstarted hleft ⊢
  have hservice : ∀ svc, r.toOption = some svc → r = .ok svc := by
    intro svc hsvc
    cases r with
    | error e => cases hsvc
    | ok svc' =>
      cases hsvc
      rfl
  rcases hI with ⟨-, hempty, habsent⟩ | ⟨key, hkey, -, hall⟩
  · rcases hleft with hfiles | ⟨key, hkey⟩
    · refine .inl ⟨?_, (hkept _).trans hempty, by rw [← habsent, ← hfiles]⟩
      -- a service has its key in the directory
      cases r with
      | error e => rfl
      | ok svc =>
        obtain ⟨file, _, hfile, -⟩ := hstarted svc rfl
        rw [hfiles, habsent] at hfile
        cases hfile
    · refine .inr ⟨key, hkey, fun svc hsvc => ?_, fun m hm => ?_⟩
      · exact hkey.unique (hstarted svc (hservice svc hsvc))
      · rw [hkept, hempty] at hm
        cases hm
  · rw [hsame key hkey] at hstarted ⊢
    refine .inr ⟨key, hkey, fun svc hsvc => ?_, fun m hm => ?_⟩
    · exact hkey.unique (hstarted svc (hservice svc hsvc))
    · rw [hkept] at hm
      exact hall m hm

theorem underOneKey_backup (hP : P.Lawful) {h : History Call Answer} {s : Host} (hI : UnderOneKey P passphrase h s)
    {env : BackupEnv} {keyMeta : KeyMeta} {keyMaterial : Bytes} {description : Option String}
    (hown : OwnSecond h s (.backup env keyMeta keyMaterial description)) :
    UnderOneKey P passphrase (h ++ [(.backup env keyMeta keyMaterial description,
        (step P config passphrase s (.backup env keyMeta keyMaterial description)).1)])
      (step P config passphrase s (.backup env keyMeta keyMaterial description)).2 := by
  cases hsvc : s.service with
  | none =>
    rw [step_none hsvc (by rintro _ ⟨⟩)]
    have hkept : kept (h ++ [(.backup env keyMeta keyMaterial description, .notRunning)]) = kept h := by
      rw [kept_snoc]
      simp [removedBy, made?]
    unfold UnderOneKey
    rw [hkept]
    exact hI
  | some svc =>
    rw [step_backup hsvc]
    rcases hI with ⟨hnone, -⟩ | ⟨key, hkey, hservice, hall⟩
    · rw [hsvc] at hnone
      cases hnone
    · have hsvcKey := hservice svc hsvc
      obtain ⟨hmasterKey, hother, hmade⟩ := @backupKey_spec P svc hP env s.disk keyMeta keyMaterial description
      refine .inr ⟨key, hkey.of_file (hother _ (fileName_ne_masterKeyFile _ _).symm), ?_, ?_⟩
      · rintro _ ⟨⟩
        exact hmasterKey.trans hsvcKey
      · intro m hm
        rw [kept_snoc] at hm
        simp only [removedBy, List.not_mem_nil, not_false_eq_true, decide_true, List.filter_true, List.mem_append,
          Option.mem_toList] at hm
        rcases hm with hm | hm
        · obtain ⟨hmeta, hrestores⟩ := hall m hm
          refine ⟨hmeta, fun svc' hsvc' => ?_⟩
          rw [restoreFromFile_of_file (hother _ fun hname => ?_)]
          · exact hrestores svc' hsvc'
          · -- a file of the same name would be of the same key and second
            obtain ⟨hid, hsecond⟩ := fileName_inj hname
            exact hown m hm hid hsecond
        · cases hr : (svc.backupKey P env s.disk keyMeta keyMaterial description).1 with
          | error e =>
            rw [hr] at hm
            cases hm
          | ok backup =>
            rw [hr] at hm
            cases hm
            obtain ⟨hmeta, hnow, hrestored⟩ := hmade backup hr
            refine ⟨hmeta, fun svc' hsvc' => ?_⟩
            rw [restoreFromFile_congr (hsvc'.trans hsvcKey.symm)]
            unfold Made.name
            rw [hnow]
            exact hrestored

theorem underOneKey_cleanup {h : History Call Answer} {s : Host} (hI : UnderOneKey P passphrase h s)
    (env : CleanupEnv) :
    UnderOneKey P passphrase (h ++ [(.cleanup env, (step P config passphrase s (.cleanup env)).1)])
      (step P config passphrase s (.cleanup env)).2 := by
  cases hsvc : s.service with
  | none =>
    rw [step_none hsvc (by rintro _ ⟨⟩)]
    have hkept : kept (h ++ [(.cleanup env, .notRunning)]) = kept h := by
      rw [kept_snoc]
      simp [removedBy, made?]
    unfold UnderOneKey
    rw [hkept]
    exact hI
  | some svc =>
    rw [step_cleanup hsvc]
    obtain ⟨honly, hother⟩ := @cleanupOldBackups_spec svc env s.disk
    rcases hI with ⟨hnone, -⟩ | ⟨key, hkey, hservice, hall⟩
    · rw [hsvc] at hnone
      cases hnone
    · refine .inr ⟨key, hkey.of_file (hother _ fun hmem => ?_), ?_, ?_⟩
      · exact absurd (honly _ hmem) (by decide)
      · rintro _ ⟨⟩
        exact hservice svc hsvc
      · intro m hm
        rw [kept_snoc] at hm
        simp only [removedBy, made?, Option.toList_none, List.append_nil, List.mem_filter] at hm
        obtain ⟨hmeta, hrestores⟩ := hall m hm.1
        refine ⟨hmeta, fun svc' hsvc' => ?_⟩
        rw [restoreFromFile_of_file (hother _ (of_decide_eq_true hm.2))]
        exact hrestores svc' hsvc'

/-- The files that are kept have different names. -/
def OwnNames (h : History Call Answer) : Prop := ((kept h).map Made.name).Nodup

/-- What a call of `backup_key` returned is of the key and of the time of the call. -/
theorem made?_step (hP : P.Lawful) {s : Host} {c : Call} {m : Made}
    (hm : made? (c, (step P config passphrase s c).1) = some m) :
    ∃ env keyMeta keyMaterial description, c = .backup env keyMeta keyMaterial description ∧
      m.name = fileName keyMeta.id env.now := by
  cases c with
  | start | cleanup => cases hm
  | backup env keyMeta keyMaterial description =>
    refine ⟨env, keyMeta, keyMaterial, description, rfl, ?_⟩
    cases hsvc : s.service with
    | none =>
      rw [step_none hsvc (by rintro _ ⟨⟩)] at hm
      cases hm
    | some svc =>
      rw [step_backup hsvc] at hm
      cases hr : (svc.backupKey P env s.disk keyMeta keyMaterial description).1 with
      | error e =>
        rw [hr] at hm
        cases hm
      | ok backup =>
        rw [hr] at hm
        cases hm
        obtain ⟨-, hnow, -⟩ := (@backupKey_spec P svc hP env s.disk keyMeta keyMaterial description).2.2 backup hr
        rw [Made.name, hnow]

theorem ownNames_step (hP : P.Lawful) {h : History Call Answer} {s : Host} (hI : OwnNames h) {c : Call}
    (hown : OwnSecond h s c) : OwnNames (h ++ [(c, (step P config passphrase s c).1)]) := by
  have hname := @made?_step P config passphrase hP s c
  unfold OwnNames
  rw [kept_snoc, List.map_append]
  generalize (c, (step P config passphrase s c).1) = e at hname
  have hsub : (((kept h).filter fun m => m.name ∉ removedBy e).map Made.name).Nodup :=
    hI.sublist (List.filter_sublist.map _)
  cases hm : made? e with
  | none => simpa using hsub
  | some m =>
    obtain ⟨env, keyMeta, keyMaterial, description, rfl, hm⟩ := hname hm
    rw [Option.toList_some, List.map_singleton, List.nodup_append]
    refine ⟨hsub, List.nodup_singleton m.name, fun name hname name' hname' heq => ?_⟩
    obtain ⟨m', hm', rfl⟩ := List.mem_map.1 hname
    rw [List.mem_singleton.1 hname', hm] at heq
    obtain ⟨hid, hsecond⟩ := fileName_inj heq
    exact hown m' (List.mem_filter.1 hm').1 hid hsecond

/-- Runs whose backups have each a second of their own keep every backup. -/
theorem filesKept_of_ownSecond (hP : P.Lawful) {calls : List Call}
    (h : (step P config passphrase).Along OwnSecond [] Host.new calls) :
    (step P config passphrase).Throughout (FilesKept P) [] Host.new calls := by
  have hstep : ∀ (h : History Call Answer) (s : Host) (c : Call), UnderOneKey P passphrase h s ∧ OwnNames h →
      OwnSecond h s c → UnderOneKey P passphrase (h ++ [(c, (step P config passphrase s c).1)])
        (step P config passphrase s c).2 ∧ OwnNames (h ++ [(c, (step P config passphrase s c).1)]) := by
    intro h s c hI hown
    refine ⟨?_, ownNames_step hP hI.2 hown⟩
    cases c with
    | start env => exact underOneKey_start hP hI.1 env
    | backup env keyMeta keyMaterial description => exact underOneKey_backup hP hI.1 hown
    | cleanup env => exact underOneKey_cleanup hI.1 env
  have hnew : UnderOneKey P passphrase [] Host.new ∧ OwnNames [] := by
    refine ⟨.inl ⟨rfl, rfl, ?_⟩, List.nodup_nil⟩
    simp [Host.new]
  refine (h.throughout hstep hnew).mono fun h s hI => ⟨fun svc hsvc m hm => ?_, hI.2⟩
  rcases hI.1 with ⟨-, hempty, -⟩ | ⟨key, -, hservice, hall⟩
  · rw [hempty] at hm
    cases hm
  · obtain ⟨hmeta, hrestores⟩ := hall m hm
    exact ⟨hmeta, hrestores svc (hservice svc hsvc)⟩

/-! ### The list -/

/-- The registry has the calls that returned `Ok`, in their order. -/
def Registered (h : History Call Answer) (s : Host) : Prop :=
  ∀ svc, s.service = some svc →
    svc.backupRegistry.map (fun r => (r.keyId, r.backedUpAt)) = (made h).map fun m =>
    (m.keyMeta.id, m.backup.backedUpAt)

theorem Registered.listed {h : History Call Answer} {s : Host} (hI : Registered h s) : Listed h s := by
  intro svc hsvc keyId
  have hpairs := congrArg (fun l : List (Uuid × DateTime) => (l.filter fun e => e.1 = keyId).map (·.2)) (hI svc hsvc)
  simp only [List.filter_map, List.map_map] at hpairs
  exact hpairs

/-- A backup that was made is saved where the file system takes it. -/
theorem saveBackup_of_listable (hT : P.Total) {svc : KeyBackupService} {env : BackupEnv} {disk : Disk}
    {backup : KeyBackup}
    (hdir : disk.present = true ∨ env.createDir = true) (hwrite : env.write = .written)
    (hpermissions : env.setPermissions = .ok ()) : (svc.saveBackup P env disk backup).1 = .ok () := by
  have hmade : ¬ (!disk.present && !env.createDir) = true := by
    rcases hdir with h | h <;> simp [h]
  have hjson : ∃ json, svc.signedJson P backup = .ok json := by
    obtain ⟨data, hdata⟩ := hT.backup backup
    obtain ⟨signature, hsignature⟩ := hT.hmac svc.masterKey.hmacKey (utf8 data)
    obtain ⟨text, htext⟩ := hT.signed ⟨data, signature⟩
    refine ⟨text, ?_⟩
    unfold signedJson computeHmac
    simp only [hdata, context, bind, Except.bind, hsignature, mapErr, Except.mapError, htext]
  obtain ⟨json, hjson⟩ := hjson
  unfold saveBackup
  rw [if_neg hmade, hjson, hwrite]
  exact hpermissions

/-- A new process knows of no backup. -/
theorem backupRegistry_of_loadOrCreate {env : StartEnv} {disk : Disk} {svc : KeyBackupService}
    (h : (loadOrCreate P env disk config passphrase).1 = .ok svc) : svc.backupRegistry = [] := by
  obtain ⟨key, -, rfl⟩ := loadOrCreate_eq_ok h
  rfl

theorem registered_step (hT : P.Total) {h : History Call Answer} {s : Host} (hI : Registered h s) {c : Call}
    (hlistable : Listable h s c) : Registered (h ++ [(c, (step P config passphrase s c).1)])
      (step P config passphrase s c).2 := by
  have hmade : ∀ e : Call × Answer, made? e = none → made (h ++ [e]) = made h := by
    intro e he
    rw [made_snoc, he]
    simp
  have hidle : s.service = none → (∀ env, c ≠ .start env) → Registered (h ++ [(c, (step P config passphrase s c).1)])
      (step P config passphrase s c).2 := by
    intro hsvc hc
    rw [step_none hsvc hc]
    intro svc hsvc'
    rw [hmade _ (by cases c <;> rfl)]
    exact hI svc hsvc'
  cases c with
  | start env =>
    rw [step_start]
    intro svc hsvc
    have hempty : made h = [] := hlistable
    rw [hmade _ rfl, hempty]
    change (loadOrCreate P env s.disk config passphrase).1.toOption = some svc at hsvc
    cases hr : (loadOrCreate P env s.disk config passphrase).1 with
    | error e =>
      rw [hr] at hsvc
      cases hsvc
    | ok svc' =>
      rw [hr] at hsvc
      cases hsvc
      rw [backupRegistry_of_loadOrCreate hr]
      rfl
  | cleanup env =>
    cases hsvc : s.service with
    | none => exact hidle hsvc (by rintro _ ⟨⟩)
    | some svc =>
      rw [step_cleanup hsvc]
      rintro _ ⟨⟩
      rw [hmade _ rfl]
      exact hI svc hsvc
  | backup env keyMeta keyMaterial description =>
    cases hsvc : s.service with
    | none => exact hidle hsvc (by rintro _ ⟨⟩)
    | some svc =>
      rw [step_backup hsvc]
      rintro _ ⟨⟩
      cases hbackup : svc.makeBackup P env keyMeta keyMaterial description with
      | error e =>
        rw [backupKey_of_error hbackup, hmade _ rfl]
        exact hI svc hsvc
      | ok backup =>
        obtain ⟨hdir, hwrite, hpermissions⟩ := hlistable
        rw [backupKey_of_made hbackup, saveBackup_of_listable hT hdir hwrite hpermissions, made_snoc]
        dsimp only
        rw [List.map_append, List.map_append, hI svc hsvc]
        rfl

theorem listed_of_listable (hT : P.Total) {calls : List Call}
    (h : (step P config passphrase).Along Listable [] Host.new calls) :
    (step P config passphrase).Throughout Listed [] Host.new calls := by
  have hnew : Registered [] Host.new := by
    rintro _ ⟨⟩
  exact (h.throughout (fun h s c hI hl => registered_step hT hI hl) hnew).mono fun h s hI => hI.listed

/-- No backup is lost in a run whose backups have each a second of their own; and the list is right where every
save succeeds and no process was replaced after a backup. -/
theorem nothingLost_of_run (hP : P.Lawful) (hT : P.Total) (calls : List Call) :
    ((step P config passphrase).Along OwnSecond [] Host.new calls →
      (step P config passphrase).Throughout (FilesKept P) [] Host.new calls) ∧
    ((step P config passphrase).Along Listable [] Host.new calls →
      (step P config passphrase).Throughout Listed [] Host.new calls) :=
  ⟨filesKept_of_ownSecond hP, listed_of_listable hT⟩

end

/-! ## Two backups of one second -/

def sampleConfig : BackupConfig := ⟨"/var/kms/backup", 365, 1⟩

def sampleStart : StartEnv :=
  { random := fun _ _ => 7, uuid := 9, secureBox := fun _ => .ok (), createDir := true, writeKey := true,
    modified := 0 }

def sampleBackup (now : DateTime) : BackupEnv :=
  { random := fun _ => 7, uuid := 3, now, createDir := true, write := .written, modified := now,
    setPermissions := .ok () }

def sampleMeta (version : UInt32) : KeyMeta :=
  { id := 1, tenantId := "acme", name := "orders", spec := .sm4, status := .active, createdAt := 0, rotatedAt := none,
    version, description := none, metadata := .default }

/-- The first version of a key is backed up, and its second one a nanosecond later. -/
def oneSecond : List Call :=
  [.start sampleStart, .backup (sampleBackup 0) (sampleMeta 1) [1] none,
    .backup (sampleBackup 1) (sampleMeta 2) [2] none]

theorem step_sampleStart : ∃ svc disk, step plainPrimitives sampleConfig "passphrase" Host.new (.start sampleStart) =
    (.started (.ok ()), ⟨disk, some svc⟩) := by
  have hfile : Host.new.disk.files[masterKeyFile]? = none := by simp [Host.new]
  obtain ⟨key, disk, hkey⟩ : ∃ key disk, masterKeyFor plainPrimitives sampleStart Host.new.disk sampleConfig
      "passphrase" = (.ok key, disk) := by
    unfold masterKeyFor
    rw [hfile]
    exact ⟨_, _, rfl⟩
  have hchecked : ∀ svc : KeyBackupService, svc.selfCheck plainPrimitives sampleStart = .ok () := by
    intro svc
    have hencrypted : svc.encryptWithMaster plainPrimitives (utf8 "kms-backup-masterkey-self-check")
        (sampleStart.fill 3 sm4NonceSize) = .ok (utf8 "kms-backup-masterkey-self-check" ++ List.replicate 16 0) := rfl
    unfold selfCheck
    dsimp only
    simp only [hencrypted, decryptWithMaster_of_encrypt plainPrimitives_lawful hencrypted, bind, Except.bind, ne_eq,
      not_true_eq_false, if_false]
    rfl
  refine ⟨new sampleConfig key, disk, ?_⟩
  rw [step_start]
  have hstarted : loadOrCreate plainPrimitives sampleStart Host.new.disk sampleConfig "passphrase" =
      (.ok (new sampleConfig key), disk) := by
    unfold loadOrCreate
    rw [if_neg (by decide), hkey]
    dsimp only
    rw [hchecked]
    rfl
  rw [hstarted]
  rfl

theorem step_sampleBackup (disk : Disk) (svc : KeyBackupService) (now : DateTime) (version : UInt32)
    (material : Bytes) :
    ∃ backup svc' disk', step plainPrimitives sampleConfig "passphrase" ⟨disk, some svc⟩
        (.backup (sampleBackup now) (sampleMeta version) material none) = (.backedUp (.ok backup), ⟨disk', some svc'⟩) ∧
      backup.backedUpAt = now := by
  obtain ⟨backup, hmade⟩ : ∃ backup, svc.makeBackup plainPrimitives (sampleBackup now) (sampleMeta version) material
    none =
    .ok backup := ⟨_, rfl⟩
  have hsaved := @saveBackup_of_listable _ plainPrimitives_total svc (sampleBackup now) disk backup (.inr rfl) rfl rfl
  have hstep := @step_backup plainPrimitives sampleConfig "passphrase" ⟨disk, some svc⟩ svc rfl (sampleBackup now)
    (sampleMeta version) material none
  rw [backupKey_of_made hmade, hsaved] at hstep
  exact ⟨backup, _, _, hstep, (restoreKey_of_makeBackup plainPrimitives_lawful hmade).2.1⟩

/-- Two backups in seconds of their own, a new process, and a backup by it. -/
def ownSeconds : List Call :=
  [.start sampleStart, .backup (sampleBackup 0) (sampleMeta 1) [1] none,
    .backup (sampleBackup 1000000000) (sampleMeta 2) [2] none, .start sampleStart,
    .backup (sampleBackup 2000000000) (sampleMeta 3) [3] none]

/-- All backups are kept, and listed until the new process starts. -/
theorem nothingLost_ownSeconds :
    (step plainPrimitives sampleConfig "passphrase").Throughout (FilesKept plainPrimitives) [] Host.new ownSeconds ∧
      (step plainPrimitives sampleConfig "passphrase").Throughout Listed [] Host.new (ownSeconds.take 3) := by
  obtain ⟨svc, disk, hstart⟩ := step_sampleStart
  obtain ⟨first, svc₁, disk₁, hfirst, hnow₁⟩ := step_sampleBackup disk svc 0 1 [1]
  obtain ⟨second, svc₂, disk₂, hsecond, hnow₂⟩ := step_sampleBackup disk₁ svc₁ 1000000000 2 [2]
  constructor
  · apply (nothingLost_of_run plainPrimitives_lawful plainPrimitives_total ownSeconds).1
    simp only [Machine.Along, ownSeconds, hstart, hfirst, hsecond, OwnSecond, kept, made?, removedBy, List.nil_append,
      List.cons_append, List.foldl_cons, List.foldl_nil, List.filter_nil, Option.toList_none, Option.toList_some,
      List.append_nil, List.not_mem_nil, not_false_eq_true, decide_true, List.filter_true, true_and, and_true]
    refine ⟨fun _ hm => hm.elim, fun m hm _ => ?_, fun m hm _ => ?_⟩
    · rw [List.mem_singleton.1 hm, hnow₁]
      decide
    · -- whatever a start answers, both backups are kept
      rcases List.mem_pair.1 (List.mem_of_mem_filter hm) with rfl | rfl
      · rw [hnow₁]
        decide
      · rw [hnow₂]
        decide
  · apply (nothingLost_of_run plainPrimitives_lawful plainPrimitives_total (ownSeconds.take 3)).2
    simp only [Machine.Along, ownSeconds, List.take, hstart, hfirst, Listable]
    exact ⟨rfl, ⟨.inr rfl, rfl, rfl⟩, ⟨.inr rfl, rfl, rfl⟩, trivial⟩

/-- Both backups return `Ok`, and there is one file. -/
theorem not_filesKept_oneSecond :
    (made ((step plainPrimitives sampleConfig "passphrase").trace Host.new oneSecond)).length = 2 ∧
      ¬ FilesKept plainPrimitives ((step plainPrimitives sampleConfig "passphrase").trace Host.new oneSecond)
        ((step plainPrimitives sampleConfig "passphrase").final Host.new oneSecond) := by
  obtain ⟨svc, disk, hstart⟩ := step_sampleStart
  obtain ⟨first, svc₁, disk₁, hfirst, hnow₁⟩ := step_sampleBackup disk svc 0 1 [1]
  obtain ⟨second, svc₂, disk₂, hsecond, hnow₂⟩ := step_sampleBackup disk₁ svc₁ 1 2 [2]
  have htrace : (step plainPrimitives sampleConfig "passphrase").trace Host.new oneSecond =
      [(.start sampleStart, .started (.ok ())),
        (.backup (sampleBackup 0) (sampleMeta 1) [1] none, .backedUp (.ok first)),
        (.backup (sampleBackup 1) (sampleMeta 2) [2] none, .backedUp (.ok second))] := by
    simp only [oneSecond, Machine.trace, hstart, hfirst, hsecond]
  rw [htrace]
  refine ⟨rfl, fun hkept => ?_⟩
  have hnames : fileName 1 first.backedUpAt = fileName 1 second.backedUpAt := by
    rw [hnow₁, hnow₂]
    rfl
  have hown := hkept.own
  simp only [kept, made?, removedBy, List.foldl_cons, List.foldl_nil, List.filter_nil, Option.toList_none,
    List.append_nil, Option.toList_some, List.nil_append, List.not_mem_nil, not_false_eq_true, decide_true,
    List.filter_true, List.map_append, List.map_cons, List.map_nil, List.nodup_append, Made.name] at hown
  exact hown.2.2 _ (List.mem_singleton_self _) _ (List.mem_singleton_self _) hnames

end GmKms.Backup
