import GmKms.Api.Error
import GmKms.Keystore.Repository
import GmKms.Mfa.BackupCodes
import GmKms.Mfa.SecretMigration
import GmKms.Mfa.TotpChecked
/-!
# Stored configurations

`store_totp_config` writes a configuration to `mfa_configs`, `load_totp_config` reads it, and `mfa_verify` compares a
code with those of the loaded secret. The fields pass through columns of 32 bits, and what the write answers is
dropped.
-/

namespace GmKms.Mfa

open Lib
open Api (ApiError)
open Keystore (Crypto hasNul)
open SecretMigration (Database Failure Manager Row mfaConfigs)
open SecretMigration.Manager (created)

/-! ## The table -/

structure ConfigRow where
  userId : String
  totpSecret : Bytes
  totpAlgorithm : String
  totpDigits : Int32
  totpPeriodSecs : Int32
  totpWindow : Int32
  backupCodes : String
  enabled : Bool
  createdAt : DateTime
  updatedAt : DateTime

namespace ConfigRow

def row (r : ConfigRow) : Row :=
  [.text r.userId, .bytea r.totpSecret, .text r.totpAlgorithm, .integer r.totpDigits, .integer r.totpPeriodSecs,
    .integer r.totpWindow, .text r.backupCodes, .boolean r.enabled, .timestamptz r.createdAt, .timestamptz r.updatedAt]

/-- `INSERT ... ON CONFLICT (user_id) DO UPDATE`: a row that is there keeps what the statement does not set. -/
def upsert (r : ConfigRow) : List ConfigRow → List ConfigRow
  | [] => [r]
  | old :: rows =>
    if old.userId = r.userId then { r with enabled := old.enabled, createdAt := old.createdAt } :: rows
    else old :: upsert r rows

/-- The database that `migrate` created, with these rows in `mfa_configs`. -/
def database (rows : List ConfigRow) (lockouts : List Row) : Database :=
  created fun name => if name = mfaConfigs then rows.map row else lockouts

end ConfigRow

/-- `{:?}` of the algorithm. -/
def TotpAlgorithm.debug : TotpAlgorithm → String
  | sha1 => "Sha1"
  | sha256 => "Sha256"
  | sha512 => "Sha512"

/-! ## The manager -/

/-- A manager with what it holds in memory. -/
structure MfaInstance where
  manager : Manager
  totpConfigs : HashMap String TotpConfig
  backupCodes : HashMap String (List String)

/-- What `store_totp_config` reads from outside: the nonce, the time of the database, and the error of the write, if
the database does not answer. -/
structure StoreEnv where
  nonce : Option Bytes
  now : DateTime
  fault : Option String

/-- The row that `store_totp_config` binds; numbers are cast to `i32`. -/
def newConfigRow (text : CodesText) (env : StoreEnv) (userId : String) (encryptedSecret : Bytes) (config : TotpConfig)
    (hashedCodes : List String) : ConfigRow :=
  { userId
    totpSecret := encryptedSecret
    totpAlgorithm := config.algorithm.debug
    totpDigits := (UInt32.ofNat config.digits).toInt32
    totpPeriodSecs := (UInt64.ofNat config.timeStep).toUInt32.toInt32
    totpWindow := (UInt32.ofNat config.window).toInt32
    backupCodes := text.write hashedCodes
    enabled := true
    createdAt := env.now
    updatedAt := env.now }

/-- The database answers and takes the name of the user; the other texts have no NUL. -/
def Written (env : StoreEnv) (userId : String) : Prop := env.fault = none ∧ hasNul userId = false

instance (env : StoreEnv) (userId : String) : Decidable (Written env userId) := instDecidableAnd

namespace MfaInstance

section

variable (crypto : Crypto) (text : CodesText) (uppercase : Char → Text) (digests : Digests)

def storeTotpConfig (i : MfaInstance) (env : StoreEnv) (rows : List ConfigRow) (userId : String) (config : TotpConfig)
    (backupCodes : List String) : Except Failure Unit × MfaInstance × List ConfigRow :=
  match i.manager.encryptSecret crypto env.nonce config.secret with
  | .error failure => (.error failure, i, rows)
  | .ok none =>
    (.error (.error "Cannot store TOTP secret: no KEK configured. Set KMS_KEK before enabling MFA."), i, rows)
  | .ok (some encryptedSecret) =>
    let hashedCodes := backupCodes.map (hashBackupCode uppercase)
    -- `let _ =` drops what the write answers
    let rows :=
      if i.manager.pool && Written env userId then
        (newConfigRow text env userId encryptedSecret config hashedCodes).upsert rows
      else rows
    (.ok (),
      { i with
        totpConfigs := i.totpConfigs.insert userId config
        backupCodes := i.backupCodes.insert userId hashedCodes },
      rows)

/-- The database answers. -/
def loadTotpConfig (i : MfaInstance) (db : Database) (userId : String) : Option TotpConfig :=
  if i.manager.pool then i.manager.loadTotpConfig crypto db userId else i.totpConfigs[userId]?

/-- What `mfa_verify` compares for a user who is not locked out, when the clock stands at `timestamp`. -/
def verifyCode (i : MfaInstance) (db : Database) (userId code : String) (timestamp : ℕ) : Except ApiError Bool :=
  match i.loadTotpConfig crypto db userId with
  | none => .error (.notFound "MFA not configured for user")
  | some config =>
    match TotpGenerator.withSecret config.secret with
    | .error e => .error (.internal e.display)
    | .ok generator => .ok (generator.validateAtTimestamp digests code timestamp)

end

/-! ## What a stored configuration is for -/

section

variable (crypto : Crypto) (i : MfaInstance) (db : Database) (userId : String)

/-- The codes that a request is verified with are those of the configuration, whatever the digests and at any time that
a clock in seconds shows. -/
def VerifiesAs (config : TotpConfig) : Prop :=
  ∀ (digests : Digests), digests.Sized → ∀ (code : String) (timestamp : ℕ), timestamp < 2 ^ 63 →
    (i.verifyCode crypto digests db userId code timestamp = .ok true ↔
      ∃ generator, TotpGenerator.new config = .ok generator ∧ generator.validateAtTimestamp digests code timestamp =
      true)

/-- The configuration is loaded as it was stored, and is the one that codes are verified with. -/
def Survives (config : TotpConfig) : Prop :=
  i.loadTotpConfig crypto db userId = some config ∧ i.VerifiesAs crypto db userId config

end

end MfaInstance

/-- All but the secret is as `TotpGenerator::with_secret` has it. -/
def TotpConfig.IsDefault (config : TotpConfig) : Prop := config = { secret := config.secret }

/-- A `u64` that is the same after a cast to `i32` and back. -/
def FitsInteger (n : ℕ) : Prop := n < 2 ^ 31 ∨ 2 ^ 64 - 2 ^ 31 ≤ n

/-! ## The columns -/

theorem fitsInteger_iff {n : ℕ} (h : n < 2 ^ 64) :
    (UInt64.ofNat n).toUInt32.toInt32.toInt64.toUInt64.toNat = n ↔ FitsInteger n := by
  have hbits : (UInt64.ofNat n).toUInt32.toInt32.toInt64.toUInt64.toNat =
      (((BitVec.ofNat 64 n).setWidth 32).signExtend 64).toNat := rfl
  rw [hbits, BitVec.toNat_signExtend, BitVec.msb_eq_decide, BitVec.toNat_setWidth, BitVec.toNat_setWidth,
    BitVec.toNat_ofNat, Nat.mod_eq_of_lt h, FitsInteger]
  have hlow : n % 2 ^ 32 % 2 ^ 64 = n % 2 ^ 32 := by omega
  rw [hlow]
  split
  · rename_i hsign
    rw [decide_eq_true_eq] at hsign
    omega
  · rename_i hsign
    rw [decide_eq_true_eq] at hsign
    omega

theorem uint32_integer {n : ℕ} (h : n < 2 ^ 32) : (UInt32.ofNat n).toInt32.toUInt32.toNat = n := by
  rw [UInt32.toUInt32_toInt32, UInt32.toNat_ofNat', Nat.mod_eq_of_lt h]

namespace ConfigRow

variable (crypto : Crypto) (m : Manager)

/-- The configuration that the columns of a row are decoded to. -/
def config (r : ConfigRow) (secret : Bytes) : TotpConfig :=
  { secret
    timeStep := r.totpPeriodSecs.toInt64.toUInt64.toNat
    digits := r.totpDigits.toUInt32.toNat
    algorithm :=
      match r.totpAlgorithm with
      | "Sha256" => .sha256
      | "Sha512" => .sha512
      | _ => .sha1
    window := r.totpWindow.toUInt32.toNat }

theorem configOf_row (rows : List Row) (r : ConfigRow) :
    m.configOf crypto ⟨SecretMigration.mfaConfigsColumns, rows⟩ r.row =
    (m.decryptSecret crypto r.totpSecret).map r.config := by
  have hvalue : ∀ (name : String) (i : ℕ), SecretMigration.mfaConfigsColumns.findIdx? (fun c => c.1 = name) = some i →
      (SecretMigration.Table.mk SecretMigration.mfaConfigsColumns rows).value name r.row = (r.row[i]?).getD .null := by
    intro name i hname
    rw [SecretMigration.Table.value, SecretMigration.Table.column?, hname]
    rfl
  unfold SecretMigration.Manager.configOf
  rw [hvalue "totp_secret" 1 (by decide +kernel), hvalue "totp_algorithm" 2 (by decide +kernel),
    hvalue "totp_digits" 3 (by decide +kernel), hvalue "totp_period_secs" 4 (by decide +kernel),
    hvalue "totp_window" 5 (by decide +kernel)]
  change (m.decryptSecret crypto r.totpSecret).bind (fun secret => some (r.config secret)) = _
  rw [Option.map_eq_bind]
  rfl

theorem value_userId (rows : List Row) (r : ConfigRow) :
    (SecretMigration.Table.mk SecretMigration.mfaConfigsColumns rows).value "user_id" r.row = .text r.userId := by
  have hname : SecretMigration.mfaConfigsColumns.findIdx? (fun c => c.1 = "user_id") = some 0 := by decide +kernel
  rw [SecretMigration.Table.value, SecretMigration.Table.column?, hname]
  rfl

/-- What `load_totp_config` finds is the first row of the user, decoded. -/
theorem loadTotpConfig_database (rows : List ConfigRow) (lockouts : List Row) (userId : String) :
    m.loadTotpConfig crypto (database rows lockouts) userId =
      (rows.find? fun r => r.userId = userId).bind fun r => (m.decryptSecret crypto r.totpSecret).map r.config := by
  have htable : (database rows lockouts)[mfaConfigs]? = some ⟨SecretMigration.mfaConfigsColumns, rows.map row⟩ := by
    have hmigrate : (Database.migrate ∅)[mfaConfigs]? = some ⟨SecretMigration.mfaConfigsColumns, []⟩ := by
      have hlockout : mfaConfigs ≠ "mfa_lockout_state" := by decide +kernel
      simp only [Database.migrate, Database.createTableIfNotExists, HashMap.getElem?_insert,
        Std.ExtTreeMap.getElem?_empty,
        if_neg hlockout, if_neg hlockout.symm, if_true]
    rw [database, created, Std.ExtTreeMap.getElem?_map, hmigrate]
    rfl
  unfold SecretMigration.Manager.loadTotpConfig
  rw [htable]
  simp only [Option.bind_eq_bind, Option.bind_some, List.find?_map, Function.comp_def, value_userId,
    SecretMigration.SqlValue.text.injEq]
  cases rows.find? (fun r => r.userId = userId) with
  | none => rfl
  | some r => exact configOf_row crypto m (rows.map row) r

theorem find?_upsert (r : ConfigRow) (rows : List ConfigRow) :
    ∃ r', (r.upsert rows).find? (fun x => x.userId = r.userId) = some r' ∧ r'.totpSecret = r.totpSecret ∧
      r'.config = r.config := by
  induction rows with
  | nil => exact ⟨r, by simp [upsert], rfl, rfl⟩
  | cons old rows ih =>
    by_cases hkey : old.userId = r.userId
    · exact ⟨{ r with enabled := old.enabled, createdAt := old.createdAt }, by simp [upsert, hkey], rfl, rfl⟩
    · obtain ⟨r', hfind, hsame⟩ := ih
      exact ⟨r', by simpa [upsert, hkey] using hfind, hsame⟩

end ConfigRow

/-- A secret that was encrypted is decrypted. -/
theorem decryptSecret_of_encryptSecret {crypto : Crypto} (hcrypto : crypto.Lawful) {m : Manager} {nonce : Option Bytes}
    {secret encrypted : Bytes} (hnonce : ∀ bytes, nonce = some bytes → bytes.length = 12)
    (h : m.encryptSecret crypto nonce secret = .ok (some encrypted)) :
    m.decryptSecret crypto encrypted = some secret := by
  unfold SecretMigration.Manager.encryptSecret at h
  unfold SecretMigration.Manager.decryptSecret
  cases hkek : m.kek with
  | none =>
    rw [hkek] at h
    cases h
  | some kek =>
    rw [hkek] at h
    dsimp only at h ⊢
    cases hkey : crypto.aesUnboundKey kek with
    | error e =>
      rw [hkey] at h
      cases h
    | ok _ =>
      rw [hkey] at h
      cases nonce with
      | none => cases h
      | some nonce =>
        dsimp only at h
        have hlength := hnonce nonce rfl
        cases hseal : crypto.aesSeal kek nonce [] secret with
        | error e =>
          rw [hseal] at h
          cases h
        | ok sealed =>
          obtain ⟨ciphertext, tag⟩ := sealed
          rw [hseal] at h
          cases h
          have htag := hcrypto.tag_length hseal
          have hlong : ¬ (nonce ++ ciphertext ++ tag).length < 12 + 16 := by
            simp only [List.length_append]
            omega
          have htake : (nonce ++ ciphertext ++ tag).take 12 = nonce := by
            rw [List.append_assoc, List.take_left' hlength]
          have hdrop : (nonce ++ ciphertext ++ tag).drop 12 = ciphertext ++ tag := by
            rw [List.append_assoc, List.drop_left' hlength]
          rw [if_neg hlong, htake, hdrop, hcrypto.open_seal hseal]
          rfl

/-- All but the time step comes back from the columns as it was. -/
theorem config_newConfigRow (text : CodesText) (env : StoreEnv) (userId : String) (encrypted : Bytes)
    {config : TotpConfig}
    (hdigits : config.digits < 2 ^ 32) (hwindow : config.window < 2 ^ 32) (codes : List String) :
    (newConfigRow text env userId encrypted config codes).config config.secret =
      { config with timeStep := (UInt64.ofNat config.timeStep).toUInt32.toInt32.toInt64.toUInt64.toNat } := by
  have halgorithm : (match config.algorithm.debug with
      | "Sha256" => .sha256
      | "Sha512" => .sha512
      | _ => .sha1 : TotpAlgorithm) = config.algorithm := by
    cases config.algorithm <;> rfl
  simp only [newConfigRow, ConfigRow.config, uint32_integer hdigits, uint32_integer hwindow, halgorithm]

/-! ## Loading after storing -/

namespace MfaInstance

variable {crypto : Crypto} {text : CodesText} {uppercase : Char → Text} {i i' : MfaInstance} {env : StoreEnv}
  {rows : List ConfigRow} {userId : String} {config : TotpConfig} {codes : List String} {kek : Bytes}

/-- What any instance with the same key encryption key loads afterwards. -/
theorem loadTotpConfig_storeTotpConfig (hcrypto : crypto.Lawful) (hi : i.manager = ⟨true, some kek⟩)
    (hi' : i'.manager = ⟨true, some kek⟩) (hnonce : ∀ bytes, env.nonce = some bytes → bytes.length = 12)
    (hdigits : config.digits < 2 ^ 32) (hwindow : config.window < 2 ^ 32)
    (hok : (i.storeTotpConfig crypto text uppercase env rows userId config codes).1 = .ok ()) (lockouts : List Row) :
    i'.loadTotpConfig crypto
        (ConfigRow.database (i.storeTotpConfig crypto text uppercase env rows userId config codes).2.2 lockouts)
          userId =
      if Written env userId then
        some { config with timeStep := (UInt64.ofNat config.timeStep).toUInt32.toInt32.toInt64.toUInt64.toNat }
      else i'.loadTotpConfig crypto (ConfigRow.database rows lockouts) userId := by
  unfold storeTotpConfig at hok ⊢
  cases hencrypted : i.manager.encryptSecret crypto env.nonce config.secret with
  | error failure =>
    rw [hencrypted] at hok
    cases hok
  | ok encrypted =>
    rw [hencrypted] at hok
    cases encrypted with
    | none => cases hok
    | some encrypted =>
      dsimp only
      by_cases hwritten : Written env userId
      · rw [if_pos hwritten, hi, if_pos (by simp [hwritten])]
        obtain ⟨r, hfind, hsecret, hconfig⟩ :=
          (newConfigRow text env userId encrypted config (codes.map (hashBackupCode uppercase))).find?_upsert rows
        rw [loadTotpConfig, hi', if_pos rfl, ConfigRow.loadTotpConfig_database]
        change List.find? (fun x : ConfigRow => x.userId = userId) _ = _ at hfind
        rw [hfind, Option.bind_some, hsecret, hconfig]
        change ((⟨true, some kek⟩ : Manager).decryptSecret crypto encrypted).map _ = _
        rw [decryptSecret_of_encryptSecret hcrypto hnonce (hi ▸ hencrypted), Option.map_some,
          config_newConfigRow text env userId encrypted hdigits hwindow]
      · rw [if_neg hwritten, if_neg (by simp [hwritten])]

end MfaInstance

/-! ## Codes that show their counter -/

theorem TotpGenerator.length_computeHotp (digests : Digests) (g : TotpGenerator) (counter : ℕ) :
    (g.computeHotp digests counter).toList.length = g.config.digits := by
  unfold computeHotp
  extract_lets counterBytes mac offset binary otp
  have hotp : otp.length ≤ g.config.digits := by
    rw [Nat.length_toDigits_le_iff (by decide) (by have := g.digits_ge; omega)]
    exact Nat.mod_lt _ (by positivity)
  rw [String.toList_ofList, List.length_append, List.length_replicate]
  omega

/-- A digest of 20 bytes that keeps four bytes of the message, and ends with where they stand. -/
def exposing (message : Bytes) : Bytes :=
  List.replicate 4 0 ++ (message.drop 68 ++ List.replicate 4 0).take 4 ++ List.replicate 11 0 ++ [4]

/-- With SHA-1 a code is its counter, and with the other digests every code is zero. -/
def exposingDigests : Digests := ⟨exposing, fun _ => List.replicate 32 0, fun _ => List.replicate 64 0⟩

theorem sized_exposingDigests : exposingDigests.Sized where
  sha1 message := by simp [exposingDigests, exposing]
  sha256 _ := rfl
  sha512 _ := rfl

theorem hmac_exposing (key : Bytes) {low : Bytes} (hlow : low.length = 4) :
    hmac exposing 64 key (List.replicate 4 0 ++ low) = List.replicate 4 0 ++ low ++ List.replicate 11 0 ++ [4] := by
  unfold hmac
  generalize hkey : (if 64 < key.length then exposing key else key) = k
  dsimp only
  have hk : k.length ≤ 64 := by
    rw [← hkey]
    split
    · simp [exposing]
    · omega
  have hpadded : (k ++ List.replicate (64 - k.length) 0).length = 64 := by
    rw [List.length_append, List.length_replicate]
    omega
  generalize k ++ List.replicate (64 - k.length) 0 = paddedKey at hpadded
  -- 64 bytes of the key and the first four of the message or of the inner digest
  have hexposing : ∀ (pad : UInt8) (rest : Bytes),
      exposing (paddedKey.map (pad ^^^ ·) ++ (List.replicate 4 0 ++ low ++ rest)) =
        List.replicate 4 0 ++ low ++ List.replicate 11 0 ++ [4] := by
    intro pad rest
    have hdrop : (paddedKey.map (pad ^^^ ·) ++ (List.replicate 4 0 ++ low ++ rest)).drop 68 = low ++ rest := by
      rw [← List.append_assoc, ← List.append_assoc, List.append_assoc, List.drop_left']
      simp [hpadded]
    rw [exposing, hdrop, List.append_assoc low, List.take_left' hlow]
  have hinner := hexposing 0x36 []
  rw [List.append_nil] at hinner
  rw [hinner]
  have houter := hexposing 0x5c (List.replicate 11 0 ++ [4])
  rwa [← List.append_assoc (List.replicate 4 0 ++ low)] at houter

namespace TotpGenerator

variable {g : TotpGenerator}

theorem config_of_new {config : TotpConfig} (h : new config = .ok g) : g.config = config := by
  unfold new at h
  split_ifs at h
  cases h
  rfl

theorem computeHotp_exposing (hdigits : g.config.digits = 6) (halgorithm : g.config.algorithm = .sha1) {counter : ℕ}
    {low : Bytes} (hlow : low.length = 4) (hcounter : Sha256.toBytes counter 8 = List.replicate 4 0 ++ low) :
    g.computeHotp exposingDigests counter =
      hotpValue 6 (List.replicate 4 0 ++ low ++ List.replicate 11 0 ++ [4]) := by
  rw [g.computeHotp_eq_hotp sized_exposingDigests, hotp, mac, halgorithm, hdigits, hcounter]
  exact congrArg (hotpValue 6) (hmac_exposing g.config.secret hlow)

theorem computeHotp_exposing_zero (hdigits : g.config.digits = 6) (halgorithm : g.config.algorithm = .sha1) :
    g.computeHotp exposingDigests 0 = "000000" := by
  rw [computeHotp_exposing hdigits halgorithm (show ([0, 0, 0, 0] : Bytes).length = 4 from rfl) (by decide +kernel)]
  decide +kernel

theorem computeHotp_exposing_one (hdigits : g.config.digits = 6) (halgorithm : g.config.algorithm = .sha1) :
    g.computeHotp exposingDigests 1 = "000001" := by
  rw [computeHotp_exposing hdigits halgorithm (show ([0, 0, 0, 1] : Bytes).length = 4 from rfl) (by decide +kernel)]
  decide +kernel

theorem computeHotp_exposing_two (hdigits : g.config.digits = 6) (halgorithm : g.config.algorithm = .sha1) :
    g.computeHotp exposingDigests 2 = "000002" := by
  rw [computeHotp_exposing hdigits halgorithm (show ([0, 0, 0, 2] : Bytes).length = 4 from rfl) (by decide +kernel)]
  decide +kernel

theorem computeHotp_exposing_of_ne (hdigits : g.config.digits = 6) (halgorithm : g.config.algorithm ≠ .sha1)
    (counter : ℕ) :
    g.computeHotp exposingDigests counter = "000000" := by
  rw [g.computeHotp_eq_hotp sized_exposingDigests, hotp, mac, hdigits]
  cases hcase : g.config.algorithm with
  | sha1 => exact absurd hcase halgorithm
  | sha256 =>
    change hotpValue 6 (List.replicate 32 0) = _
    decide +kernel
  | sha512 =>
    change hotpValue 6 (List.replicate 64 0) = _
    decide +kernel

end TotpGenerator

/-! ## Which configurations are verified as stored -/

namespace MfaInstance

variable {crypto : Crypto} {i : MfaInstance} {db : Database} {userId : String} {config : TotpConfig}

/-- A loaded configuration verifies a code with the defaults around its secret. -/
theorem verifyCode_of_load {g₀ : TotpGenerator} (hload : i.loadTotpConfig crypto db userId = some config)
    (hg₀ : TotpGenerator.withSecret config.secret = .ok g₀) (digests : Digests) (code : String) (timestamp : ℕ) :
    i.verifyCode crypto digests db userId code timestamp = .ok (g₀.validateAtTimestamp digests code timestamp) := by
  rw [verifyCode, hload]
  dsimp only
  rw [hg₀]

theorem isDefault_of_validate_iff {g g₀ : TotpGenerator} (hg₀ : g₀.config = { secret := g.config.secret })
    (h : ∀ (digests : Digests), digests.Sized → ∀ (code : String) (timestamp : ℕ), timestamp < 2 ^ 63 →
      (g₀.validateAtTimestamp digests code timestamp = true ↔ g.validateAtTimestamp digests code timestamp = true)) :
    g.config.IsDefault := by
  have hexposing := h exposingDigests sized_exposingDigests
  simp only [TotpGenerator.validateAtTimestamp_iff, hg₀] at hexposing
  have hdigits₀ : g₀.config.digits = 6 := by rw [hg₀]
  have halgorithm₀ : g₀.config.algorithm = .sha1 := by rw [hg₀]
  have hzero₀ := TotpGenerator.computeHotp_exposing_zero hdigits₀ halgorithm₀
  have hone₀ := TotpGenerator.computeHotp_exposing_one hdigits₀ halgorithm₀
  have htwo₀ := TotpGenerator.computeHotp_exposing_two hdigits₀ halgorithm₀
  have hdigits : g.config.digits = 6 := by
    obtain ⟨counter, -, -, hcode⟩ := (hexposing "000000" 0 (by decide)).1 ⟨0, by omega, by omega, hzero₀⟩
    rw [← g.length_computeHotp exposingDigests counter, hcode]
    rfl
  have halgorithm : g.config.algorithm = .sha1 := by
    by_contra hne
    obtain ⟨counter, -, -, hcode⟩ := (hexposing "000001" 0 (by decide)).1 ⟨1, by omega, by omega, hone₀⟩
    rw [TotpGenerator.computeHotp_exposing_of_ne hdigits hne] at hcode
    exact absurd hcode (by decide)
  have hzero := TotpGenerator.computeHotp_exposing_zero hdigits halgorithm
  have hone := TotpGenerator.computeHotp_exposing_one hdigits halgorithm
  have htwo := TotpGenerator.computeHotp_exposing_two hdigits halgorithm
  have hwindow : g.config.window = 1 := by
    rcases Nat.lt_trichotomy g.config.window 1 with hlow | heq | hhigh
    · obtain ⟨counter, hcounter, -, hcode⟩ := (hexposing "000001" 0 (by decide)).1 ⟨1, by omega, by omega, hone₀⟩
      have hcounter : counter = 0 := by
        rw [Nat.zero_div] at hcounter
        omega
      rw [hcounter, hzero] at hcode
      exact absurd hcode (by decide)
    · exact heq
    · obtain ⟨counter, hcounter, -, hcode⟩ :=
        (hexposing "000002" 0 (by decide)).2 ⟨2, by rw [Nat.zero_div]; omega, by rw [Nat.zero_div]; omega, htwo⟩
      have hcases : counter = 0 ∨ counter = 1 := by omega
      rcases hcases with rfl | rfl
      · exact absurd (hzero₀.symm.trans hcode) (by decide)
      · exact absurd (hone₀.symm.trans hcode) (by decide)
  rw [hwindow] at hexposing
  have htimeStep : g.config.timeStep = 30 := by
    rcases Nat.lt_trichotomy g.config.timeStep 30 with hshort | heq | hlong
    · -- the second step has begun, and the default one has not
      have hself : g.config.timeStep / g.config.timeStep = 1 := Nat.div_self g.timeStep_pos
      obtain ⟨counter, hcounter, -, hcode⟩ :=
        (hexposing "000002" g.config.timeStep (by omega)).2 ⟨2, by omega, by omega, htwo⟩
      have hcases : counter = 0 ∨ counter = 1 := by omega
      rcases hcases with rfl | rfl
      · exact absurd (hzero₀.symm.trans hcode) (by decide)
      · exact absurd (hone₀.symm.trans hcode) (by decide)
    · exact heq
    · have hfirst : 30 / g.config.timeStep = 0 := Nat.div_eq_of_lt hlong
      obtain ⟨counter, hcounter, -, hcode⟩ := (hexposing "000002" 30 (by decide)).1 ⟨2, by omega, by omega, htwo₀⟩
      have hcases : counter = 0 ∨ counter = 1 := by omega
      rcases hcases with rfl | rfl
      · exact absurd (hzero.symm.trans hcode) (by decide)
      · exact absurd (hone.symm.trans hcode) (by decide)
  rw [TotpConfig.IsDefault]
  cases hconfig : g.config
  simp_all

/-- Among the loaded configurations, those that are verified as stored are the default ones. -/
theorem verifiesAs_iff {g : TotpGenerator} (hg : TotpGenerator.new config = .ok g)
    (hload : i.loadTotpConfig crypto db userId = some config) : i.VerifiesAs crypto db userId config ↔
      config.IsDefault := by
  have hconfig : g.config = config := TotpGenerator.config_of_new hg
  obtain ⟨g₀, hg₀⟩ : ∃ g₀, TotpGenerator.withSecret config.secret = .ok g₀ := by
    have hsecret := g.secret_ne
    rw [hconfig] at hsecret
    simp [TotpGenerator.withSecret, TotpGenerator.new, hsecret]
  have hg₀config := TotpGenerator.withSecret_eq_ok hg₀
  constructor
  · intro hverifies
    rw [← hconfig]
    rw [← hconfig] at hg₀config
    refine isDefault_of_validate_iff hg₀config fun digests hdigests code timestamp htimestamp => ?_
    have hiff := hverifies digests hdigests code timestamp htimestamp
    rw [verifyCode_of_load hload hg₀, Except.ok.injEq] at hiff
    rw [hiff]
    constructor
    · rintro ⟨g', hg', hvalid⟩
      rw [hg, Except.ok.injEq] at hg'
      rwa [hg']
    · intro hvalid
      exact ⟨g, hg, hvalid⟩
  · intro hdefault digests _ code timestamp _
    rw [verifyCode_of_load hload hg₀, Except.ok.injEq]
    have hnew : TotpGenerator.new config = .ok g₀ := by
      rw [hdefault]
      exact hg₀
    constructor
    · intro hvalid
      exact ⟨g₀, hnew, hvalid⟩
    · rintro ⟨g', hg', hvalid⟩
      rw [hnew, Except.ok.injEq] at hg'
      rwa [hg']

/-- What is stored with `Ok` is loaded as it was if the database took it and the time step fits, or had it before. It is
also verified as it was if all but the secret is the default. -/
theorem survives_iff (hcrypto : crypto.Lawful) {text : CodesText} {uppercase : Char → Text} {i' : MfaInstance}
    {env : StoreEnv} {rows : List ConfigRow} {codes : List String} {kek : Bytes} (hi : i.manager = ⟨true, some kek⟩)
    (hi' : i'.manager = ⟨true, some kek⟩) (hnonce : ∀ bytes, env.nonce = some bytes → bytes.length = 12)
    {g : TotpGenerator} (hg : TotpGenerator.new config = .ok g) (htimeStep : config.timeStep < 2 ^ 64)
    (hwindow : config.window < 2 ^ 32)
    (hok : (i.storeTotpConfig crypto text uppercase env rows userId config codes).1 = .ok ()) (lockouts : List Row) :
    let after := ConfigRow.database (i.storeTotpConfig crypto text uppercase env rows userId config codes).2.2 lockouts
    let before := ConfigRow.database rows lockouts
    (i'.loadTotpConfig crypto after userId = some config ↔
        if Written env userId then FitsInteger config.timeStep else i'.loadTotpConfig crypto before userId =
          some config) ∧
      (i'.Survives crypto after userId config ↔
        (Written env userId ∨ i'.loadTotpConfig crypto before userId = some config) ∧ config.IsDefault) := by
  intro after before
  have hconfig : g.config = config := TotpGenerator.config_of_new hg
  have hdigits : config.digits < 2 ^ 32 := by
    have hle := g.digits_le
    rw [hconfig] at hle
    omega
  have hload := loadTotpConfig_storeTotpConfig hcrypto hi hi' hnonce hdigits hwindow hok lockouts
  have hloaded : i'.loadTotpConfig crypto after userId = some config ↔
      if Written env userId then FitsInteger config.timeStep else i'.loadTotpConfig crypto before userId =
        some config := by
    rw [hload]
    by_cases hwritten : Written env userId
    · rw [if_pos hwritten, if_pos hwritten, ← fitsInteger_iff htimeStep, Option.some.injEq]
      exact ⟨fun h => congrArg TotpConfig.timeStep h, fun h => by rw [h]⟩
    · rw [if_neg hwritten, if_neg hwritten]
  refine ⟨hloaded, ?_⟩
  have hsurvives : i'.Survives crypto after userId config ↔
      i'.loadTotpConfig crypto after userId = some config ∧ config.IsDefault :=
    and_congr_right fun h => verifiesAs_iff hg h
  rw [hsurvives, hloaded]
  refine and_congr_left fun hdefault => ?_
  have hfits : FitsInteger config.timeStep := by
    rw [hdefault]
    exact .inl (show 30 < 2 ^ 31 by decide)
  by_cases hwritten : Written env userId
  · simp [hwritten, hfits]
  · simp [hwritten]

end MfaInstance

/-! ## A configuration of eight digits -/

def eightDigits : TotpConfig := { secret := [1, 2, 3], digits := 8 }

def sampleInstance : MfaInstance := ⟨⟨true, some (List.replicate 32 1)⟩, ∅, ∅⟩

def sampleStoreEnv : StoreEnv := ⟨some (List.replicate 12 0), 0, none⟩

theorem length_sampleNonce : ∀ bytes, sampleStoreEnv.nonce = some bytes → bytes.length = 12 := by
  rintro _ ⟨⟩
  rfl

theorem survives_iff_eightDigits :
    let stored := sampleInstance.storeTotpConfig .plain MfaRun.jsonCodes MfaRun.asciiUppercase sampleStoreEnv []
      "user-1"
      eightDigits []
    let after := ConfigRow.database stored.2.2 []
    let before := ConfigRow.database [] []
    (sampleInstance.loadTotpConfig .plain after "user-1" = some eightDigits ↔
        if Written sampleStoreEnv "user-1" then FitsInteger eightDigits.timeStep
        else sampleInstance.loadTotpConfig .plain before "user-1" = some eightDigits) ∧
      (sampleInstance.Survives .plain after "user-1" eightDigits ↔
        (Written sampleStoreEnv "user-1" ∨ sampleInstance.loadTotpConfig .plain before "user-1" = some eightDigits) ∧
          eightDigits.IsDefault) :=
  MfaInstance.survives_iff Crypto.plain_lawful rfl rfl length_sampleNonce rfl (by decide) (by decide) rfl []

/-- A configuration that is stored and loaded is not the one that codes are verified with. -/
theorem not_survives_eightDigits :
    let stored := sampleInstance.storeTotpConfig .plain MfaRun.jsonCodes MfaRun.asciiUppercase sampleStoreEnv []
      "user-1"
      eightDigits []
    stored.1 = .ok () ∧ ¬ sampleInstance.Survives .plain (ConfigRow.database stored.2.2 []) "user-1" eightDigits := by
  refine ⟨rfl, ?_⟩
  rintro ⟨hload, hverifies⟩
  have hdefault := (MfaInstance.verifiesAs_iff rfl hload).1 hverifies
  exact absurd (congrArg TotpConfig.digits hdefault) (by decide)

end GmKms.Mfa
