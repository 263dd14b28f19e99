import GmKms.Api.Error
import GmKms.Mfa.BackupCodes
import GmKms.Mfa.Lockout
import GmKms.Mfa.Totp
/-!
# Verification requests

`mfa_verify` and `mfa_verify_backup` as the queries they make one after the other. The steps of any
number of requests take place in any order, each at a time of its own, and any query of the database
may fail. What a request does to the audit log and to the API key it came with is left out.
-/

namespace GmKms.Mfa

open Lib
open Api (ApiError)

/-- What a request does next. -/
inductive Stage where
  | lockoutRemainingSecs
  | loadTotpConfig
  | verify (generator : TotpGenerator)
  | recordFailedTotpAttempt
  /-- The second query of `record_failed_totp_attempt`. -/
  | setLockedUntil
  | failedAttemptCount
  | clearFailedAttempts
  | loadBackupCodes
  | consumeBackupCode (codes : List String)
  | updateBackupCodes (codes : List String)
  | recordBackupCodeUsage
  | resetBackupCodeUsage (backup : Bool)

structure Verification where
  userId : String
  code : String
  stage : Stage

/-- The JSON of a verification that was carried out. -/
inductive VerifyResponse where
  | valid
  | invalid (attemptsRemaining : UInt32)
  | backupCodeUsed
  | backupCodeInvalid
  deriving DecidableEq

/-- What a manager takes from elsewhere: `decryptSecret` is AES-GCM under the KEK, and `uppercase` the
table of `char::to_uppercase`. -/
structure MfaEnv where
  digests : Digests
  decryptSecret : Bytes → Option Bytes
  text : CodesText
  uppercase : Char → Text

/-- The configurations and codes are those of the table `mfa_configs` where there is a pool, and the
secrets and codes in memory where there is none. -/
structure VerifyState where
  now : DateTime
  manager : MfaManager
  totpSecrets : HashMap String Bytes
  backupCodes : HashMap String String
  memoryCodes : HashMap String (List String)
  requests : ℕ → Option Verification

inductive VerifyOp where
  | mfaVerify (userId code : String)
  | mfaVerifyBackup (userId code : String)
  /-- The request goes on. -/
  | advance

/-- A step of a request, `elapsed` nanoseconds after the one before; its query fails unless the
database is `available`. -/
structure VerifyInput where
  elapsed : ℕ
  available : Bool
  request : ℕ
  op : VerifyOp

inductive VerifyReply where
  /-- There is no such request, or the number is taken. -/
  | idle
  | pending
  | compared (userId : String) (backup valid : Bool) (now : DateTime)
  | returned (response : Except ApiError VerifyResponse)

namespace MfaManager

/-- The first query of `record_failed_totp_attempt`: the attempts, if the table counted them. -/
def insertFailedAttempt (table : LockoutTable) (userId : String) : Option ℕ × LockoutTable :=
  match incrementInteger (table.row userId).failedAttempts with
  | none => (none, table)
  | some attempts => (some attempts, table.insert userId { table.row userId with failedAttempts := attempts })

/-- The second. -/
def setLockedUntil (table : LockoutTable) (now : DateTime) (userId : String) : LockoutTable :=
  table.update userId fun row => { row with lockedUntil := some (sqlNow now + totpLockoutSecs * 1000000000) }

/-- The two queries with nothing in between. -/
theorem recordFailedTotpAttempt_pool (m : MfaManager) {table : LockoutTable} (hpool : m.pool = some table)
    (now : DateTime)
    (userId : String) : m.recordFailedTotpAttempt now userId =
      match insertFailedAttempt table userId with
      | (none, _) => (false, m)
      | (some attempts, table) =>
        if maxTotpAttempts ≤ .ofNat attempts then (true, { m with pool := some (setLockedUntil table now userId) })
        else (false, { m with pool := some table }) := by
  unfold recordFailedTotpAttempt insertFailedAttempt
  rw [hpool]
  dsimp only
  cases incrementInteger (table.row userId).failedAttempts with
  | none => rfl
  | some attempts => rfl

end MfaManager

namespace VerifyState

variable (env : MfaEnv) (s : VerifyState)

/-- Without a pool no query can fail. -/
def answers (available : Bool) : Bool := s.manager.pool.isNone || available

def loadTotpConfig (userId : String) (available : Bool) : Option Bytes :=
  match s.manager.pool with
  | some _ => if available then s.totpSecrets[userId]?.bind env.decryptSecret else none
  | none => s.totpSecrets[userId]?

def loadBackupCodes (userId : String) (available : Bool) : Option (List String) :=
  match s.manager.pool with
  | some _ => if available then s.backupCodes[userId]?.bind env.text.read else none
  | none => s.memoryCodes[userId]?

def updateBackupCodes (userId : String) (codes : List String) (available : Bool) : VerifyState :=
  let backupCodes :=
    if s.manager.pool.isSome && available && (s.backupCodes[userId]?).isSome then
      s.backupCodes.insert userId (env.text.write codes)
    else s.backupCodes
  { s with backupCodes, memoryCodes := s.memoryCodes.insert userId codes }

def goOn (request : ℕ) (v : Verification) (stage : Stage) : VerifyState :=
  { s with requests := Function.update s.requests request (some { v with stage }) }

def finish (request : ℕ) : VerifyState := { s with requests := Function.update s.requests request none }

/-- A query whose result is dropped. -/
def execute (available : Bool) (query : MfaManager → MfaManager) : VerifyState :=
  if s.answers available then { s with manager := query s.manager } else s

def tooManyAttempts : ApiError :=
  .tooManyRequests s!"Too many failed attempts. Account locked for {totpLockoutSecs} seconds"

def limitExceeded : ApiError :=
  .tooManyRequests "Backup code usage limit exceeded. Please use TOTP or reset MFA"

def mfaVerify (available : Bool) (request : ℕ) (userId code : String) : VerifyReply × VerifyState :=
  -- a lockout that cannot be read is none
  if s.answers available && s.manager.isLockedOut s.now userId then
    (.pending, s.goOn request ⟨userId, code, .loadTotpConfig⟩ .lockoutRemainingSecs)
  else (.pending, s.goOn request ⟨userId, code, .loadTotpConfig⟩ .loadTotpConfig)

def mfaVerifyBackup (available : Bool) (request : ℕ) (userId code : String) : VerifyReply × VerifyState :=
  let usage := if s.answers available then s.manager.backupCodeUsageCount userId else 0
  if maxBackupCodeUses ≤ usage then (.returned (.error limitExceeded), s)
  else (.pending, s.goOn request ⟨userId, code, .loadBackupCodes⟩ .loadBackupCodes)

def recordFailedTotpAttempt (available : Bool) (request : ℕ) (v : Verification) : VerifyReply × VerifyState :=
  match s.manager.pool with
  | some table =>
    match if available then MfaManager.insertFailedAttempt table v.userId else (none, table) with
    | (none, _) => (.pending, s.goOn request v .failedAttemptCount)
    | (some attempts, table) =>
      let s := { s with manager := { s.manager with pool := some table } }
      if maxTotpAttempts ≤ .ofNat attempts then (.pending, s.goOn request v .setLockedUntil)
      else (.pending, s.goOn request v .failedAttemptCount)
  | none =>
    match s.manager.recordFailedTotpAttempt s.now v.userId with
    | (true, manager) => (.returned (.error tooManyAttempts), finish { s with manager } request)
    | (false, manager) => (.pending, goOn { s with manager } request v .failedAttemptCount)

def recordBackupCodeUsage (available : Bool) (request : ℕ) (v : Verification) : VerifyReply × VerifyState :=
  let (exceeded, manager) := if s.answers available then s.manager.recordBackupCodeUsage v.userId
    else (false, s.manager)
  (.returned (if exceeded then .error limitExceeded else .ok .backupCodeInvalid), finish { s with manager } request)

def advance (available : Bool) (request : ℕ) (v : Verification) : VerifyReply × VerifyState :=
  match v.stage with
  | .lockoutRemainingSecs =>
    let remaining := if s.answers available then s.manager.lockoutRemainingSecs s.now v.userId else 0
    (.returned (.error (.tooManyRequests s!"Account locked. Try again in {remaining} seconds")), s.finish request)
  | .loadTotpConfig =>
    match s.loadTotpConfig env v.userId available with
    | none => (.returned (.error (.notFound "MFA not configured for user")), s.finish request)
    | some secret =>
      match TotpGenerator.withSecret secret with
      | .error e => (.returned (.error (.internal e.display)), s.finish request)
      | .ok generator => (.pending, s.goOn request v (.verify generator))
  | .verify generator =>
    let valid := generator.validateAtTimestamp env.digests v.code (asSecs s.now)
    (.compared v.userId false valid s.now,
      s.goOn request v (if valid then .clearFailedAttempts else .recordFailedTotpAttempt))
  | .recordFailedTotpAttempt => s.recordFailedTotpAttempt available request v
  | .setLockedUntil =>
    let lock (m : MfaManager) : MfaManager := { m with pool := m.pool.map (MfaManager.setLockedUntil · s.now v.userId) }
    (.returned (.error tooManyAttempts), (s.execute available lock).finish request)
  | .failedAttemptCount =>
    let attempts := if s.answers available then s.manager.failedAttemptCount v.userId else 0
    -- `saturating_sub`
    (.returned (.ok (.invalid (if attempts ≤ maxTotpAttempts then maxTotpAttempts - attempts else 0))),
      s.finish request)
  | .clearFailedAttempts =>
    (.pending, (s.execute available (·.clearFailedAttempts v.userId)).goOn request v (.resetBackupCodeUsage false))
  | .loadBackupCodes =>
    match s.loadBackupCodes env v.userId available with
    | none => (.pending, s.goOn request v .recordBackupCodeUsage)
    | some codes => (.pending, s.goOn request v (.consumeBackupCode codes))
  | .consumeBackupCode codes =>
    match codes.findIdx? fun c => c = hashBackupCode env.uppercase v.code with
    | none => (.compared v.userId true false s.now, s.goOn request v .recordBackupCodeUsage)
    | some pos => (.compared v.userId true true s.now, s.goOn request v (.updateBackupCodes (codes.eraseIdx pos)))
  | .updateBackupCodes codes =>
    (.pending, (s.updateBackupCodes env v.userId codes available).goOn request v (.resetBackupCodeUsage true))
  | .recordBackupCodeUsage => s.recordBackupCodeUsage available request v
  | .resetBackupCodeUsage backup =>
    (.returned (.ok (if backup then .backupCodeUsed else .valid)),
      (s.execute available (·.resetBackupCodeUsage v.userId)).finish request)

def step : Machine VerifyState VerifyInput VerifyReply := fun s i =>
  let s := { s with now := s.now + i.elapsed }
  match s.requests i.request with
  | none =>
    match i.op with
    | .mfaVerify userId code => s.mfaVerify i.available i.request userId code
    | .mfaVerifyBackup userId code => s.mfaVerifyBackup i.available i.request userId code
    | .advance => (.idle, s)
  | some v =>
    match i.op with
    | .advance => s.advance env i.available i.request v
    | _ => (.idle, s)

end VerifyState

end GmKms.Mfa
