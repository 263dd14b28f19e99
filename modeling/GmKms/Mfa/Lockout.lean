import GmKms.Core.Types
import GmKms.Lib.Machine
/-!
# Lockouts

The lockout state of `MfaManager`: failed attempts, the end of a lockout and the use of backup
codes, in rows of `mfa_lockout_state` where there is a pool and in hash maps where there is none.
-/

namespace GmKms.Mfa

open Lib

def maxTotpAttempts : UInt32 := 5

def totpLockoutSecs : ℕ := 300

def maxBackupCodeUses : UInt32 := 3

/-- A row of `mfa_lockout_state`, less the columns that nothing reads. -/
structure LockoutRow where
  failedAttempts : ℕ
  lockedUntil : Option DateTime
  backupCodeUsage : ℕ
  deriving DecidableEq

abbrev LockoutTable := HashMap String LockoutRow

/-- Of `InMemoryMfaState`, what is about lockouts. -/
structure InMemoryMfaState where
  failedAttempts : HashMap String UInt32
  lockouts : HashMap String ℕ
  backupCodeUsage : HashMap String UInt32

structure MfaManager where
  pool : Option LockoutTable
  memory : InMemoryMfaState

/-- `duration_since(UNIX_EPOCH)`, or 0, in whole seconds. -/
def asSecs (now : DateTime) : ℕ := (now / 1000000000).toNat

/-- `NOW()`, which is exact to the microsecond. -/
def sqlNow (now : DateTime) : DateTime := now / 1000 * 1000

/-- `num_seconds` of a duration. -/
def numSeconds (nanos : ℤ) : ℤ := nanos.tdiv 1000000000

/-- One more in a column of type `INTEGER`, if it is in range. -/
def incrementInteger (n : ℕ) : Option ℕ := if n + 1 < 2 ^ 31 then some (n + 1) else none

namespace LockoutTable

def row (t : LockoutTable) (userId : String) : LockoutRow := t[userId]?.getD ⟨0, none, 0⟩

/-- `UPDATE ... WHERE user_id = $1`. -/
def update (t : LockoutTable) (userId : String) (f : LockoutRow → LockoutRow) : LockoutTable :=
  match t[userId]? with
  | none => t
  | some row => t.insert userId (f row)

end LockoutTable

namespace MfaManager

/-- `MfaManager::new` on an empty table. -/
def new : MfaManager := ⟨some ∅, ⟨∅, ∅, ∅⟩⟩

def newInMemory : MfaManager := ⟨none, ⟨∅, ∅, ∅⟩⟩

def recordFailedTotpAttempt (m : MfaManager) (now : DateTime) (userId : String) : Bool × MfaManager :=
  match m.pool with
  | some table =>
    -- an `INSERT` of a row with one attempt, or an update of the row there is
    match incrementInteger (table.row userId).failedAttempts with
    | none => (false, m)
    | some attempts =>
      let table : LockoutTable := table.insert userId { table.row userId with failedAttempts := attempts }
      if maxTotpAttempts ≤ .ofNat attempts then
        let lockedUntil := sqlNow now + totpLockoutSecs * 1000000000
        (true, { m with pool := some (table.update userId fun row => { row with lockedUntil := some lockedUntil }) })
      else (false, { m with pool := some table })
  | none =>
    let attempts := m.memory.failedAttempts[userId]?.getD 0 + 1
    let memory := { m.memory with failedAttempts := m.memory.failedAttempts.insert userId attempts }
    if maxTotpAttempts ≤ attempts then
      (true, { m with memory := { memory with lockouts := memory.lockouts.insert userId (asSecs now + totpLockoutSecs) }
        })
    else (false, { m with memory })

def clearFailedAttempts (m : MfaManager) (userId : String) : MfaManager :=
  match m.pool with
  | some table => { m with pool := some (table.update userId fun _ => ⟨0, none, 0⟩) }
  | none => { m with memory := { m.memory with failedAttempts := m.memory.failedAttempts.erase userId } }

def isLockedOut (m : MfaManager) (now : DateTime) (userId : String) : Bool :=
  match m.pool with
  | some table =>
    match (table.row userId).lockedUntil with
    | some lockedUntil => now < lockedUntil
    | none => false
  | none =>
    match m.memory.lockouts[userId]? with
    | some expiry => asSecs now < expiry
    | none => false

def lockoutRemainingSecs (m : MfaManager) (now : DateTime) (userId : String) : ℕ :=
  match m.pool with
  | some table =>
    match (table.row userId).lockedUntil with
    | some lockedUntil => (numSeconds (lockedUntil - now)).toNat
    | none => 0
  | none =>
    match m.memory.lockouts[userId]? with
    | some expiry => if asSecs now < expiry then expiry - asSecs now else 0
    | none => 0

def failedAttemptCount (m : MfaManager) (userId : String) : UInt32 :=
  match m.pool with
  | some table => .ofNat (table.row userId).failedAttempts
  | none => m.memory.failedAttempts[userId]?.getD 0

def recordBackupCodeUsage (m : MfaManager) (userId : String) : Bool × MfaManager :=
  match m.pool with
  | some table =>
    match incrementInteger (table.row userId).backupCodeUsage with
    | none => (false, m)
    | some usage =>
      (maxBackupCodeUses ≤ .ofNat usage,
        { m with pool := some (table.insert userId { table.row userId with backupCodeUsage := usage }) })
  | none =>
    let usage := m.memory.backupCodeUsage[userId]?.getD 0 + 1
    (maxBackupCodeUses ≤ usage,
      { m with memory := { m.memory with backupCodeUsage := m.memory.backupCodeUsage.insert userId usage } })

def backupCodeUsageCount (m : MfaManager) (userId : String) : UInt32 :=
  match m.pool with
  | some table => .ofNat (table.row userId).backupCodeUsage
  | none => m.memory.backupCodeUsage[userId]?.getD 0

def resetBackupCodeUsage (m : MfaManager) (userId : String) : MfaManager :=
  match m.pool with
  | some table => { m with pool := some (table.update userId fun row => { row with backupCodeUsage := 0 }) }
  | none => { m with memory := { m.memory with backupCodeUsage := m.memory.backupCodeUsage.erase userId } }

/-! ## Calls -/

inductive MfaOp where
  | recordFailedTotpAttempt | clearFailedAttempts | isLockedOut | lockoutRemainingSecs | failedAttemptCount
  | recordBackupCodeUsage | resetBackupCodeUsage | backupCodeUsageCount

/-- A call at a time, which the database reads as well. -/
structure MfaCall where
  now : DateTime
  userId : String
  op : MfaOp

inductive MfaAnswer where
  | done
  | flag (b : Bool)
  | number (n : ℕ)
  deriving DecidableEq

def call : Machine MfaManager MfaCall MfaAnswer
  | m, ⟨now, userId, .recordFailedTotpAttempt⟩ => (m.recordFailedTotpAttempt now userId).map .flag id
  | m, ⟨_, userId, .clearFailedAttempts⟩ => (.done, m.clearFailedAttempts userId)
  | m, ⟨now, userId, .isLockedOut⟩ => (.flag (m.isLockedOut now userId), m)
  | m, ⟨now, userId, .lockoutRemainingSecs⟩ => (.number (m.lockoutRemainingSecs now userId), m)
  | m, ⟨_, userId, .failedAttemptCount⟩ => (.number (m.failedAttemptCount userId).toNat, m)
  | m, ⟨_, userId, .recordBackupCodeUsage⟩ => (m.recordBackupCodeUsage userId).map .flag id
  | m, ⟨_, userId, .resetBackupCodeUsage⟩ => (.done, m.resetBackupCodeUsage userId)
  | m, ⟨_, userId, .backupCodeUsageCount⟩ => (.number (m.backupCodeUsageCount userId).toNat, m)

end MfaManager

end GmKms.Mfa
