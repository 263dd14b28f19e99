import GmKms.Mfa.LockoutAgreement
import GmKms.Mfa.Verification
/-!
# Counters

What is stored of one user, in the database or in memory, and what the queries of a request do to
it: a user's requests leave every other user's counters as they are.
-/

namespace GmKms.Mfa

open Lib

/-- What is stored of a user. -/
structure Counters where
  attempts : ℕ
  usage : ℕ
  lockedOut : DateTime → Bool

def LockoutRow.counters (row : LockoutRow) : Counters where
  attempts := row.failedAttempts
  usage := row.backupCodeUsage
  lockedOut now :=
    match row.lockedUntil with
    | some lockedUntil => now < lockedUntil
    | none => false

def InMemoryMfaState.counters (memory : InMemoryMfaState) (userId : String) : Counters where
  attempts := (memory.failedAttempts[userId]?.getD 0).toNat
  usage := (memory.backupCodeUsage[userId]?.getD 0).toNat
  lockedOut now :=
    match memory.lockouts[userId]? with
    | some expiry => asSecs now < expiry
    | none => false

namespace MfaManager

def counters (m : MfaManager) (userId : String) : Counters :=
  match m.pool with
  | some table => (table.row userId).counters
  | none => m.memory.counters userId

/-- The first number that the counters cannot hold. -/
def counterLimit (m : MfaManager) : ℕ := if m.pool.isSome then 2 ^ 31 else 2 ^ 32

/-- What the end of a lockout is exact to: the columns to the microsecond, the map to the second. -/
def lockoutUnit (m : MfaManager) : ℤ := if m.pool.isSome then 1000 else 1000000000

/-! ## Queries -/

variable {m m' : MfaManager} {table table' : LockoutTable}

theorem counters_pool (hpool : m.pool = some table) (userId : String) :
    m.counters userId = (LockoutTable.row table userId).counters := by
  rw [counters, hpool]

theorem counters_memory (hpool : m.pool = none) (userId : String) : m.counters userId = m.memory.counters userId := by
  rw [counters, hpool]

theorem isLockedOut_eq (m : MfaManager) (now : DateTime) (userId : String) :
    m.isLockedOut now userId = (m.counters userId).lockedOut now := by
  unfold isLockedOut counters
  cases m.pool with
  | none => rfl
  | some table => rfl

theorem lockoutUnit_congr (hpool : m'.pool.isSome = m.pool.isSome) : m'.lockoutUnit = m.lockoutUnit := by
  rw [lockoutUnit, hpool, lockoutUnit]

/-- Nothing that is stored of the user changes. -/
def Keeps (m m' : MfaManager) (userId : String) : Prop :=
  m'.pool.isSome = m.pool.isSome ∧ m'.counters userId = m.counters userId

theorem keeps_pool {userId : String} (hpool : m.pool = some table) (hpool' : m'.pool = some table')
    (hrow : table'.row userId = table.row userId) : m.Keeps m' userId := by
  refine ⟨by rw [hpool, hpool']; rfl, ?_⟩
  rw [counters_pool hpool, counters_pool hpool', hrow]

theorem keeps_memory {userId : String} (hpool : m.pool = none) (hpool' : m'.pool = none)
    (hcounters : m'.memory.counters userId = m.memory.counters userId) : m.Keeps m' userId := by
  refine ⟨by rw [hpool, hpool'], ?_⟩
  rw [counters_memory hpool, counters_memory hpool', hcounters]

/-- Once an attempt is counted in memory, its user is locked out if there are as many as the limit. -/
theorem recordFailedTotpAttempt_memory (hpool : m.pool = none) (now : DateTime) (userId : String)
    (hfits : (m.counters userId).attempts + 1 < 2 ^ 32) :
    ((m.recordFailedTotpAttempt now userId).2.counters userId).attempts = (m.counters userId).attempts + 1 ∧
      ((m.recordFailedTotpAttempt now userId).2.counters userId).usage = (m.counters userId).usage ∧
      (maxTotpAttempts.toNat ≤ (m.counters userId).attempts + 1 →
        ∀ t, ((m.recordFailedTotpAttempt now userId).2.counters userId).lockedOut t =
          decide (asSecs t < asSecs now + totpLockoutSecs)) := by
  rw [counters_memory hpool] at hfits ⊢
  unfold InMemoryMfaState.counters at hfits
  dsimp only at hfits
  have hcast : ((m.memory.failedAttempts[userId]?.getD 0) + 1).toNat =
      (m.memory.failedAttempts[userId]?.getD 0).toNat + 1 := by
    rw [UInt32.toNat_add, UInt32.toNat_one, Nat.mod_eq_of_lt hfits]
  unfold recordFailedTotpAttempt
  rw [hpool]
  dsimp only
  by_cases hmax : maxTotpAttempts ≤ m.memory.failedAttempts[userId]?.getD 0 + 1
  · rw [if_pos hmax, counters_memory rfl]
    simp only [InMemoryMfaState.counters, Std.ExtTreeMap.getElem?_insert_self, Option.getD_some]
    exact ⟨hcast, trivial, fun _ _ => trivial⟩
  · rw [if_neg hmax, counters_memory rfl]
    simp only [InMemoryMfaState.counters, Std.ExtTreeMap.getElem?_insert_self, Option.getD_some]
    refine ⟨hcast, trivial, fun hreached => absurd ?_ hmax⟩
    rw [UInt32.le_iff_toNat_le, hcast]
    exact hreached

theorem recordFailedTotpAttempt_other (hpool : m.pool = none) (now : DateTime) {userId other : String}
    (hother : other ≠ userId) :
    m.Keeps (m.recordFailedTotpAttempt now userId).2 other := by
  unfold recordFailedTotpAttempt
  rw [hpool]
  dsimp only
  split <;>
    refine keeps_memory hpool rfl ?_ <;>
    simp only [InMemoryMfaState.counters, HashMap.getElem?_insert, if_neg hother]

theorem insertFailedAttempt_eq {userId : String} (hfits : (LockoutTable.row table userId).failedAttempts + 1 < 2 ^ 31) :
    insertFailedAttempt table userId = (some ((LockoutTable.row table userId).failedAttempts + 1),
      table.insert userId
        { table.row userId with failedAttempts := (LockoutTable.row table userId).failedAttempts + 1 }) := by
  rw [insertFailedAttempt, incrementInteger, if_pos hfits]

theorem row_update_other (table : LockoutTable) {userId other : String} (f : LockoutRow → LockoutRow)
    (hother : other ≠ userId) :
    (table.update userId f).row other = table.row other := by
  cases hrow : table[userId]? with
  | none => rw [LockoutTable.update, hrow]
  | some row => rw [LockoutTable.row_update_of_mem _ _ hrow, if_neg hother]

theorem clearFailedAttempts_other (m : MfaManager) {userId other : String} (hother : other ≠ userId) :
    m.Keeps (m.clearFailedAttempts userId) other := by
  unfold clearFailedAttempts
  cases hpool : m.pool with
  | none =>
    exact keeps_memory hpool rfl (by simp only [InMemoryMfaState.counters, HashMap.getElem?_erase, if_neg hother])
  | some table => exact keeps_pool hpool rfl (row_update_other table _ hother)

theorem resetBackupCodeUsage_other (m : MfaManager) {userId other : String} (hother : other ≠ userId) :
    m.Keeps (m.resetBackupCodeUsage userId) other := by
  unfold resetBackupCodeUsage
  cases hpool : m.pool with
  | none =>
    exact keeps_memory hpool rfl (by simp only [InMemoryMfaState.counters, HashMap.getElem?_erase, if_neg hother])
  | some table => exact keeps_pool hpool rfl (row_update_other table _ hother)

theorem setLockedUntil_other (m : MfaManager) (now : DateTime) {userId other : String} (hother : other ≠ userId) :
    m.Keeps { m with pool := m.pool.map (setLockedUntil · now userId) } other := by
  cases hpool : m.pool with
  | none => exact keeps_memory hpool rfl rfl
  | some table => exact keeps_pool hpool rfl (row_update_other table _ hother)

theorem recordBackupCodeUsage_other (m : MfaManager) {userId other : String} (hother : other ≠ userId) :
    m.Keeps (m.recordBackupCodeUsage userId).2 other := by
  unfold recordBackupCodeUsage
  cases hpool : m.pool with
  | none =>
    refine keeps_memory hpool rfl ?_
    simp only [InMemoryMfaState.counters, HashMap.getElem?_insert, if_neg hother]
  | some table =>
    dsimp only
    split
    · exact keeps_pool hpool hpool rfl
    · refine keeps_pool hpool rfl ?_
      rw [LockoutTable.row_insert, if_neg hother]

/-- Of the counters, only the use of backup codes grows. -/
theorem counters_recordBackupCodeUsage (m : MfaManager) {userId : String}
    (hfits : (m.counters userId).usage + 1 < m.counterLimit) :
    (m.recordBackupCodeUsage userId).2.pool.isSome = m.pool.isSome ∧
      (m.recordBackupCodeUsage userId).2.counters userId =
        { m.counters userId with usage := (m.counters userId).usage + 1 } := by
  unfold recordBackupCodeUsage
  cases hpool : m.pool with
  | none =>
    rw [counters_memory hpool, counterLimit, hpool] at hfits
    rw [counters_memory hpool]
    dsimp only
    rw [counters_memory rfl]
    refine ⟨rfl, ?_⟩
    unfold InMemoryMfaState.counters at hfits ⊢
    change (m.memory.backupCodeUsage[userId]?.getD 0).toNat + 1 < 2 ^ 32 at hfits
    dsimp only
    rw [Std.ExtTreeMap.getElem?_insert_self, Option.getD_some, UInt32.toNat_add, UInt32.toNat_one,
      Nat.mod_eq_of_lt hfits]
  | some table =>
    rw [counters_pool hpool, counterLimit, hpool] at hfits
    rw [counters_pool hpool]
    change (LockoutTable.row table userId).backupCodeUsage + 1 < 2 ^ 31 at hfits
    dsimp only
    rw [incrementInteger, if_pos hfits]
    dsimp only
    rw [counters_pool rfl, LockoutTable.row_insert, if_pos rfl]
    exact ⟨rfl, rfl⟩

/-! ## When a lockout ends -/

/-- Where the user is seen not to be locked out, even a unit ago, the lockout since `t` is over. -/
def LockedSince (m : MfaManager) (userId : String) (t : ℤ) : Prop :=
  ∀ now : ℤ, (m.counters userId).lockedOut (now - m.lockoutUnit) = false → t + totpLockoutSecs * 1000000000 < now

theorem lockedSince_memory (hpool : m.pool = none) {userId : String} {now t : ℤ} (ht : t ≤ now)
    (hlocked : ∀ t, (m.counters userId).lockedOut t = decide (asSecs t < asSecs now + totpLockoutSecs)) :
    m.LockedSince userId t := by
  intro later hlater
  rw [hlocked, decide_eq_false_iff_not, lockoutUnit, hpool] at hlater
  unfold asSecs at hlater
  change ¬ ((later - 1000000000) / 1000000000).toNat < (now / 1000000000).toNat + 300 at hlater
  change t + (300 : ℕ) * 1000000000 < later
  omega

theorem lockedSince_pool (hpool : m.pool = some table) {userId : String} {now t : ℤ} (ht : t ≤ now)
    (hrow : (LockoutTable.row table userId).lockedUntil = some (sqlNow now + totpLockoutSecs * 1000000000)) :
    m.LockedSince userId t := by
  intro later hlater
  rw [counters_pool hpool, LockoutRow.counters] at hlater
  dsimp only at hlater
  rw [hrow, lockoutUnit, hpool] at hlater
  dsimp only at hlater
  rw [decide_eq_false_iff_not] at hlater
  change ¬ later - 1000 < now / 1000 * 1000 + (300 : ℕ) * 1000000000 at hlater
  change t + (300 : ℕ) * 1000000000 < later
  omega

/-- A lockout is stored in the row that has the attempts, which stay as they are. -/
theorem setLockedUntil_counters (hpool : m.pool.isSome) (now : ℤ) (userId : String) (m' : MfaManager)
    (hm' : m' = { m with pool := m.pool.map (setLockedUntil · now userId) }) :
    (m'.counters userId).attempts = (m.counters userId).attempts ∧
    (m'.counters userId).usage = (m.counters userId).usage ∧
      ((m.counters userId).attempts ≠ 0 → ∀ t ≤ now, m'.LockedSince userId t) := by
  obtain ⟨table, hpool⟩ := Option.isSome_iff_exists.1 hpool
  rw [hpool, Option.map_some] at hm'
  have hpool' : m'.pool = some (setLockedUntil table now userId) := by rw [hm']
  rw [counters_pool hpool', counters_pool hpool]
  cases hrow : table[userId]? with
  | none =>
    have hnone : setLockedUntil table now userId = table := by rw [setLockedUntil, LockoutTable.update, hrow]
    rw [hnone]
    refine ⟨rfl, rfl, fun hattempts => absurd ?_ hattempts⟩
    rw [LockoutTable.row, hrow]
    rfl
  | some row =>
    have hlocked : (setLockedUntil table now userId).row userId =
        { LockoutTable.row table userId with lockedUntil := some (sqlNow now + totpLockoutSecs * 1000000000) } := by
      rw [setLockedUntil, LockoutTable.row_update_of_mem _ _ hrow, if_pos rfl]
    rw [hlocked]
    exact ⟨rfl, rfl, fun _ t ht => lockedSince_pool hpool' ht (by rw [hlocked])⟩

end MfaManager

end GmKms.Mfa
