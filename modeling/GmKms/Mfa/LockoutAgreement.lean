import GmKms.Mfa.Lockout
/-!
# Lockouts in the database and in memory

The managers with a pool and without answer alike as long as `clear_failed_attempts` has only the
attempts to clear: in memory it leaves a lockout and the use of backup codes as they are.
-/

namespace GmKms.Mfa

open Lib

/-! ## Rows -/

namespace LockoutTable

variable (t : LockoutTable) (userId : String)

theorem row_insert (r : LockoutRow) (other : String) :
    LockoutTable.row (t.insert userId r) other = if other = userId then r else t.row other := by
  unfold row
  rw [HashMap.getElem?_insert]
  split <;> rfl

theorem row_update_of_mem {r : LockoutRow} (hr : t[userId]? = some r) (f : LockoutRow → LockoutRow) (other : String) :
    (t.update userId f).row other = if other = userId then f (t.row userId) else t.row other := by
  have hrow : t.row userId = r := by rw [row, hr]; rfl
  rw [update, hr, hrow]
  exact row_insert t userId (f r) other

/-- A user without a row counts as one with a row of defaults. -/
theorem row_update {f : LockoutRow → LockoutRow} (hf : f ⟨0, none, 0⟩ = ⟨0, none, 0⟩) (other : String) :
    (t.update userId f).row other = if other = userId then f (t.row userId) else t.row other := by
  cases hr : t[userId]? with
  | some r => exact row_update_of_mem t userId hr f other
  | none =>
    have hrow : t.row userId = ⟨0, none, 0⟩ := by rw [row, hr]; rfl
    rw [update, hr, hrow, hf]
    by_cases hother : other = userId
    · rw [if_pos hother, hother]
      exact hrow
    · rw [if_neg hother]

end LockoutTable

namespace MfaManager

/-! ## When the answers can be compared -/

/-- The clock has reached 1970 and does not go back; a count stays in range; failed attempts are cleared
while no use of a backup code is counted and after any lockout; and a lockout is asked about
neither between the second it ends in and its end, nor at a later fraction of a second than its end. -/
def Comparable (h : History MfaCall MfaAnswer) (m : MfaManager) (c : MfaCall) : Prop :=
  (0 ≤ c.now ∧ ∀ e ∈ h, e.1.now ≤ c.now) ∧ ∀ table, m.pool = some table →
    match c.op with
    | .recordFailedTotpAttempt => (LockoutTable.row table c.userId).failedAttempts + 1 < 2 ^ 31
    | .recordBackupCodeUsage => (LockoutTable.row table c.userId).backupCodeUsage + 1 < 2 ^ 31
    | .clearFailedAttempts => (LockoutTable.row table c.userId).backupCodeUsage = 0 ∧
        ∀ lockedUntil, (LockoutTable.row table c.userId).lockedUntil = some lockedUntil → lockedUntil ≤ c.now
    | .isLockedOut => ∀ lockedUntil, (LockoutTable.row table c.userId).lockedUntil = some lockedUntil →
        c.now < lockedUntil → asSecs c.now ≠ asSecs lockedUntil
    | .lockoutRemainingSecs => ∀ lockedUntil, (LockoutTable.row table c.userId).lockedUntil = some lockedUntil →
        c.now < lockedUntil → c.now % 1000000000 ≤ lockedUntil % 1000000000
    | _ => True

/-! ## The relation -/

/-- A row and what the maps hold of its user: an expiry that the row does not have is over. -/
structure SameUser (h : History MfaCall MfaAnswer) (row : LockoutRow) (attempts : UInt32) (expiry : Option ℕ)
    (usage : UInt32) : Prop where
  attempts : row.failedAttempts = attempts.toNat
  usage : row.backupCodeUsage = usage.toNat
  locked : ∀ lockedUntil, row.lockedUntil = some lockedUntil → 0 ≤ lockedUntil ∧ expiry = some (asSecs lockedUntil)
  ended : row.lockedUntil = none → ∀ end_, expiry = some end_ → ∃ e ∈ h, end_ ≤ asSecs e.1.now

/-- The row of every user and the maps. -/
def Same (h : History MfaCall MfaAnswer) (m m' : MfaManager) : Prop :=
  ∃ table, m.pool = some table ∧ m'.pool = none ∧ ∀ userId, SameUser h (LockoutTable.row table userId)
    (m'.memory.failedAttempts[userId]?.getD 0) m'.memory.lockouts[userId]? (m'.memory.backupCodeUsage[userId]?.getD 0)

theorem SameUser.grow {h h' : History MfaCall MfaAnswer} (hh : ∀ e ∈ h, e ∈ h') {row : LockoutRow} {attempts : UInt32}
    {expiry : Option ℕ} {usage : UInt32} (hs : SameUser h row attempts expiry usage) :
    SameUser h' row attempts expiry usage where
  attempts := hs.attempts
  usage := hs.usage
  locked := hs.locked
  ended hnone end_ hend := by
    obtain ⟨e, he, hle⟩ := hs.ended hnone end_ hend
    exact ⟨e, hh e he, hle⟩

theorem Same.grow {h : History MfaCall MfaAnswer} {m m' : MfaManager} (hs : Same h m m') (e : MfaCall × MfaAnswer) :
    Same (h ++ [e]) m m' := by
  obtain ⟨table, hpool, hpool', hsame⟩ := hs
  exact ⟨table, hpool, hpool', fun userId => (hsame userId).grow fun _ => List.mem_append_left _⟩

/-! ## Times -/

theorem asSecs_mono {a b : ℤ} (h : a ≤ b) : asSecs a ≤ asSecs b := by
  unfold asSecs
  omega

/-- The end of a lockout, in memory and in the row. -/
theorem asSecs_lockedUntil {now : ℤ} (hnow : 0 ≤ now) :
    asSecs (sqlNow now + totpLockoutSecs * 1000000000) = asSecs now + totpLockoutSecs := by
  unfold asSecs sqlNow totpLockoutSecs
  omega

theorem lockedUntil_nonneg {now : ℤ} (hnow : 0 ≤ now) : 0 ≤ sqlNow now + totpLockoutSecs * 1000000000 := by
  have hsum : (0 : ℤ) ≤ now / 1000 * 1000 + (300 : ℕ) * 1000000000 := by omega
  exact hsum

/-- What is left of a lockout, in whole seconds. -/
theorem numSeconds_sub {now lockedUntil : ℤ} (hnow : 0 ≤ now) (hlocked : 0 ≤ lockedUntil)
    (hfraction : now < lockedUntil → now % 1000000000 ≤ lockedUntil % 1000000000) :
    (numSeconds (lockedUntil - now)).toNat = asSecs lockedUntil - asSecs now := by
  unfold numSeconds asSecs
  by_cases hlt : now < lockedUntil
  · have hle := hfraction hlt
    rw [Int.tdiv_eq_ediv_of_nonneg (by omega)]
    omega
  · have hneg : lockedUntil - now = -(now - lockedUntil) := by omega
    have hnonneg : 0 ≤ (now - lockedUntil).tdiv 1000000000 := Int.tdiv_nonneg (by omega) (by decide)
    rw [hneg, Int.neg_tdiv]
    omega

/-! ## Calls, one by one -/

section

variable {h : History MfaCall MfaAnswer} {m m' : MfaManager} {now : DateTime} {userId : String}

/-- One more in both counts. -/
theorem increment_same {n : ℕ} {count : UInt32} (hn : n = count.toNat) (hfits : n + 1 < 2 ^ 31) :
    incrementInteger n = some (count + 1).toNat ∧ UInt32.ofNat (count + 1).toNat = count + 1 := by
  have hnext : (count + 1).toNat = n + 1 := by
    rw [UInt32.toNat_add, UInt32.toNat_one, ← hn, Nat.mod_eq_of_lt (by omega)]
  refine ⟨?_, UInt32.ofNat_toNat⟩
  rw [incrementInteger, if_pos hfits, hnext]

/-- The calls that change one user's row and entries leave the others' as they are. -/
theorem Same.of_user (hs : Same h m m') (userId : String) {h' : History MfaCall MfaAnswer} (hgrown : ∀ e ∈ h, e ∈ h')
    {n n' : MfaManager}
    {table : LockoutTable} (hpool : n.pool = some table) (hpool' : n'.pool = none)
    (hothers : ∀ old other, m.pool = some old → other ≠ userId →
      LockoutTable.row table other = LockoutTable.row old other ∧
      n'.memory.failedAttempts[other]? = m'.memory.failedAttempts[other]? ∧
      n'.memory.lockouts[other]? = m'.memory.lockouts[other]? ∧
      n'.memory.backupCodeUsage[other]? = m'.memory.backupCodeUsage[other]?)
    (huser : SameUser h' (LockoutTable.row table userId) (n'.memory.failedAttempts[userId]?.getD 0)
      n'.memory.lockouts[userId]? (n'.memory.backupCodeUsage[userId]?.getD 0)) : Same h' n n' := by
  obtain ⟨old, hold, -, hsame⟩ := hs
  refine ⟨table, hpool, hpool', fun other => ?_⟩
  by_cases hother : other = userId
  · rw [hother]
    exact huser
  · obtain ⟨hrow, hattempts, hlockouts, husage⟩ := hothers old other hold hother
    rw [hrow, hattempts, hlockouts, husage]
    exact (hsame other).grow hgrown

/-- A lockout in the row is over for the map in the second it ends in. -/
theorem lt_asSecs_iff {now lockedUntil : ℤ} (hnow : 0 ≤ now)
    (hend : now < lockedUntil → asSecs now ≠ asSecs lockedUntil) :
    asSecs now < asSecs lockedUntil ↔ now < lockedUntil := by
  unfold asSecs at *
  omega

theorem isLockedOut_same (hs : Same h m m') (hc : Comparable h m ⟨now, userId, .isLockedOut⟩) :
    m.isLockedOut now userId = m'.isLockedOut now userId := by
  obtain ⟨table, hpool, hpool', hsame⟩ := hs
  obtain ⟨⟨hnow, hclock⟩, hquery⟩ := hc
  obtain ⟨-, -, hlocked, hended⟩ := hsame userId
  have hquery := hquery table hpool
  unfold isLockedOut
  rw [hpool, hpool']
  dsimp only at hquery ⊢
  cases hrow : (LockoutTable.row table userId).lockedUntil with
  | some lockedUntil =>
    rw [(hlocked lockedUntil hrow).2]
    exact decide_eq_decide.2 (lt_asSecs_iff hnow (hquery lockedUntil hrow)).symm
  | none =>
    cases hexpiry : m'.memory.lockouts[userId]? with
    | none => rfl
    | some expiry =>
      obtain ⟨e, he, hle⟩ := hended hrow expiry hexpiry
      have hmono := asSecs_mono (hclock e he)
      exact (decide_eq_false (Nat.not_lt.2 (hle.trans hmono))).symm

theorem lockoutRemainingSecs_same (hs : Same h m m') (hc : Comparable h m ⟨now, userId, .lockoutRemainingSecs⟩) :
    m.lockoutRemainingSecs now userId = m'.lockoutRemainingSecs now userId := by
  obtain ⟨table, hpool, hpool', hsame⟩ := hs
  obtain ⟨⟨hnow, hclock⟩, hquery⟩ := hc
  change 0 ≤ now at hnow
  obtain ⟨-, -, hlocked, hended⟩ := hsame userId
  have hquery := hquery table hpool
  unfold lockoutRemainingSecs
  rw [hpool, hpool']
  dsimp only at hquery ⊢
  cases hrow : (LockoutTable.row table userId).lockedUntil with
  | some lockedUntil =>
    obtain ⟨hnonneg, hexpiry⟩ := hlocked lockedUntil hrow
    rw [hexpiry]
    dsimp only
    rw [numSeconds_sub hnow hnonneg (hquery lockedUntil hrow)]
    split <;> omega
  | none =>
    cases hexpiry : m'.memory.lockouts[userId]? with
    | none => rfl
    | some expiry =>
      obtain ⟨e, he, hle⟩ := hended hrow expiry hexpiry
      have hmono := asSecs_mono (hclock e he)
      exact (if_neg (Nat.not_lt.2 (hle.trans hmono))).symm

theorem failedAttemptCount_same (hs : Same h m m') : m.failedAttemptCount userId = m'.failedAttemptCount userId := by
  obtain ⟨table, hpool, hpool', hsame⟩ := hs
  unfold failedAttemptCount
  rw [hpool, hpool']
  dsimp only
  rw [(hsame userId).attempts, UInt32.ofNat_toNat]

theorem backupCodeUsageCount_same (hs : Same h m m') :
    m.backupCodeUsageCount userId = m'.backupCodeUsageCount userId := by
  obtain ⟨table, hpool, hpool', hsame⟩ := hs
  unfold backupCodeUsageCount
  rw [hpool, hpool']
  dsimp only
  rw [(hsame userId).usage, UInt32.ofNat_toNat]

theorem recordBackupCodeUsage_same (hs : Same h m m') (hc : Comparable h m ⟨now, userId, .recordBackupCodeUsage⟩) :
    (m.recordBackupCodeUsage userId).1 = (m'.recordBackupCodeUsage userId).1 ∧
      Same h (m.recordBackupCodeUsage userId).2 (m'.recordBackupCodeUsage userId).2 := by
  have hsame := hs
  obtain ⟨table, hpool, hpool', hsame⟩ := hsame
  obtain ⟨hincrement, hcast⟩ := increment_same (hsame userId).usage (hc.2 table hpool)
  unfold recordBackupCodeUsage
  rw [hpool, hpool']
  dsimp only
  rw [hincrement]
  dsimp only
  rw [hcast]
  refine ⟨rfl, hs.of_user userId (fun _ he => he) rfl rfl ?_ ?_⟩
  · intro old other hold hother
    cases hpool.symm.trans hold
    refine ⟨?_, rfl, rfl, ?_⟩
    · rw [LockoutTable.row_insert, if_neg hother]
    · rw [HashMap.getElem?_insert, if_neg hother]
  · rw [LockoutTable.row_insert, if_pos rfl, HashMap.getElem?_insert, if_pos rfl]
    exact ⟨(hsame userId).attempts, rfl, (hsame userId).locked, (hsame userId).ended⟩

theorem resetBackupCodeUsage_same (hs : Same h m m') :
    Same h (m.resetBackupCodeUsage userId) (m'.resetBackupCodeUsage userId) := by
  have hsame := hs
  obtain ⟨table, hpool, hpool', hsame⟩ := hsame
  unfold resetBackupCodeUsage
  rw [hpool, hpool']
  refine hs.of_user userId (fun _ he => he) rfl rfl ?_ ?_
  · intro old other hold hother
    cases hpool.symm.trans hold
    refine ⟨?_, rfl, rfl, ?_⟩
    · rw [LockoutTable.row_update _ _ rfl, if_neg hother]
    · dsimp only
      rw [HashMap.getElem?_erase, if_neg hother]
  · rw [LockoutTable.row_update _ _ rfl, if_pos rfl]
    dsimp only
    rw [Std.ExtTreeMap.getElem?_erase_self]
    exact ⟨(hsame userId).attempts, rfl, (hsame userId).locked, (hsame userId).ended⟩

theorem clearFailedAttempts_same (hs : Same h m m') (hc : Comparable h m ⟨now, userId, .clearFailedAttempts⟩)
    (a : MfaAnswer) :
    Same (h ++ [(⟨now, userId, .clearFailedAttempts⟩, a)]) (m.clearFailedAttempts userId)
    (m'.clearFailedAttempts userId) := by
  have hsame := hs
  obtain ⟨table, hpool, hpool', hsame⟩ := hsame
  obtain ⟨husage, hlockout⟩ := hc.2 table hpool
  unfold clearFailedAttempts
  rw [hpool, hpool']
  refine hs.of_user userId (fun _ => List.mem_append_left _) rfl rfl ?_ ?_
  · intro old other hold hother
    cases hpool.symm.trans hold
    refine ⟨?_, ?_, rfl, rfl⟩
    · rw [LockoutTable.row_update _ _ rfl, if_neg hother]
    · dsimp only
      rw [HashMap.getElem?_erase, if_neg hother]
  · rw [LockoutTable.row_update _ _ rfl, if_pos rfl]
    dsimp only
    rw [Std.ExtTreeMap.getElem?_erase_self]
    refine ⟨rfl, husage ▸ (hsame userId).usage, fun _ hnone => (by cases hnone), fun _ expiry hexpiry => ?_⟩
    -- what the map keeps of a lockout is over
    cases hrow : (LockoutTable.row table userId).lockedUntil with
    | some lockedUntil =>
      rw [((hsame userId).locked lockedUntil hrow).2, Option.some.injEq] at hexpiry
      refine ⟨_, List.mem_append_right _ (List.mem_singleton_self _), ?_⟩
      rw [← hexpiry]
      exact asSecs_mono (hlockout lockedUntil hrow)
    | none =>
      obtain ⟨e, he, hle⟩ := (hsame userId).ended hrow expiry hexpiry
      exact ⟨e, List.mem_append_left _ he, hle⟩

theorem recordFailedTotpAttempt_same (hs : Same h m m') (hc : Comparable h m ⟨now, userId, .recordFailedTotpAttempt⟩) :
    (m.recordFailedTotpAttempt now userId).1 = (m'.recordFailedTotpAttempt now userId).1 ∧
      Same h (m.recordFailedTotpAttempt now userId).2 (m'.recordFailedTotpAttempt now userId).2 := by
  have hsame := hs
  obtain ⟨table, hpool, hpool', hsame⟩ := hsame
  obtain ⟨hincrement, hcast⟩ := increment_same (hsame userId).attempts (hc.2 table hpool)
  have hnow : 0 ≤ now := hc.1.1
  unfold recordFailedTotpAttempt
  rw [hpool, hpool']
  dsimp only
  rw [hincrement]
  dsimp only
  rw [hcast]
  by_cases hmax : maxTotpAttempts ≤ m'.memory.failedAttempts[userId]?.getD 0 + 1
  · rw [if_pos hmax, if_pos hmax]
    refine ⟨rfl, hs.of_user userId (fun _ he => he) rfl rfl ?_ ?_⟩
    · intro old other hold hother
      cases hpool.symm.trans hold
      refine ⟨?_, ?_, ?_, rfl⟩
      · rw [LockoutTable.row_update_of_mem _ _ Std.ExtTreeMap.getElem?_insert_self, if_neg hother,
          LockoutTable.row_insert, if_neg hother]
      · rw [HashMap.getElem?_insert, if_neg hother]
      · rw [HashMap.getElem?_insert, if_neg hother]
    · rw [LockoutTable.row_update_of_mem _ _ Std.ExtTreeMap.getElem?_insert_self, if_pos rfl, LockoutTable.row_insert,
        if_pos rfl, HashMap.getElem?_insert, if_pos rfl, HashMap.getElem?_insert, if_pos rfl]
      refine ⟨rfl, (hsame userId).usage, ?_, fun hnone => by cases hnone⟩
      rintro _ ⟨⟩
      exact ⟨lockedUntil_nonneg hnow, congrArg some (asSecs_lockedUntil hnow).symm⟩
  · rw [if_neg hmax, if_neg hmax]
    refine ⟨rfl, hs.of_user userId (fun _ he => he) rfl rfl ?_ ?_⟩
    · intro old other hold hother
      cases hpool.symm.trans hold
      refine ⟨?_, ?_, rfl, rfl⟩
      · rw [LockoutTable.row_insert, if_neg hother]
      · rw [HashMap.getElem?_insert, if_neg hother]
    · rw [LockoutTable.row_insert, if_pos rfl, HashMap.getElem?_insert, if_pos rfl]
      exact ⟨rfl, (hsame userId).usage, (hsame userId).locked, (hsame userId).ended⟩

end

/-! ## Runs -/

theorem call_same (h : History MfaCall MfaAnswer) (m m' : MfaManager) (c : MfaCall) (hs : Same h m m')
    (hc : Comparable h m c) : (call m c).1 = (call m' c).1 ∧ Same (h ++ [(c, (call m c).1)])
    (call m c).2 (call m' c).2 := by
  obtain ⟨now, userId, op⟩ := c
  cases op with
  | recordFailedTotpAttempt =>
    obtain ⟨hanswer, hnext⟩ := recordFailedTotpAttempt_same hs hc
    exact ⟨congrArg MfaAnswer.flag hanswer, hnext.grow _⟩
  | clearFailedAttempts => exact ⟨rfl, clearFailedAttempts_same hs hc _⟩
  | isLockedOut => exact ⟨congrArg MfaAnswer.flag (isLockedOut_same hs hc), hs.grow _⟩
  | lockoutRemainingSecs => exact ⟨congrArg MfaAnswer.number (lockoutRemainingSecs_same hs hc), hs.grow _⟩
  | failedAttemptCount =>
    exact ⟨congrArg (fun n : UInt32 => MfaAnswer.number n.toNat) (failedAttemptCount_same hs), hs.grow _⟩
  | recordBackupCodeUsage =>
    obtain ⟨hanswer, hnext⟩ := recordBackupCodeUsage_same hs hc
    exact ⟨congrArg MfaAnswer.flag hanswer, hnext.grow _⟩
  | resetBackupCodeUsage => exact ⟨rfl, (resetBackupCodeUsage_same hs).grow _⟩
  | backupCodeUsageCount =>
    exact ⟨congrArg (fun n : UInt32 => MfaAnswer.number n.toNat) (backupCodeUsageCount_same hs), hs.grow _⟩

theorem same_new : Same [] new newInMemory := by
  refine ⟨∅, rfl, rfl, fun userId => ?_⟩
  simp only [LockoutTable.row, newInMemory, Std.ExtTreeMap.getElem?_empty, Option.getD_none]
  exact ⟨rfl, rfl, fun _ h => (by cases h), fun _ _ h => by cases h⟩

/-- Managers with a pool and without answer alike over every run whose calls can be compared. -/
theorem trace_new_eq (calls : List MfaCall) (hcalls : call.Along Comparable [] new calls) :
    call.trace new calls = call.trace newInMemory calls :=
  hcalls.trace_eq_of call_same same_new

/-- Five failed attempts from second 0 on, one each second, and the lockout they make. -/
def lockedOut : List MfaCall :=
  [⟨0, "user-1", .recordFailedTotpAttempt⟩, ⟨1000000000, "user-1", .recordFailedTotpAttempt⟩,
    ⟨2000000000, "user-1", .recordFailedTotpAttempt⟩, ⟨3000000000, "user-1", .recordFailedTotpAttempt⟩,
    ⟨4000000000, "user-1", .recordFailedTotpAttempt⟩, ⟨5000000000, "user-1", .isLockedOut⟩,
    ⟨6000000000, "user-1", .lockoutRemainingSecs⟩]

theorem trace_lockedOut : call.trace new lockedOut = call.trace newInMemory lockedOut := by
  refine trace_new_eq lockedOut ⟨⟨⟨?_, ?_⟩, ?_⟩, ⟨⟨?_, ?_⟩, ?_⟩, ⟨⟨?_, ?_⟩, ?_⟩, ⟨⟨?_, ?_⟩, ?_⟩, ⟨⟨?_, ?_⟩, ?_⟩,
    ⟨⟨?_, ?_⟩, ?_⟩,
    ⟨⟨?_, ?_⟩, ?_⟩, trivial⟩ <;> decide +kernel

/-- After a success within the lockout, the database has none and memory still does. -/
theorem trace_clearedLockout_ne :
    call.trace new (lockedOut ++ [⟨7000000000, "user-1", .clearFailedAttempts⟩, ⟨8000000000, "user-1", .isLockedOut⟩]) ≠
      call.trace newInMemory
        (lockedOut ++ [⟨7000000000, "user-1", .clearFailedAttempts⟩, ⟨8000000000, "user-1", .isLockedOut⟩]) := by
  intro h
  have hlast := congrArg (fun t => (t.map (·.2)).getLast?) h
  exact absurd hlast (by decide +kernel)

end MfaManager

end GmKms.Mfa
