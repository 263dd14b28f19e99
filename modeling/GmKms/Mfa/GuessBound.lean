import GmKms.Mfa.Counters
/-!
# How many guesses are compared

The check of a lockout and the count of a failure are queries of their own, before and after the
comparison. The bounds on guesses hold as long as no comparison comes between another comparison
and its count, and what counts a failure does not fail itself.
-/

namespace GmKms.Mfa

open Lib

/-! ## Comparisons -/

/-- When TOTP codes were compared for the user. -/
def guesses (userId : String) (h : History VerifyInput VerifyReply) : List DateTime :=
  h.filterMap fun e =>
    match e.2 with
    | .compared userId' false _ now => if userId' = userId then some now else none
    | _ => none

def isWrongBackup (userId : String) (e : VerifyInput × VerifyReply) : Bool :=
  match e.2 with
  | .compared userId' true false _ => userId' = userId
  | _ => false

def isSuccess (userId : String) (e : VerifyInput × VerifyReply) : Bool :=
  match e.2 with
  | .compared userId' _ true _ => userId' = userId
  | _ => false

/-- The bounds on a part of a run: on TOTP guesses if they lie in an interval as long as a lockout. -/
structure Bounded (userId : String) (window : History VerifyInput VerifyReply) : Prop where
  totp : ∀ start : DateTime,
    (∀ t ∈ guesses userId window, start ≤ t ∧ t ≤ start + totpLockoutSecs * 1000000000) →
      (guesses userId window).length ≤ maxTotpAttempts.toNat
  backup : window.countP (isWrongBackup userId) ≤ maxBackupCodeUses.toNat

/-- The bounds on every part without a successful verification. -/
def GuessesBounded (h : History VerifyInput VerifyReply) (_ : VerifyState) : Prop :=
  ∀ userId window, window <:+: h → (∀ e ∈ window, isSuccess userId e = false) → Bounded userId window

/-! ## When a comparison is counted in time -/

namespace Stage

/-- The failure of a TOTP code is to be counted. -/
def CountsTotp : Stage → Prop
  | recordFailedTotpAttempt => True
  | _ => False

/-- It is to be counted, or the lockout to be stored. -/
def Locks : Stage → Prop
  | recordFailedTotpAttempt | setLockedUntil => True
  | _ => False

def CountsBackup : Stage → Prop
  | recordBackupCodeUsage => True
  | _ => False

/-- A success is to be written. -/
def Clears : Stage → Prop
  | clearFailedAttempts | updateBackupCodes _ | resetBackupCodeUsage _ => True
  | _ => False

/-- What follows from the comparison is still to be written. -/
def Unwritten (stage : Stage) : Prop := stage.Locks ∨ stage.CountsBackup ∨ stage.Clears

end Stage

namespace VerifyState

/-- Some request for the user is at such a stage. -/
def Waits (s : VerifyState) (userId : String) (P : Stage → Prop) : Prop :=
  ∃ request v, s.requests request = some v ∧ v.userId = userId ∧ P v.stage

/-- A code is compared while everything that other requests for the user compared is written, under no
lockout (nor one that ended within its unit) and below the limit of backup codes; and the queries that count
a failure succeed. -/
def InTime (s : VerifyState) (i : VerifyInput) (userId : String) : Stage → Prop
  | .verify _ => ¬ s.Waits userId Stage.Unwritten ∧
      s.manager.isLockedOut (s.now + i.elapsed - s.manager.lockoutUnit) userId = false
  | .consumeBackupCode _ => ¬ s.Waits userId Stage.Unwritten ∧
      (s.manager.counters userId).usage < maxBackupCodeUses.toNat
  | .recordFailedTotpAttempt => s.answers i.available ∧
      (s.manager.counters userId).attempts + 1 < s.manager.counterLimit
  | .setLockedUntil => s.manager.pool.isSome ∧ i.available
  | .recordBackupCodeUsage => s.answers i.available ∧ (s.manager.counters userId).usage + 1 < s.manager.counterLimit
  | _ => True

/-- A request goes on in time. -/
def CountedFirst (_ : History VerifyInput VerifyReply) (s : VerifyState) (i : VerifyInput) : Prop :=
  i.op = .advance → ∀ v, s.requests i.request = some v → s.InTime i v.userId v.stage

/-! ## Requests under way -/

variable {s s' : VerifyState} {userId : String} {request : ℕ} {v : Verification} {P : Stage → Prop}

/-- Some other request is. -/
def WaitsElse (s : VerifyState) (request : ℕ) (userId : String) (P : Stage → Prop) : Prop :=
  ∃ other v, other ≠ request ∧ s.requests other = some v ∧ v.userId = userId ∧ P v.stage

theorem waits_of_requests (hothers : ∀ other, other ≠ request → s'.requests other = s.requests other) :
    s'.Waits userId P ↔ (∃ v, s'.requests request = some v ∧ v.userId = userId ∧ P v.stage) ∨
    s.WaitsElse request userId P := by
  constructor
  · rintro ⟨other, v, hv, huser, hstage⟩
    by_cases hother : other = request
    · exact .inl ⟨v, hother ▸ hv, huser, hstage⟩
    · exact .inr ⟨other, v, hother, (hothers other hother).symm.trans hv, huser, hstage⟩
  · rintro (⟨v, hv, huser, hstage⟩ | ⟨other, v, hother, hv, huser, hstage⟩)
    · exact ⟨request, v, hv, huser, hstage⟩
    · exact ⟨other, v, (hothers other hother).trans hv, huser, hstage⟩

theorem waits_of_some (hv : s.requests request = some v) :
    s.Waits userId P ↔ (v.userId = userId ∧ P v.stage) ∨ s.WaitsElse request userId P := by
  rw [@waits_of_requests s s userId request P fun _ _ => rfl]
  simp [hv]

theorem waits_of_none (hnone : s.requests request = none) : s.Waits userId P ↔ s.WaitsElse request userId P := by
  rw [@waits_of_requests s s userId request P fun _ _ => rfl]
  simp [hnone]

theorem waitsElse_of_waits (hv : s.requests request = some v) (hP : ¬ P v.stage) (hwaits : s.Waits userId P) :
    s.WaitsElse request userId P :=
  ((waits_of_some hv).1 hwaits).resolve_left fun h => hP h.2

theorem waits_of_waitsElse (hv : s.requests request = some v) (hwaits : s.WaitsElse request userId P) :
    s.Waits userId P :=
  (waits_of_some hv).2 (.inr hwaits)

theorem waits_goOn {stage : Stage} :
    (s.goOn request v stage).Waits userId P ↔ (v.userId = userId ∧ P stage) ∨ s.WaitsElse request userId P := by
  rw [waits_of_requests (s := s) fun other hother => Function.update_of_ne hother ..]
  simp [goOn]

theorem waits_finish : (s.finish request).Waits userId P ↔ s.WaitsElse request userId P := by
  rw [waits_of_requests (s := s) fun other hother => Function.update_of_ne hother ..]
  simp [finish]

/-! ## The tally -/

/-- The guesses for a user since the last success, `totp` and `backup`, against what is stored: a request that
still has to count its failure makes up for one that is not. -/
structure Tally (userId : String) (totp : List DateTime) (backup : ℕ) (s : VerifyState) : Prop where
  past : ∀ t ∈ totp, t ≤ s.now
  attempts_le : totp.length ≤ (s.manager.counters userId).attempts + 1
  attempts : ¬ s.Waits userId Stage.CountsTotp → totp.length ≤ (s.manager.counters userId).attempts
  locked : ¬ s.Waits userId Stage.Locks → maxTotpAttempts.toNat ≤ (s.manager.counters userId).attempts →
    ∀ t ∈ totp, s.manager.LockedSince userId t
  usage_le : backup ≤ (s.manager.counters userId).usage + 1
  usage : ¬ s.Waits userId Stage.CountsBackup → backup ≤ (s.manager.counters userId).usage
  cleared : s.Waits userId Stage.Clears → totp = [] ∧ backup = 0

theorem Tally.empty (userId : String) (s : VerifyState) : Tally userId [] 0 s where
  past _ ht := absurd ht List.not_mem_nil
  attempts_le := Nat.zero_le _
  attempts _ := Nat.zero_le _
  locked _ _ _ ht := absurd ht List.not_mem_nil
  usage_le := Nat.zero_le _
  usage _ := Nat.zero_le _
  cleared _ := ⟨rfl, rfl⟩

/-- A step that changes nothing stored of the user, takes no request away that has a failure to count and
adds none that writes a success. -/
theorem Tally.frame {totp : List DateTime} {backup : ℕ} (ht : Tally userId totp backup s) (hnow : s.now ≤ s'.now)
    (hkeeps : s.manager.Keeps s'.manager userId)
    (htotp : s.Waits userId Stage.CountsTotp → s'.Waits userId Stage.CountsTotp)
    (hlocks : s.Waits userId Stage.Locks → s'.Waits userId Stage.Locks)
    (hbackup : s.Waits userId Stage.CountsBackup → s'.Waits userId Stage.CountsBackup)
    (hclears : s'.Waits userId Stage.Clears → s.Waits userId Stage.Clears) : Tally userId totp backup s' := by
  obtain ⟨hpool, hcounters⟩ := hkeeps
  refine ⟨fun t hmem => (ht.past t hmem).trans hnow, ?_, ?_, ?_, ?_, ?_, fun h => ht.cleared (hclears h)⟩
  · rw [hcounters]
    exact ht.attempts_le
  · intro hnot
    rw [hcounters]
    exact ht.attempts fun h => hnot (htotp h)
  · intro hnot hmax t hmem later hlater
    rw [hcounters] at hmax hlater
    rw [MfaManager.lockoutUnit_congr hpool] at hlater
    exact ht.locked (fun h => hnot (hlocks h)) hmax t hmem later hlater
  · rw [hcounters]
    exact ht.usage_le
  · intro hnot
    rw [hcounters]
    exact ht.usage fun h => hnot (hbackup h)

/-! ## Steps that compare nothing -/

section

variable {env : MfaEnv} {totp : List DateTime} {backup : ℕ} {available : Bool}

/-- A request of which neither the stage it leaves nor the one it comes to writes anything. -/
theorem Tally.goOn (ht : Tally userId totp backup s) {stage : Stage}
    (hv : s.requests request = none ∨ ∃ v', s.requests request = some v' ∧ (v'.userId = userId → ¬ v'.stage.Unwritten))
    (hstage : v.userId = userId → ¬ stage.Clears) : Tally userId totp backup (s.goOn request v stage) := by
  have hleaves : ∀ P : Stage → Prop, (∀ stage, P stage → stage.Unwritten) →
      (s.Waits userId P ↔ s.WaitsElse request userId P) := by
    intro P hP
    rcases hv with hnone | ⟨v', hsome, hwritten⟩
    · exact waits_of_none hnone
    · rw [waits_of_some hsome]
      exact or_iff_right fun ⟨huser, hwaits⟩ => hwritten huser (hP _ hwaits)
  refine ht.frame le_rfl ⟨rfl, rfl⟩ ?_ ?_ ?_ ?_
  · rw [hleaves _ (fun stage h => .inl (by cases stage <;> trivial)), waits_goOn]
    exact .inr
  · rw [hleaves _ (fun _ => .inl), waits_goOn]
    exact .inr
  · rw [hleaves _ (fun _ h => .inr (.inl h)), waits_goOn]
    exact .inr
  · rw [hleaves _ (fun _ h => .inr (.inr h)), waits_goOn]
    rintro (⟨huser, hclears⟩ | helse)
    · exact absurd hclears (hstage huser)
    · exact helse

theorem Tally.finish (ht : Tally userId totp backup s) (hv : s.requests request = some v)
    (hwritten : v.userId = userId → ¬ v.stage.Unwritten) : Tally userId totp backup (s.finish request) := by
  have hleaves : ∀ P : Stage → Prop, (∀ stage, P stage → stage.Unwritten) →
      (s.Waits userId P ↔ (s.finish request).Waits userId P) := by
    intro P hP
    rw [waits_of_some hv, waits_finish]
    exact or_iff_right fun ⟨huser, hwaits⟩ => hwritten huser (hP _ hwaits)
  exact ht.frame le_rfl ⟨rfl, rfl⟩ (hleaves _ fun stage h => .inl (by cases stage <;> trivial)).1
    (hleaves _ fun _ => .inl).1 (hleaves _ fun _ h => .inr (.inl h)).1 (hleaves _ fun _ h => .inr (.inr h)).2

/-- A query for another user. -/
theorem Tally.keeps (ht : Tally userId totp backup s) {manager : MfaManager} (hkeeps : s.manager.Keeps manager userId) :
    Tally userId totp backup { s with manager } :=
  ht.frame le_rfl hkeeps id id id id

theorem requests_execute (s : VerifyState) (available : Bool) (query : MfaManager → MfaManager) (request : ℕ) :
    (s.execute available query).requests request = s.requests request := by
  unfold VerifyState.execute
  split <;> rfl

theorem Tally.execute (ht : Tally userId totp backup s) {query : MfaManager → MfaManager}
    (hkeeps : s.manager.Keeps (query s.manager) userId) : Tally userId totp backup (s.execute available query) := by
  unfold VerifyState.execute
  split
  · exact ht.keeps hkeeps
  · exact ht

/-- A failure of the user is counted; as many as the limit lock the user out, or a request is about to. -/
theorem Tally.counted (ht : Tally userId totp backup s) (hnow : s.now ≤ s'.now)
    (hattempts : (s'.manager.counters userId).attempts = (s.manager.counters userId).attempts + 1)
    (husage : (s'.manager.counters userId).usage = (s.manager.counters userId).usage)
    (hbackup : s.Waits userId Stage.CountsBackup → s'.Waits userId Stage.CountsBackup)
    (hclears : s'.Waits userId Stage.Clears → s.Waits userId Stage.Clears)
    (hlocked : ¬ s'.Waits userId Stage.Locks → maxTotpAttempts.toNat ≤ (s'.manager.counters userId).attempts →
      ∀ t ∈ totp, s'.manager.LockedSince userId t) : Tally userId totp backup s' := by
  refine ⟨fun t hmem => (ht.past t hmem).trans hnow, ?_, fun _ => ?_, hlocked, ?_, fun hnot => ?_, fun h =>
    ht.cleared (hclears h)⟩
  · rw [hattempts]
    exact ht.attempts_le.trans (Nat.le_succ _)
  · rw [hattempts]
    exact ht.attempts_le
  · rw [husage]
    exact ht.usage_le
  · rw [husage]
    exact ht.usage fun h => hnot (hbackup h)

/-- The failure is counted in the row of the user. -/
theorem Tally.recordFailed_pool (ht : Tally userId totp backup s) (hv : s.requests request = some v)
    (hstage : v.stage = .recordFailedTotpAttempt) {table : LockoutTable} (hpool : s.manager.pool = some table)
    (hfits : (LockoutTable.row table v.userId).failedAttempts + 1 < 2 ^ 31) :
    Tally userId totp backup (s.recordFailedTotpAttempt true request v).2 := by
  unfold VerifyState.recordFailedTotpAttempt
  rw [hpool]
  dsimp only
  rw [if_pos rfl, MfaManager.insertFailedAttempt_eq hfits]
  dsimp only
  generalize hrow : ({ LockoutTable.row table v.userId with
    failedAttempts := (LockoutTable.row table v.userId).failedAttempts + 1 } : LockoutRow) = row
  by_cases huser : v.userId = userId
  · subst huser
    have hcounters : ({ s.manager with pool := some (table.insert v.userId row) } : MfaManager).counters v.userId =
        { s.manager.counters v.userId with attempts := (s.manager.counters v.userId).attempts + 1 } := by
      rw [MfaManager.counters_pool hpool, MfaManager.counters_pool rfl, LockoutTable.row_insert, if_pos rfl, ← hrow]
      rfl
    have hcast : (UInt32.ofNat ((LockoutTable.row table v.userId).failedAttempts + 1)).toNat =
        (s.manager.counters v.userId).attempts + 1 := by
      rw [MfaManager.counters_pool hpool, UInt32.toNat_ofNat', Nat.mod_eq_of_lt (by omega)]
      rfl
    have hattempts := congrArg Counters.attempts hcounters
    have husage := congrArg Counters.usage hcounters
    have hbackup : s.Waits v.userId Stage.CountsBackup → s.WaitsElse request v.userId Stage.CountsBackup :=
      waitsElse_of_waits hv (hstage ▸ id)
    split
    · refine ht.counted le_rfl hattempts husage (fun h => waits_goOn.2 (.inr (hbackup h)))
        (fun h => waits_of_waitsElse hv ((waits_goOn.1 h).resolve_left fun h => h.2)) fun hnot => ?_
      exact absurd (waits_goOn.2 (.inl ⟨rfl, trivial⟩)) hnot
    · rename_i hmax
      refine ht.counted le_rfl hattempts husage (fun h => waits_goOn.2 (.inr (hbackup h)))
        (fun h => waits_of_waitsElse hv ((waits_goOn.1 h).resolve_left fun h => h.2)) fun _ hreached => ?_
      change _ ≤ (({ s.manager with pool := some (table.insert v.userId row) } : MfaManager).counters
        v.userId).attempts at hreached
      rw [hattempts, ← hcast] at hreached
      exact absurd (UInt32.le_iff_toNat_le.2 hreached) hmax
  · have hkeeps : s.manager.Keeps { s.manager with pool := some (table.insert v.userId row) } userId :=
      MfaManager.keeps_pool hpool rfl (by rw [LockoutTable.row_insert, if_neg (Ne.symm huser)])
    split <;> exact (ht.keeps hkeeps).goOn (.inr ⟨v, hv, fun h => absurd h huser⟩) fun h => absurd h huser

/-- In memory the lockout comes with it. -/
theorem Tally.recordFailed_memory (ht : Tally userId totp backup s) (hv : s.requests request = some v)
    (hstage : v.stage = .recordFailedTotpAttempt) (hpool : s.manager.pool = none)
    (hfits : (s.manager.counters v.userId).attempts + 1 < 2 ^ 32) :
    Tally userId totp backup (s.recordFailedTotpAttempt available request v).2 := by
  have hpool' : (s.manager.recordFailedTotpAttempt s.now v.userId).2.pool = none := by
    unfold MfaManager.recordFailedTotpAttempt
    rw [hpool]
    dsimp only
    split <;> rfl
  obtain ⟨hattempts, husage, hlocked⟩ := MfaManager.recordFailedTotpAttempt_memory hpool s.now v.userId hfits
  have hothers : userId ≠ v.userId → s.manager.Keeps (s.manager.recordFailedTotpAttempt s.now v.userId).2 userId :=
    MfaManager.recordFailedTotpAttempt_other hpool s.now
  unfold VerifyState.recordFailedTotpAttempt
  rw [hpool]
  dsimp only
  generalize s.manager.recordFailedTotpAttempt s.now v.userId = recorded at hpool' hattempts husage hlocked hothers
  obtain ⟨reached, manager⟩ := recorded
  dsimp only at hpool' hattempts husage hlocked hothers
  by_cases huser : v.userId = userId
  · subst huser
    have hbackup : s.Waits v.userId Stage.CountsBackup → s.WaitsElse request v.userId Stage.CountsBackup :=
      waitsElse_of_waits hv (hstage ▸ id)
    have hsince : maxTotpAttempts.toNat ≤ (manager.counters v.userId).attempts →
        ∀ t ∈ totp, manager.LockedSince v.userId t := by
      intro hreached t hmem
      rw [hattempts] at hreached
      exact MfaManager.lockedSince_memory hpool' (ht.past t hmem) (hlocked hreached)
    cases reached with
    | true =>
      exact ht.counted le_rfl hattempts husage (fun h => waits_finish.2 (hbackup h))
        (fun h => waits_of_waitsElse hv (waits_finish.1 h)) fun _ => hsince
    | false =>
      exact ht.counted le_rfl hattempts husage (fun h => waits_goOn.2 (.inr (hbackup h)))
        (fun h => waits_of_waitsElse hv ((waits_goOn.1 h).resolve_left fun h => h.2)) fun _ => hsince
  · have hkeeps := hothers (Ne.symm huser)
    cases reached with
    | true => exact (ht.keeps hkeeps).finish hv fun h => absurd h huser
    | false => exact (ht.keeps hkeeps).goOn (.inr ⟨v, hv, fun h => absurd h huser⟩) fun h => absurd h huser

/-- The lockout covers every guess so far. -/
theorem Tally.setLockedUntil (ht : Tally userId totp backup s) (hv : s.requests request = some v)
    (hstage : v.stage = .setLockedUntil) (hpool : s.manager.pool.isSome) (havailable : available) :
    Tally userId totp backup
      ((s.execute available fun m => { m with pool := m.pool.map (MfaManager.setLockedUntil · s.now v.userId) }).finish
        request) := by
  have hanswers : s.answers available = true := by
    rw [answers, havailable, Bool.or_true]
  rw [VerifyState.execute, if_pos hanswers]
  by_cases huser : v.userId = userId
  · subst huser
    have hnotTotp : ¬ Stage.CountsTotp v.stage := hstage ▸ id
    have hnotBackup : ¬ Stage.CountsBackup v.stage := hstage ▸ id
    obtain ⟨hattempts, husage, hlocked⟩ := MfaManager.setLockedUntil_counters hpool s.now v.userId _ rfl
    refine ⟨ht.past, ?_, fun hnot => ?_, fun _ hmax t hmem => hlocked ?_ t (ht.past t hmem), ?_, fun hnot => ?_,
      fun h => ht.cleared (waits_of_waitsElse hv (waits_finish.1 h))⟩
    · exact ht.attempts_le.trans_eq (congrArg (· + 1) hattempts.symm)
    · exact (ht.attempts fun h => hnot (waits_finish.2 (waitsElse_of_waits hv hnotTotp h))).trans_eq hattempts.symm
    · rw [← hattempts]
      exact Nat.ne_of_gt (Nat.lt_of_lt_of_le (by decide) hmax)
    · exact ht.usage_le.trans_eq (congrArg (· + 1) husage.symm)
    · exact (ht.usage fun h => hnot (waits_finish.2 (waitsElse_of_waits hv hnotBackup h))).trans_eq husage.symm
  · refine (ht.keeps ?_).finish hv fun h => absurd h huser
    exact MfaManager.setLockedUntil_other s.manager s.now (Ne.symm huser)

/-- A success is written: there is nothing to count any more. -/
theorem Tally.cleared_step (ht : Tally userId totp backup s) (hv : s.requests request = some v)
    (hclears : v.stage.Clears)
    (hother : v.userId ≠ userId → Tally userId totp backup s') : Tally userId totp backup s' := by
  by_cases huser : v.userId = userId
  · obtain ⟨rfl, rfl⟩ := ht.cleared ((waits_of_some hv).2 (.inl ⟨huser, hclears⟩))
    exact Tally.empty userId s'
  · exact hother huser

/-- The use of a backup code is counted. -/
theorem Tally.recordBackup (ht : Tally userId totp backup s) (hv : s.requests request = some v)
    (hstage : v.stage = .recordBackupCodeUsage) (hanswers : s.answers available)
    (hfits : (s.manager.counters v.userId).usage + 1 < s.manager.counterLimit) :
    Tally userId totp backup (s.recordBackupCodeUsage available request v).2 := by
  unfold VerifyState.recordBackupCodeUsage
  rw [if_pos hanswers]
  by_cases huser : v.userId = userId
  · subst huser
    obtain ⟨hpool, hcounters⟩ := MfaManager.counters_recordBackupCodeUsage s.manager hfits
    have hnotTotp : ¬ Stage.CountsTotp v.stage := hstage ▸ id
    have hnotLocks : ¬ Stage.Locks v.stage := hstage ▸ id
    have hattempts := congrArg Counters.attempts hcounters
    have husage := congrArg Counters.usage hcounters
    have hlockedOut := congrArg Counters.lockedOut hcounters
    dsimp only at hattempts husage hlockedOut
    refine ⟨ht.past, ?_, fun hnot => ?_, fun hnot hmax t hmem later hlater => ?_, ?_, fun _ => ?_,
      fun h => ht.cleared (waits_of_waitsElse hv (waits_finish.1 h))⟩
    · exact ht.attempts_le.trans_eq (congrArg (· + 1) hattempts.symm)
    · exact (ht.attempts fun h => hnot (waits_finish.2 (waitsElse_of_waits hv hnotTotp h))).trans_eq hattempts.symm
    · refine ht.locked (fun h => hnot (waits_finish.2 (waitsElse_of_waits hv hnotLocks h))) (hattempts ▸ hmax) t
        hmem later ?_
      rw [← hlockedOut, ← MfaManager.lockoutUnit_congr hpool]
      exact hlater
    · exact ht.usage_le.trans ((Nat.le_succ _).trans_eq (congrArg (· + 1) husage.symm))
    · exact ht.usage_le.trans_eq husage.symm
  · exact (ht.keeps (MfaManager.recordBackupCodeUsage_other s.manager (Ne.symm huser))).finish hv fun h =>
      absurd h huser

theorem Tally.advance (ht : Tally userId totp backup s) (hv : s.requests request = some v)
    (hg : match v.stage with
      | .verify _ | .consumeBackupCode _ => v.userId ≠ userId
      | .recordFailedTotpAttempt => s.answers available ∧
          (s.manager.counters v.userId).attempts + 1 < s.manager.counterLimit
      | .setLockedUntil => s.manager.pool.isSome ∧ available
      | .recordBackupCodeUsage => s.answers available ∧
          (s.manager.counters v.userId).usage + 1 < s.manager.counterLimit
      | _ => True) : Tally userId totp backup (s.advance env available request v).2 := by
  unfold VerifyState.advance
  have hunwritten : ∀ {stage : Stage}, v.stage = stage → ¬ stage.Locks → ¬ stage.CountsBackup → ¬ stage.Clears →
      ¬ v.stage.Unwritten := by
    rintro _ rfl hlocks hbackup hclears (h | h | h)
    · exact hlocks h
    · exact hbackup h
    · exact hclears h
  have hgoOn : ∀ {stage : Stage}, ¬ v.stage.Unwritten → ¬ stage.Clears →
      Tally userId totp backup (s.goOn request v stage) :=
    fun hwritten hclears => ht.goOn (.inr ⟨v, hv, fun _ => hwritten⟩) fun _ => hclears
  have hother : ∀ {stage : Stage}, v.userId ≠ userId → Tally userId totp backup (s.goOn request v stage) :=
    fun huser => ht.goOn (.inr ⟨v, hv, fun h => absurd h huser⟩) fun h => absurd h huser
  cases hstage : v.stage with
  | lockoutRemainingSecs => exact ht.finish hv fun _ => hunwritten hstage id id id
  | loadTotpConfig =>
    dsimp only
    split
    · exact ht.finish hv fun _ => hunwritten hstage id id id
    · split
      · exact ht.finish hv fun _ => hunwritten hstage id id id
      · exact hgoOn (hunwritten hstage id id id) id
  | verify generator =>
    rw [hstage] at hg
    exact hother hg
  | recordFailedTotpAttempt =>
    rw [hstage] at hg
    obtain ⟨hanswers, hfits⟩ := hg
    dsimp only
    cases hpool : s.manager.pool with
    | some table =>
      have havailable : available = true := by simpa [answers, hpool] using hanswers
      rw [MfaManager.counters_pool hpool, MfaManager.counterLimit, hpool] at hfits
      rw [havailable]
      exact ht.recordFailed_pool hv hstage hpool hfits
    | none =>
      rw [MfaManager.counterLimit, hpool] at hfits
      exact ht.recordFailed_memory hv hstage hpool hfits
  | setLockedUntil =>
    rw [hstage] at hg
    exact ht.setLockedUntil hv hstage hg.1 hg.2
  | failedAttemptCount => exact ht.finish hv fun _ => hunwritten hstage id id id
  | clearFailedAttempts =>
    refine ht.cleared_step hv (hstage ▸ trivial) fun huser => ?_
    refine (ht.execute (MfaManager.clearFailedAttempts_other s.manager (Ne.symm huser))).goOn ?_ fun h => absurd h huser
    exact .inr ⟨v, (requests_execute ..).trans hv, fun h => absurd h huser⟩
  | loadBackupCodes =>
    dsimp only
    split <;> exact hgoOn (hunwritten hstage id id id) id
  | consumeBackupCode codes =>
    rw [hstage] at hg
    dsimp only
    split <;> exact hother hg
  | updateBackupCodes codes =>
    refine ht.cleared_step hv (hstage ▸ trivial) fun huser => ?_
    have hwritten : Tally userId totp backup (s.updateBackupCodes env v.userId codes available) :=
      ht.frame le_rfl ⟨rfl, rfl⟩ id id id id
    exact hwritten.goOn (.inr ⟨v, hv, fun h => absurd h huser⟩) fun h => absurd h huser
  | recordBackupCodeUsage =>
    rw [hstage] at hg
    exact ht.recordBackup hv hstage hg.1 hg.2
  | resetBackupCodeUsage backup =>
    refine ht.cleared_step hv (hstage ▸ trivial) fun huser => ?_
    refine (ht.execute (MfaManager.resetBackupCodeUsage_other s.manager (Ne.symm huser))).finish ?_ fun h =>
      absurd h huser
    exact (requests_execute ..).trans hv

/-- Time passes. -/
theorem Tally.elapse (ht : Tally userId totp backup s) (elapsed : ℕ) :
    Tally userId totp backup { s with now := s.now + elapsed } :=
  ht.frame (Int.le_add_of_nonneg_right (Int.natCast_nonneg elapsed)) ⟨rfl, rfl⟩ id id id id

theorem mfaVerify_cases (s : VerifyState) (available : Bool) (request : ℕ) (userId code : String) : ∃ stage,
    s.mfaVerify available request userId code = (.pending, s.goOn request ⟨userId, code, .loadTotpConfig⟩ stage) ∧
      ¬ stage.Clears := by
  unfold mfaVerify
  split
  · exact ⟨_, rfl, id⟩
  · exact ⟨_, rfl, id⟩

theorem mfaVerifyBackup_cases (s : VerifyState) (available : Bool) (request : ℕ) (userId code : String) :
    s.mfaVerifyBackup available request userId code = (.returned (.error limitExceeded), s) ∨
      s.mfaVerifyBackup available request userId code =
        (.pending, s.goOn request ⟨userId, code, .loadBackupCodes⟩ .loadBackupCodes) := by
  unfold mfaVerifyBackup
  dsimp only
  by_cases hlimit : maxBackupCodeUses ≤ if s.answers available then s.manager.backupCodeUsageCount userId else 0
  · exact .inl (if_pos hlimit)
  · exact .inr (if_neg hlimit)

/-- A step that compares nothing for the user. -/
theorem Tally.quiet (ht : Tally userId totp backup s) {h : History VerifyInput VerifyReply} {i : VerifyInput}
    (hg : CountedFirst h s i) (hquiet : ∀ backup valid now, (step env s i).1 ≠ .compared userId backup valid now) :
    Tally userId totp backup (step env s i).2 := by
  replace ht := ht.elapse i.elapsed
  unfold step at hquiet ⊢
  dsimp only at hquiet ⊢
  cases hv : s.requests i.request with
  | none =>
    dsimp only
    cases i.op with
    | mfaVerify userId' code =>
      obtain ⟨stage, heq, hclears⟩ :=
        mfaVerify_cases { s with now := s.now + i.elapsed } i.available i.request userId' code
      dsimp only
      rw [heq]
      exact ht.goOn (.inl hv) fun _ => hclears
    | mfaVerifyBackup userId' code =>
      dsimp only
      rcases mfaVerifyBackup_cases { s with now := s.now + i.elapsed } i.available i.request userId' code with heq | heq
      · rw [heq]
        exact ht
      · rw [heq]
        exact ht.goOn (.inl hv) fun _ => id
    | advance => exact ht
  | some v =>
    rw [hv] at hquiet
    dsimp only at hquiet ⊢
    cases hop : i.op with
    | mfaVerify userId' code => exact ht
    | mfaVerifyBackup userId' code => exact ht
    | advance =>
      rw [hop] at hquiet
      refine ht.advance hv ?_
      have hguard := hg hop v hv
      unfold VerifyState.advance at hquiet
      cases hstage : v.stage with
      | verify generator =>
        rw [hstage] at hquiet
        rintro rfl
        exact hquiet false _ _ rfl
      | consumeBackupCode codes =>
        rw [hstage] at hquiet
        rintro rfl
        dsimp only at hquiet
        split at hquiet
        · exact hquiet true _ _ rfl
        · exact hquiet true _ _ rfl
      | recordFailedTotpAttempt =>
        rw [hstage] at hguard
        exact hguard
      | setLockedUntil =>
        rw [hstage] at hguard
        exact hguard
      | recordBackupCodeUsage =>
        rw [hstage] at hguard
        exact hguard
      | _ => trivial

/-! ## Comparisons in a run -/

/-- A comparison is that of a request, which goes on to write what follows from it. -/
theorem step_compared {i : VerifyInput} {backup valid : Bool} {now : DateTime}
    (hstep : (step env s i).1 = .compared userId backup valid now) :
    i.op = .advance ∧ now = s.now + i.elapsed ∧ ∃ v stage, s.requests i.request = some v ∧ v.userId = userId ∧
      (step env s i).2 = goOn { s with now } i.request v stage ∧
      if backup then (∃ codes, v.stage = .consumeBackupCode codes) ∧ (valid = false → stage = .recordBackupCodeUsage)
      else (∃ generator, v.stage = .verify generator) ∧ (valid = false → stage = .recordFailedTotpAttempt) := by
  unfold step at hstep ⊢
  cases hv : s.requests i.request with
  | none =>
    simp only [hv] at hstep
    cases hop : i.op with
    | mfaVerify userId' code =>
      obtain ⟨stage, heq, -⟩ := mfaVerify_cases { s with now := s.now + i.elapsed } i.available i.request userId' code
      simp only [hop, heq] at hstep
      cases hstep
    | mfaVerifyBackup userId' code =>
      rcases mfaVerifyBackup_cases { s with now := s.now + i.elapsed } i.available i.request userId' code with
        heq | heq <;> simp only [hop, heq] at hstep <;> cases hstep
    | advance =>
      rw [hop] at hstep
      cases hstep
  | some v =>
    simp only [hv] at hstep ⊢
    cases hop : i.op with
    | mfaVerify userId' code =>
      rw [hop] at hstep
      cases hstep
    | mfaVerifyBackup userId' code =>
      rw [hop] at hstep
      cases hstep
    | advance =>
      rw [hop] at hstep
      refine ⟨rfl, ?_⟩
      cases hstage : v.stage with
      | verify generator =>
        simp only [VerifyState.advance, hstage] at hstep ⊢
        cases hstep
        exact ⟨rfl, v, _, rfl, rfl, rfl, ⟨_, hstage⟩, fun hvalid => by rw [hvalid]; rfl⟩
      | consumeBackupCode codes =>
        simp only [VerifyState.advance, hstage] at hstep ⊢
        split at hstep
        · cases hstep
          exact ⟨rfl, v, _, rfl, rfl, rfl, ⟨_, hstage⟩, fun _ => rfl⟩
        · cases hstep
          exact ⟨rfl, v, _, rfl, rfl, rfl, ⟨_, hstage⟩, fun hvalid => by cases hvalid⟩
      | loadTotpConfig =>
        simp only [VerifyState.advance, hstage] at hstep
        repeat' split at hstep
        all_goals cases hstep
      | recordFailedTotpAttempt =>
        simp only [VerifyState.advance, hstage, VerifyState.recordFailedTotpAttempt] at hstep
        repeat' split at hstep
        all_goals cases hstep
      | loadBackupCodes =>
        simp only [VerifyState.advance, hstage] at hstep
        split at hstep <;> cases hstep
      | _ =>
        simp only [VerifyState.advance, hstage, VerifyState.recordBackupCodeUsage] at hstep
        cases hstep

/-- A wrong TOTP code: it is one of the first, or the guesses before it were made before a lockout. -/
theorem Tally.compareTotp (ht : Tally userId totp backup s) {h : History VerifyInput VerifyReply} {i : VerifyInput}
    (hg : CountedFirst h s i) {now : ℤ} (hstep : (step env s i).1 = .compared userId false false now) :
    (totp.length < maxTotpAttempts.toNat ∨ ∀ t ∈ totp, t + totpLockoutSecs * 1000000000 < now) ∧
      Tally userId (totp ++ [now]) backup (step env s i).2 := by
  obtain ⟨hop, hnow, v, stage, hv, rfl, hnext, ⟨generator, hverify⟩, hstage⟩ := step_compared hstep
  obtain rfl := hstage rfl
  have hguard := hg hop v hv
  rw [hverify] at hguard
  obtain ⟨hwritten, hunlocked⟩ := hguard
  have hnone : ∀ {P : Stage → Prop}, (∀ stage, P stage → stage.Unwritten) → ¬ s.Waits v.userId P :=
    fun hP ⟨r, v', hv', huser, hwaits⟩ => hwritten ⟨r, v', hv', huser, hP _ hwaits⟩
  have hcounted := ht.attempts (hnone fun stage h => .inl (by cases stage <;> trivial))
  constructor
  · by_cases hmax : maxTotpAttempts.toNat ≤ (s.manager.counters v.userId).attempts
    · rw [MfaManager.isLockedOut_eq, ← hnow] at hunlocked
      exact .inr fun t hmem => ht.locked (hnone fun _ => .inl) hmax t hmem now hunlocked
    · exact .inl (by omega)
  · rw [hnext]
    have hlocks : ({ s with now }.goOn i.request v .recordFailedTotpAttempt).Waits v.userId Stage.CountsTotp :=
      waits_goOn.2 (.inl ⟨rfl, trivial⟩)
    have hlocks' : ({ s with now }.goOn i.request v .recordFailedTotpAttempt).Waits v.userId Stage.Locks :=
      waits_goOn.2 (.inl ⟨rfl, trivial⟩)
    refine ⟨fun t hmem => ?_, ?_, fun hnot => absurd hlocks hnot, fun hnot => absurd hlocks' hnot, ht.usage_le,
      fun _ => ht.usage (hnone fun _ h => .inr (.inl h)), fun hclears => ?_⟩
    · change t ≤ now
      rcases List.mem_append.1 hmem with hold | hnew
      · have hpast : t ≤ s.now := ht.past t hold
        rw [hnow]
        exact hpast.trans (Int.le_add_of_nonneg_right (Int.natCast_nonneg _))
      · exact (List.mem_singleton.1 hnew).le
    · rw [List.length_append]
      exact Nat.succ_le_succ hcounted
    · exact absurd (waits_of_waitsElse hv ((waits_goOn.1 hclears).resolve_left fun h => h.2)) (hnone fun _ h =>
        .inr (.inr h))

/-- A wrong backup code. -/
theorem Tally.compareBackup (ht : Tally userId totp backup s) {h : History VerifyInput VerifyReply} {i : VerifyInput}
    (hg : CountedFirst h s i) {now : ℤ} (hstep : (step env s i).1 = .compared userId true false now) :
    backup < maxBackupCodeUses.toNat ∧ Tally userId totp (backup + 1) (step env s i).2 := by
  obtain ⟨hop, hnow, v, stage, hv, rfl, hnext, ⟨codes, hconsume⟩, hstage⟩ := step_compared hstep
  obtain rfl := hstage rfl
  have hguard := hg hop v hv
  rw [hconsume] at hguard
  obtain ⟨hwritten, hlimit⟩ := hguard
  have hnone : ∀ {P : Stage → Prop}, (∀ stage, P stage → stage.Unwritten) → ¬ s.Waits v.userId P :=
    fun hP ⟨r, v', hv', huser, hwaits⟩ => hwritten ⟨r, v', hv', huser, hP _ hwaits⟩
  have hcounted := ht.usage (hnone fun _ h => .inr (.inl h))
  refine ⟨by omega, ?_⟩
  rw [hnext]
  have hwaits : ({ s with now }.goOn i.request v .recordBackupCodeUsage).Waits v.userId Stage.CountsBackup :=
    waits_goOn.2 (.inl ⟨rfl, trivial⟩)
  refine ⟨fun t hmem => ?_, ht.attempts_le, fun _ =>
    ht.attempts (hnone fun stage h => .inl (by cases stage <;> trivial)),
    fun _ => ht.locked (hnone fun _ => .inl), Nat.succ_le_succ hcounted, fun hnot => absurd hwaits hnot, fun hclears =>
    ?_⟩
  · change t ≤ now
    have hpast : t ≤ s.now := ht.past t hmem
    rw [hnow]
    exact hpast.trans (Int.le_add_of_nonneg_right (Int.natCast_nonneg _))
  · exact absurd (waits_of_waitsElse hv ((waits_goOn.1 hclears).resolve_left fun h => h.2)) (hnone fun _ h =>
      .inr (.inr h))

end

/-! ## Runs -/

/-- The bounds, and a tally of every user since the last success. -/
structure Counted (h : History VerifyInput VerifyReply) (s : VerifyState) : Prop where
  bounded : GuessesBounded h s
  tally : ∀ userId, Tally userId (guesses userId (History.since (isSuccess userId) h))
    ((History.since (isSuccess userId) h).countP (isWrongBackup userId)) s

/-- A part of a run that ends with a comparison: what came before it in the part is in the tally. -/
theorem bounded_snoc {h window : History VerifyInput VerifyReply} {e : VerifyInput × VerifyReply}
    (hwindow : window <:+ h) (hfailures : ∀ e' ∈ window, isSuccess userId e' = false) (hbounded : Bounded userId window)
    (htotp : ∀ now ∈ guesses userId [e],
      (guesses userId (History.since (isSuccess userId) h)).length < maxTotpAttempts.toNat ∨
        ∀ t ∈ guesses userId (History.since (isSuccess userId) h), t + totpLockoutSecs * 1000000000 < now)
    (hbackup : isWrongBackup userId e →
      (History.since (isSuccess userId) h).countP (isWrongBackup userId) < maxBackupCodeUses.toNat) :
    Bounded userId (window ++ [e]) := by
  obtain ⟨before, rfl⟩ := hwindow
  rw [History.since_append hfailures] at htotp hbackup
  have hguesses : ∀ w w' : History VerifyInput VerifyReply, guesses userId (w ++ w') = guesses userId w ++
      guesses userId w' :=
    fun _ _ => List.filterMap_append
  constructor
  · intro start hinside
    rw [hguesses] at hinside htotp ⊢
    have hsingle : (guesses userId [e]).length ≤ 1 := List.length_filterMap_le _ _
    rw [List.length_append]
    cases hnew : guesses userId [e] with
    | nil =>
      refine (hbounded.totp start fun t hmem => hinside t ?_)
      exact List.mem_append_left _ hmem
    | cons now rest =>
      rw [hnew] at hinside htotp hsingle
      rw [List.length_cons] at hsingle ⊢
      rcases htotp now List.mem_cons_self with hfew | hbefore
      · rw [List.length_append] at hfew
        omega
      · -- every other guess of the interval was made before the lockout
        have hnone : guesses userId window = [] := by
          refine List.eq_nil_iff_forall_not_mem.2 fun (t : ℤ) hmem => ?_
          have hlt : t + totpLockoutSecs * 1000000000 < now := hbefore t (List.mem_append_right _ hmem)
          have hstart : start ≤ t := (hinside t (List.mem_append_left _ hmem)).1
          have hend : now ≤ start + totpLockoutSecs * 1000000000 :=
            (hinside now (List.mem_append_right _ List.mem_cons_self)).2
          have hsum := Int.add_le_add_right hstart (totpLockoutSecs * 1000000000)
          exact absurd (hlt.trans_le (hend.trans hsum)) (lt_irrefl _)
        rw [hnone, List.length_nil]
        have hfive : 1 ≤ maxTotpAttempts.toNat := by decide
        omega
  · rw [List.countP_append, List.countP_singleton]
    split
    · rename_i hwrong
      have hlt := hbackup hwrong
      rw [List.countP_append] at hlt
      omega
    · exact hbounded.backup

/-- What an event is to a user. -/
theorem success_or_failure_or_quiet (userId : String) (e : VerifyInput × VerifyReply) : isSuccess userId e = true ∨
    (∃ now, e.2 = .compared userId false false now ∧ guesses userId [e] = [now] ∧ isWrongBackup userId e = false) ∨
    (∃ now, e.2 = .compared userId true false now ∧ guesses userId [e] = [] ∧ isWrongBackup userId e = true) ∨
    (∀ backup valid now, e.2 ≠ .compared userId backup valid now) ∧ guesses userId [e] = [] ∧
      isWrongBackup userId e = false := by
  obtain ⟨i, reply⟩ := e
  cases reply with
  | compared userId' backup valid now =>
    by_cases huser : userId' = userId
    · subst huser
      cases backup <;> cases valid <;> simp [isSuccess, isWrongBackup, guesses]
    · refine .inr (.inr (.inr ⟨?_, ?_, ?_⟩))
      · rintro _ _ _ ⟨⟩
        exact huser rfl
      · cases backup <;> simp [guesses, huser]
      · cases backup <;> cases valid <;> simp [isWrongBackup, huser]
  | _ => exact .inr (.inr (.inr ⟨nofun, rfl, rfl⟩))

/-- What an event other than a success adds to the tally. -/
theorem counted_step (env : MfaEnv) (h : History VerifyInput VerifyReply) (s : VerifyState) (i : VerifyInput)
    (hs : Counted h s) (hg : CountedFirst h s i) : Counted (h ++ [(i, (step env s i).1)]) (step env s i).2 := by
  have hguesses : ∀ userId w w', guesses userId (w ++ w') = guesses userId w ++ guesses userId w' :=
    fun _ _ _ => List.filterMap_append
  constructor
  · intro userId window hwindow hfailures
    rcases List.infix_concat_iff.1 hwindow with hsuffix | hinfix
    · rcases List.suffix_concat_iff.1 hsuffix with rfl | ⟨before, rfl, hbefore⟩
      · exact ⟨fun _ _ => Nat.zero_le _, Nat.zero_le _⟩
      · have hearlier : ∀ e ∈ before, isSuccess userId e = false :=
          fun e hmem => hfailures e (List.mem_append_left _ hmem)
        have hfailed := hfailures _ (List.mem_append_right _ (List.mem_singleton_self _))
        refine bounded_snoc hbefore hearlier (hs.bounded userId before hbefore.isInfix hearlier) ?_ ?_
        all_goals
          rcases success_or_failure_or_quiet userId (i, (step env s i).1) with hsuccess | ⟨now, hreply, hguess,
            hwrong⟩ |
            ⟨now, hreply, hguess, hwrong⟩ | ⟨-, hguess, hwrong⟩
        · rw [hfailed] at hsuccess
          cases hsuccess
        · rw [hguess]
          rintro _ (_ | ⟨_, ⟨⟩⟩)
          exact ((hs.tally userId).compareTotp hg hreply).1
        · simp [hguess]
        · simp [hguess]
        · rw [hfailed] at hsuccess
          cases hsuccess
        · simp [hwrong]
        · exact fun _ => ((hs.tally userId).compareBackup hg hreply).1
        · simp [hwrong]
    · exact hs.bounded userId window hinfix hfailures
  · intro userId
    cases hsuccess : isSuccess userId (i, (step env s i).1) with
    | true =>
      rw [History.since_append_of_pos hsuccess]
      exact Tally.empty userId _
    | false =>
      rw [History.since_append_of_neg hsuccess, hguesses, List.countP_append, List.countP_singleton]
      rcases success_or_failure_or_quiet userId (i, (step env s i).1) with hsuccess' | ⟨now, hreply, hguess, hwrong⟩ |
        ⟨now, hreply, hguess, hwrong⟩ | ⟨hquiet, hguess, hwrong⟩
      · rw [hsuccess] at hsuccess'
        cases hsuccess'
      · rw [hguess, hwrong]
        exact ((hs.tally userId).compareTotp hg hreply).2
      · rw [hguess, hwrong, List.append_nil]
        exact ((hs.tally userId).compareBackup hg hreply).2
      · rw [hguess, hwrong, List.append_nil]
        exact (hs.tally userId).quiet hg hquiet

/-- Where every comparison is counted before the next one, TOTP guesses and backup codes are bounded
throughout. -/
theorem guessesBounded_of_along (env : MfaEnv) {s : VerifyState} {inputs : List VerifyInput}
    (hinputs : (step env).Along CountedFirst [] s inputs) :
    (step env).Throughout GuessesBounded [] s inputs := by
  have hstart : Counted [] s := by
    refine ⟨fun userId window hwindow _ => ?_, fun userId => Tally.empty userId s⟩
    rw [List.infix_nil.1 hwindow]
    exact ⟨fun _ _ => Nat.zero_le _, Nat.zero_le _⟩
  exact (hinputs.throughout (counted_step env) hstart).mono fun _ _ => Counted.bounded

/-! ## Guesses of requests that overlap -/

/-- Digests after which every code is `000000`. -/
def sampleEnv : MfaEnv :=
  ⟨⟨fun _ => List.replicate 20 0, fun _ => List.replicate 32 0, fun _ => List.replicate 64 0⟩, some,
    MfaRun.jsonCodes, MfaRun.asciiUppercase⟩

/-- A user with TOTP, all of whose backup codes are used, and no database. -/
def sampleState : VerifyState where
  now := 0
  manager := .newInMemory
  totpSecrets := (∅ : HashMap String Bytes).insert "user-1" [1]
  backupCodes := ∅
  memoryCodes := (∅ : HashMap String (List String)).insert "user-1" []
  requests := fun _ => none

theorem requests_goOn {request other : ℕ} (hother : other ≠ request) (v : Verification) (stage : Stage) :
    (s.goOn request v stage).requests other = s.requests other :=
  Function.update_of_ne hother ..

theorem requests_finish {request other : ℕ} (hother : other ≠ request) :
    (s.finish request).requests other = s.requests other :=
  Function.update_of_ne hother ..

theorem requests_advance {env : MfaEnv} {available : Bool} {request other : ℕ} (hother : other ≠ request)
    (v : Verification) :
    (s.advance env available request v).2.requests other = s.requests other := by
  unfold VerifyState.advance
  cases v.stage with
  | loadTotpConfig =>
    dsimp only
    split
    · exact requests_finish hother
    · split
      · exact requests_finish hother
      · exact requests_goOn hother ..
  | recordFailedTotpAttempt =>
    dsimp only [VerifyState.recordFailedTotpAttempt]
    split
    · split
      · exact requests_goOn hother ..
      · split
        · exact requests_goOn hother ..
        · exact requests_goOn hother ..
    · split
      · exact requests_finish hother
      · exact requests_goOn hother ..
  | loadBackupCodes =>
    dsimp only
    split <;> exact requests_goOn hother ..
  | consumeBackupCode codes =>
    dsimp only
    split <;> exact requests_goOn hother ..
  | verify generator => exact requests_goOn hother ..
  | updateBackupCodes codes => exact requests_goOn hother ..
  | lockoutRemainingSecs | failedAttemptCount | recordBackupCodeUsage => exact requests_finish hother
  | setLockedUntil | resetBackupCodeUsage backup => exact (requests_finish hother).trans (requests_execute ..)
  | clearFailedAttempts => exact (requests_goOn hother ..).trans (requests_execute ..)

/-- A step touches no request but its own. -/
theorem requests_step {env : MfaEnv} {i : VerifyInput} {other : ℕ} (hother : other ≠ i.request) :
    (step env s i).2.requests other = s.requests other := by
  unfold step
  dsimp only
  split
  · split
    · unfold mfaVerify
      split <;> exact requests_goOn hother ..
    · unfold mfaVerifyBackup
      extract_lets usage
      split
      · rfl
      · exact requests_goOn hother ..
    · rfl
  · split
    · exact requests_advance hother _
    · rfl

instance : DecidablePred Stage.Unwritten
  | .recordFailedTotpAttempt | .setLockedUntil => isTrue (.inl trivial)
  | .recordBackupCodeUsage => isTrue (.inr (.inl trivial))
  | .clearFailedAttempts | .updateBackupCodes _ | .resetBackupCodeUsage _ => isTrue (.inr (.inr trivial))
  | .lockoutRemainingSecs | .loadTotpConfig | .verify _ | .failedAttemptCount | .loadBackupCodes
  | .consumeBackupCode _ => isFalse (by simp [Stage.Unwritten, Stage.Locks, Stage.CountsBackup, Stage.Clears])

/-- All requests are below `n`. -/
def RequestsBelow (n : ℕ) (s : VerifyState) : Prop := ∀ request, n ≤ request → s.requests request = none

theorem RequestsBelow.step {n : ℕ} (h : s.RequestsBelow n) (env : MfaEnv) {i : VerifyInput} (hi : i.request < n) :
    (step env s i).2.RequestsBelow n := by
  intro request hrequest
  rw [requests_step (by omega)]
  exact h request hrequest

def decidableWaits {n : ℕ} (h : s.RequestsBelow n) (userId : String) : Decidable (s.Waits userId Stage.Unwritten) :=
  decidable_of_iff (∃ request < n, ∃ v ∈ s.requests request, v.userId = userId ∧ v.stage.Unwritten) (by
    constructor
    · rintro ⟨request, -, v, hv, hwaits⟩
      exact ⟨request, v, hv, hwaits⟩
    · rintro ⟨request, v, hv, hwaits⟩
      refine ⟨request, ?_, v, hv, hwaits⟩
      by_contra hle
      rw [h request (Nat.le_of_not_lt hle)] at hv
      cases hv)

instance [∀ userId, Decidable (s.Waits userId Stage.Unwritten)] (i : VerifyInput) (userId : String) :
    DecidablePred (s.InTime i userId)
  | .verify _ | .consumeBackupCode _ => inferInstanceAs (Decidable (¬ _ ∧ _))
  | .recordFailedTotpAttempt | .setLockedUntil | .recordBackupCodeUsage => inferInstanceAs (Decidable (_ ∧ _))
  | .clearFailedAttempts | .updateBackupCodes _ | .resetBackupCodeUsage _ | .lockoutRemainingSecs | .loadTotpConfig
  | .failedAttemptCount | .loadBackupCodes => isTrue trivial

def decidableCountedFirst {n : ℕ} (hs : s.RequestsBelow n) (h : History VerifyInput VerifyReply) (i : VerifyInput) :
    Decidable (CountedFirst h s i) :=
  have := decidableWaits hs
  match hop : i.op with
  | .mfaVerify _ _ | .mfaVerifyBackup _ _ => isTrue (by simp [CountedFirst, hop])
  | .advance =>
    match hv : s.requests i.request with
    | none => isTrue (by simp [CountedFirst, hv])
    | some v => decidable_of_iff (s.InTime i v.userId v.stage) (by simp [CountedFirst, hop, hv])

/-- With finitely many requests the condition can be evaluated on a run. -/
def decidableAlong {n : ℕ} (env : MfaEnv) : ∀ (h : History VerifyInput VerifyReply) (s : VerifyState)
    (inputs : List VerifyInput), s.RequestsBelow n → (∀ i ∈ inputs, i.request < n) →
      Decidable ((step env).Along CountedFirst h s inputs)
  | _, _, [], _, _ => isTrue trivial
  | h, _, i :: inputs, hs, hinputs =>
    @instDecidableAnd _ _ (decidableCountedFirst hs h i)
      (decidableAlong env _ _ inputs (hs.step env (hinputs i List.mem_cons_self)) fun i hi =>
        hinputs i (List.mem_cons_of_mem _ hi))

def goesOn (request : ℕ) : VerifyInput := ⟨0, true, request, .advance⟩

def guess (request : ℕ) : VerifyInput := ⟨0, true, request, .mfaVerify "user-1" "123456"⟩

def backupGuess (request : ℕ) : VerifyInput := ⟨0, true, request, .mfaVerifyBackup "user-1" "AB12-CD34"⟩

/-- Three requests with codes of both kinds are under way at once, each of which counts its failure before the
next code is compared. Two more guesses lock the user, and the last request is refused. -/
def upToLockout : List VerifyInput :=
  [guess 0, guess 1, backupGuess 2, goesOn 0, goesOn 1, goesOn 2, goesOn 0, goesOn 0, goesOn 1, goesOn 1, goesOn 2,
    goesOn 2, goesOn 0, goesOn 1] ++
  (List.range 3).flatMap (fun request => guess request :: List.replicate 4 (goesOn request)) ++
  [guess 3, goesOn 3]

theorem guessesBounded_upToLockout :
    (step sampleEnv).Throughout GuessesBounded [] sampleState upToLockout :=
  guessesBounded_of_along sampleEnv (@of_decide_eq_true _
    (decidableAlong (n := 4) sampleEnv [] sampleState upToLockout (fun _ _ => rfl) (by decide)) (by decide +kernel))

/-! ## Six guesses at once -/

/-- Every request has passed the check before the first one counts its failure. -/
def sixAtOnce : List VerifyInput :=
  (List.range 6).map guess ++ (List.range 6).map goesOn ++ (List.range 6).map goesOn

theorem not_guessesBounded_sixAtOnce :
    ¬ (step sampleEnv).Throughout GuessesBounded [] sampleState sixAtOnce := by
  intro h
  have hfailures : ∀ e ∈ (step sampleEnv).trace sampleState sixAtOnce, isSuccess "user-1" e = false := by decide +kernel
  have hguesses : guesses "user-1" ((step sampleEnv).trace sampleState sixAtOnce) =
      [0, 0, 0, 0, 0, 0] := by decide +kernel
  have hbound := (h.final "user-1" _ List.infix_rfl hfailures).totp 0
  rw [List.nil_append, hguesses] at hbound
  exact absurd (hbound (by decide)) (by decide)

end VerifyState

end GmKms.Mfa
