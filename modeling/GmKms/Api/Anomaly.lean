import GmKms.Core.Types
import GmKms.Lib.Machine
import GmKms.Lib.MapEntries
/-!
# Anomaly detection

`AnomalyDetector`: an access outside working hours is reported before it is recorded; a recorded one counts towards the
frequency of its user, and a failed login towards the failures of its tenant. Counters wrap, as in a release build.
-/

namespace GmKms.Api.Anomaly

open Lib

inductive AnomalyType where
  | offHoursAccess | highFrequency | authFailure | unusualPattern | rateLimitExceeded
  deriving DecidableEq

inductive Severity where
  | low | medium | high | critical
  deriving DecidableEq

/-- An alert, less the context, which nothing fills in. -/
structure AnomalyAlert where
  anomalyType : AnomalyType
  severity : Severity
  message : String
  tenantId : String
  userId : Option String
  timestamp : DateTime
  deriving DecidableEq

structure AnomalyConfig where
  workStartHour : UInt32
  workEndHour : UInt32
  maxOpsPerMinute : UInt32
  maxAuthFailures : UInt32
  opsWindowMinutes : UInt32

/-- `impl Default`. -/
def AnomalyConfig.default : AnomalyConfig := ⟨9, 18, 100, 5, 1⟩

/-- An access, less the key and the address, which nothing reads. -/
structure AccessContext where
  tenantId : String
  userId : String
  operation : String
  timestamp : DateTime
  success : Bool

structure AccessStats where
  totalOperations : UInt64
  failedOperations : UInt64
  lastOperationTime : Option DateTime
  operationsByHour : HashMap ℕ UInt32

/-- `impl Default`. -/
def AccessStats.default : AccessStats := ⟨0, 0, none, ∅⟩

structure TenantAccessStats where
  /-- Keyed by user. -/
  stats : HashMap String AccessStats
  recentFailures : List DateTime

/-- `impl Default`. -/
def TenantAccessStats.default : TenantAccessStats := ⟨∅, []⟩

/-- `tenant_stats`. -/
abbrev TenantStats := HashMap String TenantAccessStats

/-! ## Calendar -/

/-- `Timelike::hour`. -/
def hour (t : DateTime) : ℕ := (t / (3600 * 1000000000) % 24).toNat

/-- `Timelike::minute`. -/
def minute (t : DateTime) : ℕ := (t / (60 * 1000000000) % 60).toNat

/-- `format("%A")`; the epoch began on a Thursday. -/
def weekday (t : DateTime) : String :=
  ["Thursday", "Friday", "Saturday", "Sunday", "Monday", "Tuesday", "Wednesday"].getD
    (t / (86400 * 1000000000) % 7).toNat ""

/-- Two digits, as `{:02}` writes them. -/
def twoDigits (n : ℕ) : String := if n < 10 then "0" ++ n.repr else n.repr

/-! ## Detection -/

section

variable (config : AnomalyConfig)

def isWeekday (t : DateTime) : Bool := weekday t ≠ "Saturday" && weekday t ≠ "Sunday"

/-- `check_off_hours`; the alert carries the time `now`. -/
def checkOffHours (now : DateTime) (ctx : AccessContext) : Option AnomalyAlert :=
  let hour := hour ctx.timestamp
  let time := s!"{hour}:" ++ twoDigits (minute ctx.timestamp)
  if isWeekday ctx.timestamp && (hour < config.workStartHour.toNat || config.workEndHour.toNat ≤ hour) then
    let start := config.workStartHour.toNat
    let finish := config.workEndHour.toNat
    some
      { anomalyType := .offHoursAccess
        severity := .medium
        message := s!"Access at {time} outside normal working hours ({start}-{finish})"
        tenantId := ctx.tenantId
        userId := some ctx.userId
        timestamp := now }
  else if !isWeekday ctx.timestamp then
    some
      { anomalyType := .offHoursAccess
        severity := .low
        message := s!"Weekend access at {time}"
        tenantId := ctx.tenantId
        userId := some ctx.userId
        timestamp := now }
  else none

def AccessStats.recordOperation (s : AccessStats) (now : DateTime) (success : Bool) (hour : ℕ) : AccessStats where
  totalOperations := s.totalOperations + 1
  failedOperations := if success then s.failedOperations else s.failedOperations + 1
  lastOperationTime := some now
  operationsByHour := s.operationsByHour.insert hour (s.operationsByHour[hour]?.getD 0 + 1)

def recordAccess (stats : TenantStats) (now : DateTime) (ctx : AccessContext) : TenantStats :=
  let tenant := stats[ctx.tenantId]?.getD .default
  let userStats := (tenant.stats[ctx.userId]?.getD .default).recordOperation now ctx.success (hour ctx.timestamp)
  stats.insert ctx.tenantId { tenant with stats := tenant.stats.insert ctx.userId userStats }

/-- `count_recent_ops`, which does not look at the time. -/
def countRecentOps (opsByHour : HashMap ℕ UInt32) : UInt32 :=
  min (MapEntries.total opsByHour) (config.maxOpsPerMinute + 1)

def checkHighFrequency (stats : TenantStats) (now : DateTime) (ctx : AccessContext) : Option AnomalyAlert := do
  let tenant ← stats[ctx.tenantId]?
  let userStats ← tenant.stats[ctx.userId]?
  let _ ← userStats.lastOperationTime
  let opsInWindow := countRecentOps config userStats.operationsByHour
  if config.maxOpsPerMinute < opsInWindow then
    let user := ctx.userId
    let ops := opsInWindow.toNat
    let window := config.opsWindowMinutes.toNat
    let limit := config.maxOpsPerMinute.toNat
    some
      { anomalyType := .highFrequency
        severity := .high
        message := s!"User {user} performed {ops} operations in {window} minute window (max: {limit})"
        tenantId := ctx.tenantId
        userId := some ctx.userId
        timestamp := now }
  else none

/-- The operations whose failures are counted. -/
def isLogin (ctx : AccessContext) : Bool := ctx.operation = "auth" || ctx.operation = "login"

/-- The failures that are less than 15 minutes old. -/
def retainRecent (now : DateTime) (failures : List DateTime) : List DateTime :=
  failures.filter fun t => now - DateTime.minutes 15 < t

/-- `check_auth_failures`; its clock is read once for the failure and once more for the alert. -/
def checkAuthFailures (stats : TenantStats) (clock : Clock) (ctx : AccessContext) :
    Option AnomalyAlert × TenantStats :=
  if !isLogin ctx then (none, stats)
  else
    let tenant := stats[ctx.tenantId]?.getD .default
    let kept := retainRecent (clock 0) tenant.recentFailures
    let recentFailures := if ctx.success then kept else kept ++ [clock 0]
    let stats := stats.insert ctx.tenantId { tenant with recentFailures }
    let failureCount := UInt32.ofNat recentFailures.length
    if config.maxAuthFailures ≤ failureCount then
      let count := failureCount.toNat
      (some
        { anomalyType := .authFailure
          severity := .high
          message := s!"{count} failed authentication attempts in last 15 minutes"
          tenantId := ctx.tenantId
          userId := some ctx.userId
          timestamp := clock 1 }, stats)
    else (none, stats)

def checkAccess (stats : TenantStats) (clock : Clock) (ctx : AccessContext) : Option AnomalyAlert × TenantStats :=
  match checkOffHours config (clock 0) ctx with
  | some alert => (some alert, stats)
  | none =>
    let stats := recordAccess stats (clock 0) ctx
    match checkHighFrequency config stats (clock 1) ctx with
    | some alert => (some alert, stats)
    | none =>
      if !ctx.success then checkAuthFailures config stats (fun n => clock (n + 1)) ctx
      else (none, stats)

/-- An access that is checked at the time `now`. -/
structure Access where
  now : DateTime
  ctx : AccessContext

/-- The detector as a machine that answers each access. -/
def check : Machine TenantStats Access (Option AnomalyAlert) := fun stats a =>
  checkAccess config stats (fun _ => a.now) a.ctx

end

end GmKms.Api.Anomaly
