import GmKms.Api.Anomaly
/-!
# What the detector counts

The frequency that is reported is that of all accesses the user has ever had recorded, and a failed login is counted
only if no other alert comes before it.
-/

namespace GmKms.Api.Anomaly

open Lib

section

variable (config : AnomalyConfig)

/-- The time is on a weekday between the working hours. -/
def duringHours (t : DateTime) : Bool :=
  isWeekday t && config.workStartHour.toNat ≤ hour t && hour t < config.workEndHour.toNat

/-- The access is one of the user's in the tenant, and is recorded. -/
def records (tenantId userId : String) (a : Access) : Bool :=
  a.ctx.tenantId = tenantId && a.ctx.userId = userId && duringHours config a.ctx.timestamp

/-- The recorded accesses of the user in the tenant. -/
def operations (tenantId userId : String) (accesses : List Access) : ℕ :=
  accesses.countP (records config tenantId userId)

def failedLogin (a : Access) : Bool := isLogin a.ctx && !a.ctx.success

/-- The failed logins of the tenant after a time. -/
def failedLogins (accesses : List Access) (tenantId : String) (since : DateTime) : ℕ :=
  accesses.countP fun a => failedLogin a && a.ctx.tenantId = tenantId && since < a.now

end

/-! ## What the tables hold -/

/-- The sum of a user's operations over the hours of the day. -/
def opsOf (stats : TenantStats) (tenantId userId : String) : UInt32 :=
  (stats[tenantId]?.bind (·.stats[userId]?)).elim 0 fun s => MapEntries.total s.operationsByHour

def failuresOf (stats : TenantStats) (tenantId : String) : List DateTime := stats[tenantId]?.elim [] (·.recentFailures)

/-- The failures of a tenant that are counted if they came after a time. -/
def counted (stats : TenantStats) (tenantId : String) (since : DateTime) : ℕ :=
  (failuresOf stats tenantId).countP (since < ·)

theorem total_recordOperation (s : AccessStats) (now : DateTime) (success : Bool) (hour : ℕ) :
    MapEntries.total (s.recordOperation now success hour).operationsByHour = MapEntries.total s.operationsByHour + 1 :=
  MapEntries.total_insert _ _ _

theorem opsOf_recordAccess (stats : TenantStats) (now : DateTime) (ctx : AccessContext) (tenantId userId : String) :
    opsOf (recordAccess stats now ctx) tenantId userId =
      opsOf stats tenantId userId + if ctx.tenantId = tenantId ∧ ctx.userId = userId then 1 else 0 := by
  unfold opsOf recordAccess
  rw [HashMap.getElem?_insert]
  by_cases htenant : tenantId = ctx.tenantId
  · subst htenant
    rw [if_pos rfl, Option.bind_some, HashMap.getElem?_insert]
    by_cases huser : userId = ctx.userId
    · subst huser
      rw [if_pos rfl, if_pos ⟨rfl, rfl⟩, Option.elim_some, total_recordOperation]
      cases stats[ctx.tenantId]? with
      | none => simp [TenantAccessStats.default, AccessStats.default, MapEntries.total_empty]
      | some tenant =>
        cases huser : tenant.stats[ctx.userId]? with
        | none => simp [huser, AccessStats.default, MapEntries.total_empty]
        | some userStats => simp [huser]
    · rw [if_neg huser, if_neg fun h => huser h.2.symm, add_zero]
      cases stats[ctx.tenantId]? with
      | none => simp [TenantAccessStats.default]
      | some tenant => rfl
  · rw [if_neg htenant, if_neg fun h => htenant h.1.symm, add_zero]

theorem failuresOf_recordAccess (stats : TenantStats) (now : DateTime) (ctx : AccessContext) (tenantId : String) :
    failuresOf (recordAccess stats now ctx) tenantId = failuresOf stats tenantId := by
  unfold failuresOf recordAccess
  rw [HashMap.getElem?_insert]
  by_cases htenant : tenantId = ctx.tenantId
  · subst htenant
    rw [if_pos rfl]
    cases stats[ctx.tenantId]? <;> rfl
  · rw [if_neg htenant]

/-- The cut at one more than the limit, which wraps to zero at the largest limit, hides nothing. -/
theorem lt_min_add_one_iff {a limit : UInt32} : limit < min a (limit + 1) ↔ limit < a := by
  change limit < (if a ≤ limit + 1 then a else limit + 1) ↔ limit < a
  have ha := a.toNat_lt
  have hlimit := limit.toNat_lt
  split
  · exact Iff.rfl
  · simp only [UInt32.lt_iff_toNat_lt, UInt32.le_iff_toNat_le, UInt32.toNat_add, UInt32.toNat_one] at *
    omega

/-! ## What an access does -/

section

variable (config : AnomalyConfig)

theorem checkOffHours_eq_none_iff (now : DateTime) (ctx : AccessContext) :
    checkOffHours config now ctx = none ↔ duringHours config ctx.timestamp = true := by
  unfold checkOffHours duringHours
  cases isWeekday ctx.timestamp with
  | false => simp
  | true => simp

theorem type_of_checkOffHours {now : DateTime} {ctx : AccessContext} {alert : AnomalyAlert}
    (h : checkOffHours config now ctx = some alert) : alert.anomalyType = .offHoursAccess := by
  unfold checkOffHours at h
  dsimp only at h
  split at h
  · cases h
    rfl
  · split at h
    · cases h
      rfl
    · cases h

/-- Right after an access is recorded, its user is over the limit or not. -/
theorem checkHighFrequency_recordAccess (stats : TenantStats) (now now' : DateTime) (ctx : AccessContext) :
    (checkHighFrequency config (recordAccess stats now ctx) now' ctx).map (·.anomalyType) =
      if config.maxOpsPerMinute < opsOf (recordAccess stats now ctx) ctx.tenantId ctx.userId then some .highFrequency
      else none := by
  obtain ⟨tenant, userStats, htenant, huser, htime⟩ : ∃ tenant userStats,
      (recordAccess stats now ctx)[ctx.tenantId]? = some tenant ∧ tenant.stats[ctx.userId]? = some userStats ∧
        userStats.lastOperationTime = some now :=
    ⟨_, _, (HashMap.getElem?_insert ..).trans (if_pos rfl), (HashMap.getElem?_insert ..).trans (if_pos rfl), rfl⟩
  have hops : opsOf (recordAccess stats now ctx) ctx.tenantId ctx.userId =
      MapEntries.total userStats.operationsByHour := by
    rw [opsOf, htenant, Option.bind_some, huser, Option.elim_some]
  simp only [checkHighFrequency, htenant, huser, htime, Option.bind_eq_bind, Option.bind_some, hops, countRecentOps,
    lt_min_add_one_iff]
  split <;> rfl

/-- What is left of the failures of a tenant after a failed login at the time `now`. -/
def failuresAfter (stats : TenantStats) (now : DateTime) (tenantId : String) : List DateTime :=
  retainRecent now (failuresOf stats tenantId) ++ [now]

/-- How an access can end: reported off hours and not recorded; recorded and over the limit of operations; recorded
and nothing else; or a failed login that is counted. -/
inductive Step (stats : TenantStats) (a : Access) : Option AnomalyAlert → TenantStats → Prop where
  | offHours {alert : AnomalyAlert} (off : duringHours config a.ctx.timestamp = false)
      (type : alert.anomalyType = .offHoursAccess) : Step stats a (some alert) stats
  | frequent {alert : AnomalyAlert} {stats' : TenantStats} (during : duringHours config a.ctx.timestamp = true)
      (exceeds : config.maxOpsPerMinute < opsOf stats a.ctx.tenantId a.ctx.userId + 1)
      (type : alert.anomalyType = .highFrequency) (recorded : stats' = recordAccess stats a.now a.ctx) :
      Step stats a (some alert) stats'
  | quiet {stats' : TenantStats} (during : duringHours config a.ctx.timestamp = true)
      (below : ¬ config.maxOpsPerMinute < opsOf stats a.ctx.tenantId a.ctx.userId + 1) (other : failedLogin a = false)
      (recorded : stats' = recordAccess stats a.now a.ctx) : Step stats a none stats'
  | failed {reply : Option AnomalyAlert} {stats' : TenantStats} (during : duringHours config a.ctx.timestamp = true)
      (below : ¬ config.maxOpsPerMinute < opsOf stats a.ctx.tenantId a.ctx.userId + 1) (login : failedLogin a = true)
      (type : reply.map (·.anomalyType) =
        if config.maxAuthFailures ≤ .ofNat (failuresAfter stats a.now a.ctx.tenantId).length then some .authFailure
          else none)
      (failures : ∀ tenantId, failuresOf stats' tenantId =
        if tenantId = a.ctx.tenantId then failuresAfter stats a.now tenantId else failuresOf stats tenantId)
      (ops : ∀ tenantId userId, opsOf stats' tenantId userId = opsOf (recordAccess stats a.now a.ctx) tenantId userId) :
      Step stats a reply stats'

/-- Setting the failures of a tenant leaves the operations as they are. -/
theorem opsOf_insert (stats : TenantStats) (tenantId : String) (failures : List DateTime) (tenantId' userId : String) :
    opsOf (stats.insert tenantId { stats[tenantId]?.getD .default with recentFailures := failures }) tenantId' userId =
      opsOf stats tenantId' userId := by
  unfold opsOf
  rw [HashMap.getElem?_insert]
  by_cases htenant : tenantId' = tenantId
  · subst htenant
    rw [if_pos rfl]
    cases stats[tenantId']? with
    | none => simp [TenantAccessStats.default]
    | some tenant => rfl
  · rw [if_neg htenant]

/-- A failed login that comes to the counter drops the old failures and adds its own. -/
theorem checkAuthFailures_of_failed (stats : TenantStats) (clock : Clock) {ctx : AccessContext}
    (hlogin : isLogin ctx = true)
    (hsuccess : ctx.success = false) :
    (checkAuthFailures config stats clock ctx).1.map (·.anomalyType) =
        (if config.maxAuthFailures ≤ .ofNat (failuresAfter stats (clock 0) ctx.tenantId).length then some .authFailure
          else none) ∧
      (checkAuthFailures config stats clock ctx).2 = stats.insert ctx.tenantId
        { stats[ctx.tenantId]?.getD .default with recentFailures := failuresAfter stats (clock 0) ctx.tenantId } := by
  have hold : (stats[ctx.tenantId]?.getD .default).recentFailures = failuresOf stats ctx.tenantId := by
    unfold failuresOf
    cases stats[ctx.tenantId]? <;> rfl
  simp only [checkAuthFailures, hlogin, hsuccess, hold, failuresAfter, Bool.not_true, Bool.false_eq_true, if_false]
  by_cases hreached : config.maxAuthFailures ≤
      .ofNat (retainRecent (clock 0) (failuresOf stats ctx.tenantId) ++ [clock 0]).length
  · simp only [if_pos hreached]
    exact ⟨(if_pos hreached).symm, trivial⟩
  · simp only [if_neg hreached]
    exact ⟨(if_neg hreached).symm, trivial⟩

theorem check_step (stats : TenantStats) (a : Access) :
    Step config stats a (check config stats a).1 (check config stats a).2 := by
  unfold check checkAccess
  cases hoff : checkOffHours config a.now a.ctx with
  | some alert =>
    refine .offHours (Bool.eq_false_iff.2 fun hduring => ?_) (type_of_checkOffHours config hoff)
    rw [(checkOffHours_eq_none_iff config a.now a.ctx).2 hduring] at hoff
    cases hoff
  | none =>
    have hduring := (checkOffHours_eq_none_iff config a.now a.ctx).1 hoff
    have hops : opsOf (recordAccess stats a.now a.ctx) a.ctx.tenantId a.ctx.userId =
        opsOf stats a.ctx.tenantId a.ctx.userId + 1 := by
      rw [opsOf_recordAccess, if_pos ⟨rfl, rfl⟩]
    have hfrequency := checkHighFrequency_recordAccess config stats a.now a.now a.ctx
    rw [hops] at hfrequency
    dsimp only
    cases hhigh : checkHighFrequency config (recordAccess stats a.now a.ctx) a.now a.ctx with
    | some alert =>
      rw [hhigh] at hfrequency
      split at hfrequency
      · exact .frequent hduring ‹_› (Option.some.inj hfrequency) rfl
      · cases hfrequency
    | none =>
      have hbelow : ¬ config.maxOpsPerMinute < opsOf stats a.ctx.tenantId a.ctx.userId + 1 := by
        intro hexceeds
        rw [hhigh, if_pos hexceeds] at hfrequency
        cases hfrequency
      dsimp only
      cases hsuccess : a.ctx.success with
      | true => exact .quiet hduring hbelow (by simp [failedLogin, hsuccess]) rfl
      | false =>
        cases hlogin : isLogin a.ctx with
        | false =>
          simp only [Bool.not_false, if_true, checkAuthFailures, hlogin]
          exact .quiet hduring hbelow (by simp [failedLogin, hlogin]) rfl
        | true =>
          obtain ⟨htype, hstats⟩ := checkAuthFailures_of_failed config (recordAccess stats a.now a.ctx)
            (fun _ => a.now) hlogin hsuccess
          have hafter : ∀ tenantId, failuresAfter (recordAccess stats a.now a.ctx) a.now tenantId =
              failuresAfter stats a.now tenantId := by
            intro tenantId
            rw [failuresAfter, failuresOf_recordAccess, failuresAfter]
          simp only [hafter] at htype hstats
          simp only [Bool.not_false, if_true]
          refine .failed hduring hbelow (by simp [failedLogin, hlogin, hsuccess]) htype (fun tenantId => ?_) ?_
          · rw [hstats, failuresOf, HashMap.getElem?_insert]
            split
            · rename_i htenant
              rw [htenant]
              rfl
            · exact failuresOf_recordAccess ..
          · intro tenantId userId
            rw [hstats]
            exact opsOf_insert ..

/-! ## The frequency -/

/-- The sums are the numbers of recorded accesses, up to wrapping. -/
def CountsOps (accesses : List Access) (stats : TenantStats) : Prop :=
  ∀ tenantId userId, opsOf stats tenantId userId = .ofNat (operations config tenantId userId accesses)

theorem records_iff {tenantId userId : String} {a : Access} :
    records config tenantId userId a = true ↔
      (a.ctx.tenantId = tenantId ∧ a.ctx.userId = userId) ∧ duringHours config a.ctx.timestamp = true := by
  simp [records]

theorem operations_append (tenantId userId : String) (accesses : List Access) (a : Access) :
    operations config tenantId userId (accesses ++ [a]) =
      operations config tenantId userId accesses + if records config tenantId userId a then 1 else 0 := by
  rw [operations, List.countP_append, List.countP_singleton, operations]

theorem countsOps_empty : CountsOps config [] ∅ := by
  intro tenantId userId
  rw [opsOf, Std.ExtTreeMap.getElem?_empty]
  rfl

theorem countsOps_step {accesses : List Access} {stats : TenantStats} (h : CountsOps config accesses stats)
    (a : Access) :
    CountsOps config (accesses ++ [a]) (check config stats a).2 := by
  intro tenantId userId
  rw [operations_append, UInt32.ofNat_add, ← h tenantId userId]
  have hrecord : duringHours config a.ctx.timestamp = true → opsOf (recordAccess stats a.now a.ctx) tenantId userId =
      opsOf stats tenantId userId + .ofNat (if records config tenantId userId a then 1 else 0) := by
    intro hduring
    rw [opsOf_recordAccess]
    simp only [records_iff, hduring, and_true]
    split <;> rfl
  generalize hout : check config stats a = out
  have hstep := check_step config stats a
  rw [hout] at hstep
  obtain ⟨reply, stats'⟩ := out
  cases hstep with
  | offHours off =>
    have hnot : records config tenantId userId a = false := by simp [records, off]
    simp [hnot]
  | frequent during _ _ recorded => rw [recorded, hrecord during]
  | quiet during _ _ recorded => rw [recorded, hrecord during]
  | failed during _ _ _ _ ops => rw [ops, hrecord during]

theorem countsOps_final (accesses : List Access) : CountsOps config accesses ((check config).final ∅ accesses) := by
  have h := (check config).run_inv (I := fun h stats => CountsOps config (h.map (·.1)) stats) (h := [])
    (fun h stats a hi => by simpa using countsOps_step config hi a) (countsOps_empty config) accesses
  simpa [Machine.map_fst_trace] using h

/-- The answer is an alert of the type. -/
def Alerts (reply : Option AnomalyAlert) (type : AnomalyType) : Prop := ∃ alert, reply = some alert ∧
  alert.anomalyType = type

/-- How many accesses of the user who made the last one lie in the window before it, itself included. -/
def recentOperations (earlier : List Access) (last : Access) : ℕ :=
  operations config last.ctx.tenantId last.ctx.userId <| (earlier ++ [last]).filter fun a =>
    last.ctx.timestamp - DateTime.minutes config.opsWindowMinutes.toNat < a.ctx.timestamp &&
      a.ctx.timestamp ≤ last.ctx.timestamp

/-- The last of the calls, if during working hours, reports a high frequency exactly when its user is over the limit in
the window. -/
def WindowAlarm (earlier : List Access) (last : Access) : Prop :=
  duringHours config last.ctx.timestamp = true →
    (Alerts (check config ((check config).final ∅ earlier) last).1 .highFrequency ↔
      config.maxOpsPerMinute.toNat < recentOperations config earlier last)

/-- The user is over the limit with all the accesses since the start, counted modulo `2 ^ 32`, exactly when with those
in the window. -/
def WindowDecides (earlier : List Access) (last : Access) : Prop :=
  duringHours config last.ctx.timestamp = true →
    (config.maxOpsPerMinute.toNat < operations config last.ctx.tenantId last.ctx.userId (earlier ++ [last]) % 2 ^ 32 ↔
      config.maxOpsPerMinute.toNat < recentOperations config earlier last)

/-- During working hours an access is over the limit exactly when the sum is that comes of it. -/
theorem alerts_highFrequency_iff {stats : TenantStats} {a : Access}
    (hduring : duringHours config a.ctx.timestamp = true) :
    Alerts (check config stats a).1 .highFrequency ↔
      config.maxOpsPerMinute < opsOf stats a.ctx.tenantId a.ctx.userId + 1 := by
  generalize hout : check config stats a = out
  have hstep := check_step config stats a
  rw [hout] at hstep
  obtain ⟨reply, stats'⟩ := out
  cases hstep with
  | offHours off => exact absurd (off.symm.trans hduring) (by decide)
  | frequent _ exceeds type => exact iff_of_true ⟨_, rfl, type⟩ exceeds
  | quiet _ below => exact iff_of_false (by rintro ⟨_, ⟨⟩, _⟩) below
  | failed _ below _ type =>
    refine iff_of_false ?_ below
    rintro ⟨alert, halert, htype⟩
    rw [halert, Option.map_some, htype] at type
    split at type <;> cases type

theorem opsOf_final_add_one (earlier : List Access) {last : Access}
    (hduring : duringHours config last.ctx.timestamp = true) :
    opsOf ((check config).final ∅ earlier) last.ctx.tenantId last.ctx.userId + 1 =
      .ofNat (operations config last.ctx.tenantId last.ctx.userId (earlier ++ [last])) := by
  have hlast : records config last.ctx.tenantId last.ctx.userId last = true :=
    (records_iff config).2 ⟨⟨rfl, rfl⟩, hduring⟩
  rw [countsOps_final, operations_append, hlast, UInt32.ofNat_add]
  rfl

/-- The alarm is about the window exactly where what lies outside of it does not tip the count. -/
theorem windowAlarm_iff (earlier : List Access) (last : Access) :
    WindowAlarm config earlier last ↔ WindowDecides config earlier last := by
  refine forall_congr' fun hduring => ?_
  rw [alerts_highFrequency_iff config hduring, opsOf_final_add_one config earlier hduring, UInt32.lt_iff_toNat_lt,
    UInt32.toNat_ofNat']

end

/-- At most one operation a minute, on weekdays from 9 to 18. -/
def oneAMinute : AnomalyConfig := ⟨9, 18, 1, 5, 1⟩

/-- An access on Monday at an hour. -/
def sampleAccess (hour : ℕ) (operation : String) (success : Bool) : Access :=
  let time := DateTime.hours (4 * 24 + hour)
  ⟨time, "tenant-1", "user-1", operation, time, success⟩

/-- Two accesses, two hours apart. -/
theorem not_windowAlarm_twoHoursApart :
    ¬ ∀ (config : AnomalyConfig) (earlier : List Access) (last : Access), WindowAlarm config earlier last := by
  intro h
  have hdecides := (windowAlarm_iff oneAMinute [sampleAccess 10 "encrypt" true] (sampleAccess 12 "encrypt" true)).1
    (h _ _ _)
  exact absurd (hdecides (by decide +kernel)) (by decide +kernel)

/-! ## The failed logins -/

section

variable (config : AnomalyConfig)

/-- After the calls, at any time that none of them is after, every tenant's failures counted of the 15 minutes before
are its failed logins of these minutes; and if the last call was a failed login at such a time, with which the limit is
reached, it was answered with an alert. -/
def CountsAll (h : History Access (Option AnomalyAlert)) (stats : TenantStats) : Prop :=
  (∀ tenantId now, (∀ e ∈ h, e.1.now ≤ now) →
      counted stats tenantId (now - DateTime.minutes 15) =
        failedLogins (h.map (·.1)) tenantId (now - DateTime.minutes 15)) ∧
    ∀ a reply, h.getLast? = some (a, reply) → (∀ e ∈ h, e.1.now ≤ a.now) → failedLogin a = true →
      config.maxAuthFailures.toNat ≤ failedLogins (h.map (·.1)) a.ctx.tenantId (a.now - DateTime.minutes 15) →
        Alerts reply .authFailure

/-- A failed login, unless it is 15 minutes older than a call before it, is during working hours, leaves its user within
the limit of operations (counted modulo `2 ^ 32`), and, where it is not older than any call before it and reaches the
limit of failures, reaches it modulo `2 ^ 32`. -/
def ReachesCounter (h : History Access (Option AnomalyAlert)) (a : Access) : Prop :=
  let accesses := h.map (·.1) ++ [a]
  let failures := failedLogins accesses a.ctx.tenantId (a.now - DateTime.minutes 15)
  failedLogin a = true → (∀ e ∈ h, e.1.now - DateTime.minutes 15 < a.now) →
    duringHours config a.ctx.timestamp = true ∧
      operations config a.ctx.tenantId a.ctx.userId accesses % 2 ^ 32 ≤ config.maxOpsPerMinute.toNat ∧
        ((∀ e ∈ h, e.1.now ≤ a.now) → config.maxAuthFailures.toNat ≤ failures →
          config.maxAuthFailures.toNat ≤ failures % 2 ^ 32)

theorem failedLogins_append (accesses : List Access) (a : Access) (tenantId : String) (since : DateTime) :
    failedLogins (accesses ++ [a]) tenantId since =
      failedLogins accesses tenantId since +
        if failedLogin a && a.ctx.tenantId = tenantId && since < a.now then 1 else 0 := by
  rw [failedLogins, List.countP_append, List.countP_singleton, failedLogins]

theorem minutes_pos : 0 < DateTime.minutes 15 := by decide

/-- What is dropped at a failed login is too old at any later time as well. -/
theorem countP_failuresAfter (stats : TenantStats) {now later : DateTime} (h : now ≤ later) (tenantId : String) :
    (failuresAfter stats now tenantId).countP (later - DateTime.minutes 15 < ·) =
      counted stats tenantId (later - DateTime.minutes 15) +
        if later - DateTime.minutes 15 < now then 1 else 0 := by
  rw [failuresAfter, List.countP_append, List.countP_singleton, retainRecent, List.countP_filter, counted]
  simp only [decide_eq_true_eq]
  congr 1
  refine List.countP_congr fun t _ => ?_
  simp only [Bool.and_eq_true, decide_eq_true_eq, and_iff_left_iff_imp]
  exact fun hlt => lt_of_le_of_lt (sub_le_sub_right h _) hlt

theorem length_failuresAfter (stats : TenantStats) (now : DateTime) (tenantId : String) :
    (failuresAfter stats now tenantId).length = counted stats tenantId (now - DateTime.minutes 15) + 1 := by
  rw [failuresAfter, List.length_append, List.length_singleton, retainRecent, counted, List.countP_eq_length_filter]

/-- What is less than 15 minutes older than any call is so at some time that none of them is after. -/
theorem exists_now_of_recent {h : History Access (Option AnomalyAlert)} {t : DateTime}
    (hrecent : ∀ e ∈ h, e.1.now - DateTime.minutes 15 < t) :
    ∃ now, (∀ e ∈ h, e.1.now ≤ now) ∧ t ≤ now ∧ now - DateTime.minutes 15 < t := by
  have hpos := minutes_pos
  refine ⟨t + DateTime.minutes 15 - 1, fun e he => ?_, ?_, ?_⟩
  · have hlt := hrecent e he
    exact Int.le_sub_one_of_lt (sub_lt_iff_lt_add.1 hlt)
  · exact Int.le_sub_one_of_lt (lt_add_of_pos_right t hpos)
  · exact sub_lt_iff_lt_add.2 (sub_one_lt _)

/-- An access that is not a failed login, or whose failure is not counted. -/
theorem countsAll_append_iff_of_failuresOf_eq {h : History Access (Option AnomalyAlert)} {stats stats' : TenantStats}
    {a : Access} {reply : Option AnomalyAlert} (hp : CountsAll config h stats)
    (hfailures : ∀ tenantId, failuresOf stats' tenantId = failuresOf stats tenantId) :
    CountsAll config (h ++ [(a, reply)]) stats' ↔
      (failedLogin a = true → ¬ ∀ e ∈ h, e.1.now - DateTime.minutes 15 < a.now) := by
  have hcounted : ∀ tenantId since, counted stats' tenantId since = counted stats tenantId since := by
    intro tenantId since
    rw [counted, hfailures, counted]
  constructor
  · rintro ⟨hcounts, -⟩ hfailed hrecent
    obtain ⟨now, hnow, hle, hlt⟩ := exists_now_of_recent hrecent
    have hcount := hcounts a.ctx.tenantId now (List.forall_mem_append.2 ⟨hnow, List.forall_mem_singleton.2 hle⟩)
    rw [hcounted, hp.1 _ now hnow, List.map_append, List.map_singleton, failedLogins_append] at hcount
    simp [hfailed, hlt] at hcount
  · intro hlost
    constructor
    · intro tenantId now hnow
      rw [List.forall_mem_append] at hnow
      rw [hcounted, hp.1 tenantId now hnow.1, List.map_append, List.map_singleton, failedLogins_append]
      have hold : failedLogin a = true → ¬ now - DateTime.minutes 15 < a.now := by
        intro hfailed hlt
        exact hlost hfailed fun e he => (sub_le_sub_right (hnow.1 e he) _).trans_lt hlt
      simp only [Bool.and_eq_true, decide_eq_true_eq]
      rw [if_neg fun h => hold h.1.1 h.2, Nat.add_zero]
    · intro a' reply' hlast hlater hfailed
      rw [List.getLast?_concat, Option.some.injEq, Prod.mk.injEq] at hlast
      obtain ⟨rfl, rfl⟩ := hlast
      refine absurd (fun e he => ?_) (hlost hfailed)
      exact (sub_lt_self _ minutes_pos).trans_le (hlater e (List.mem_append_left _ he))

/-- A failed login that is counted keeps the count, and is answered with the alert unless the number wraps. -/
theorem countsAll_append_iff_of_failed {h : History Access (Option AnomalyAlert)} {stats stats' : TenantStats}
    {a : Access} {reply : Option AnomalyAlert} (hp : CountsAll config h stats) (hlogin : failedLogin a = true)
    (htype : reply.map (·.anomalyType) =
      if config.maxAuthFailures ≤ .ofNat (failuresAfter stats a.now a.ctx.tenantId).length then some .authFailure
        else none)
    (hfailures : ∀ tenantId, failuresOf stats' tenantId =
      if tenantId = a.ctx.tenantId then failuresAfter stats a.now tenantId else failuresOf stats tenantId) :
    CountsAll config (h ++ [(a, reply)]) stats' ↔
      ((∀ e ∈ h, e.1.now ≤ a.now) → config.maxAuthFailures.toNat ≤
          failedLogins (h.map (·.1) ++ [a]) a.ctx.tenantId (a.now - DateTime.minutes 15) →
        config.maxAuthFailures.toNat ≤
          failedLogins (h.map (·.1) ++ [a]) a.ctx.tenantId (a.now - DateTime.minutes 15) % 2 ^ 32) := by
  have halerts : (∀ e ∈ h, e.1.now ≤ a.now) → (Alerts reply .authFailure ↔ config.maxAuthFailures.toNat ≤
      failedLogins (h.map (·.1) ++ [a]) a.ctx.tenantId (a.now - DateTime.minutes 15) % 2 ^ 32) := by
    intro hlater
    have hlength : (failuresAfter stats a.now a.ctx.tenantId).length =
        failedLogins (h.map (·.1) ++ [a]) a.ctx.tenantId (a.now - DateTime.minutes 15) := by
      rw [length_failuresAfter, hp.1 _ _ hlater, failedLogins_append]
      simp [hlogin, minutes_pos]
    simp only [hlength, UInt32.le_iff_toNat_le, UInt32.toNat_ofNat'] at htype
    rw [Alerts, ← Option.map_eq_some_iff, htype]
    split
    · exact iff_of_true rfl ‹_›
    · exact iff_of_false (by simp) ‹_›
  constructor
  · rintro ⟨-, hreply⟩ hlater hreached
    have hall : ∀ e ∈ h ++ [(a, reply)], e.1.now ≤ a.now :=
      List.forall_mem_append.2 ⟨hlater, List.forall_mem_singleton.2 (le_refl _)⟩
    exact (halerts hlater).1 (hreply a reply (by simp) hall hlogin (by simpa using hreached))
  · intro hwrap
    constructor
    · intro tenantId now hnow
      rw [List.forall_mem_append, List.forall_mem_singleton] at hnow
      rw [List.map_append, List.map_singleton, failedLogins_append, ← hp.1 tenantId now hnow.1, counted, hfailures]
      by_cases htenant : tenantId = a.ctx.tenantId
      · subst htenant
        rw [if_pos rfl, countP_failuresAfter stats hnow.2]
        simp [hlogin]
      · rw [if_neg htenant, counted]
        simp [Ne.symm htenant]
    · intro a' reply' hlast hall _ hreached
      rw [List.getLast?_concat, Option.some.injEq, Prod.mk.injEq] at hlast
      obtain ⟨rfl, rfl⟩ := hlast
      have hlater := (List.forall_mem_append.1 hall).1
      exact (halerts hlater).2 (hwrap hlater (by simpa using hreached))

theorem lt_opsOf_add_one_iff {h : History Access (Option AnomalyAlert)} {stats : TenantStats} {a : Access}
    (hops : CountsOps config (h.map (·.1)) stats) (hduring : duringHours config a.ctx.timestamp = true) :
    config.maxOpsPerMinute < opsOf stats a.ctx.tenantId a.ctx.userId + 1 ↔
      config.maxOpsPerMinute.toNat < operations config a.ctx.tenantId a.ctx.userId (h.map (·.1) ++ [a]) % 2 ^ 32 := by
  have hlast : records config a.ctx.tenantId a.ctx.userId a = true := (records_iff config).2 ⟨⟨rfl, rfl⟩, hduring⟩
  rw [hops, operations_append, hlast, ← UInt32.toNat_ofNat', ← UInt32.lt_iff_toNat_lt, UInt32.ofNat_add]
  rfl

/-- The count survives exactly the accesses that come to the counter. -/
theorem countsAll_step_iff {h : History Access (Option AnomalyAlert)} {stats : TenantStats} {a : Access}
    (hops : CountsOps config (h.map (·.1)) stats) (hp : CountsAll config h stats) :
    CountsAll config (h ++ [(a, (check config stats a).1)]) (check config stats a).2 ↔ ReachesCounter config h a := by
  generalize hout : check config stats a = out
  have hstep := check_step config stats a
  rw [hout] at hstep
  obtain ⟨reply, stats'⟩ := out
  cases hstep with
  | offHours off =>
    rw [countsAll_append_iff_of_failuresOf_eq config hp fun _ => rfl]
    refine ⟨fun hlost hfailed hrecent => absurd hrecent (hlost hfailed), fun hreaches hfailed hrecent => ?_⟩
    exact absurd (off.symm.trans (hreaches hfailed hrecent).1) (by decide)
  | frequent during exceeds _ recorded =>
    rw [recorded, countsAll_append_iff_of_failuresOf_eq config hp (failuresOf_recordAccess stats a.now a.ctx)]
    refine ⟨fun hlost hfailed hrecent => absurd hrecent (hlost hfailed), fun hreaches hfailed hrecent => ?_⟩
    exact absurd ((lt_opsOf_add_one_iff config hops during).1 exceeds) (Nat.not_lt.2 (hreaches hfailed hrecent).2.1)
  | quiet _ _ other recorded =>
    have hnot : failedLogin a ≠ true := Bool.eq_false_iff.1 other
    refine iff_of_true ?_ fun hfailed => absurd hfailed hnot
    rw [recorded]
    exact (countsAll_append_iff_of_failuresOf_eq config hp (failuresOf_recordAccess stats a.now a.ctx)).2
      fun hfailed => absurd hfailed hnot
  | failed during below login type failures =>
    rw [countsAll_append_iff_of_failed config hp login type failures]
    rw [lt_opsOf_add_one_iff config hops during] at below
    refine ⟨fun hwrap _ _ => ⟨during, Nat.not_lt.1 below, hwrap⟩, fun hreaches hlater => ?_⟩
    have hrecent : ∀ e ∈ h, e.1.now - DateTime.minutes 15 < a.now := by
      intro e he
      exact (sub_lt_self _ minutes_pos).trans_le (hlater e he)
    exact (hreaches login hrecent).2.2 hlater

/-- No failed login goes uncounted in exactly the runs in which each comes to the counter. -/
theorem countsAll_throughout_iff (accesses : List Access) :
    (check config).Throughout (CountsAll config) [] ∅ accesses ↔
      (check config).Along (fun h _ a => ReachesCounter config h a) [] ∅ accesses := by
  have hops : CountsOps config (([] : History Access (Option AnomalyAlert)).map (·.1)) ∅ := countsOps_empty config
  refine Machine.throughout_iff_along (I := fun h stats => CountsOps config (h.map (·.1)) stats) ?_ ?_ hops ?_ accesses
  · intro h stats a hops
    simpa using countsOps_step config hops a
  · intro h stats a hops hp
    exact countsAll_step_iff config hops hp
  · refine ⟨fun tenantId now _ => ?_, fun a reply hlast => ?_⟩
    · rw [counted, failuresOf, Std.ExtTreeMap.getElem?_empty]
      rfl
    · cases hlast

end

/-- A failed login in the evening. -/
theorem not_countsAll_evening :
    ¬ ∀ (config : AnomalyConfig) (accesses : List Access), (check config).Throughout (CountsAll config)
    [] ∅ accesses := by
  intro h
  have halong := (countsAll_throughout_iff oneAMinute [sampleAccess 20 "login" false]).1 (h _ _)
  exact absurd (halong.1 (by decide +kernel) (by simp)).1 (by decide +kernel)

end GmKms.Api.Anomaly
