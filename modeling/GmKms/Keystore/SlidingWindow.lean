import GmKms.Keystore.RateLimiter
import GmKms.Lib.Machine
import GmKms.Lib.Window
/-!
# The limit over a sliding window

Calls for one tenant, one after the other. A call counts the members of the set of its own aligned window, after it
has removed those of the window's first second; the limit holds as long as that misses no recent call.
-/

namespace GmKms.Keystore.RateLimiter

open Lib

/-- One call and what it reads from outside. All its commands come at the time it has read. -/
structure Call where
  now : DateTime
  requestUuid : Uuid

abbrev Answer := Except Abort RateLimitResult

/-- The calls in a run, each with its answer. -/
abbrev Log := History Call Answer

section

variable (cfg : RateLimitConfig) (tenantId : String)

def check : Machine RedisDb Call Answer := fun db c =>
  (checkRateLimit cfg tenantId c.now c.requestUuid).run (fun op db => op.perform c.now db) db

def isAllowed (r : Answer) : Bool := r.toOption.any (·.allowed)

/-- When the calls that were allowed came. -/
def allowedTimes (h : Log) : List DateTime := (h.filter fun e => isAllowed e.2).map (·.1.now)

def windowLength : DateTime := cfg.windowSecs.toNat * 1000000000

/-- At most `max_requests` allowed calls in the window that begins at any time. -/
def Bounded (h : Log) : Prop :=
  ∀ start : DateTime, (allowedTimes h).countP (fun t => start ≤ t ∧ t < start + windowLength cfg) ≤
  cfg.maxRequests.toNat

/-- A call at the time `t` is in the set that a call at `now` counts: the aligned window is the same, and its score
lies above the window's start. -/
def Counted (now t : DateTime) : Prop :=
  secondsOf t / cfg.windowSecs.toNat = secondsOf now / cfg.windowSecs.toNat ∧
    asF64 (secondsOf now / cfg.windowSecs.toNat * cfg.windowSecs.toNat) < asF64 (secondsOf t)

instance counted_decidable (now t : DateTime) : Decidable (Counted cfg now t) := inferInstanceAs (Decidable (_ ∧ _))

/-- The call counts every allowed call that is less than a window old, or counts `max_requests` of them anyway. -/
def CountsRecent (h : Log) (_ : RedisDb) (c : Call) : Prop :=
  (∀ t ∈ allowedTimes h, c.now < t + windowLength cfg → Counted cfg c.now t) ∨
    cfg.maxRequests.toNat ≤ (allowedTimes h).countP fun t => Counted cfg c.now t

end

/-! ## One call -/

section

variable {cfg : RateLimitConfig} {tenantId : String} {db db' : RedisDb} {now : DateTime} {w : Window}

theorem run_send (c : RedisCommand) {α : Type} (f : ℕ → RedisProgram α) :
    (send c >>= f).run (fun op db => op.perform now db) db = match (c.perform now db).1 with
      | .ok n => (f n).run (fun op db => op.perform now db) (c.perform now db).2
      | .error e => (.error (.error (.internal e)), (c.perform now db).2) := by
  rw [Program.run_bind]
  unfold send
  rw [Program.run_call]
  cases (c.perform now db).1 with
  | ok n => rfl
  | error e => rfl

theorem calls_send {Q : RedisCommand → Prop} {c : RedisCommand} (h : Q c) : (send c).Calls Q :=
  ⟨h, fun
    | .ok _ => trivial
    | .error _ => trivial⟩

/-- The four commands of the branch with sorted sets. -/
theorem calls_slidingCheck {Q : RedisCommand → Prop} (hremove : Q (.zremrangebyscore w.key (Db.asI64 w.windowStart)))
    (hcount : Q (.zcard w.key)) (hadd : Q (.zadd w.key w.requestId (asF64 w.now)))
    (hexpire : Q (.expire w.key (Db.asI64 (cfg.windowSecs.toNat * 2)))) : (slidingCheck cfg w).Calls Q := by
  refine (calls_send hremove).bind fun _ => (calls_send hcount).bind fun current => ?_
  split
  · trivial
  · refine (calls_send hadd).bind fun _ => ?_
    unfold setExpiry
    split
    · trivial
    · exact (calls_send hexpire).bind fun _ => trivial

theorem asF64_eq_self {n : ℕ} (h : n < 2 ^ 53) : asF64 n = n := by
  rw [asF64, if_pos h]

/-- What scores above a bound scores above its cast, which is zero or less where it wraps. -/
theorem asF64_asI64_lt {n score : ℕ} (hn : n < 2 ^ 64) (h : asF64 n < score) : asF64 (Db.asI64 n).toNat < score := by
  by_cases hsmall : n < 2 ^ 63
  · rw [Db.asI64_eq_self hsmall]
    exact h
  · have hneg : ((n : ℤ).bmod (2 ^ 64)) < 0 := by
      rw [Int.bmod_def]
      omega
    have hcast : (Db.asI64 n).toNat = 0 := Int.toNat_of_nonpos hneg.le
    have hzero : asF64 0 = 0 := asF64_eq_self (by decide)
    rw [hcast, hzero]
    exact Nat.zero_lt_of_lt h

/-- A request that has been added is in the set. -/
theorem of_addRequest {current : ℕ} {r : RateLimitResult} (hpos : 0 < cfg.windowSecs.toNat)
    (hsecs : cfg.windowSecs.toNat < 2 ^ 62)
    (h : (addRequest cfg w current).run (fun op db => op.perform now db) db = (.ok r, db')) :
    Holds db' w.key (now + (cfg.windowSecs.toNat * 2 : ℕ) * 1000000000) (w.requestId, asF64 w.now) := by
  have htwice : cfg.windowSecs.toNat * 2 < 2 ^ 63 := by omega
  have hchecked : ¬ 2 ^ 64 ≤ cfg.windowSecs.toNat * 2 := by omega
  have htwicePos : (0 : ℤ) < (cfg.windowSecs.toNat * 2 : ℕ) := by omega
  unfold addRequest setExpiry at h
  simp only [if_neg hchecked, Db.asI64_eq_self htwice] at h
  rw [run_send] at h
  cases hadd : ((RedisCommand.zadd w.key w.requestId (asF64 w.now)).perform now db).1 with
  | error e =>
    rw [hadd] at h
    cases h
  | ok added =>
    rw [hadd] at h
    dsimp only at h
    rw [run_send] at h
    have hheld := holds_zadd hadd
    generalize ((RedisCommand.zadd w.key w.requestId (asF64 w.now)).perform now db).2 = db₂ at h hheld
    cases hexpire : ((RedisCommand.expire w.key (cfg.windowSecs.toNat * 2 : ℕ)).perform now db₂).1 with
    | error e =>
      rw [hexpire] at h
      cases h
    | ok set =>
      rw [hexpire] at h
      cases h
      exact hheld.expire (lt_add_one now) htwicePos hexpire

/-- A call that is allowed has found room in the set, and is in it afterwards. -/
theorem of_allowed {r : RateLimitResult}
    (h : (slidingCheck cfg w).run (fun op db => op.perform now db) db = (.ok r, db'))
    (hallowed : r.allowed = true) (hpos : 0 < cfg.windowSecs.toNat) (hsecs : cfg.windowSecs.toNat < 2 ^ 62) :
    (∃ members expiresAt, ((RedisCommand.zremrangebyscore w.key (Db.asI64 w.windowStart)).perform now db).2.sortedSet
      now
        w.key = .ok (members, expiresAt) ∧ members.length < cfg.maxRequests.toNat) ∧
      Holds db' w.key (now + (cfg.windowSecs.toNat * 2 : ℕ) * 1000000000) (w.requestId, asF64 w.now) := by
  unfold slidingCheck at h
  rw [run_send] at h
  generalize (RedisCommand.zremrangebyscore w.key (Db.asI64 w.windowStart)).perform now db = removed at h ⊢
  obtain ⟨answer, db₁⟩ := removed
  cases answer with
  | error e => cases h
  | ok n =>
    dsimp only at h ⊢
    unfold countRequests at h
    rw [run_send, RedisCommand.perform] at h
    cases hset : db₁.sortedSet now w.key with
    | error e =>
      rw [hset] at h
      cases h
    | ok set =>
      obtain ⟨members, expiresAt⟩ := set
      rw [hset] at h
      simp only [Except.map] at h
      split at h
      · cases h
        cases hallowed
      · rename_i hroom
        exact ⟨⟨members, expiresAt, rfl, not_le.1 hroom⟩, of_addRequest hpos hsecs h⟩

end

/-! ## Runs -/

section

variable {cfg : RateLimitConfig} {tenantId : String}

theorem windowKey_injective : Function.Injective (windowKey tenantId) := by
  intro n n' h
  exact Nat.repr_injective ((String.append_right_inj _).1 h)

theorem requestId_injective {c c' : Call}
    (h : (windowOf cfg tenantId c.now c.requestUuid).requestId =
      (windowOf cfg tenantId c'.now c'.requestUuid).requestId) :
    c.requestUuid = c'.requestUuid := by
  have hlist := congrArg String.toList h
  simp only [windowOf, String.toList_append] at hlist
  have hlength : (":".toList ++ c.requestUuid.text.toList).length =
      (":".toList ++ c'.requestUuid.text.toList).length := by
    rw [List.length_append, List.length_append, Uuid.length_text, Uuid.length_text]
  have htail := (List.append_inj' hlist hlength).2
  exact Uuid.text_injective (String.toList_injective (List.append_cancel_left htail))

/-- A time lies in its aligned window. -/
theorem windowOf_bounds (tenantId : String) {now : DateTime} (hnow : 0 ≤ now) (hpos : 0 < cfg.windowSecs.toNat)
    (requestUuid : Uuid) :
    ((windowOf cfg tenantId now requestUuid).windowStart : ℤ) * 1000000000 ≤ now ∧
      now < ((windowOf cfg tenantId now requestUuid).windowEnd : ℤ) * 1000000000 := by
  obtain ⟨n, rfl⟩ := Int.eq_ofNat_of_zero_le hnow
  have hseconds : secondsOf (n : ℤ) = n / 1000000000 := rfl
  have hmod := Nat.div_add_mod' (n / 1000000000) cfg.windowSecs.toNat
  have hlt := Nat.mod_lt (n / 1000000000) hpos
  unfold windowOf
  dsimp only
  rw [hseconds]
  constructor
  · have hle : n / 1000000000 / cfg.windowSecs.toNat * cfg.windowSecs.toNat * 1000000000 ≤ n := by omega
    exact_mod_cast hle
  · have hlt' : n < (n / 1000000000 / cfg.windowSecs.toNat * cfg.windowSecs.toNat + cfg.windowSecs.toNat) *
        1000000000 := by
      omega
    exact_mod_cast hlt'

/-- Two windows after a call its own is over. -/
theorem windowEnd_le {now : DateTime} {requestUuid : Uuid}
    (h : ((windowOf cfg tenantId now requestUuid).windowStart : ℤ) * 1000000000 ≤ now) :
    ((windowOf cfg tenantId now requestUuid).windowEnd : ℤ) * 1000000000 ≤
      now + (cfg.windowSecs.toNat * 2 : ℕ) * 1000000000 := by
  have hlength : (windowOf cfg tenantId now requestUuid).windowEnd =
      (windowOf cfg tenantId now requestUuid).windowStart + cfg.windowSecs.toNat := rfl
  have hnonneg : (0 : ℤ) ≤ cfg.windowSecs.toNat := Int.natCast_nonneg _
  rw [hlength]
  push_cast
  linarith

/-- An allowed call whose score lies above the start of its window is in the set of that window, until it is over. -/
def Kept (cfg : RateLimitConfig) (tenantId : String) (h : Log) (db : RedisDb) : Prop :=
  ∀ e ∈ h, isAllowed e.2 = true →
    let w := windowOf cfg tenantId e.1.now e.1.requestUuid
    asF64 w.windowStart < asF64 w.now → Holds db w.key (w.windowEnd * 1000000000) (w.requestId, asF64 w.now)

/-- A call fails before its first command, or runs the branch with sorted sets. -/
theorem checkRateLimit_cases (hsliding : cfg.slidingWindow = true) (tenantId : String) (now : DateTime)
    (requestUuid : Uuid) :
    (∃ e, checkRateLimit cfg tenantId now requestUuid = .done (.error e)) ∨
      0 ≤ now ∧ 0 < cfg.windowSecs.toNat ∧ (windowOf cfg tenantId now requestUuid).windowEnd < 2 ^ 64 ∧
        checkRateLimit cfg tenantId now requestUuid = slidingCheck cfg (windowOf cfg tenantId now requestUuid) := by
  unfold checkRateLimit
  by_cases hnow : now < 0
  · exact .inl ⟨_, if_pos hnow⟩
  rw [if_neg hnow]
  by_cases hzero : cfg.windowSecs = 0
  · exact .inl ⟨_, if_pos hzero⟩
  rw [if_neg hzero]
  by_cases hend : 2 ^ 64 ≤ (windowOf cfg tenantId now requestUuid).windowEnd
  · exact .inl ⟨_, if_pos hend⟩
  refine .inr ⟨not_lt.1 hnow, Nat.pos_of_ne_zero fun heq => hzero (UInt64.toNat_inj.1 heq), not_le.1 hend, ?_⟩
  exact (if_neg hend).trans (if_pos hsliding)

theorem check_eq (hsliding : cfg.slidingWindow = true) {db db' : RedisDb} {c : Call} {r : RateLimitResult}
    (h : check cfg tenantId db c = (.ok r, db')) : 0 ≤ c.now ∧ 0 < cfg.windowSecs.toNat ∧
      (windowOf cfg tenantId c.now c.requestUuid).windowEnd < 2 ^ 64 ∧
        (slidingCheck cfg (windowOf cfg tenantId c.now c.requestUuid)).run (fun op db => op.perform c.now db) db =
          (.ok r, db') := by
  unfold check at h
  rcases checkRateLimit_cases hsliding tenantId c.now c.requestUuid with ⟨e, he⟩ | ⟨hnow, hpos, hend, heq⟩
  · rw [he] at h
    cases h
  · rw [heq] at h
    exact ⟨hnow, hpos, hend, h⟩

theorem calls_checkRateLimit (hsliding : cfg.slidingWindow = true) {now : DateTime} {requestUuid : Uuid}
    {Q : RedisCommand → Prop} (h : 0 ≤ now → 0 < cfg.windowSecs.toNat →
      (windowOf cfg tenantId now requestUuid).windowEnd < 2 ^ 64 →
        (slidingCheck cfg (windowOf cfg tenantId now requestUuid)).Calls Q) :
    (checkRateLimit cfg tenantId now requestUuid).Calls Q := by
  rcases checkRateLimit_cases hsliding tenantId now requestUuid with ⟨e, he⟩ | ⟨hnow, hpos, hend, heq⟩
  · rw [he]
    trivial
  · rw [heq]
    exact h hnow hpos hend

/-- What an earlier call has left in its set survives a later call. -/
theorem Holds.check (hsliding : cfg.slidingWindow = true) (hsecs : cfg.windowSecs.toNat < 2 ^ 62) {db : RedisDb}
    {c d : Call}
    (hnew : d.requestUuid ≠ c.requestUuid)
    (habove : asF64 (windowOf cfg tenantId d.now d.requestUuid).windowStart <
      asF64 (windowOf cfg tenantId d.now d.requestUuid).now)
    (h : Holds db (windowOf cfg tenantId d.now d.requestUuid).key
      ((windowOf cfg tenantId d.now d.requestUuid).windowEnd * 1000000000)
      ((windowOf cfg tenantId d.now d.requestUuid).requestId, asF64 (windowOf cfg tenantId d.now d.requestUuid).now)) :
    Holds (RateLimiter.check cfg tenantId db c).2 (windowOf cfg tenantId d.now d.requestUuid).key
      ((windowOf cfg tenantId d.now d.requestUuid).windowEnd * 1000000000)
      ((windowOf cfg tenantId d.now d.requestUuid).requestId,
        asF64 (windowOf cfg tenantId d.now d.requestUuid).now) := by
  set v := windowOf cfg tenantId d.now d.requestUuid with hv
  unfold RateLimiter.check
  refine Program.Calls.run_inv (I := fun db => Holds db v.key (v.windowEnd * 1000000000) (v.requestId, asF64 v.now))
    (Q := fun op => op.key = v.key → c.now < v.windowEnd * 1000000000 ∧
      Spares c.now (v.windowEnd * 1000000000) (v.requestId, asF64 v.now) op) (fun op db hop hheld => hheld.perform hop)
    (calls_checkRateLimit hsliding fun hnow hpos hend => ?_) h
  obtain ⟨hstart, hbefore⟩ := windowOf_bounds tenantId hnow hpos c.requestUuid
  set w := windowOf cfg tenantId c.now c.requestUuid with hw
  -- under the same key the windows are the same
  have hsame : w.key = v.key → w.windowStart = v.windowStart ∧ w.windowEnd = v.windowEnd := by
    intro hkey
    have hwindow := windowKey_injective hkey
    rw [hw, hv, windowOf, windowOf]
    dsimp only
    rw [hwindow]
    exact ⟨rfl, rfl⟩
  refine calls_slidingCheck ?_ ?_ ?_ ?_
  · intro hkey
    obtain ⟨hstarts, hends⟩ := hsame hkey
    refine ⟨hends ▸ hbefore, ?_⟩
    exact asF64_asI64_lt (lt_of_le_of_lt (Nat.le_add_right _ _) hend) (hstarts ▸ habove)
  · exact fun hkey => ⟨(hsame hkey).2 ▸ hbefore, trivial⟩
  · refine fun hkey => ⟨(hsame hkey).2 ▸ hbefore, fun heq => hnew ?_⟩
    exact (requestId_injective heq).symm
  · intro hkey
    obtain ⟨hstarts, hends⟩ := hsame hkey
    refine ⟨hends ▸ hbefore, ?_⟩
    rw [Db.asI64_eq_self (by omega)]
    refine ⟨by exact_mod_cast Nat.mul_pos hpos (by decide), ?_⟩
    rw [← hends]
    exact windowEnd_le hstart

theorem countP_allowedTimes (p : DateTime → Bool) (h : Log) :
    (allowedTimes h).countP p = (h.filter fun e => isAllowed e.2 && p e.1.now).length := by
  rw [allowedTimes, List.countP_map, List.countP_filter, List.countP_eq_length_filter]
  congr 1
  apply List.filter_congr
  intro e _
  simp [Bool.and_comm]

/-- The set that an allowed call has counted has every earlier call that counts for it. -/
theorem Kept.countP_lt {h : Log} {db db' : RedisDb} {c : Call} {r : RateLimitResult} (hk : Kept cfg tenantId h db)
    (hids : (h.map (·.1.requestUuid)).Nodup) (hsliding : cfg.slidingWindow = true)
    (hsecs : cfg.windowSecs.toNat < 2 ^ 62)
    (hcheck : RateLimiter.check cfg tenantId db c = (.ok r, db')) (hallowed : r.allowed = true) :
    (allowedTimes h).countP (fun t => Counted cfg c.now t) < cfg.maxRequests.toNat := by
  obtain ⟨hnow, hpos, hend, hrun⟩ := check_eq hsliding hcheck
  obtain ⟨⟨members, expiresAt, hset, hroom⟩, -⟩ := of_allowed hrun hallowed hpos hsecs
  obtain ⟨hstart, hbefore⟩ := windowOf_bounds tenantId hnow hpos c.requestUuid
  refine lt_of_le_of_lt ?_ hroom
  rw [countP_allowedTimes]
  set l := h.filter fun e => isAllowed e.2 && decide (Counted cfg c.now e.1.now) with hl
  have hmem : ∀ e ∈ l, (windowOf cfg tenantId e.1.now e.1.requestUuid).requestId ∈ members.map (·.1) := by
    intro e he
    obtain ⟨heh, hcounts⟩ := List.mem_filter.1 he
    rw [Bool.and_eq_true, decide_eq_true_eq] at hcounts
    obtain ⟨hwas, hwindow, habove⟩ := hcounts
    have hkey : (windowOf cfg tenantId e.1.now e.1.requestUuid).key = (windowOf cfg tenantId c.now c.requestUuid).key :=
      congrArg (windowKey tenantId) hwindow
    have hends : (windowOf cfg tenantId e.1.now e.1.requestUuid).windowEnd =
        (windowOf cfg tenantId c.now c.requestUuid).windowEnd :=
      congrArg (fun n => n * cfg.windowSecs.toNat + cfg.windowSecs.toNat) hwindow
    have hheld := hk e heh hwas (by rw [← hwindow] at habove; exact habove)
    rw [hkey, hends] at hheld
    -- the removal at the start of the call spares it
    have hspares : asF64 (Db.asI64 (windowOf cfg tenantId c.now c.requestUuid).windowStart).toNat <
        asF64 (windowOf cfg tenantId e.1.now e.1.requestUuid).now :=
      asF64_asI64_lt (lt_of_le_of_lt (Nat.le_add_right _ _) hend) habove
    have hleft := hheld.perform (c := .zremrangebyscore (windowOf cfg tenantId c.now c.requestUuid).key
      (Db.asI64 (windowOf cfg tenantId c.now c.requestUuid).windowStart)) fun _ => ⟨hbefore, hspares⟩
    obtain ⟨members', expiresAt', hset', -, -, hin⟩ := hleft.sortedSet hbefore
    rw [hset] at hset'
    cases hset'
    exact List.mem_map_of_mem hin
  have hnodup : (l.map fun e => (windowOf cfg tenantId e.1.now e.1.requestUuid).requestId).Nodup := by
    have huuids : (l.map (·.1.requestUuid)).Nodup := hids.sublist (List.filter_sublist.map _)
    rw [List.Nodup, List.pairwise_map] at huuids ⊢
    exact huuids.imp fun hne heq => hne (requestId_injective heq)
  have hsub : (l.map fun e => (windowOf cfg tenantId e.1.now e.1.requestUuid).requestId) ⊆ members.map (·.1) := by
    intro id hid
    obtain ⟨e, he, rfl⟩ := List.mem_map.1 hid
    exact hmem e he
  simpa using (hnodup.subperm hsub).length_le

theorem allowedTimes_append (h : Log) (e : Call × Answer) :
    allowedTimes (h ++ [e]) = if isAllowed e.2 then allowedTimes h ++ [e.1.now] else allowedTimes h := by
  unfold allowedTimes
  rw [List.filter_append]
  cases hallowed : isAllowed e.2 <;> simp [hallowed]

theorem Kept.check {h : Log} {db : RedisDb} {c : Call} (hk : Kept cfg tenantId h db)
    (hsliding : cfg.slidingWindow = true)
    (hsecs : cfg.windowSecs.toNat < 2 ^ 62) (hnew : c.requestUuid ∉ h.map (·.1.requestUuid)) :
    Kept cfg tenantId (h ++ [(c, (RateLimiter.check cfg tenantId db c).1)])
    (RateLimiter.check cfg tenantId db c).2 := by
  intro e he hallowed
  dsimp only
  intro habove
  rcases List.mem_append.1 he with he | he
  · have hne : e.1.requestUuid ≠ c.requestUuid := fun heq => hnew (heq ▸ List.mem_map_of_mem he)
    exact (hk e he hallowed habove).check hsliding hsecs hne habove
  · obtain rfl := List.mem_singleton.1 he
    dsimp only at hallowed habove ⊢
    cases hcheck : RateLimiter.check cfg tenantId db c with
    | mk answer db' =>
      rw [hcheck] at hallowed
      cases answer with
      | error => cases hallowed
      | ok r =>
        obtain ⟨hnow, hpos, -, hrun⟩ := check_eq hsliding hcheck
        obtain ⟨hstart, -⟩ := windowOf_bounds tenantId hnow hpos c.requestUuid
        obtain ⟨members, expiresAt, hentry, hexpires, hmem⟩ := (of_allowed hrun hallowed hpos hsecs).2
        refine ⟨members, expiresAt, hentry, fun t ht => le_trans ?_ (hexpires t ht), hmem⟩
        exact windowEnd_le hstart

/-- A run keeps the limit as long as each call counts the recent ones. The window is short enough for `EXPIRE`. -/
theorem bounded_of_along (hsliding : cfg.slidingWindow = true) (hsecs : cfg.windowSecs.toNat < 2 ^ 62) (db : RedisDb)
    {calls : List Call} (hids : (calls.map (·.requestUuid)).Nodup)
    (halong : (RateLimiter.check cfg tenantId).Along (CountsRecent cfg) [] db calls) :
    (RateLimiter.check cfg tenantId).Throughout (fun h _ => Bounded cfg h) [] db calls := by
  have hnew : (RateLimiter.check cfg tenantId).Along (fun h _ i => i.requestUuid ∉ h.map (·.1.requestUuid)) [] db
      calls := by
    have hpairwise : calls.Pairwise fun c c' => c.requestUuid ≠ c'.requestUuid := List.pairwise_map.1 hids
    refine (Machine.along_of_pairwise (h := []) hpairwise).mono fun h _ c hne hmem => ?_
    obtain ⟨e, he, heq⟩ := List.mem_map.1 hmem
    exact hne e he heq
  refine ((halong.and hnew).throughout (I := fun h db => Kept cfg tenantId h db ∧ (h.map (·.1.requestUuid)).Nodup ∧
    Trailing cfg.maxRequests.toNat (windowLength cfg) (allowedTimes h)) ?_ ?_).mono ?_
  · rintro h db c ⟨hk, hnodup, htrailing⟩ ⟨hrecent, hfresh⟩
    refine ⟨hk.check hsliding hsecs hfresh, ?_, ?_⟩
    · rw [List.map_append]
      refine List.nodup_append.2 ⟨hnodup, by simp, ?_⟩
      rintro id hid _ hid' rfl
      obtain rfl := List.mem_singleton.1 hid'
      exact hfresh hid
    · rw [allowedTimes_append]
      split
      · rename_i hallowed
        dsimp only at hallowed
        refine htrailing.append ?_
        cases hcheck : RateLimiter.check cfg tenantId db c with
        | mk answer db' =>
          rw [hcheck] at hallowed
          cases answer with
          | error => cases hallowed
          | ok r =>
            have hroom := hk.countP_lt hnodup hsliding hsecs hcheck hallowed
            rcases hrecent with hrecent | hfull
            · refine lt_of_le_of_lt (List.countP_mono_left fun t ht hlt => ?_) hroom
              exact decide_eq_true (hrecent t ht (of_decide_eq_true hlt))
            · exact absurd hroom (not_lt_of_ge hfull)
      · exact htrailing
  · exact ⟨by simp [Kept], List.nodup_nil, trailing_nil⟩
  · rintro h db ⟨-, -, htrailing⟩ start
    exact htrailing.windowed start

theorem check_of_sliding (hsliding : cfg.slidingWindow = true) {c : Call} (hnow : 0 ≤ c.now)
    (hzero : cfg.windowSecs ≠ 0)
    (hend : (windowOf cfg tenantId c.now c.requestUuid).windowEnd < 2 ^ 64) (db : RedisDb) :
    RateLimiter.check cfg tenantId db c =
      (slidingCheck cfg (windowOf cfg tenantId c.now c.requestUuid)).run (fun op db => op.perform c.now db) db := by
  unfold RateLimiter.check checkRateLimit
  rw [if_neg (not_lt_of_ge hnow), if_neg hzero]
  dsimp only
  rw [if_neg (not_le_of_gt hend), if_pos hsliding]

/-- Where there is no set yet, the call is the first in it. -/
theorem run_slidingCheck_of_none {db : RedisDb} {now : DateTime} {w : Window} (h : db[w.key]? = none)
    (hmax : 0 < cfg.maxRequests.toNat) (hpos : 0 < cfg.windowSecs.toNat)
    (hsecs : (cfg.windowSecs.toNat * 2 : ℕ) ≤ maxExpireSecs) :
    ((slidingCheck cfg w).run (fun op db => op.perform now db) db).1 =
      .ok (.allow 1 cfg.maxRequests.toNat w.windowEnd) := by
  have hempty : ∀ db : RedisDb, db[w.key]? = none → db.sortedSet now w.key = .ok ([], none) := by
    intro db h
    rw [RedisDb.sortedSet, RedisDb.find, h, Option.filter_none]
  have herased : (db.erase w.key)[w.key]? = none := by simp
  have htwice : cfg.windowSecs.toNat * 2 < 2 ^ 63 := by
    unfold maxExpireSecs at hsecs
    omega
  have hchecked : ¬ 2 ^ 64 ≤ cfg.windowSecs.toNat * 2 := by omega
  have hrange : -maxExpireSecs ≤ ((cfg.windowSecs.toNat * 2 : ℕ) : ℤ) ∧
      ((cfg.windowSecs.toNat * 2 : ℕ) : ℤ) ≤ maxExpireSecs :=
    ⟨by unfold maxExpireSecs; omega, hsecs⟩
  have hpositive : ¬ ((cfg.windowSecs.toNat * 2 : ℕ) : ℤ) ≤ 0 := by omega
  unfold slidingCheck
  rw [run_send, RedisCommand.perform, hempty db h]
  change (Program.run _ (countRequests cfg w) (db.erase w.key)).1 = _
  unfold countRequests
  rw [run_send, RedisCommand.perform, hempty _ herased]
  change (Program.run _ (if cfg.maxRequests.toNat ≤ 0 then _ else _) _).1 = _
  rw [if_neg (Nat.not_le_of_gt hmax)]
  unfold addRequest setExpiry
  simp only [if_neg hchecked, Db.asI64_eq_self htwice]
  rw [run_send, RedisCommand.perform, hempty _ herased]
  dsimp only
  have hadded := @getElem?_putSet (db.erase w.key) w.key _
    (List.append_ne_nil_of_right_ne_nil (([] : SortedSet).filter (·.1 ≠ w.requestId))
      (List.cons_ne_nil (w.requestId, asF64 w.now) [])) none
  have hfind := @find_eq_some _ now w.key _ hadded (by simp)
  rw [run_send, RedisCommand.perform, if_neg (not_not.2 hrange)]
  unfold addMember
  rw [hfind]
  dsimp only
  rw [if_neg hpositive]
  rfl

/-- The entries under other keys stay as they are. -/
theorem getElem?_check_of_ne (hsliding : cfg.slidingWindow = true) {db : RedisDb} {c : Call} {key : String}
    (h : key ≠ (windowOf cfg tenantId c.now c.requestUuid).key) :
    (RateLimiter.check cfg tenantId db c).2[key]? = db[key]? := by
  unfold RateLimiter.check
  refine Program.Calls.run_inv (I := fun db' => db'[key]? = db[key]?)
    (Q := fun op => key ≠ op.key) (fun op db' hop hsame => (getElem?_perform_of_ne hop).trans hsame)
    (calls_checkRateLimit hsliding fun _ _ _ => ?_) rfl
  exact calls_slidingCheck h h h h

/-- One request in ten seconds. -/
def oneInTen : RateLimitConfig := ⟨1, 10, true⟩

def callAt (now : DateTime) (requestUuid : Uuid) : Call := ⟨now, requestUuid⟩

theorem bounded_oneInTen : (RateLimiter.check oneInTen "t").Throughout (fun h _ => Bounded oneInTen h) [] ∅
    [callAt 11000000000 1, callAt 12000000000 2] := by
  refine bounded_of_along rfl (by decide) ∅ (by decide) ⟨.inl ?_, .inl ?_, trivial⟩
  · intro t ht
    cases ht
  · intro t ht _
    have ht' : t = 11000000000 := by
      rw [List.nil_append, ← List.nil_append [_], allowedTimes_append] at ht
      split at ht
      · simpa [allowedTimes, callAt] using ht
      · cases ht
    subst ht'
    decide

/-- One second apart, but in two aligned windows. -/
theorem not_bounded_oneInTen : ¬ ∀ (cfg : RateLimitConfig) (tenantId : String) (calls : List Call),
    cfg.slidingWindow = true → 0 < cfg.windowSecs → (calls.map (·.now)).Pairwise (· ≤ ·) →
      (calls.map (·.requestUuid)).Nodup →
        (RateLimiter.check cfg tenantId).Throughout (fun h _ => Bounded cfg h) [] ∅ calls := by
  intro h
  have hbounded := (h oneInTen "t" [callAt 19500000000 1, callAt 20500000000 2] rfl (by decide) (by decide)
    (by decide)).2.2
  have hallowed : ∀ (db : RedisDb) (c : Call), 0 ≤ c.now →
    (windowOf oneInTen "t" c.now c.requestUuid).windowEnd < 2 ^ 64 →
      db[(windowOf oneInTen "t" c.now c.requestUuid).key]? = none →
        isAllowed (RateLimiter.check oneInTen "t" db c).1 = true := by
    intro db c hnow hend hnone
    rw [check_of_sliding rfl hnow (by decide) hend, run_slidingCheck_of_none hnone (by decide) (by decide) (by decide)]
    rfl
  have hfirst := hallowed ∅ (callAt 19500000000 1) (by decide) (by decide) (by simp)
  have hsecond := hallowed (RateLimiter.check oneInTen "t" ∅ (callAt 19500000000 1)).2 (callAt 20500000000 2)
    (by decide)
    (by decide) (by
      rw [getElem?_check_of_ne rfl (by decide)]
      simp)
  have htimes : allowedTimes ([] ++
    [(callAt 19500000000 1, (RateLimiter.check oneInTen "t" ∅ (callAt 19500000000 1)).1)] ++
      [(callAt 20500000000 2, (RateLimiter.check oneInTen "t"
        (RateLimiter.check oneInTen "t" ∅ (callAt 19500000000 1)).2 (callAt 20500000000 2)).1)]) =
      [19500000000, 20500000000] := by
    rw [allowedTimes_append, if_pos hsecond, allowedTimes_append, if_pos hfirst]
    rfl
  have hcount := hbounded 19500000000
  rw [htimes] at hcount
  exact absurd hcount (by decide)

end

end GmKms.Keystore.RateLimiter
