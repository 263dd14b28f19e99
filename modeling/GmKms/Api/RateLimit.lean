import GmKms.Keystore.RateLimiter
import GmKms.Lib.Machine
import GmKms.Lib.Text
import GmKms.Lib.Window
/-!
# The limit on a tenant's requests

`TenantRateLimiter`: a counter for each tenant and clock second, which a script increments in one step. The keys are
those of seconds aligned with the epoch, and the limit per minute is not read.
-/

namespace GmKms.Api.RateLimit

open Lib
open Keystore.RateLimiter (RedisDb RedisCommand RedisEntry asF64)

inductive RateLimitFailMode where
  | failOpen | failClosed
  deriving DecidableEq

structure RateLimitConfig where
  requestsPerSecond : UInt64
  requestsPerMinute : UInt64
  burstSize : UInt64
  failMode : RateLimitFailMode

/-- `impl Default`. -/
def RateLimitConfig.default : RateLimitConfig := ⟨100, 5000, 200, .failClosed⟩

/-! ## The script -/

/-- `PEXPIRE`. -/
def pexpire (db : RedisDb) (now : DateTime) (key : String) (ms : ℕ) : RedisDb :=
  match db.find now key with
  | none => db
  | some e => db.insert key { e with expiresAt := some (now + ms * 1000000) }

/-- `PTTL`. -/
def pttl (db : RedisDb) (now : DateTime) (key : String) : ℤ :=
  match db.find now key with
  | none => -2
  | some e => e.expiresAt.elim (-1) fun t => (t - now) / 1000000

/-- The numbers of a script are doubles. -/
def script (db : RedisDb) (now : DateTime) (key : String) (windowMs : ℕ) : Except String (ℕ × ℤ) × RedisDb :=
  match (RedisCommand.incr key).perform now db with
  | (.error e, db) => (.error e, db)
  | (.ok n, db) =>
    let current := asF64 n
    let db := if current = 1 then pexpire db now key windowMs else db
    let ttl := pttl db now key
    (.ok (current, if ttl < 0 then windowMs else ttl), db)

/-! ## A call -/

/-- A call for a tenant, at a time in milliseconds. -/
structure Call where
  tenantId : String
  now : UInt64

namespace Call

/-- The clock second. -/
def second (c : Call) : ℕ := c.now.toNat / 1000

/-- The clock of the server. -/
def time (c : Call) : DateTime := c.now.toNat * 1000000

end Call

/-- The requests that remain, or the seconds to wait with the time that the key has left. -/
abbrev Answer := Except (ℕ × ℤ) ℕ

def windowKey (tenantId : String) (second : ℕ) : String := "ratelimit:" ++ tenantId ++ ":" ++ second.repr

section

variable (config : RateLimitConfig)

/-- What `check` makes of the answer to the script. -/
def respond : Except String (ℕ × ℤ) → Answer
  | .ok (currentCount, ttlMs) =>
    if config.requestsPerSecond.toNat < currentCount then .error (((ttlMs + 999) / 1000).toNat, ttlMs)
    else .ok (config.requestsPerSecond.toNat - currentCount)
  | .error _ =>
    match config.failMode with
    | .failOpen => .ok config.requestsPerSecond.toNat
    | .failClosed => .error (60, 60000)

/-- `check`, with a server that runs the script. -/
def check : Machine RedisDb Call Answer := fun db c =>
  let (reply, db) := script db c.time (windowKey c.tenantId c.second) 1000
  (respond config reply, db)

/-! ## The windows -/

abbrev Log := History Call Answer

/-- When the tenant's calls that were allowed came, in milliseconds. -/
def allowedTimes (h : Log) (tenantId : String) : List ℕ :=
  h.filterMap fun e => if e.1.tenantId = tenantId ∧ e.2.isOk = true then some e.1.now.toNat else none

/-- In every second at most `requests_per_second` calls of a tenant are allowed, in every minute at most
`requests_per_minute`. -/
def Bounded (h : Log) : Prop :=
  ∀ tenantId, Windowed config.requestsPerSecond.toNat 1000 (allowedTimes h tenantId) ∧
    Windowed config.requestsPerMinute.toNat 60000 (allowedTimes h tenantId)

/-- How many of the calls are the tenant's in a clock second. -/
def hits (calls : List Call) (tenantId : String) (second : ℕ) : ℕ :=
  calls.countP fun c => c.tenantId = tenantId && c.second = second

/-- The call is among the first of its clock second; one that finds the counter full is not counted. -/
def early (earlier : List Call) (c : Call) : Bool :=
  let n := hits earlier c.tenantId c.second
  if n + 1 < 2 ^ 63 then asF64 (n + 1) ≤ config.requestsPerSecond.toNat else config.failMode = .failOpen

/-- When the tenant's calls came that are among the first of their clock second; `earlier` are those before. -/
def earlyTimes (tenantId : String) : List Call → List Call → List ℕ
  | _, [] => []
  | earlier, c :: rest =>
    (if c.tenantId = tenantId ∧ early config earlier c = true then [c.now.toNat] else []) ++
      earlyTimes tenantId (earlier ++ [c]) rest

/-- A call that is among the first of its clock second finds fewer such calls of its tenant than the limits, in the
second and in the minute that end with it. -/
def HasRoom (earlier : List Call) (c : Call) : Prop :=
  early config earlier c = true →
    (earlyTimes config c.tenantId [] earlier).countP (c.now.toNat < · + 1000) < config.requestsPerSecond.toNat ∧
      (earlyTimes config c.tenantId [] earlier).countP (c.now.toNat < · + 60000) < config.requestsPerMinute.toNat

end

/-! ## The counters -/

/-- The second is what comes after the last colon. -/
theorem windowKey_inj {tenantId tenantId' : String} {second second' : ℕ}
    (h : windowKey tenantId second = windowKey tenantId' second') : tenantId = tenantId' ∧ second = second' := by
  have hlist := congrArg String.toList h
  simp only [windowKey, String.toList_append, List.append_assoc, List.append_cancel_left_eq] at hlist
  have hdigits : ∀ (l : List Char) (n : ℕ),
      History.since (fun c : Char => c = ':') (l ++ (":".toList ++ n.repr.toList)) = n.repr.toList := by
    intro l n
    have hpos : History.since (fun c : Char => c = ':') (l ++ [':']) = [] := History.since_append_of_pos (by decide)
    have hnone : ∀ c ∈ n.repr.toList, decide (c = ':') = false := by
      intro c hc
      exact decide_eq_false fun heq => Numeral.notMem_repr (by decide) n (heq ▸ hc)
    rw [← List.append_assoc]
    exact (History.since_append hnone).trans (by rw [show ":".toList = [':'] from rfl, hpos, List.nil_append])
  have hrepr : second.repr.toList = second'.repr.toList := by
    rw [← hdigits tenantId.toList second, hlist, hdigits]
  rw [hrepr] at hlist
  exact ⟨String.toList_injective (List.append_cancel_right hlist), Nat.repr_injective (String.toList_injective hrepr)⟩

/-- The number under a key, with an expiry no earlier than the deadline. -/
def Counter (db : RedisDb) (key : String) (deadline : DateTime) : ℕ → Prop
  | 0 => db[key]? = none
  | n + 1 => ∃ t, db[key]? = some ⟨.counter (n + 1), some t⟩ ∧ deadline ≤ t

section

variable {db : RedisDb} {now deadline : DateTime} {key : String} {ms : ℕ}

theorem getElem?_pexpire_of_ne {key' : String} (h : key' ≠ key) : (pexpire db now key ms)[key']? = db[key']? := by
  unfold pexpire
  split
  · rfl
  · exact (HashMap.getElem?_insert ..).trans (if_neg h)

theorem getElem?_script_of_ne {key' : String} (h : key' ≠ key) : (script db now key ms).2[key']? = db[key']? := by
  have hincr : ((RedisCommand.incr key).perform now db).2[key']? = db[key']? :=
    Keystore.RateLimiter.getElem?_perform_of_ne h
  unfold script
  generalize (RedisCommand.incr key).perform now db = out at hincr ⊢
  obtain ⟨e | n, db'⟩ := out
  · exact hincr
  · dsimp only
    split
    · exact (getElem?_pexpire_of_ne h).trans hincr
    · exact hincr

/-- A time to live that ends at the deadline or later does not undercut it. -/
theorem counter_pexpire {n : ℕ} {t : Option DateTime} (h : db[key]? = some ⟨.counter (n + 1), t⟩)
    (halive : ∀ u ∈ t, now < u)
    (hms : deadline ≤ now + ms * 1000000) : Counter (pexpire db now key ms) key deadline (n + 1) := by
  rw [pexpire, Keystore.RateLimiter.find_eq_some h halive]
  exact ⟨_, (HashMap.getElem?_insert ..).trans (if_pos rfl), hms⟩

/-- The script counts, until the counter is full. -/
theorem script_spec {n : ℕ} (h : Counter db key deadline n) (hnow : now < deadline)
    (hms : deadline ≤ now + ms * 1000000) :
    if n + 1 < 2 ^ 63 then
      (∃ ttl, (script db now key ms).1 = .ok (asF64 (n + 1), ttl)) ∧
      Counter (script db now key ms).2 key deadline (n + 1)
    else (∃ e, (script db now key ms).1 = .error e) ∧ (script db now key ms).2 = db := by
  cases n with
  | zero =>
    have hfind : db.find now key = none := by
      rw [RedisDb.find, show db[key]? = none from h, Option.filter_none]
    have hone : asF64 1 = 1 := if_pos (by decide)
    rw [if_pos (by decide), script, RedisCommand.perform, hfind]
    dsimp only
    rw [hone, if_pos rfl]
    exact ⟨⟨_, rfl⟩, counter_pexpire ((HashMap.getElem?_insert ..).trans (if_pos rfl)) (by simp) hms⟩
  | succ n =>
    obtain ⟨t, hentry, ht⟩ := h
    have hfind : db.find now key = some ⟨.counter (n + 1), some t⟩ :=
      Keystore.RateLimiter.find_eq_some hentry (by simpa using hnow.trans_le ht)
    rw [script, RedisCommand.perform, hfind]
    dsimp only
    by_cases hroom : n + 1 + 1 < 2 ^ 63
    · rw [if_pos hroom, if_pos hroom]
      have hinsert : (db.insert key (⟨.counter (n + 1 + 1), some t⟩ : RedisEntry))[key]? =
          some ⟨.counter (n + 1 + 1), some t⟩ :=
        (HashMap.getElem?_insert ..).trans (if_pos rfl)
      refine ⟨⟨_, rfl⟩, ?_⟩
      dsimp only
      split
      · exact counter_pexpire hinsert (by simpa using hnow.trans_le ht) hms
      · exact ⟨t, hinsert, ht⟩
    · rw [if_neg hroom, if_neg hroom]
      exact ⟨⟨_, rfl⟩, rfl⟩

end

/-- Every counter has the number of its calls, or is full, and does not expire before its second is over. -/
def Counts (calls : List Call) (db : RedisDb) : Prop :=
  ∀ tenantId second, Counter db (windowKey tenantId second) (((second + 1) * 1000000000 : ℕ) : ℤ)
    (min (hits calls tenantId second) (2 ^ 63 - 1))

theorem counts_empty : Counts [] ∅ := fun _ _ => Std.ExtTreeMap.getElem?_empty

theorem Call.time_bounds (c : Call) : c.time < (((c.second + 1) * 1000000000 : ℕ) : ℤ) ∧
    (((c.second + 1) * 1000000000 : ℕ) : ℤ) ≤ c.time + (1000 : ℕ) * 1000000 := by
  unfold Call.time Call.second
  have hlt : c.now.toNat * 1000000 < (c.now.toNat / 1000 + 1) * 1000000000 := by omega
  have hle : (c.now.toNat / 1000 + 1) * 1000000000 ≤ c.now.toNat * 1000000 + 1000 * 1000000 := by omega
  exact ⟨by exact_mod_cast hlt, by exact_mod_cast hle⟩

theorem hits_append (calls : List Call) (c : Call) (tenantId : String) (second : ℕ) :
    hits (calls ++ [c]) tenantId second =
      hits calls tenantId second + if c.tenantId = tenantId ∧ c.second = second then 1 else 0 := by
  rw [hits, List.countP_append, List.countP_singleton, hits]
  simp

section

variable (config : RateLimitConfig)

theorem isOk_respond_ok (current : ℕ) (ttl : ℤ) :
    (respond config (.ok (current, ttl))).isOk = decide (current ≤ config.requestsPerSecond.toNat) := by
  unfold respond
  dsimp only
  split
  · exact (decide_eq_false (by omega)).symm
  · exact (decide_eq_true (by omega)).symm

theorem isOk_respond_error (e : String) : (respond config (.error e)).isOk = decide (config.failMode = .failOpen) := by
  unfold respond
  cases config.failMode <;> rfl

/-- A call is allowed exactly when it is among the first of its clock second, and is counted. -/
theorem check_spec {calls : List Call} {db : RedisDb} (h : Counts calls db) (c : Call) :
    (check config db c).1.isOk = early config calls c ∧ Counts (calls ++ [c]) (check config db c).2 := by
  obtain ⟨hnow, hms⟩ := c.time_bounds
  have hown := script_spec (h c.tenantId c.second) hnow hms
  have hlt : hits calls c.tenantId c.second + 1 < 2 ^ 63 ↔
      min (hits calls c.tenantId c.second) (2 ^ 63 - 1) + 1 < 2 ^ 63 := by
    omega
  refine ⟨?_, fun tenantId second => ?_⟩
  · change (respond config (script db c.time (windowKey c.tenantId c.second) 1000).1).isOk = _
    unfold early
    dsimp only
    by_cases hroom : hits calls c.tenantId c.second + 1 < 2 ^ 63
    · rw [if_pos (hlt.1 hroom), min_eq_left (by omega)] at hown
      obtain ⟨⟨ttl, hreply⟩, -⟩ := hown
      rw [hreply, isOk_respond_ok, if_pos hroom]
    · rw [if_neg (mt hlt.2 hroom)] at hown
      obtain ⟨⟨e, hreply⟩, -⟩ := hown
      rw [hreply, isOk_respond_error, if_neg hroom]
  · change Counter (script db c.time (windowKey c.tenantId c.second) 1000).2 _ _ _
    rw [hits_append]
    by_cases hsame : c.tenantId = tenantId ∧ c.second = second
    · obtain ⟨rfl, rfl⟩ := hsame
      rw [if_pos ⟨rfl, rfl⟩]
      by_cases hroom : hits calls c.tenantId c.second + 1 < 2 ^ 63
      · rw [if_pos (hlt.1 hroom), min_eq_left (by omega)] at hown
        rw [min_eq_left (by omega)]
        exact hown.2
      · rw [if_neg (mt hlt.2 hroom)] at hown
        rw [hown.2, show min (hits calls c.tenantId c.second + 1) (2 ^ 63 - 1) =
          min (hits calls c.tenantId c.second) (2 ^ 63 - 1) by omega]
        exact h c.tenantId c.second
    · rw [if_neg hsame, Nat.add_zero]
      have hother := h tenantId second
      have hkey : windowKey tenantId second ≠ windowKey c.tenantId c.second := by
        intro heq
        obtain ⟨htenant, hsecond⟩ := windowKey_inj heq
        exact hsame ⟨htenant.symm, hsecond.symm⟩
      generalize min (hits calls tenantId second) (2 ^ 63 - 1) = n at hother ⊢
      cases n with
      | zero => exact (getElem?_script_of_ne hkey).trans hother
      | succ n =>
        obtain ⟨t, hentry, ht⟩ := hother
        exact ⟨t, (getElem?_script_of_ne hkey).trans hentry, ht⟩

/-! ## Runs -/

theorem allowedTimes_append (h : Log) (e : Call × Answer) (tenantId : String) :
    allowedTimes (h ++ [e]) tenantId =
      allowedTimes h tenantId ++ if e.1.tenantId = tenantId ∧ e.2.isOk = true then [e.1.now.toNat] else [] := by
  rw [allowedTimes, List.filterMap_append, allowedTimes]
  by_cases hallowed : e.1.tenantId = tenantId ∧ e.2.isOk = true <;> simp [hallowed]

theorem earlyTimes_append (tenantId : String) (earlier calls : List Call) (c : Call) :
    earlyTimes config tenantId earlier (calls ++ [c]) = earlyTimes config tenantId earlier calls ++
      if c.tenantId = tenantId ∧ early config (earlier ++ calls) c = true then [c.now.toNat] else [] := by
  induction calls generalizing earlier with
  | nil => simp [earlyTimes]
  | cons d calls ih =>
    rw [List.cons_append, earlyTimes, ih, earlyTimes, List.append_assoc, List.append_assoc, List.singleton_append]

/-- The counters are right, and the calls that were allowed are the first of their clock seconds. -/
def Inv (h : Log) (db : RedisDb) : Prop :=
  Counts (h.map (·.1)) db ∧ ∀ tenantId, allowedTimes h tenantId = earlyTimes config tenantId [] (h.map (·.1))

theorem inv_step {h : Log} {db : RedisDb} (hinv : Inv config h db) (c : Call) :
    Inv config (h ++ [(c, (check config db c).1)]) (check config db c).2 := by
  obtain ⟨hcounts, htimes⟩ := hinv
  obtain ⟨hok, hcounts'⟩ := check_spec config hcounts c
  rw [Inv, List.map_append, List.map_singleton]
  refine ⟨hcounts', fun tenantId => ?_⟩
  rw [allowedTimes_append, earlyTimes_append, htimes, hok, List.nil_append]

theorem mem_allowedTimes {h : Log} {tenantId : String} {t : ℕ} (ht : t ∈ allowedTimes h tenantId) :
    ∃ e ∈ h, e.1.now.toNat = t := by
  obtain ⟨e, he, hsome⟩ := List.mem_filterMap.1 ht
  split at hsome
  · exact ⟨e, he, Option.some.inj hsome⟩
  · cases hsome

/-- The limits survive exactly the calls that have room. -/
theorem bounded_step_iff {h : Log} {db : RedisDb} {c : Call} (hlater : ∀ e ∈ h, e.1.now.toNat ≤ c.now.toNat)
    (hinv : Inv config h db) (hbounded : Bounded config h) :
    Bounded config (h ++ [(c, (check config db c).1)]) ↔ HasRoom config (h.map (·.1)) c := by
  have hok := (check_spec config hinv.1 c).1
  have hlast : ∀ u ∈ allowedTimes h c.tenantId, u ≤ c.now.toNat := by
    intro u hu
    obtain ⟨e, he, rfl⟩ := mem_allowedTimes hu
    exact hlater e he
  have hother : ∀ tenantId, ¬ (c.tenantId = tenantId ∧ early config (h.map (·.1)) c = true) →
      allowedTimes (h ++ [(c, (check config db c).1)]) tenantId = allowedTimes h tenantId := by
    intro tenantId hnot
    rw [allowedTimes_append, hok, if_neg hnot, List.append_nil]
  unfold HasRoom
  cases hearly : early config (h.map (·.1)) c with
  | false =>
    refine iff_of_true (fun tenantId => ?_) (by simp)
    rw [hother tenantId (by simp [hearly])]
    exact hbounded tenantId
  | true =>
    have hown : allowedTimes (h ++ [(c, (check config db c).1)]) c.tenantId =
        allowedTimes h c.tenantId ++ [c.now.toNat] := by
      rw [allowedTimes_append, hok, if_pos ⟨rfl, hearly⟩]
    rw [← hinv.2, ← windowed_append_iff (hbounded c.tenantId).1 hlast (by omega),
      ← windowed_append_iff (hbounded c.tenantId).2 hlast (by omega), ← hown]
    refine ⟨fun hbounded' _ => hbounded' c.tenantId, fun hroom tenantId => ?_⟩
    by_cases htenant : c.tenantId = tenantId
    · exact htenant ▸ hroom rfl
    · rw [hother tenantId fun heq => htenant heq.1]
      exact hbounded tenantId

/-- While time does not go back, the limits hold over every second and every minute in exactly the runs in which the
first calls of each clock second have room. -/
theorem bounded_throughout_iff {calls : List Call} (hordered : (calls.map (·.now.toNat)).Pairwise (· ≤ ·)) :
    (check config).Throughout (fun h _ => Bounded config h) [] ∅ calls ↔
      (check config).Along (fun h _ c => HasRoom config (h.map (·.1)) c) [] ∅ calls := by
  have hlater : (check config).Along (fun h _ c => ∀ e ∈ h, e.1.now.toNat ≤ c.now.toNat) [] ∅ calls :=
    Machine.along_of_pairwise (List.pairwise_map.1 hordered)
  refine hlater.throughout_iff (I := Inv config) (fun h db c _ hinv => inv_step config hinv c)
    (fun h db c hlater hinv hbounded => bounded_step_iff config hlater hinv hbounded) ⟨counts_empty, fun _ => rfl⟩ ?_
  exact fun _ => ⟨windowed_nil, windowed_nil⟩

end

/-- One request a second. -/
def oneASecond : RateLimitConfig := ⟨1, 60, 1, .failClosed⟩

/-- The second call of the first second is refused. -/
def twoSecondsCalls : List Call := [⟨"tenant-1", 900⟩, ⟨"tenant-1", 950⟩, ⟨"tenant-2", 980⟩, ⟨"tenant-1", 2000⟩]

theorem bounded_throughout_iff_twoSeconds :
    (check oneASecond).Throughout (fun h _ => Bounded oneASecond h) [] ∅ twoSecondsCalls ↔
      (check oneASecond).Along (fun h _ c => HasRoom oneASecond (h.map (·.1)) c) [] ∅ twoSecondsCalls :=
  bounded_throughout_iff oneASecond (by decide)

/-- A tenth of a second apart, but in two clock seconds. -/
theorem not_bounded_twoSeconds :
    ¬ ∀ (config : RateLimitConfig) (calls : List Call), (calls.map (·.now.toNat)).Pairwise (· ≤ ·) →
      (check config).Throughout (fun h _ => Bounded config h) [] ∅ calls := by
  intro h
  have hordered : (([⟨"tenant-1", 900⟩, ⟨"tenant-1", 1000⟩] : List Call).map (·.now.toNat)).Pairwise
      (· ≤ ·) := by decide
  have halong := (bounded_throughout_iff oneASecond hordered).1 (h _ _ hordered)
  exact absurd (halong.2.1 (by decide +kernel)).1 (by decide +kernel)

end GmKms.Api.RateLimit
