import GmKms.Core.Error
import GmKms.Core.UuidText
import GmKms.Keystore.Repository
import GmKms.Lib.Program
/-!
# The rate limiter

`SlidingWindowRateLimiter` as a program over the commands it sends to Redis, each of them atomic. Redis answers
every command; it reads its own clock.
-/

namespace GmKms.Keystore.RateLimiter

open Lib

/-! ## Redis -/

/-- `as f64`: the nearest number with a significand of 53 bits, on a tie the even one. -/
def asF64 (n : ℕ) : ℕ :=
  if n < 2 ^ 53 then n
  else
    let unit := 2 ^ (n.log2 - 52)
    let quotient := n / unit
    let rest := n % unit
    if 2 * rest < unit ∨ 2 * rest = unit ∧ quotient % 2 = 0 then quotient * unit else (quotient + 1) * unit

/-- Members with their scores. -/
abbrev SortedSet := List (String × ℕ)

inductive RedisValue where
  | counter (n : ℕ)
  | sortedSet (members : SortedSet)

structure RedisEntry where
  value : RedisValue
  expiresAt : Option DateTime

abbrev RedisDb := HashMap String RedisEntry

inductive RedisCommand where
  /-- `ZREMRANGEBYSCORE key 0 max` -/
  | zremrangebyscore (key : String) (max : ℤ)
  | zcard (key : String)
  | zadd (key member : String) (score : ℕ)
  | expire (key : String) (seconds : ℤ)
  | incr (key : String)

/-- All commands answer with a number. -/
abbrev RedisReply (_ : RedisCommand) : Type := Except String ℕ

def wrongType : String := "WRONGTYPE: Operation against a key holding the wrong kind of value"

namespace RedisDb

/-- The entry under a key, unless its time to live is over. -/
def find (db : RedisDb) (now : DateTime) (key : String) : Option RedisEntry :=
  (db[key]?).filter fun e => e.expiresAt.all (now < ·)

/-- The set under a key, which is empty where there is none, and when it expires. -/
def sortedSet (db : RedisDb) (now : DateTime) (key : String) : Except String (SortedSet × Option DateTime) :=
  match db.find now key with
  | none => .ok ([], none)
  | some ⟨.sortedSet members, expiresAt⟩ => .ok (members, expiresAt)
  | some ⟨.counter _, _⟩ => .error wrongType

/-- Redis keeps no empty set. -/
def putSet (db : RedisDb) (key : String) (members : SortedSet) (expiresAt : Option DateTime) : RedisDb :=
  if members = [] then db.erase key else db.insert key ⟨.sortedSet members, expiresAt⟩

end RedisDb

/-- `ZADD`: a member that is there gets the new score. -/
def addMember (members : SortedSet) (member : String) (score : ℕ) : SortedSet :=
  members.filter (·.1 ≠ member) ++ [(member, score)]

/-- The largest number of seconds that is still an `i64` of milliseconds. -/
def maxExpireSecs : ℤ := 2 ^ 63 / 1000

def RedisCommand.perform (now : DateTime) (db : RedisDb) : RedisCommand → Except String ℕ × RedisDb
  | .zremrangebyscore key max =>
    match db.sortedSet now key with
    | .error e => (.error e, db)
    | .ok (members, expiresAt) =>
      let kept := members.filter fun m => ¬ (0 ≤ max ∧ m.2 ≤ asF64 max.toNat)
      (.ok (members.length - kept.length), db.putSet key kept expiresAt)
  | .zcard key => ((db.sortedSet now key).map (·.1.length), db)
  | .zadd key member score =>
    match db.sortedSet now key with
    | .error e => (.error e, db)
    | .ok (members, expiresAt) =>
      (.ok (if members.any (·.1 = member) then 0 else 1), db.putSet key (addMember members member score) expiresAt)
  | .expire key seconds =>
    if ¬ (-maxExpireSecs ≤ seconds ∧ seconds ≤ maxExpireSecs)
      then (.error "ERR: invalid expire time in 'expire' command", db)
    else
      match db.find now key with
      | none => (.ok 0, db)
      | some e =>
        if seconds ≤ 0 then (.ok 1, db.erase key)
        else (.ok 1, db.insert key { e with expiresAt := some (now + seconds * 1000000000) })
  | .incr key =>
    match db.find now key with
    | none => (.ok 1, db.insert key ⟨.counter 1, none⟩)
    | some ⟨.counter n, expiresAt⟩ =>
      if n + 1 < 2 ^ 63 then (.ok (n + 1), db.insert key ⟨.counter (n + 1), expiresAt⟩)
      else (.error "ERR: increment or decrement would overflow", db)
    | some ⟨.sortedSet _, _⟩ => (.error wrongType, db)

/-! ## What commands leave -/

def RedisCommand.key : RedisCommand → String
  | .zremrangebyscore key _ | .zcard key | .zadd key _ _ | .expire key _ | .incr key => key

section

variable {db : RedisDb} {now : DateTime} {key : String}

theorem getElem?_putSet_of_ne {key' : String} (h : key' ≠ key) (members : SortedSet) (expiresAt : Option DateTime) :
    (db.putSet key members expiresAt)[key']? = db[key']? := by
  unfold RedisDb.putSet
  split
  · rw [HashMap.getElem?_erase, if_neg h]
  · rw [HashMap.getElem?_insert, if_neg h]

theorem getElem?_putSet {members : SortedSet} (h : members ≠ []) (expiresAt : Option DateTime) :
    (db.putSet key members expiresAt)[key]? = some ⟨.sortedSet members, expiresAt⟩ := by
  rw [RedisDb.putSet, if_neg h, HashMap.getElem?_insert, if_pos rfl]

theorem getElem?_perform_of_ne {c : RedisCommand} (h : key ≠ c.key) : (c.perform now db).2[key]? = db[key]? := by
  have herase : (db.erase c.key)[key]? = db[key]? := by
    rw [HashMap.getElem?_erase, if_neg h]
  cases c with
  | zremrangebyscore =>
    rw [RedisCommand.perform]
    split
    · rfl
    · exact getElem?_putSet_of_ne h _ _
  | zcard => rfl
  | zadd =>
    rw [RedisCommand.perform]
    split
    · rfl
    · exact getElem?_putSet_of_ne h _ _
  | expire =>
    rw [RedisCommand.perform]
    split
    · rfl
    · split
      · rfl
      · split
        · exact herase
        · exact (HashMap.getElem?_insert ..).trans (if_neg h)
  | incr =>
    rw [RedisCommand.perform]
    split
    · exact (HashMap.getElem?_insert ..).trans (if_neg h)
    · split
      · exact (HashMap.getElem?_insert ..).trans (if_neg h)
      · rfl
    · rfl

theorem find_eq_some {e : RedisEntry} (h : db[key]? = some e) (halive : ∀ t ∈ e.expiresAt, now < t) :
    db.find now key = some e := by
  rw [RedisDb.find, h, Option.filter_some, if_pos]
  cases ht : e.expiresAt with
  | none => rfl
  | some t => exact decide_eq_true (halive t ht)

/-- The set under the key has the member and does not expire before the deadline. -/
def Holds (db : RedisDb) (key : String) (deadline : DateTime) (m : String × ℕ) : Prop :=
  ∃ members expiresAt, db[key]? = some ⟨.sortedSet members, expiresAt⟩ ∧ (∀ t ∈ expiresAt, deadline ≤ t) ∧ m ∈ members

variable {deadline : DateTime} {m : String × ℕ}

theorem Holds.sortedSet (h : Holds db key deadline m) (hnow : now < deadline) :
    ∃ members expiresAt, db.sortedSet now key = .ok (members, expiresAt) ∧
      db.find now key = some ⟨.sortedSet members, expiresAt⟩ ∧ (∀ t ∈ expiresAt, deadline ≤ t) ∧ m ∈ members := by
  obtain ⟨members, expiresAt, hentry, hexpires, hmem⟩ := h
  have hfind := find_eq_some hentry fun t ht => hnow.trans_le (hexpires t ht)
  exact ⟨members, expiresAt, by rw [RedisDb.sortedSet, hfind], hfind, hexpires, hmem⟩

theorem holds_putSet {members : SortedSet} {expiresAt : Option DateTime} (hexpires : ∀ t ∈ expiresAt, deadline ≤ t)
    (hmem : m ∈ members) : Holds (db.putSet key members expiresAt) key deadline m :=
  ⟨members, expiresAt, getElem?_putSet (List.ne_nil_of_mem hmem) _, hexpires, hmem⟩

/-- The command neither removes the member nor shortens its time to live below the deadline. -/
def Spares (now : DateTime) (deadline : DateTime) (m : String × ℕ) : RedisCommand → Prop
  | .zremrangebyscore _ max => asF64 max.toNat < m.2
  | .zcard _ => True
  | .zadd _ member _ => member ≠ m.1
  | .expire _ seconds => 0 < seconds ∧ deadline ≤ now + seconds * 1000000000
  | .incr _ => True

/-- A member stays through every command on its key that spares it. -/
theorem Holds.perform (h : Holds db key deadline m) {c : RedisCommand}
    (hc : c.key = key → now < deadline ∧ Spares now deadline m c) : Holds (c.perform now db).2 key deadline m := by
  by_cases hkey : c.key = key
  · obtain ⟨hnow, hspares⟩ := hc hkey
    obtain ⟨members, expiresAt, hset, hfind, hexpires, hmem⟩ := h.sortedSet hnow
    subst hkey
    cases c with
    | zremrangebyscore key max =>
      have hset' : db.sortedSet now key = .ok (members, expiresAt) := hset
      rw [RedisCommand.perform, hset']
      refine holds_putSet hexpires (List.mem_filter.2 ⟨hmem, decide_eq_true ?_⟩)
      rintro ⟨-, hle⟩
      exact absurd hle (not_le_of_gt hspares)
    | zcard => exact h
    | zadd key member score =>
      have hset' : db.sortedSet now key = .ok (members, expiresAt) := hset
      rw [RedisCommand.perform, hset']
      refine holds_putSet hexpires (List.mem_append_left _ (List.mem_filter.2 ⟨hmem, decide_eq_true ?_⟩))
      exact Ne.symm hspares
    | expire key seconds =>
      have hfind' : db.find now key = some ⟨.sortedSet members, expiresAt⟩ := hfind
      rw [RedisCommand.perform]
      split
      · exact h
      · rw [hfind']
        dsimp only
        rw [if_neg (not_le_of_gt hspares.1)]
        refine ⟨members, _, (HashMap.getElem?_insert ..).trans (if_pos rfl), ?_, hmem⟩
        rintro t ht
        obtain rfl := Option.mem_some.1 ht
        exact hspares.2
    | incr key =>
      have hfind' : db.find now key = some ⟨.sortedSet members, expiresAt⟩ := hfind
      rw [RedisCommand.perform, hfind']
      exact h
  · obtain ⟨members, expiresAt, hentry, hrest⟩ := h
    exact ⟨members, expiresAt, (getElem?_perform_of_ne (Ne.symm hkey)).trans hentry, hrest⟩

theorem alive_of_find {e : RedisEntry} (h : db.find now key = some e) : ∀ t ∈ e.expiresAt, now < t := by
  obtain ⟨-, halive⟩ := Option.filter_eq_some_iff.1 h
  intro t ht
  rw [Option.mem_def.1 ht] at halive
  exact of_decide_eq_true halive

/-- A member that is added is in the set, which is not over yet. -/
theorem holds_zadd {member : String} {score n : ℕ}
    (h : ((RedisCommand.zadd key member score).perform now db).1 = .ok n) :
    Holds ((RedisCommand.zadd key member score).perform now db).2 key (now + 1) (member, score) := by
  rw [RedisCommand.perform] at h ⊢
  cases hset : db.sortedSet now key with
  | error e =>
    rw [hset] at h
    cases h
  | ok set =>
    obtain ⟨members, expiresAt⟩ := set
    refine holds_putSet ?_ (List.mem_append_right _ (List.mem_singleton_self _))
    intro t ht
    unfold RedisDb.sortedSet at hset
    split at hset
    · cases hset
      cases ht
    · rename_i hfind
      cases hset
      exact Int.add_one_le_iff.2 (alive_of_find hfind t ht)
    · cases hset

/-- The time to live is the one that `EXPIRE` has set. -/
theorem Holds.expire (h : Holds db key deadline m) (hnow : now < deadline) {seconds : ℤ} {n : ℕ} (hpos : 0 < seconds)
    (hok : ((RedisCommand.expire key seconds).perform now db).1 = .ok n) :
    Holds ((RedisCommand.expire key seconds).perform now db).2 key (now + seconds * 1000000000) m := by
  obtain ⟨members, expiresAt, -, hfind, -, hmem⟩ := h.sortedSet hnow
  rw [RedisCommand.perform] at hok ⊢
  split
  · rename_i hrange
    rw [if_pos hrange] at hok
    cases hok
  · rw [hfind]
    dsimp only
    rw [if_neg (not_le_of_gt hpos)]
    refine ⟨members, _, (HashMap.getElem?_insert ..).trans (if_pos rfl), ?_, hmem⟩
    rintro t ht
    obtain rfl := Option.mem_some.1 ht
    exact le_rfl

end

/-! ## The limiter -/

structure RateLimitConfig where
  maxRequests : UInt64
  windowSecs : UInt64
  slidingWindow : Bool

structure RateLimitResult where
  allowed : Bool
  current : ℕ
  limit : ℕ
  remaining : ℕ
  resetAt : ℕ
  retryAfterSecs : Option ℕ
  deriving DecidableEq

namespace RateLimitResult

/-- `RateLimitResult::allowed`. -/
def allow (current limit resetAt : ℕ) : RateLimitResult where
  allowed := true
  current
  limit
  remaining := limit - current
  resetAt
  retryAfterSecs := none

/-- `RateLimitResult::rate_limited`. -/
def rateLimited (current limit resetAt retryAfter : ℕ) : RateLimitResult where
  allowed := false
  current
  limit
  remaining := 0
  resetAt
  retryAfterSecs := some retryAfter

end RateLimitResult

abbrev RedisProgram := Program RedisReply Abort

/-- Send a command; its error ends the call. -/
def send (c : RedisCommand) : RedisProgram ℕ :=
  .call c fun
    | .ok n => .done (.ok n)
    | .error e => .done (.error (.error (.internal e)))

/-- What a call has computed before its first command. -/
structure Window where
  key : String
  requestId : String
  now : ℕ
  windowStart : ℕ
  windowEnd : ℕ

section

variable (cfg : RateLimitConfig)

def setExpiry (w : Window) (current : ℕ) : RedisProgram RateLimitResult :=
  if 2 ^ 64 ≤ cfg.windowSecs.toNat * 2 then .fail (.panic "attempt to multiply with overflow")
  else do
    let _ ← send (.expire w.key (Db.asI64 (cfg.windowSecs.toNat * 2)))
    return .allow (current + 1) cfg.maxRequests.toNat w.windowEnd

def addRequest (w : Window) (current : ℕ) : RedisProgram RateLimitResult := do
  let _ ← send (.zadd w.key w.requestId (asF64 w.now))
  setExpiry cfg w current

def countRequests (w : Window) : RedisProgram RateLimitResult := do
  let current ← send (.zcard w.key)
  if cfg.maxRequests.toNat ≤ current then
    return .rateLimited current cfg.maxRequests.toNat w.windowEnd (w.windowEnd - w.now)
  else addRequest cfg w current

/-- The branch of `check_rate_limit` with sorted sets. -/
def slidingCheck (w : Window) : RedisProgram RateLimitResult := do
  let _removed ← send (.zremrangebyscore w.key (Db.asI64 w.windowStart))
  countRequests cfg w

/-- The branch with a counter. -/
def fixedCheck (w : Window) : RedisProgram RateLimitResult := do
  let current ← send (.incr w.key)
  if current = 1 then
    let _ ← send (.expire w.key (Db.asI64 cfg.windowSecs.toNat))
  if cfg.maxRequests.toNat < current then
    return .rateLimited current cfg.maxRequests.toNat w.windowEnd (w.windowEnd - w.now)
  else return .allow current cfg.maxRequests.toNat w.windowEnd

/-- Whole seconds since the epoch. -/
def secondsOf (now : DateTime) : ℕ := now.toNat / 1000000000

def windowKey (tenantId : String) (window : ℕ) : String := "rate_limit:" ++ tenantId ++ ":" ++ window.repr

def windowOf (tenantId : String) (now : DateTime) (requestUuid : Uuid) : Window where
  key := windowKey tenantId (secondsOf now / cfg.windowSecs.toNat)
  requestId := (secondsOf now).repr ++ (":" ++ requestUuid.text)
  now := secondsOf now
  windowStart := secondsOf now / cfg.windowSecs.toNat * cfg.windowSecs.toNat
  windowEnd := secondsOf now / cfg.windowSecs.toNat * cfg.windowSecs.toNat + cfg.windowSecs.toNat

/-- Arithmetic is checked. -/
def checkRateLimit (tenantId : String) (now : DateTime) (requestUuid : Uuid) : RedisProgram RateLimitResult :=
  if now < 0 then .fail (.error (.internal "second time provided was later than self"))
  else if cfg.windowSecs = 0 then .fail (.panic "attempt to divide by zero")
  else
    let w := windowOf cfg tenantId now requestUuid
    if 2 ^ 64 ≤ w.windowEnd then .fail (.panic "attempt to add with overflow")
    else if cfg.slidingWindow then slidingCheck cfg w
    else fixedCheck cfg w

end

end GmKms.Keystore.RateLimiter
