import GmKms.Core.Error
import GmKms.Core.UuidText
import GmKms.Lib.Machine
import GmKms.Lib.Window
/-!
# SM2-KEX sessions in Redis

`Sm2KexSessionManager`: every instance reads the whole record of a session with one
command and writes it back with another. Redis drops a record when its time to live is
over; when that is, is read from outside.
-/

namespace GmKms.Keystore

open Lib

inductive SessionState where
  | init | waitForResponse | waitForConfirmation | completed | failed
  deriving DecidableEq, Repr

structure Sm2KexSessionData where
  sessionId : Uuid
  keyId : Uuid
  userId : Bytes
  isInitiator : Bool
  state : SessionState
  nonce : UInt64
  createdAtMs : UInt64
  lastActivityMs : UInt64
  messageHistory : List (Bytes × UInt64)
  sharedSecret : Option Bytes
  confirmation : Option Bytes
  deriving DecidableEq

/-- `cache_key`. -/
def cacheKey (sessionId : Uuid) : String := "kms:sm2kex:session:" ++ sessionId.text

theorem cacheKey_injective : Function.Injective cacheKey := by
  intro id id' h
  exact Uuid.text_injective ((String.append_right_inj _).1 h)

def sessionTtlSecs : UInt64 := 300

/-- `MESSAGE_HISTORY_TTL_SECS`. -/
def historyTtlSecs : UInt64 := 60

def maxHistorySize : ℕ := 10

/-- The records under the keys of sessions, each under the key of its own session. -/
structure Redis where
  records : HashMap String Sm2KexSessionData
  keys : ∀ key session, records[key]? = some session → cacheKey session.sessionId = key

namespace Redis

def empty : Redis := ⟨∅, by simp⟩

def setEx (r : Redis) (session : Sm2KexSessionData) : Redis where
  records := r.records.insert (cacheKey session.sessionId) session
  keys key session' h := by
    rw [Std.ExtTreeMap.getElem?_insert] at h
    split at h
    · rename_i heq
      cases h
      exact Std.compare_eq_iff_eq.1 heq
    · exact r.keys key session' h

def del (r : Redis) (sessionId : Uuid) : Redis where
  records := r.records.erase (cacheKey sessionId)
  keys key session' h := by
    rw [Std.ExtTreeMap.getElem?_erase] at h
    split at h
    · cases h
    · exact r.keys key session' h

def get (r : Redis) (sessionId : Uuid) : Option Sm2KexSessionData := r.records[cacheKey sessionId]?

theorem sessionId_of_get {r : Redis} {sessionId : Uuid} {session : Sm2KexSessionData}
    (h : r.get sessionId = some session) : session.sessionId = sessionId :=
  cacheKey_injective (r.keys _ _ h)

theorem get_setEx (r : Redis) (session : Sm2KexSessionData) (sessionId : Uuid) :
    (r.setEx session).get sessionId = if session.sessionId = sessionId then some session else r.get sessionId := by
  rw [get, setEx, Std.ExtTreeMap.getElem?_insert]
  exact if_congr (Std.compare_eq_iff_eq.trans cacheKey_injective.eq_iff) rfl rfl

theorem get_del (r : Redis) (sessionId sessionId' : Uuid) :
    (r.del sessionId).get sessionId' = if sessionId = sessionId' then none else r.get sessionId' := by
  rw [get, del, Std.ExtTreeMap.getElem?_erase]
  exact if_congr (Std.compare_eq_iff_eq.trans cacheKey_injective.eq_iff) rfl rfl

/-- The seconds that are left of the session's time to live. -/
def remainingTtl (session : Sm2KexSessionData) (nowMs : UInt64) : UInt64 :=
  let ageSecs := (nowMs - session.createdAtMs) / 1000
  if ageSecs ≤ sessionTtlSecs then sessionTtlSecs - ageSecs else 0

/-- `save_session`, at an instant of its own. -/
def saveSession (r : Redis) (session : Sm2KexSessionData) (nowMs : UInt64) : Redis :=
  if 0 < remainingTtl session nowMs then r.setEx session else r.del session.sessionId

end Redis

theorem Redis.get_saveSession_self (r : Redis) (session : Sm2KexSessionData) (nowMs : UInt64) :
    (r.saveSession session nowMs).get session.sessionId = some session ∨
      (r.saveSession session nowMs).get session.sessionId = none := by
  rw [saveSession]
  split
  · exact .inl (by rw [get_setEx, if_pos rfl])
  · exact .inr (by rw [get_del, if_pos rfl])

theorem Redis.get_saveSession_of_ne {session : Sm2KexSessionData} {sessionId : Uuid}
    (h : session.sessionId ≠ sessionId) (r : Redis) (nowMs : UInt64) :
    (r.saveSession session nowMs).get sessionId = r.get sessionId := by
  rw [saveSession]
  split
  · rw [get_setEx, if_neg h]
  · rw [get_del, if_neg h]

/-! ## The calls that change a session -/

inductive ManagerCall where
  | checkAndAddMessage (msgHash : Bytes)
  | updateState (newState : SessionState)
  | completeSession (sharedSecret : Bytes) (confirmation : Option Bytes)
  deriving DecidableEq

/-- Whether an entry of the history is kept at the instant. -/
def unexpired (nowMs : UInt64) (e : Bytes × UInt64) : Bool := nowMs - historyTtlSecs * 1000 < e.2

namespace ManagerCall

/-- The record with the change, or nothing when the message is a replay. -/
def apply (nowMs : UInt64) (session : Sm2KexSessionData) : ManagerCall → Option Sm2KexSessionData
  | checkAndAddMessage msgHash =>
    (ReplayWindow.check maxHistorySize (unexpired nowMs) (·.1 = msgHash) (msgHash, nowMs) session.messageHistory).map
      fun messageHistory => { session with messageHistory, lastActivityMs := nowMs }
  | updateState newState => some { session with state := newState, lastActivityMs := nowMs }
  | completeSession sharedSecret confirmation =>
    some { session with state := .completed, sharedSecret := some sharedSecret, confirmation, lastActivityMs := nowMs }

/-- What a call returns that has saved the record: of a message, that it is new. -/
def saved : ManagerCall → Option Bool
  | checkAndAddMessage _ => some false
  | _ => none

/-- From GET to the change: what the call returns at once, or the record it read and the one to save. -/
def fetch (call : ManagerCall) (sessionId : Uuid) (nowMs : UInt64) (fault : Option String) (r : Redis) :
    Except Error (Option Bool) ⊕ Sm2KexSessionData × Sm2KexSessionData :=
  match fault with
  | some message => .inl (.error (.internal message))
  | none =>
    match r.get sessionId with
    | none => .inl (.error (.keyNotFound s!"session {sessionId.text} not found"))
    | some session =>
      match call.apply nowMs session with
      | none => .inl (.ok (some true))
      | some session' => .inr (session, session')

/-- SETEX or DEL, and what the call returns then. -/
def save (call : ManagerCall) (session : Sm2KexSessionData) (nowMs : UInt64) (fault : Option String) (r : Redis) :
    Except Error (Option Bool) × Redis :=
  match fault with
  | some message => (.error (.internal message), r)
  | none => (.ok call.saved, r.saveSession session nowMs)

end ManagerCall

/-- What a call reads from outside: the clock twice, what becomes of its commands, and whether
Redis has dropped the record before. -/
structure ManagerEnv where
  expired : Bool
  getFault : Option String
  nowMs : UInt64
  saveMs : UInt64
  saveFault : Option String
  deriving DecidableEq

/-- One call after another, each from its GET to its SETEX. -/
def managerCalls : Machine Redis (Uuid × ManagerCall × ManagerEnv) (Except Error (Option Bool)) := fun r i =>
  let (sessionId, call, env) := i
  let r := if env.expired then r.del sessionId else r
  match call.fetch sessionId env.nowMs env.getFault r with
  | .inl answer => (answer, r)
  | .inr (_, session) => call.save session env.saveMs env.saveFault r

/-- The answer that a message is new. -/
def isNew : Except Error (Option Bool) → Bool
  | .ok (some false) => true
  | _ => false

namespace ManagerCall

theorem sessionId_apply {call : ManagerCall} {nowMs : UInt64} {session session' : Sm2KexSessionData}
    (h : call.apply nowMs session = some session') : session'.sessionId = session.sessionId := by
  cases call with
  | checkAndAddMessage msgHash =>
    obtain ⟨messageHistory, -, rfl⟩ := Option.map_eq_some_iff.1 h
    rfl
  | updateState => cases h; rfl
  | completeSession => cases h; rfl

/-- An entry of the history stays while it lives, with one later entry for a message that is new. -/
theorem holds_apply {call : ManagerCall} {nowMs : UInt64} {session session' : Sm2KexSessionData} {e : Bytes × UInt64}
    {n : ℕ} (h : call.apply nowMs session = some session') (hholds : ReplayWindow.Holds e n session.messageHistory)
    (hlive : unexpired nowMs e = true) (hfew : (n + if isNew (.ok call.saved) then 1 else 0) < maxHistorySize) :
    ReplayWindow.Holds e (n + if isNew (.ok call.saved) then 1 else 0) session'.messageHistory := by
  cases call with
  | checkAndAddMessage msgHash =>
    obtain ⟨messageHistory, hcheck, rfl⟩ := Option.map_eq_some_iff.1 h
    exact hholds.check hlive hfew hcheck
  | updateState => cases h; exact hholds
  | completeSession => cases h; exact hholds

/-- A message that is new is the latest entry. -/
theorem holds_of_apply {msgHash : Bytes} {nowMs : UInt64} {session session' : Sm2KexSessionData}
    (h : (checkAndAddMessage msgHash).apply nowMs session = some session') :
    ReplayWindow.Holds (msgHash, nowMs) 0 session'.messageHistory := by
  obtain ⟨messageHistory, hcheck, rfl⟩ := Option.map_eq_some_iff.1 h
  exact ReplayWindow.holds_of_check hcheck (by decide)

/-- An entry of the history stays while it lives, where the history has room. -/
theorem mem_apply {call : ManagerCall} {nowMs : UInt64} {session session' : Sm2KexSessionData} {e : Bytes × UInt64}
    (h : call.apply nowMs session = some session') (hmem : e ∈ session.messageHistory)
    (hlive : unexpired nowMs e = true)
    (hroom : ∀ msgHash, call = checkAndAddMessage msgHash →
      (session.messageHistory.filter (unexpired nowMs)).length < maxHistorySize) : e ∈ session'.messageHistory := by
  cases call with
  | checkAndAddMessage msgHash =>
    obtain ⟨messageHistory, hcheck, rfl⟩ := Option.map_eq_some_iff.1 h
    show e ∈ messageHistory
    rw [ReplayWindow.check_of_length_lt (hroom msgHash rfl) hcheck]
    exact List.mem_append_left _ (List.mem_filter.2 ⟨hmem, hlive⟩)
  | updateState => cases h; exact hmem
  | completeSession => cases h; exact hmem

/-- A message in the history is a replay while its entry lives. -/
theorem apply_eq_none {msgHash : Bytes} {nowMs t : UInt64} {session : Sm2KexSessionData}
    (hmem : (msgHash, t) ∈ session.messageHistory) (hlive : unexpired nowMs (msgHash, t) = true) :
    (checkAndAddMessage msgHash).apply nowMs session = none := by
  rw [apply, ReplayWindow.check_eq_none hmem hlive (by simp)]
  rfl

/-- A GET finds the record from which the call makes the one to save. -/
theorem fetch_eq_inr {call : ManagerCall} {sessionId : Uuid} {nowMs : UInt64} {fault : Option String} {r : Redis}
    {session session' : Sm2KexSessionData} (h : call.fetch sessionId nowMs fault r = .inr (session, session')) :
    r.get sessionId = some session ∧ call.apply nowMs session = some session' := by
  cases fault with
  | some message => cases h
  | none =>
    rw [fetch] at h
    split at h
    · cases h
    · rename_i read hread
      split at h
      · cases h
      · rename_i next hnext
        cases h
        exact ⟨hread, hnext⟩

/-- A call that returns at once does not take a message for a new one. -/
theorem fetch_eq_inl {call : ManagerCall} {sessionId : Uuid} {nowMs : UInt64} {fault : Option String} {r : Redis}
    {answer : Except Error (Option Bool)} (h : call.fetch sessionId nowMs fault r = .inl answer) :
    isNew answer = false := by
  cases fault with
  | some message => cases h; rfl
  | none =>
    rw [fetch] at h
    split at h
    · cases h; rfl
    · split at h
      · cases h; rfl
      · cases h

/-- A call for which a GET finds a record that has the message reports a replay. -/
theorem fetch_replay {msgHash : Bytes} {t : UInt64} {sessionId : Uuid} {nowMs : UInt64} {r : Redis}
    {session : Sm2KexSessionData} (hget : r.get sessionId = some session)
    (hmem : (msgHash, t) ∈ session.messageHistory) (hlive : unexpired nowMs (msgHash, t) = true) :
    (checkAndAddMessage msgHash).fetch sessionId nowMs none r = .inl (.ok (some true)) := by
  simp only [fetch, hget, apply_eq_none hmem hlive]

end ManagerCall

/-- A call saves the record it makes of the one it reads, or leaves Redis alone and does not take
a message for a new one. -/
theorem managerCalls_cases (r : Redis) (i : Uuid × ManagerCall × ManagerEnv) :
    (isNew (managerCalls r i).1 = false ∧ (managerCalls r i).2 = if i.2.2.expired then r.del i.1 else r) ∨
      ∃ session session', (if i.2.2.expired then r.del i.1 else r).get i.1 = some session ∧
        i.2.1.apply i.2.2.nowMs session = some session' ∧ managerCalls r i =
          (.ok i.2.1.saved, (if i.2.2.expired then r.del i.1 else r).saveSession session' i.2.2.saveMs) := by
  obtain ⟨sessionId, call, env⟩ := i
  simp only [managerCalls]
  generalize (if env.expired then r.del sessionId else r) = r₀
  cases hfetch : call.fetch sessionId env.nowMs env.getFault r₀ with
  | inl answer => exact .inl ⟨ManagerCall.fetch_eq_inl hfetch, rfl⟩
  | inr p =>
    obtain ⟨session, session'⟩ := p
    obtain ⟨hget, happly⟩ := ManagerCall.fetch_eq_inr hfetch
    cases hfault : env.saveFault with
    | some message => exact .inl ⟨rfl, rfl⟩
    | none => exact .inr ⟨session, session', hget, happly, rfl⟩

/-! ## Instances at once -/

/-- How far a call has come: with the record it read, the clock it read then, and the record to save. -/
inductive ManagerPhase where
  | called (sessionId : Uuid) (call : ManagerCall)
  | fetched (sessionId : Uuid) (call : ManagerCall) (nowMs : UInt64) (read next : Sm2KexSessionData)

/-- Redis and the calls of all instances that are under way. -/
structure ManagerRun where
  redis : Redis
  calls : ℕ → Option ManagerPhase

/-- A call starts, reads or saves, or Redis drops a record. -/
inductive ManagerInput where
  | call (n : ℕ) (sessionId : Uuid) (call : ManagerCall)
  | fetch (n : ℕ) (nowMs : UInt64) (fault : Option String)
  | save (n : ℕ) (saveMs : UInt64) (fault : Option String)
  | expire (sessionId : Uuid)
  deriving DecidableEq

/-- A command of a call, with the clock the call has read and what it returns, if it does. -/
structure ManagerEvent where
  sessionId : Uuid
  call : ManagerCall
  nowMs : UInt64
  answer : Option (Except Error (Option Bool))
  deriving DecidableEq

namespace ManagerRun

def setCall (n : ℕ) (phase : Option ManagerPhase) (s : ManagerRun) : ManagerRun :=
  { s with calls := Function.update s.calls n phase }

/-- The steps of any number of calls of any number of instances. -/
def step : Machine ManagerRun ManagerInput (Option ManagerEvent) := fun s i =>
  match i with
  | .call n sessionId call =>
    match s.calls n with
    | some _ => (none, s)
    | none => (none, s.setCall n (some (.called sessionId call)))
  | .fetch n nowMs fault =>
    match s.calls n with
    | some (.called sessionId call) =>
      match call.fetch sessionId nowMs fault s.redis with
      | .inl answer => (some ⟨sessionId, call, nowMs, some answer⟩, s.setCall n none)
      | .inr (read, next) =>
        (some ⟨sessionId, call, nowMs, none⟩, s.setCall n (some (.fetched sessionId call nowMs read next)))
    | _ => (none, s)
  | .save n saveMs fault =>
    match s.calls n with
    | some (.fetched sessionId call nowMs _ next) =>
      let (answer, redis) := call.save next saveMs fault s.redis
      (some ⟨sessionId, call, nowMs, some answer⟩, ({ s with redis } : ManagerRun).setCall n none)
    | _ => (none, s)
  | .expire sessionId => (none, { s with redis := s.redis.del sessionId })

end ManagerRun

def sampleId : Uuid := 1

def sampleMs : UInt64 := 1750000000000

/-- A session in which nothing has been received. -/
def sampleSession : Sm2KexSessionData :=
  ⟨sampleId, 2, [], false, .init, 0, sampleMs, sampleMs, [], none, none⟩

def sampleRedis : Redis := Redis.empty.setEx sampleSession

end GmKms.Keystore
