import GmKms.Keystore.Sm2KexManager
import GmKms.Keystore.Sm2KexSession
import GmKms.Lib.Sha256
/-!
# Replays of SM2-KEX messages

Both histories are windows of ten entries. A message is rejected as a replay as long as
fewer than ten others have been accepted since, and its entry has not expired.
-/

namespace GmKms.Keystore

open Lib Sm2KexMessage

/-! ## Sessions in memory -/

namespace KexSessions

abbrev Event := ProcessCall × Except Error (Except Error (Option Sm2KexMessage))

/-- Instants never go back. -/
def ReadsInOrder (calls : List ProcessCall) : Prop :=
  (calls.flatMap fun c => [c.revocationAt, c.elapsedAt, c.now]).Pairwise (· ≤ ·)

/-- The number of messages that the session accepts. -/
def acceptedIn (sessionId : Uuid) (h : List Event) : ℕ :=
  h.countP fun e => e.1.sessionId = sessionId ∧ e.2.isOk

section

variable {K P : Type}

/-- The call finds the session within its lifetime. -/
def WithinLifetime (s : KexSessions K) (call : ProcessCall) : Prop :=
  ∀ entry, s.sm2KexSessions[call.sessionId]? = some entry → call.elapsedAt - entry.createdAt ≤ sm2KexSessionTimeout

/-- In a run from the state, a message whose bytes its session has accepted before is rejected
as a replay, where `near` says so of the two calls and of those between. -/
def RejectsReplays (near : Event → List Event → Event → Prop) (s : KexSessions K) (h : List Event) : Prop :=
  ∀ before e between e' after, h = before ++ e :: (between ++ e' :: after) → e.1.sessionId = e'.1.sessionId →
    e.1.msg.serialize = e'.1.msg.serialize → e.2.isOk → s.WithinLifetime e'.1 → near e between e' →
      e'.2 = .error replayError

/-- Less than 60 seconds and fewer than ten accepted messages lie between the calls. -/
def Recent (e : Event) (between : List Event) (e' : Event) : Prop :=
  (e'.1.now - e.1.now) / 10 ^ 9 < messageHistoryTtlSecs ∧
    acceptedIn e.1.sessionId between < maxMessageHistorySize

theorem ReadsInOrder.le {before after : List ProcessCall} {c c' : ProcessCall}
    (h : ReadsInOrder (before ++ c' :: after)) (hc : c ∈ before) :
    c.revocationAt ≤ c'.revocationAt ∧ c.elapsedAt ≤ c'.elapsedAt ∧ c.now ≤ c'.now := by
  rw [ReadsInOrder, List.flatMap_append, List.flatMap_cons, List.pairwise_append] at h
  have hle : ∀ x ∈ [c.revocationAt, c.elapsedAt, c.now], ∀ y ∈ [c'.revocationAt, c'.elapsedAt, c'.now], x ≤ y :=
    fun x hx y hy => h.2.2 x (List.mem_flatMap.2 ⟨c, hc, hx⟩) y (List.mem_append_left _ hy)
  exact ⟨hle _ (by simp) _ (by simp), hle _ (by simp) _ (by simp), hle _ (by simp) _ (by simp)⟩

/-- A revocation that is over stays over. -/
theorem isSessionRevoked_mono {s s' : KexSessions K} {sessionId : Uuid} {t t' : Instant}
    (hsame : s'.revokedSessions = s.revokedSessions) (ht : t ≤ t') (h : s.isSessionRevoked sessionId t = false) :
    s'.isSessionRevoked sessionId t' = false := by
  rw [isSessionRevoked] at h ⊢
  rw [hsame]
  split
  · rename_i entry hentry
    rw [hentry] at h
    simp only [decide_eq_false_iff_not, not_lt] at h ⊢
    exact h.trans ht
  · rfl

/-- Calls leave the revocations and the ages of the sessions as they are. -/
theorem final_process (lib : KexLibrary K P) (s : KexSessions K) (calls : List ProcessCall) :
    (Machine.final (processSm2KexMessage lib) s calls).revokedSessions = s.revokedSessions ∧
      ∀ (id : Uuid) entry, (Machine.final (processSm2KexMessage lib) s calls).sm2KexSessions[id]? = some entry →
        ∃ entry', s.sm2KexSessions[id]? = some entry' ∧ entry'.createdAt = entry.createdAt := by
  induction calls generalizing s with
  | nil => exact ⟨rfl, fun _ entry h => ⟨entry, h, rfl⟩⟩
  | cons call calls ih =>
    obtain ⟨hrevoked, hages⟩ := ih (processSm2KexMessage lib s call).2
    refine ⟨hrevoked.trans (revokedSessions_process lib s call), fun id entry h => ?_⟩
    obtain ⟨entry', hentry', hcreated⟩ := hages id entry h
    obtain ⟨entry'', hentry'', hcreated'⟩ := createdAt_process hentry'
    exact ⟨entry'', hentry'', hcreated'.trans hcreated⟩

theorem rejectsReplays_memory (lib : KexLibrary K P) {s : KexSessions K} {calls : List ProcessCall}
    (hinstants : ReadsInOrder calls) :
    RejectsReplays Recent s (Machine.trace (processSm2KexMessage lib) s calls) := by
  intro before e between e' after htrace hsession hbytes haccepted hlifetime hrecent
  obtain ⟨is₁, rest, hcalls, hbefore, he, hrest⟩ := Machine.trace_eq_append_cons _ htrace
  obtain ⟨is₂, is₃, rfl, hbetween, he', -⟩ := Machine.trace_eq_append_cons _ hrest
  obtain ⟨hrevocations, hages⟩ := final_process lib s is₁
  obtain ⟨r, hr⟩ : ∃ r, e.2 = .ok r := by
    cases h : e.2 with
    | error => simp [h, Except.isOk, Except.toBool] at haccepted
    | ok r => exact ⟨r, rfl⟩
  set s₁ := Machine.final (processSm2KexMessage lib) s is₁
  set s₂ := (processSm2KexMessage lib s₁ e.1).2
  have haccepts : processSm2KexMessage lib s₁ e.1 = (.ok r, s₂) := by rw [← hr, ← he]
  obtain ⟨entry, hentry, ⟨hrevoked, hvalid⟩, hremembers⟩ := remembers_of_ok haccepts
  obtain ⟨entry₀, hentry₀, hcreated⟩ := hages _ _ hentry
  -- the last call lies after all others
  have hlast : ∀ c ∈ is₁ ++ e.1 :: is₂,
      c.revocationAt ≤ e'.1.revocationAt ∧ c.elapsedAt ≤ e'.1.elapsedAt ∧ c.now ≤ e'.1.now := by
    intro c hc
    have horder : ReadsInOrder ((is₁ ++ e.1 :: is₂) ++ e'.1 :: is₃) := by
      rwa [List.append_assoc, List.cons_append, ← hcalls]
    exact horder.le hc
  have hage : e'.1.elapsedAt - entry.createdAt ≤ sm2KexSessionTimeout := by
    rw [← hcreated]
    exact hlifetime entry₀ (hsession ▸ hentry₀)
  have hlives : ∀ ev ∈ Machine.trace (processSm2KexMessage lib) s₂ is₂, ev.1.sessionId = e.1.sessionId →
      ev.1.elapsedAt - entry.createdAt ≤ sm2KexSessionTimeout ∧
        unexpired ev.1.now (e.1.now, lib.sha256 e.1.msg.serialize) = true := by
    intro ev hev _
    have hmem : ev.1 ∈ is₂ := by
      rw [← Machine.map_fst_trace (processSm2KexMessage lib) s₂ is₂]
      exact List.mem_map_of_mem hev
    obtain ⟨-, helapsed, hnow⟩ := hlast ev.1 (by simp [hmem])
    refine ⟨(Nat.sub_le_sub_right helapsed _).trans hage, decide_eq_true ?_⟩
    exact lt_of_le_of_lt (Nat.div_le_div_right (Nat.sub_le_sub_right hnow _)) hrecent.1
  have hfew : 0 + (Machine.trace (processSm2KexMessage lib) s₂ is₂).countP
      (fun ev => ev.1.sessionId = e.1.sessionId ∧ ev.2.isOk) < maxMessageHistorySize := by
    rw [hbetween, Nat.zero_add]
    exact hrecent.2
  have hkept := Machine.count_inv (M := processSm2KexMessage lib)
    (I := fun n st => st.Remembers e.1.sessionId entry.createdAt (e.1.now, lib.sha256 e.1.msg.serialize) n)
    (fun n st call h hQ hlimit => by
      simp only [decide_eq_true_eq] at hlimit ⊢
      exact h.process hQ hlimit) hlives hremembers hfew
  set s₃ := Machine.final (processSm2KexMessage lib) s₂ is₂
  have hsame := eq_of_serialize_eq hbytes
  have hadmissible : s₃.Admissible e'.1 := by
    constructor
    · have hrevocations' : s₃.revokedSessions = s₁.revokedSessions :=
        (final_process lib s₂ is₂).1.trans (revokedSessions_process lib s₁ e.1)
      rw [← hsession]
      exact isSessionRevoked_mono hrevocations' (hlast e.1 (by simp)).1 hrevoked
    · rw [← hsame.1, ← hsame.2]
      exact hvalid
  rw [← he']
  rw [hsession, hbytes] at hkept
  refine hkept.rejected hadmissible hage ?_
  exact decide_eq_true hrecent.1

end

end KexSessions

/-! ## Sessions in Redis -/

namespace Redis

abbrev Event := (Uuid × ManagerCall × ManagerEnv) × Except Error (Option Bool)

/-- The number of messages that the session takes for new ones. -/
def addedIn (sessionId : Uuid) (h : List Event) : ℕ := h.countP fun e => e.1.1 = sessionId ∧ isNew e.2

/-- Within the time to live of its entry, a message that its session has taken for a new one before is
reported as a replay by every call that succeeds, where `few` says so of the new messages between. -/
def RejectsReplays (few : ℕ → Prop) (h : List Event) : Prop :=
  ∀ before e between e' after msgHash, h = before ++ e :: (between ++ e' :: after) → e.1.1 = e'.1.1 →
    e.1.2.1 = .checkAndAddMessage msgHash → e'.1.2.1 = .checkAndAddMessage msgHash → isNew e.2 →
      (∀ c ∈ between ++ [e'], c.1.1 = e.1.1 → unexpired c.1.2.2.nowMs (msgHash, e.1.2.2.nowMs)) →
        few (addedIn e.1.1 between) → ∀ b, e'.2 = .ok b → b = some true

/-- If Redis has the session, the session has the message in its history, with at most `n` later ones. -/
def Remembers (r : Redis) (sessionId : Uuid) (e : Bytes × UInt64) (n : ℕ) : Prop :=
  ∀ session, r.get sessionId = some session → ReplayWindow.Holds e n session.messageHistory

variable {r : Redis} {sessionId : Uuid} {e : Bytes × UInt64} {n : ℕ}

theorem Remembers.mono {m : ℕ} (h : r.Remembers sessionId e n) (hnm : n ≤ m) : r.Remembers sessionId e m :=
  fun session hsession => (h session hsession).mono hnm

theorem Remembers.del (h : r.Remembers sessionId e n) (sessionId' : Uuid) :
    (r.del sessionId').Remembers sessionId e n := by
  intro session hsession
  rw [get_del] at hsession
  split at hsession
  · cases hsession
  · exact h session hsession

theorem remembers_saveSession {session : Sm2KexSessionData}
    (hholds : session.sessionId = sessionId → ReplayWindow.Holds e n session.messageHistory)
    (h : session.sessionId ≠ sessionId → r.Remembers sessionId e n) (nowMs : UInt64) :
    (r.saveSession session nowMs).Remembers sessionId e n := by
  intro session' hsession'
  by_cases hid : session.sessionId = sessionId
  · subst hid
    rcases r.get_saveSession_self session nowMs with hsome | hnone
    · rw [hsome, Option.some.injEq] at hsession'
      exact hsession' ▸ hholds rfl
    · rw [hnone] at hsession'
      cases hsession'
  · rw [get_saveSession_of_ne hid] at hsession'
    exact h hid session' hsession'

theorem Remembers.step {i : Uuid × ManagerCall × ManagerEnv} (h : r.Remembers sessionId e n)
    (hlives : i.1 = sessionId → unexpired i.2.2.nowMs e = true)
    (hfew : (n + if i.1 = sessionId ∧ isNew (managerCalls r i).1 then 1 else 0) < maxHistorySize) :
    (managerCalls r i).2.Remembers sessionId e
      (n + if i.1 = sessionId ∧ isNew (managerCalls r i).1 then 1 else 0) := by
  have hstart : (if i.2.2.expired then r.del i.1 else r).Remembers sessionId e n := by
    split
    · exact h.del i.1
    · exact h
  rcases managerCalls_cases r i with ⟨-, hsame⟩ | ⟨session, session', hget, happly, hsaved⟩
  · rw [hsame]
    exact hstart.mono (by omega)
  · have hid : session'.sessionId = i.1 := (ManagerCall.sessionId_apply happly).trans (sessionId_of_get hget)
    rw [hsaved] at hfew ⊢
    refine remembers_saveSession (fun hsame => ?_) (fun _ => hstart.mono (by omega)) _
    have hsession : i.1 = sessionId := hid.symm.trans hsame
    simp only [hsession, true_and] at hfew ⊢
    exact ManagerCall.holds_apply happly (hstart session (hsession ▸ hget)) (hlives hsession) hfew

/-- A message that is taken for a new one is remembered. -/
theorem remembers_of_isNew {i : Uuid × ManagerCall × ManagerEnv} {msgHash : Bytes}
    (hcall : i.2.1 = .checkAndAddMessage msgHash) (hnew : isNew (managerCalls r i).1) :
    (managerCalls r i).2.Remembers i.1 (msgHash, i.2.2.nowMs) 0 := by
  rcases managerCalls_cases r i with ⟨hold, -⟩ | ⟨session, session', hget, happly, hsaved⟩
  · rw [hold] at hnew
    cases hnew
  · have hid : session'.sessionId = i.1 := (ManagerCall.sessionId_apply happly).trans (sessionId_of_get hget)
    rw [hsaved]
    rw [hcall] at happly
    exact remembers_saveSession (fun _ => ManagerCall.holds_of_apply happly) (fun hne => absurd hid hne) _

/-- A message that is remembered is a replay. -/
theorem Remembers.replay {i : Uuid × ManagerCall × ManagerEnv} {msgHash : Bytes} {t : UInt64}
    (h : r.Remembers i.1 (msgHash, t) n) (hcall : i.2.1 = .checkAndAddMessage msgHash)
    (hlive : unexpired i.2.2.nowMs (msgHash, t) = true) {b : Option Bool} (hb : (managerCalls r i).1 = .ok b) :
    b = some true := by
  obtain ⟨sessionId, call, env⟩ := i
  subst hcall
  have hstart : (if env.expired then r.del sessionId else r).Remembers sessionId (msgHash, t) n := by
    split
    · exact h.del sessionId
    · exact h
  simp only [managerCalls] at hb
  generalize (if env.expired then r.del sessionId else r) = r₀ at hb hstart
  cases hfault : env.getFault with
  | some message =>
    rw [hfault] at hb
    cases hb
  | none =>
    cases hget : r₀.get sessionId with
    | none =>
      simp only [hfault, ManagerCall.fetch, hget] at hb
      cases hb
    | some session =>
      rw [hfault, ManagerCall.fetch_replay hget (hstart session hget).mem hlive] at hb
      cases hb
      rfl

theorem rejectsReplays_redis (r : Redis) (calls : List (Uuid × ManagerCall × ManagerEnv)) :
    RejectsReplays (· < maxHistorySize) (managerCalls.trace r calls) := by
  intro before e between e' after msgHash htrace hsession hcall hcall' hnew hlives hfew b hb
  obtain ⟨is₁, rest, hcalls, hbefore, he, hrest⟩ := Machine.trace_eq_append_cons _ htrace
  obtain ⟨is₂, is₃, rfl, hbetween, he', -⟩ := Machine.trace_eq_append_cons _ hrest
  rw [← he] at hnew
  have hremembers := remembers_of_isNew hcall hnew
  set r₂ := (managerCalls (managerCalls.final r is₁) e.1).2
  have hcount : 0 + (managerCalls.trace r₂ is₂).countP (fun ev => ev.1.1 = e.1.1 ∧ isNew ev.2) < maxHistorySize := by
    rw [hbetween, Nat.zero_add]
    exact hfew
  have hkept := Machine.count_inv (M := managerCalls)
    (I := fun n r => r.Remembers e.1.1 (msgHash, e.1.2.2.nowMs) n)
    (Q := fun ev => ev.1.1 = e.1.1 → unexpired ev.1.2.2.nowMs (msgHash, e.1.2.2.nowMs) = true)
    (fun n r i h hQ hlimit => by
      simp only [decide_eq_true_eq] at hlimit ⊢
      exact h.step hQ hlimit)
    (fun ev hev => hlives ev (List.mem_append_left _ (hbetween ▸ hev))) hremembers hcount
  rw [hsession] at hkept
  exact hkept.replay hcall' (hlives e' (by simp) hsession.symm) (he'.trans hb)

end Redis

/-! ## Both managers -/

/-- Messages are rejected as replays while fewer than ten others have been accepted since and
the entries live, in memory and in Redis. -/
theorem rejectsReplays {K P : Type} (lib : KexLibrary K P) {s : KexSessions K} {calls : List ProcessCall}
    (hinstants : KexSessions.ReadsInOrder calls) (r : Redis) (managed : List (Uuid × ManagerCall × ManagerEnv)) :
    KexSessions.RejectsReplays KexSessions.Recent s
        (Machine.trace (KexSessions.processSm2KexMessage lib) s calls) ∧
      Redis.RejectsReplays (· < maxHistorySize) (managerCalls.trace r managed) :=
  ⟨KexSessions.rejectsReplays_memory lib hinstants, Redis.rejectsReplays_redis r managed⟩

/-! ## Ten messages push a message out -/

/-- A library that takes every third message and refuses every second one. -/
def sampleLibrary : KexLibrary Unit Unit where
  sha256 := Sha256.digest
  fromSec1Bytes _ := .ok ()
  processMsg2 session _ _ := (.error "unexpected message", session)
  processMsg3 session _ := (.ok (), session)

def sampleSessions : KexSessions Unit where
  sm2KexSessions := (∅ : HashMap Uuid (Sm2KexSessionEntry Unit)).insert 1 ⟨1, 2, [], (), false, 0, 0, []⟩
  revokedSessions := ∅

def sampleCall (content : UInt8) (t : Instant) : ProcessCall :=
  ⟨1, ⟨3, .replicate 16 0, zeroKey, none, some (.replicate 32 content)⟩, [], t, t, t⟩

def sampleCheck (content : UInt8) : Uuid × ManagerCall × ManagerEnv :=
  (sampleId, .checkAndAddMessage [content], ⟨false, none, sampleMs, sampleMs, none⟩)

theorem rejectsReplays_repeated :
    KexSessions.RejectsReplays KexSessions.Recent sampleSessions (Machine.trace
        (KexSessions.processSm2KexMessage sampleLibrary) sampleSessions [sampleCall 0 0, sampleCall 0 1]) ∧
      Redis.RejectsReplays (· < maxHistorySize) (managerCalls.trace sampleRedis [sampleCheck 0, sampleCheck 0]) :=
  rejectsReplays sampleLibrary (by unfold KexSessions.ReadsInOrder; decide) sampleRedis _

/-- The messages 1 to 10. -/
def others : List UInt8 := [1, 2, 3, 4, 5, 6, 7, 8, 9, 10]

/-- What the law says of the first and the last call of a run. -/
theorem KexSessions.RejectsReplays.last {K P : Type} {lib : KexLibrary K P} {s : KexSessions K} {c c' : ProcessCall}
    {cs : List ProcessCall} (h : RejectsReplays (fun _ _ _ => True) s
      (Machine.trace (processSm2KexMessage lib) s (c :: (cs ++ [c']))))
    (hsession : c.sessionId = c'.sessionId) (hbytes : c.msg.serialize = c'.msg.serialize)
    (haccepted : (processSm2KexMessage lib s c).1.isOk) (hlifetime : s.WithinLifetime c') :
    (processSm2KexMessage lib (Machine.final (processSm2KexMessage lib) s (c :: cs)) c').1.isOk = false := by
  rw [Machine.trace, Machine.trace_append] at h
  have hlast : (processSm2KexMessage lib (Machine.final (processSm2KexMessage lib) s (c :: cs)) c').1 =
      .error replayError := h [] _ _ _ [] rfl hsession hbytes haccepted hlifetime trivial
  rw [hlast]
  rfl

theorem Redis.RejectsReplays.last {r : Redis} {c c' : Uuid × ManagerCall × ManagerEnv}
    {cs : List (Uuid × ManagerCall × ManagerEnv)} {msgHash : Bytes}
    (h : RejectsReplays (fun _ => True) (managerCalls.trace r (c :: (cs ++ [c'])))) (hsession : c.1 = c'.1)
    (hcall : c.2.1 = .checkAndAddMessage msgHash) (hcall' : c'.2.1 = .checkAndAddMessage msgHash)
    (hnew : isNew (managerCalls r c).1)
    (hlives : ∀ d ∈ cs ++ [c'], unexpired d.2.2.nowMs (msgHash, c.2.2.nowMs) = true) :
    isNew (managerCalls (managerCalls.final r (c :: cs)) c').1 = false := by
  rw [Machine.trace, Machine.trace_append] at h
  have hlast := h [] _ _ _ [] msgHash rfl hsession hcall hcall' hnew (fun ev hev _ => ?_) trivial
  · rw [Machine.final]
    cases hanswer : (managerCalls (managerCalls.final (managerCalls r c).2 cs) c').1 with
    | error => rfl
    | ok b =>
      rw [hlast b hanswer]
      rfl
  · refine hlives ev.1 ?_
    rcases List.mem_append.1 hev with hev | hev
    · rw [← Machine.map_fst_trace managerCalls (managerCalls r c).2 cs]
      exact List.mem_append_left _ (List.mem_map_of_mem hev)
    · rw [List.mem_singleton.1 hev]
      simp

/-- After ten other messages, and at the end of the session's lifetime also at once, a repeated
message is accepted. -/
theorem accepts_repeated :
    ¬KexSessions.RejectsReplays (fun _ _ _ => True) sampleSessions
        (Machine.trace (KexSessions.processSm2KexMessage sampleLibrary) sampleSessions
          (sampleCall 0 0 :: (others.map (sampleCall · 0) ++ [sampleCall 0 0]))) ∧
      ¬KexSessions.RejectsReplays (fun _ _ _ => True) sampleSessions
        (Machine.trace (KexSessions.processSm2KexMessage sampleLibrary) sampleSessions
          [sampleCall 0 0, sampleCall 0 (60 * 10 ^ 9)]) ∧
      ¬Redis.RejectsReplays (fun _ => True) (managerCalls.trace sampleRedis
          (sampleCheck 0 :: (others.map sampleCheck ++ [sampleCheck 0]))) := by
  have hlifetime : ∀ t ≤ sm2KexSessionTimeout, sampleSessions.WithinLifetime (sampleCall 0 t) := by
    intro t ht entry hentry
    simp only [sampleSessions, sampleCall, Std.ExtTreeMap.getElem?_insert_self, Option.some.injEq] at hentry
    subst hentry
    exact ht
  refine ⟨fun h => ?_, fun h => ?_, fun h => ?_⟩
  · have hlast := h.last rfl rfl (by decide +kernel) (hlifetime 0 (Nat.zero_le _))
    revert hlast
    decide +kernel
  · rw [← List.nil_append [sampleCall 0 (60 * 10 ^ 9)]] at h
    have hlast := h.last rfl rfl (by decide +kernel) (hlifetime _ le_rfl)
    revert hlast
    decide +kernel
  · have hlast := h.last rfl rfl rfl (by decide +kernel) (by decide)
    revert hlast
    decide +kernel

end GmKms.Keystore
