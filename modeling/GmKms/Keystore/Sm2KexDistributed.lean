import GmKms.Keystore.Sm2KexManager
/-!
# Replay checks of many instances

A call reads a record and writes it back later, so that what another call has written in
between is lost. This module says what holds as long as every call writes over what it read.
-/

namespace GmKms.Keystore

open Lib

/-- The event reports the message as new. -/
def ManagerEvent.reports (msgHash : Bytes) (ev : ManagerEvent) : Bool :=
  ev.call = .checkAndAddMessage msgHash ∧ ev.answer.any isNew

namespace ManagerRun

abbrev Log := History ManagerInput (Option ManagerEvent)

section

variable (sessionId : Uuid) (msgHash : Bytes)

/-- A report, with its time, until a call on the session reads a clock by which it has expired. -/
def afterEvent (t : Option UInt64) : Option ManagerEvent → Option UInt64
  | none => t
  | some ev =>
    if ev.sessionId ≠ sessionId then t
    else if ev.reports msgHash then some ev.nowMs
    else t.filter fun t => unexpired ev.nowMs (msgHash, t)

/-- The time at which the message has been reported as new, while that has not expired. -/
def reportedAt (h : Log) : Option UInt64 := h.foldl (fun t e => afterEvent sessionId msgHash t e.2) none

end

/-- No message is reported as new again before the earlier report has expired. -/
def ReportsOnce (h : Log) : Prop :=
  ∀ before e after ev msgHash, h = before ++ e :: after → e.2 = some ev → ev.reports msgHash →
    ∀ t, reportedAt ev.sessionId msgHash before = some t → unexpired ev.nowMs (msgHash, t) = false

/-- Every message that has been reported as new is in the record of its session until it expires. -/
def KeepsReported (h : Log) (s : ManagerRun) : Prop :=
  ∀ sessionId msgHash t, reportedAt sessionId msgHash h = some t →
    ∀ session, s.redis.get sessionId = some session → (msgHash, t) ∈ session.messageHistory

/-- A call that saves a record writes over the history it read, and a message that it adds finds
room there. -/
def InOrder (s : ManagerRun) : ManagerInput → Prop
  | .save n _ none =>
    match s.calls n with
    | some (.fetched sessionId call nowMs read _) =>
      (∃ session, s.redis.get sessionId = some session ∧ session.messageHistory = read.messageHistory) ∧
        ∀ msgHash, call = .checkAndAddMessage msgHash →
          (read.messageHistory.filter (unexpired nowMs)).length < maxHistorySize
    | _ => True
  | _ => True

/-- A call that is about to save has made the record from the one it read. -/
def Prepared (s : ManagerRun) : Prop :=
  ∀ n sessionId call nowMs read next, s.calls n = some (.fetched sessionId call nowMs read next) →
    call.apply nowMs read = some next ∧ read.sessionId = sessionId

variable {s : ManagerRun} {h : Log}

theorem reportedAt_append (sessionId : Uuid) (msgHash : Bytes) (h : Log) (e : ManagerInput × Option ManagerEvent) :
    reportedAt sessionId msgHash (h ++ [e]) = afterEvent sessionId msgHash (reportedAt sessionId msgHash h) e.2 := by
  rw [reportedAt, List.foldl_append]
  rfl

theorem ReportsOnce.append (hh : ReportsOnce h) {e : ManagerInput × Option ManagerEvent}
    (he : ∀ ev msgHash, e.2 = some ev → ev.reports msgHash → ∀ t, reportedAt ev.sessionId msgHash h = some t →
      unexpired ev.nowMs (msgHash, t) = false) : ReportsOnce (h ++ [e]) := by
  intro before e' after ev msgHash hsplit
  rcases List.eq_nil_or_concat after with rfl | ⟨after, e'', rfl⟩
  · obtain ⟨rfl, heq⟩ := List.append_inj' hsplit rfl
    cases heq
    exact he ev msgHash
  · have hsplit' : h ++ [e] = (before ++ e' :: after) ++ [e''] := by simpa using hsplit
    obtain ⟨rfl, -⟩ := List.append_inj' hsplit' rfl
    exact hh before e' after ev msgHash rfl

/-- What is reported after an event has been reported before and lives on, or is what the event reports. -/
theorem afterEvent_eq_some {sessionId : Uuid} {msgHash : Bytes} {t : Option UInt64} {ev : Option ManagerEvent}
    {t' : UInt64} (h : afterEvent sessionId msgHash t ev = some t') :
    (t = some t' ∧ ∀ e, ev = some e → e.sessionId = sessionId → unexpired e.nowMs (msgHash, t') = true) ∨
      ∃ e, ev = some e ∧ e.sessionId = sessionId ∧ e.reports msgHash = true ∧ e.nowMs = t' := by
  cases ev with
  | none => exact .inl ⟨h, by simp⟩
  | some ev =>
    rw [afterEvent] at h
    split at h
    · rename_i hid
      exact .inl ⟨h, fun e he hid' => absurd (Option.some.inj he ▸ hid') hid⟩
    · rename_i hid
      split at h
      · rename_i hreports
        exact .inr ⟨ev, rfl, not_not.1 hid, hreports, Option.some.inj h⟩
      · obtain ⟨ht, hlive⟩ := Option.filter_eq_some_iff.1 h
        exact .inl ⟨ht, fun e he _ => Option.some.inj he ▸ hlive⟩

/-! ## Steps -/

/-- An event that reports nothing new leaves the reports as they are or ends some. -/
theorem ReportsOnce.silent (hh : ReportsOnce h) {i : ManagerInput} {ev : Option ManagerEvent}
    (hsilent : ∀ e, ev = some e → e.answer.any isNew = false) : ReportsOnce (h ++ [(i, ev)]) := by
  refine hh.append fun e msgHash he hreports => ?_
  have hnew : e.answer.any isNew = true := (of_decide_eq_true hreports).2
  rw [hsilent e he] at hnew
  cases hnew

theorem KeepsReported.silent (hk : KeepsReported h s) {i : ManagerInput} {ev : Option ManagerEvent} {s' : ManagerRun}
    (hsilent : ∀ e, ev = some e → e.answer.any isNew = false)
    (hredis : ∀ sessionId session, s'.redis.get sessionId = some session → s.redis.get sessionId = some session) :
    KeepsReported (h ++ [(i, ev)]) s' := by
  intro sessionId msgHash t ht session hsession
  rw [reportedAt_append] at ht
  rcases afterEvent_eq_some ht with ⟨ht, -⟩ | ⟨e, he, -, hreports, -⟩
  · exact hk sessionId msgHash t ht session (hredis sessionId session hsession)
  · have hnew : e.answer.any isNew = true := (of_decide_eq_true hreports).2
    rw [hsilent e he] at hnew
    cases hnew

theorem Prepared.setCall (hp : Prepared s) {n : ℕ} {phase : Option ManagerPhase} {redis : Redis}
    (hphase : ∀ sessionId call nowMs read next, phase = some (.fetched sessionId call nowMs read next) →
      call.apply nowMs read = some next ∧ read.sessionId = sessionId) :
    Prepared (({ s with redis } : ManagerRun).setCall n phase) := by
  intro m sessionId call nowMs read next hm
  by_cases heq : m = n
  · subst heq
    simp only [ManagerRun.setCall, Function.update_self] at hm
    exact hphase sessionId call nowMs read next hm
  · simp only [ManagerRun.setCall, Function.update_of_ne heq] at hm
    exact hp m sessionId call nowMs read next hm

/-- A save over the history that the call read keeps what has been reported, and reports nothing
that has been reported before. -/
theorem reports_save (hh : ReportsOnce h) (hk : KeepsReported h s) {i : ManagerInput} {sessionId : Uuid}
    {call : ManagerCall} {nowMs saveMs : UInt64} {read next session : Sm2KexSessionData} {s' : ManagerRun}
    (happly : call.apply nowMs read = some next) (hread : read.sessionId = sessionId)
    (hsession : s.redis.get sessionId = some session) (hsame : session.messageHistory = read.messageHistory)
    (hroom : ∀ msgHash, call = .checkAndAddMessage msgHash →
      (read.messageHistory.filter (unexpired nowMs)).length < maxHistorySize)
    (hs' : s'.redis = s.redis.saveSession next saveMs) :
    ReportsOnce (h ++ [(i, some ⟨sessionId, call, nowMs, some (.ok call.saved)⟩)]) ∧
      KeepsReported (h ++ [(i, some ⟨sessionId, call, nowMs, some (.ok call.saved)⟩)]) s' := by
  constructor
  · refine hh.append fun ev msgHash hev hreports t ht => ?_
    cases hev
    obtain rfl : call = .checkAndAddMessage msgHash := (of_decide_eq_true hreports).1
    have hmem := hk sessionId msgHash t ht session hsession
    rw [hsame] at hmem
    by_contra hlive
    rw [ManagerCall.apply_eq_none hmem (by simpa using hlive)] at happly
    cases happly
  · intro sessionId' msgHash t ht session' hsession'
    have hid : next.sessionId = sessionId := (ManagerCall.sessionId_apply happly).trans hread
    rw [reportedAt_append] at ht
    rw [hs'] at hsession'
    by_cases hne : sessionId' = sessionId
    · subst hne
      obtain rfl : session' = next := by
        rw [← hid] at hsession'
        rcases s.redis.get_saveSession_self next saveMs with hget | hget
        · rw [hget, Option.some.injEq] at hsession'
          exact hsession'.symm
        · rw [hget] at hsession'
          cases hsession'
      rcases afterEvent_eq_some ht with ⟨ht, hlives⟩ | ⟨e, he, -, hreports, rfl⟩
      · have hmem := hk sessionId' msgHash t ht session hsession
        rw [hsame] at hmem
        exact ManagerCall.mem_apply happly hmem (hlives _ rfl rfl) hroom
      · cases he
        obtain rfl : call = .checkAndAddMessage msgHash := (of_decide_eq_true hreports).1
        exact (ManagerCall.holds_of_apply happly).mem
    · rw [Redis.get_saveSession_of_ne (fun heq => hne (heq.symm.trans hid))] at hsession'
      rcases afterEvent_eq_some ht with ⟨ht, -⟩ | ⟨e, he, hsame', -, -⟩
      · exact hk sessionId' msgHash t ht session' hsession'
      · cases he
        exact absurd hsame'.symm hne

/-- What holds in every state of a run in order. -/
def Sound (h : Log) (s : ManagerRun) : Prop := (ReportsOnce h ∧ KeepsReported h s) ∧ Prepared s

theorem sound_step {i : ManagerInput} (hsound : Sound h s) (hin : s.InOrder i) :
    Sound (h ++ [(i, (step s i).1)]) (step s i).2 := by
  obtain ⟨⟨hh, hk⟩, hp⟩ := hsound
  have hquiet : Sound (h ++ [(i, none)]) s :=
    ⟨⟨hh.silent (by simp), hk.silent (by simp) fun _ _ hget => hget⟩, hp⟩
  cases i with
  | call n sessionId call =>
    cases hn : s.calls n with
    | some phase => simpa only [step, hn] using hquiet
    | none =>
      simp only [step, hn]
      exact ⟨⟨hh.silent (by simp), hk.silent (by simp) fun _ _ hget => hget⟩, hp.setCall (by simp)⟩
  | fetch n nowMs fault =>
    cases hn : s.calls n with
    | none => simpa only [step, hn] using hquiet
    | some phase =>
      cases phase with
      | fetched => simpa only [step, hn] using hquiet
      | called sessionId call =>
        cases hfetch : call.fetch sessionId nowMs fault s.redis with
        | inl answer =>
          have hold := ManagerCall.fetch_eq_inl hfetch
          simp only [step, hn, hfetch]
          exact ⟨⟨hh.silent (by simpa using hold), hk.silent (by simpa using hold) fun _ _ hget => hget⟩,
            hp.setCall (by simp)⟩
        | inr p =>
          obtain ⟨read, next⟩ := p
          obtain ⟨hget, happly⟩ := ManagerCall.fetch_eq_inr hfetch
          simp only [step, hn, hfetch]
          refine ⟨⟨hh.silent (by simp), hk.silent (by simp) fun _ _ hget => hget⟩, hp.setCall ?_⟩
          rintro _ _ _ _ _ ⟨⟩
          exact ⟨happly, Redis.sessionId_of_get hget⟩
  | save n saveMs fault =>
    cases hn : s.calls n with
    | none => simpa only [step, hn] using hquiet
    | some phase =>
      cases phase with
      | called => simpa only [step, hn] using hquiet
      | fetched sessionId call nowMs read next =>
        cases fault with
        | some message =>
          simp only [step, hn, ManagerCall.save]
          exact ⟨⟨hh.silent (by simp [isNew]), hk.silent (by simp [isNew]) fun _ _ hget => hget⟩,
            hp.setCall (by simp)⟩
        | none =>
          obtain ⟨happly, hread⟩ := hp n sessionId call nowMs read next hn
          simp only [InOrder, hn] at hin
          obtain ⟨⟨session, hsession, hsame⟩, hroom⟩ := hin
          simp only [step, hn, ManagerCall.save]
          exact ⟨reports_save hh hk happly hread hsession hsame hroom rfl, hp.setCall (by simp)⟩
  | expire sessionId =>
    refine ⟨⟨hh.silent (by simp [step]), hk.silent (by simp [step]) fun id session hget => ?_⟩, hp⟩
    rw [step, Redis.get_del] at hget
    split at hget
    · cases hget
    · exact hget

/-- Redis with calls yet to come. -/
def start (redis : Redis) : ManagerRun := ⟨redis, fun _ => none⟩

theorem sound_start (redis : Redis) : Sound [] (start redis) := by
  refine ⟨⟨?_, ?_⟩, ?_⟩
  · intro before e after ev msgHash hsplit
    simp at hsplit
  · intro sessionId msgHash t ht
    cases ht
  · intro n sessionId call nowMs read next hn
    cases hn

/-- In a run in which every call saves over the history it read and no message is pushed out, no
message is reported as new twice and none that has been reported is lost, before it expires. -/
theorem reportsOnce_keepsReported (redis : Redis) (inputs : List ManagerInput)
    (hin : step.Along (fun _ s i => s.InOrder i) [] (start redis) inputs) :
    step.Throughout (fun h s => ReportsOnce h ∧ KeepsReported h s) [] (start redis) inputs := by
  have hsound : step.Throughout Sound [] (start redis) inputs :=
    hin.throughout (fun _ _ _ hsound hi => sound_step hsound hi) (sound_start redis)
  exact hsound.mono fun _ _ h => h.1

/-! ## Saves that overtake each other -/

instance (s : ManagerRun) (i : ManagerInput) : Decidable (s.InOrder i) :=
  match i with
  | .save n _ none =>
    match hn : s.calls n with
    | some (.fetched sessionId call nowMs read _) =>
      decidable_of_iff ((s.redis.get sessionId).map (·.messageHistory) = some read.messageHistory ∧
          ((call.saved = some false) → (read.messageHistory.filter (unexpired nowMs)).length < maxHistorySize)) (by
        rw [Option.map_eq_some_iff]
        cases call <;> simp [InOrder, hn, ManagerCall.saved])
    | some (.called _ _) => isTrue (by simp [InOrder, hn])
    | none => isTrue (by simp [InOrder, hn])
  | .save _ _ (some _) => isTrue trivial
  | .call _ _ _ => isTrue trivial
  | .fetch _ _ _ => isTrue trivial
  | .expire _ => isTrue trivial

/-- Two instances have the same message, which one of them saves before the other reads; a
third saves another message over what a change of the state has left. -/
def presentedAgain : List ManagerInput :=
  [.call 0 sampleId (.checkAndAddMessage [7]), .call 1 sampleId (.checkAndAddMessage [7]),
    .call 2 sampleId (.checkAndAddMessage [8]), .call 3 sampleId (.updateState .completed),
    .fetch 0 sampleMs none, .save 0 sampleMs none, .fetch 1 sampleMs none, .fetch 2 sampleMs none,
    .fetch 3 sampleMs none, .save 3 sampleMs none, .save 2 sampleMs none]

theorem reports_presentedAgain :
    step.Throughout (fun h s => ReportsOnce h ∧ KeepsReported h s) [] (start sampleRedis) presentedAgain :=
  reportsOnce_keepsReported sampleRedis presentedAgain (by decide +kernel)

/-- The event at a place of the log, against the log before. -/
theorem ReportsOnce.getElem? (hh : ReportsOnce h) {n : ℕ} {i : ManagerInput} (ev : ManagerEvent) (msgHash : Bytes)
    {t : UInt64} (hn : h[n]? = some (i, some ev)) (hreports : ev.reports msgHash)
    (ht : reportedAt ev.sessionId msgHash (h.take n) = some t) : unexpired ev.nowMs (msgHash, t) = false := by
  obtain ⟨hlt, hget⟩ := List.getElem?_eq_some_iff.1 hn
  have hsplit : h = h.take n ++ (i, some ev) :: h.drop (n + 1) := by
    rw [← hget, List.cons_getElem_drop_succ, List.take_append_drop]
  exact hh _ _ _ ev msgHash hsplit rfl hreports t ht

/-- A call that no other one comes between. -/
def alone (msgHash : Bytes) (n : ℕ) : List ManagerInput :=
  [.call n sampleId (.checkAndAddMessage msgHash), .fetch n sampleMs none, .save n sampleMs none]

/-- Two instances that have read the record. -/
def overtaken : List ManagerInput :=
  [.call 0 sampleId (.checkAndAddMessage [7]), .call 1 sampleId (.checkAndAddMessage [7]),
    .fetch 0 sampleMs none, .fetch 1 sampleMs none, .save 0 sampleMs none, .save 1 sampleMs none]

/-- A message, ten others and the message again. -/
def flooded : List ManagerInput :=
  [[0], [1], [2], [3], [4], [5], [6], [7], [8], [9], [10], [0]].zipIdx.flatMap fun m => alone m.1 m.2

/-- Both instances report the message as new, and so does an instance alone after ten others. -/
theorem reports_twice :
    ¬step.Throughout (fun h s => ReportsOnce h ∧ KeepsReported h s) [] (start sampleRedis) overtaken ∧
      ¬step.Throughout (fun h s => ReportsOnce h ∧ KeepsReported h s) [] (start sampleRedis) flooded := by
  constructor
  · intro hreports
    have hlive := hreports.final.1.getElem? ⟨sampleId, .checkAndAddMessage [7], sampleMs, some (.ok (some false))⟩ [7]
      (n := 5) (i := .save 1 sampleMs none) (t := sampleMs) (by decide +kernel) (by decide) (by decide +kernel)
    revert hlive
    decide
  · intro hreports
    have hlive := hreports.final.1.getElem? ⟨sampleId, .checkAndAddMessage [0], sampleMs, some (.ok (some false))⟩ [0]
      (n := 35) (i := .save 11 sampleMs none) (t := sampleMs) (by decide +kernel) (by decide) (by decide +kernel)
    revert hlive
    decide

end ManagerRun

end GmKms.Keystore
