import GmKms.Core.Error
import GmKms.Keystore.Sm2KexMessage
import GmKms.Lib.Machine
import GmKms.Lib.Window
/-!
# SM2-KEX sessions in memory

The session methods of `SoftwareKeystore`. What a message makes of the key exchange is
computed by the library `gm_crypto`.
-/

namespace GmKms.Keystore

open Lib

/-- A `std::time::Instant`: nanoseconds since some start. -/
abbrev Instant := ℕ

/-- Elliptic curve points and the key exchange. A call returns its error and leaves a session. -/
structure KexLibrary (K P : Type) where
  sha256 (data : Bytes) : Bytes
  fromSec1Bytes (bytes : Bytes) : Except String P
  processMsg2 (session : K) (msg : Sm2KexMessage) (peer : P) : Except String Sm2KexMessage × K
  processMsg3 (session : K) (msg : Sm2KexMessage) : Except String Unit × K

structure Sm2KexSessionEntry (K : Type) where
  sessionId : Uuid
  keyId : Uuid
  userId : Bytes
  session : K
  isInitiator : Bool
  nonce : UInt64
  createdAt : Instant
  messageHistory : List (Instant × Bytes)

structure RevokedSessionEntry where
  revokedAt : Instant
  expiresAt : Instant

/-- The sessions of a keystore and the list of revoked ones. -/
structure KexSessions (K : Type) where
  sm2KexSessions : HashMap Uuid (Sm2KexSessionEntry K)
  revokedSessions : HashMap Uuid RevokedSessionEntry

/-- `SM2_KEX_SESSION_TIMEOUT_SECS`, in nanoseconds. -/
def sm2KexSessionTimeout : ℕ := 60 * 10 ^ 9

def maxMessageHistorySize : ℕ := 10

def messageHistoryTtlSecs : ℕ := 60

/-- `validate_r_pub`. -/
def validateRPub (rPub : List.Vector UInt8 64) : Except Error Unit :=
  if rPub.toList.all (· = 0) then
    .error (.keyExchangeFailed "SM2-KEX invalid R1/R2: ephemeral public key is identity point")
  else if rPub.toList.all (· = rPub.head) then
    .error (.keyExchangeFailed "SM2-KEX invalid R1/R2: ephemeral public key has uniform bytes")
  else .ok ()

/-- A call of `process_sm2_kex_message`, with the instants it reads: for the revocation, for
the age of the session and for the history. -/
structure ProcessCall where
  sessionId : Uuid
  msg : Sm2KexMessage
  peerPublicKey : Bytes
  revocationAt : Instant
  elapsedAt : Instant
  now : Instant

def replayError : Error := .keyExchangeFailed "SM2-KEX replay attack detected: message already processed"

namespace KexSessions

variable {K P : Type}

def isSessionRevoked (s : KexSessions K) (sessionId : Uuid) (now : Instant) : Bool :=
  match s.revokedSessions[sessionId]? with
  | some entry => now < entry.expiresAt
  | none => false

def setEntry (s : KexSessions K) (sessionId : Uuid) (entry : Sm2KexSessionEntry K) : KexSessions K :=
  { s with sm2KexSessions := s.sm2KexSessions.insert sessionId entry }

/-- Whether an entry of the history is kept at the instant. -/
def unexpired (now : Instant) (e : Instant × Bytes) : Bool := (now - e.1) / 10 ^ 9 < messageHistoryTtlSecs

/-- What the key exchange makes of a message that has passed the checks. -/
def respond (lib : KexLibrary K P) (call : ProcessCall) (entry : Sm2KexSessionEntry K) :
    Except Error (Option Sm2KexMessage) × Sm2KexSessionEntry K :=
  match lib.fromSec1Bytes call.peerPublicKey with
  | .error e => (.error (.keyExchangeFailed s!"invalid peer public key: {e}"), entry)
  | .ok peer =>
    if entry.isInitiator then
      match lib.processMsg2 entry.session call.msg peer with
      | (.ok msg3, session) => (.ok (some msg3), { entry with session })
      | (.error e, session) => (.error (.keyExchangeFailed s!"msg2 processing failed: {e}"), { entry with session })
    else
      match lib.processMsg3 entry.session call.msg with
      | (.ok (), session) => (.ok none, { entry with session })
      | (.error e, session) => (.error (.keyExchangeFailed s!"msg3 processing failed: {e}"), { entry with session })

/-- `process_sm2_kex_message`. The outer error is one of the checks up to the history, which
reject the message; the inner result is what follows for a message that has passed them. -/
def processSm2KexMessage (lib : KexLibrary K P) : Machine (KexSessions K) ProcessCall
    (Except Error (Except Error (Option Sm2KexMessage))) := fun s call =>
  let sessionId := call.sessionId
  if s.isSessionRevoked sessionId call.revocationAt then
    (.error (.keyExchangeFailed s!"SM2-KEX session {sessionId.text} has been revoked"), s)
  else
    match s.sm2KexSessions[sessionId]? with
    | none => (.error (.keyNotFound s!"SM2-KEX session {sessionId.text} not found"), s)
    | some entry =>
      if sm2KexSessionTimeout < call.elapsedAt - entry.createdAt then
        (.error (.keyExchangeFailed "SM2-KEX session expired (timeout)"),
          { s with sm2KexSessions := s.sm2KexSessions.erase sessionId })
      else
        match if call.msg.msgType = 1 ∨ call.msg.msgType = 2 then validateRPub call.msg.rPub else .ok () with
        | .error e => (.error e, s)
        | .ok () =>
          let msgHash := lib.sha256 call.msg.serialize
          match ReplayWindow.check maxMessageHistorySize (unexpired call.now) (·.2 = msgHash) (call.now, msgHash)
            entry.messageHistory with
          | none => (.error replayError, s.setEntry sessionId
              { entry with messageHistory := entry.messageHistory.filter (unexpired call.now) })
          | some messageHistory =>
            let (result, entry) := respond lib call { entry with messageHistory, nonce := entry.nonce + 1 }
            (.ok result, s.setEntry sessionId entry)

/-! ## What a call does to a session -/

/-- The session has the message in its history, with at most `n` later ones. -/
def Remembers (s : KexSessions K) (sessionId : Uuid) (createdAt : Instant) (e : Instant × Bytes) (n : ℕ) : Prop :=
  ∃ entry, s.sm2KexSessions[sessionId]? = some entry ∧ entry.createdAt = createdAt ∧
    ReplayWindow.Holds e n entry.messageHistory

variable {lib : KexLibrary K P} {s : KexSessions K} {call : ProcessCall}

@[simp] theorem getElem?_setEntry_self (s : KexSessions K) (sessionId : Uuid) (entry : Sm2KexSessionEntry K) :
    (s.setEntry sessionId entry).sm2KexSessions[sessionId]? = some entry := by
  simp [setEntry]

theorem getElem?_setEntry_of_ne {sessionId sessionId' : Uuid} (h : sessionId ≠ sessionId') (s : KexSessions K)
    (entry : Sm2KexSessionEntry K) :
    (s.setEntry sessionId entry).sm2KexSessions[sessionId']? = s.sm2KexSessions[sessionId']? := by
  rw [setEntry, HashMap.getElem?_insert, if_neg h.symm]

/-- The exchange changes neither the age of a session nor its history. -/
theorem respond_entry (entry : Sm2KexSessionEntry K) : (respond lib call entry).2.createdAt = entry.createdAt ∧
    (respond lib call entry).2.messageHistory = entry.messageHistory := by
  unfold respond
  split
  · exact ⟨rfl, rfl⟩
  · split <;> split <;> exact ⟨rfl, rfl⟩

/-- The message has passed the checks before the history. -/
def Admissible (s : KexSessions K) (call : ProcessCall) : Prop :=
  s.isSessionRevoked call.sessionId call.revocationAt = false ∧
    (call.msg.msgType = 1 ∨ call.msg.msgType = 2 → validateRPub call.msg.rPub = .ok ())

/-- What a call comes to. -/
inductive Outcome (lib : KexLibrary K P) (s : KexSessions K) (call : ProcessCall) :
    Except Error (Except Error (Option Sm2KexMessage)) × KexSessions K → Prop where
  | refused (e : Error) : Outcome lib s call (.error e, s)
  | timeout (e : Error) {entry : Sm2KexSessionEntry K} (hentry : s.sm2KexSessions[call.sessionId]? = some entry)
      (hold : sm2KexSessionTimeout < call.elapsedAt - entry.createdAt) :
      Outcome lib s call (.error e, { s with sm2KexSessions := s.sm2KexSessions.erase call.sessionId })
  | replay {entry : Sm2KexSessionEntry K} (hentry : s.sm2KexSessions[call.sessionId]? = some entry) :
      Outcome lib s call (.error replayError, s.setEntry call.sessionId
        { entry with messageHistory := entry.messageHistory.filter (unexpired call.now) })
  | accepted {entry entry' : Sm2KexSessionEntry K} (r : Except Error (Option Sm2KexMessage))
      (hentry : s.sm2KexSessions[call.sessionId]? = some entry) (hadmissible : s.Admissible call)
      (hcreated : entry'.createdAt = entry.createdAt)
      (hnew : ReplayWindow.check maxMessageHistorySize (unexpired call.now) (·.2 = lib.sha256 call.msg.serialize)
        (call.now, lib.sha256 call.msg.serialize) entry.messageHistory = some entry'.messageHistory) :
      Outcome lib s call (.ok r, s.setEntry call.sessionId entry')

theorem outcome_process (lib : KexLibrary K P) (s : KexSessions K) (call : ProcessCall) :
    Outcome lib s call (processSm2KexMessage lib s call) := by
  rw [processSm2KexMessage]
  simp only
  split
  · exact .refused _
  rename_i hrevoked
  split
  · exact .refused _
  rename_i entry hentry
  split
  · rename_i hold
    exact .timeout _ hentry hold
  split
  · exact .refused _
  rename_i hvalid
  have hadmissible : s.Admissible call := by
    refine ⟨by simpa using hrevoked, fun htype => ?_⟩
    rwa [if_pos htype] at hvalid
  split
  · exact .replay hentry
  rename_i messageHistory hnew
  have hkept :
      (respond lib call { entry with messageHistory := messageHistory, nonce := entry.nonce + 1 }).2.createdAt =
        entry.createdAt ∧ _ := respond_entry _
  exact .accepted _ hentry hadmissible hkept.1 (hnew.trans (congrArg some hkept.2.symm))

/-- Another session is left alone. -/
theorem Outcome.frame {result : Except Error (Except Error (Option Sm2KexMessage)) × KexSessions K}
    (hout : Outcome lib s call result) {sessionId : Uuid} (hid : call.sessionId ≠ sessionId) :
    result.2.sm2KexSessions[sessionId]? = s.sm2KexSessions[sessionId]? := by
  cases hout with
  | refused => rfl
  | timeout => exact (HashMap.getElem?_erase ..).trans (if_neg hid.symm)
  | replay => exact getElem?_setEntry_of_ne hid ..
  | accepted => exact getElem?_setEntry_of_ne hid ..

theorem revokedSessions_process (lib : KexLibrary K P) (s : KexSessions K) (call : ProcessCall) :
    (processSm2KexMessage lib s call).2.revokedSessions = s.revokedSessions := by
  have hout := outcome_process lib s call
  generalize processSm2KexMessage lib s call = result at hout ⊢
  cases hout <;> rfl

theorem createdAt_process {sessionId : Uuid} {entry : Sm2KexSessionEntry K}
    (h : (processSm2KexMessage lib s call).2.sm2KexSessions[sessionId]? = some entry) :
    ∃ entry', s.sm2KexSessions[sessionId]? = some entry' ∧ entry'.createdAt = entry.createdAt := by
  have hout := outcome_process lib s call
  generalize processSm2KexMessage lib s call = result at hout h
  by_cases hid : call.sessionId = sessionId
  · subst hid
    cases hout with
    | refused => exact ⟨entry, h, rfl⟩
    | timeout => simp at h
    | replay hentry =>
      rw [getElem?_setEntry_self, Option.some.injEq] at h
      exact ⟨_, hentry, h ▸ rfl⟩
    | accepted r hentry hadmissible hcreated hnew =>
      rw [getElem?_setEntry_self, Option.some.injEq] at h
      exact ⟨_, hentry, h ▸ hcreated.symm⟩
  · rw [hout.frame hid] at h
    exact ⟨entry, h, rfl⟩

/-- A message that is accepted is remembered. -/
theorem remembers_of_ok {r : Except Error (Option Sm2KexMessage)} {s' : KexSessions K}
    (h : processSm2KexMessage lib s call = (.ok r, s')) : ∃ entry,
      s.sm2KexSessions[call.sessionId]? = some entry ∧ s.Admissible call ∧
        s'.Remembers call.sessionId entry.createdAt (call.now, lib.sha256 call.msg.serialize) 0 := by
  have hout := outcome_process lib s call
  rw [h] at hout
  cases hout with
  | accepted r hentry hadmissible hcreated hnew =>
    exact ⟨_, hentry, hadmissible, _, getElem?_setEntry_self .., hcreated,
      ReplayWindow.holds_of_check hnew (by decide)⟩

/-- A message stays remembered while the session and the entry live, with one later message
for each that the session accepts. -/
theorem Remembers.process {sessionId : Uuid} {createdAt : Instant} {e : Instant × Bytes} {n : ℕ}
    (h : s.Remembers sessionId createdAt e n)
    (hlives : call.sessionId = sessionId → call.elapsedAt - createdAt ≤ sm2KexSessionTimeout ∧
      unexpired call.now e = true)
    (hfew : (n + if call.sessionId = sessionId ∧ (processSm2KexMessage lib s call).1.isOk then 1 else 0) <
      maxMessageHistorySize) : (processSm2KexMessage lib s call).2.Remembers sessionId createdAt e
      (n + if call.sessionId = sessionId ∧ (processSm2KexMessage lib s call).1.isOk then 1 else 0) := by
  obtain ⟨entry, hentry, hcreated, hholds⟩ := h
  have hout := outcome_process lib s call
  generalize processSm2KexMessage lib s call = result at hout hfew ⊢
  by_cases hid : call.sessionId = sessionId
  · subst hid
    obtain ⟨hlifetime, hunexpired⟩ := hlives rfl
    cases hout with
    | refused => exact ⟨entry, hentry, hcreated, hholds.mono (by omega)⟩
    | timeout e hentry' hold =>
      obtain rfl := Option.some.inj (hentry'.symm.trans hentry)
      rw [hcreated] at hold
      exact absurd hlifetime (Nat.not_le.2 hold)
    | replay hentry' =>
      obtain rfl := Option.some.inj (hentry'.symm.trans hentry)
      exact ⟨_, getElem?_setEntry_self .., hcreated, (hholds.filter hunexpired).mono (by omega)⟩
    | accepted r hentry' hadmissible hcreated' hnew =>
      obtain rfl := Option.some.inj (hentry'.symm.trans hentry)
      refine ⟨_, getElem?_setEntry_self .., hcreated'.trans hcreated, ?_⟩
      simp only [Except.isOk, Except.toBool, and_self, if_true] at hfew ⊢
      exact hholds.check hunexpired hfew hnew
  · exact ⟨entry, (hout.frame hid).trans hentry, hcreated, hholds.mono (by omega)⟩

/-- A message that is remembered is rejected. -/
theorem Remembers.rejected {createdAt : Instant} {t : Instant} {n : ℕ}
    (h : s.Remembers call.sessionId createdAt (t, lib.sha256 call.msg.serialize) n) (hadmissible : s.Admissible call)
    (hlives : call.elapsedAt - createdAt ≤ sm2KexSessionTimeout)
    (hunexpired : unexpired call.now (t, lib.sha256 call.msg.serialize) = true) :
    (processSm2KexMessage lib s call).1 = .error replayError := by
  obtain ⟨entry, hentry, rfl, hholds⟩ := h
  obtain ⟨hrevoked, hvalid⟩ := hadmissible
  have hvalid' : (if call.msg.msgType = 1 ∨ call.msg.msgType = 2 then validateRPub call.msg.rPub else .ok ()) =
      .ok () := by
    split
    · rename_i htype
      exact hvalid htype
    · rfl
  have hseen : ReplayWindow.check maxMessageHistorySize (unexpired call.now) (·.2 = lib.sha256 call.msg.serialize)
      (call.now, lib.sha256 call.msg.serialize) entry.messageHistory = none :=
    ReplayWindow.check_eq_none hholds.mem hunexpired (by simp)
  simp only [processSm2KexMessage, hrevoked, hentry, hvalid', hseen, if_neg (Nat.not_lt.2 hlives), Bool.false_eq_true,
    if_false]

end KexSessions

end GmKms.Keystore
