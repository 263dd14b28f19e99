import GmKms.Keystore.Backend
import GmKms.Keystore.Sm2KexSession
import GmKms.Lib.Noninterference
/-!
# The store of SM2-KEX sessions

The session methods of `SoftwareKeystore` as the trait has them, with bytes for messages: a session is created or
accepted for a key of the keystore, then processes messages, and is removed. A removed session is on a list for five
minutes, which is swept when it grows.
-/

namespace GmKms.Keystore

open Lib

/-- The key exchange from its start. The private key of a session is drawn with `seed`. -/
structure KexCreation (K P Pair : Type) extends KexLibrary K P where
  fromPrivateKey (material : Bytes) : Except String Pair
  newInitiator (seed : ℕ) (keyPair : Pair) (userId : Bytes) : Except String K
  generateMsg1 (session : K) : Except String Sm2KexMessage
  newResponder (seed : ℕ) (keyPair : Pair) (userId : Bytes) : Except String K
  processMsg1 (session : K) (msg : Sm2KexMessage) (peer : P) : Except String Sm2KexMessage × K
  /-- The shared secret of `get_result`. -/
  getResult (session : K) : Option Bytes

/-- What a call reads from outside: the id and the draws of a new session, and the clock. -/
structure KexEnv where
  uuid : Uuid
  seed : ℕ
  revocationAt : Instant
  elapsedAt : Instant
  now : Instant

/-- The instants at which the call looks at the clock. -/
def KexEnv.instants (env : KexEnv) : List Instant := [env.revocationAt, env.elapsedAt, env.now]

inductive KexOp where
  | createSm2KexSession (keyId : Uuid) (userId : Bytes)
  | acceptSm2KexSession (keyId : Uuid) (userId msg1 peerPublicKey : Bytes)
  | processSm2KexMessage (sessionId : Uuid) (msg peerPublicKey : Bytes)
  | getSm2KexResult (sessionId : Uuid)
  | removeSm2KexSession (sessionId : Uuid)

@[reducible] def KexOp.Value : KexOp → Type
  | createSm2KexSession .. | acceptSm2KexSession .. => Uuid × Bytes
  | processSm2KexMessage .. => Option Bytes
  | getSm2KexResult _ => Bytes
  | removeSm2KexSession _ => Unit

/-- The keystore with its sessions. -/
structure KexKeystore (K : Type) where
  keystore : Software.SoftwareKeystore
  sessions : KexSessions K

namespace KexSessions

variable {K P Pair : Type} (lib : KexCreation K P Pair)

/-! ## Starting a session

Errors are the texts that the trait's methods wrap. -/

/-- The key pair that a session starts from. -/
def keyPairOf (ks : Software.SoftwareKeystore) (keyId : Uuid) : Except String Pair :=
  match ks.keys[keyId]? with
  | none => .error (Error.keyNotFound keyId.text).text
  | some entry =>
    if entry.keyMeta.spec ≠ .sm2 then
      let spec := entry.keyMeta.spec.debug
      .error s!"invalid key spec: SM2-KEX requires SM2 key, got {spec}"
    else
      match lib.fromPrivateKey entry.material with
      | .error e => .error (Error.keyExchangeFailed s!"invalid SM2 key: {e}").text
      | .ok keyPair => .ok keyPair

/-- The session of the initiator and its first message. -/
def initiate (ks : Software.SoftwareKeystore) (env : KexEnv) (keyId : Uuid) (userId : Bytes) :
    Except String (K × Sm2KexMessage) := do
  let keyPair ← keyPairOf lib ks keyId
  match lib.newInitiator env.seed keyPair userId with
  | .error e => .error (Error.keyExchangeFailed s!"failed to create session: {e}").text
  | .ok session =>
    match lib.generateMsg1 session with
    | .error e => .error (Error.keyExchangeFailed s!"failed to generate msg1: {e}").text
    | .ok msg1 => .ok (session, msg1)

/-- The session of the responder, which has processed the first message, and the second message. -/
def respondFirst (ks : Software.SoftwareKeystore) (env : KexEnv) (keyId : Uuid) (userId : Bytes) (msg1 : Sm2KexMessage)
    (peerPublicKey : Bytes) : Except String (K × Sm2KexMessage) := do
  let keyPair ← keyPairOf lib ks keyId
  match lib.newResponder env.seed keyPair userId with
  | .error e => .error (Error.keyExchangeFailed s!"failed to create session: {e}").text
  | .ok session =>
    match lib.fromSec1Bytes peerPublicKey with
    | .error e => .error (Error.keyExchangeFailed s!"invalid peer public key: {e}").text
    | .ok peer =>
      match validateRPub msg1.rPub with
      | .error e => .error e.text
      | .ok _ =>
        match lib.processMsg1 session msg1 peer with
        | (.error e, _) => .error (Error.keyExchangeFailed s!"failed to process msg1: {e}").text
        | (.ok msg2, session) => .ok (session, msg2)

/-- A started session is stored under the id that was drawn for it. -/
def store (s : KexSessions K) (env : KexEnv) (keyId : Uuid) (userId : Bytes) (isInitiator : Bool)
    (started : Except String (K × Sm2KexMessage)) : Except Error (Uuid × Bytes) × KexSessions K :=
  match started with
  | .error e => (.error (.keyExchangeFailed e), s)
  | .ok (session, msg) =>
    (.ok (env.uuid, msg.serialize), s.setEntry env.uuid
      { sessionId := env.uuid, keyId, userId, session, isInitiator, nonce := 0, createdAt := env.now,
        messageHistory := [] })

/-! ## Results and removal -/

def getSm2KexResult (s : KexSessions K) (sessionId : Uuid) (now : Instant) : Except Error Bytes :=
  let id := sessionId.text
  if s.isSessionRevoked sessionId now then .error (.keyExchangeFailed s!"SM2-KEX session {id} has been revoked")
  else
    match s.sm2KexSessions[sessionId]? with
    | none => .error (.keyNotFound s!"SM2-KEX session {id} not found")
    | some entry =>
      match lib.getResult entry.session with
      | none => .error (.keyExchangeFailed "session not completed yet")
      | some secret => .ok secret

/-- Five minutes, in nanoseconds. -/
def revocationTime : ℕ := 300 * 10 ^ 9

/-- The list of revoked sessions, swept when it is long. -/
def sweep (revoked : HashMap Uuid RevokedSessionEntry) (now : Instant) : HashMap Uuid RevokedSessionEntry :=
  if 100 < revoked.size then revoked.filter fun _ entry => now < entry.expiresAt else revoked

def removeSm2KexSession (s : KexSessions K) (sessionId : Uuid) (now : Instant) : Except Error Unit × KexSessions K :=
  match s.sm2KexSessions[sessionId]? with
  | none =>
    let id := sessionId.text
    (.error (.keyNotFound s!"SM2-KEX session {id} not found"), s)
  | some _ =>
    (.ok (), { sm2KexSessions := s.sm2KexSessions.erase sessionId
               revokedSessions := (sweep s.revokedSessions now).insert sessionId ⟨now, now + revocationTime⟩ })

/-! ## The methods of the trait -/

/-- `map_err(|e| Error::KeyExchangeFailed(e.to_string()))`. -/
def wrap {α : Type} (r : Except Error α) : Except Error α := r.mapError fun e => .keyExchangeFailed e.text

/-- What `process_sm2_kex_message` returns, the message that was rejected or not. -/
def flatten : Except Error (Except Error (Option Sm2KexMessage)) → Except Error (Option Sm2KexMessage)
  | .ok r => r
  | .error e => .error e

def createSession (ks : Software.SoftwareKeystore) (env : KexEnv) (keyId : Uuid) (userId : Bytes) (s : KexSessions K) :
    Except Error (Uuid × Bytes) × KexSessions K :=
  s.store env keyId userId true (initiate lib ks env keyId userId)

def acceptSession (ks : Software.SoftwareKeystore) (env : KexEnv) (keyId : Uuid) (userId msg1 peerPublicKey : Bytes)
    (s : KexSessions K) : Except Error (Uuid × Bytes) × KexSessions K :=
  match Sm2KexMessage.deserialize msg1 1 with
  | .error e => (.error (.internal s!"invalid msg1: {e}"), s)
  | .ok msg1 => s.store env keyId userId false (respondFirst lib ks env keyId userId msg1 peerPublicKey)

def processMessage (env : KexEnv) (sessionId : Uuid) (msg peerPublicKey : Bytes) (s : KexSessions K) :
    Except Error (Option Bytes) × KexSessions K :=
  match Sm2KexMessage.deserialize msg 0 with
  | .error e => (.error (.internal s!"invalid message: {e}"), s)
  | .ok msg =>
    let (r, s) := processSm2KexMessage lib.toKexLibrary s
      ⟨sessionId, msg, peerPublicKey, env.revocationAt, env.elapsedAt, env.now⟩
    ((wrap (flatten r)).map (·.map Sm2KexMessage.serialize), s)

def perform (ks : Software.SoftwareKeystore) (env : KexEnv) :
    (op : KexOp) → KexSessions K → Except Error op.Value × KexSessions K
  | .createSm2KexSession keyId userId, s => createSession lib ks env keyId userId s
  | .acceptSm2KexSession keyId userId msg1 peerPublicKey, s =>
    acceptSession lib ks env keyId userId msg1 peerPublicKey s
  | .processSm2KexMessage sessionId msg peerPublicKey, s => processMessage lib env sessionId msg peerPublicKey s
  | .getSm2KexResult sessionId, s => (wrap (s.getSm2KexResult lib sessionId env.revocationAt), s)
  | .removeSm2KexSession sessionId, s =>
    (wrap (s.removeSm2KexSession sessionId env.now).1, (s.removeSm2KexSession sessionId env.now).2)

/-! ## What a call does to a session -/

/-- The session that a call is about: for a new one, the id drawn for it. -/
def about (env : KexEnv) : KexOp → Uuid
  | .createSm2KexSession .. | .acceptSm2KexSession .. => env.uuid
  | .processSm2KexMessage sessionId .. | .getSm2KexResult sessionId | .removeSm2KexSession sessionId => sessionId

/-- From an instant on, two stores have the same session under an id, and revoke it at the same times. -/
structure SameSession (sessionId : Uuid) (t : Instant) (s s' : KexSessions K) : Prop where
  entry : s.sm2KexSessions[sessionId]? = s'.sm2KexSessions[sessionId]?
  revoked : ∀ u, t ≤ u → s.isSessionRevoked sessionId u = s'.isSessionRevoked sessionId u

variable {lib} {s s' : KexSessions K} {sessionId : Uuid} {t : Instant}

theorem SameSession.mono (h : SameSession sessionId t s s') {t' : Instant} (ht : t ≤ t') :
    SameSession sessionId t' s s' :=
  ⟨h.entry, fun u hu => h.revoked u (ht.trans hu)⟩

theorem SameSession.setEntry (h : SameSession sessionId t s s') (id : Uuid) (entry : Sm2KexSessionEntry K) :
    SameSession sessionId t (s.setEntry id entry) (s'.setEntry id entry) := by
  refine ⟨?_, h.revoked⟩
  by_cases hid : id = sessionId
  · subst hid
    rw [getElem?_setEntry_self, getElem?_setEntry_self]
  · rw [getElem?_setEntry_of_ne hid, getElem?_setEntry_of_ne hid, h.entry]

theorem isSessionRevoked_eq (s : KexSessions K) (id : Uuid) (u : Instant) :
    s.isSessionRevoked id u = (s.revokedSessions[id]?).any fun entry => u < entry.expiresAt := by
  unfold isSessionRevoked
  cases s.revokedSessions[id]? <;> rfl

/-- Sweeping the list changes nothing for the times to come. -/
theorem any_sweep {revoked : HashMap Uuid RevokedSessionEntry} {now u : Instant} (hu : now ≤ u) (id : Uuid) :
    ((sweep revoked now)[id]?).any (fun entry => u < entry.expiresAt) =
      (revoked[id]?).any fun entry => u < entry.expiresAt := by
  unfold sweep
  split
  · rw [Std.ExtTreeMap.getElem?_filter']
    cases revoked[id]? with
    | none => rfl
    | some entry =>
      rw [Option.filter_some, Option.any_some]
      by_cases hlive : now < entry.expiresAt
      · rw [if_pos (decide_eq_true hlive), Option.any_some]
      · have hover : ¬ u < entry.expiresAt := fun hu' => hlive (hu.trans_lt hu')
        rw [if_neg (by simpa using hlive), decide_eq_false hover, Option.any_none]
  · rfl

theorem isSessionRevoked_remove {now u : Instant} (hu : now ≤ u) {id : Uuid} {entry : Sm2KexSessionEntry K}
    (hentry : s.sm2KexSessions[id]? = some entry) (sessionId : Uuid) :
    (s.removeSm2KexSession id now).2.isSessionRevoked sessionId u =
      if id = sessionId then decide (u < now + revocationTime) else s.isSessionRevoked sessionId u := by
  rw [removeSm2KexSession, hentry, isSessionRevoked_eq, isSessionRevoked_eq]
  dsimp only
  rw [HashMap.getElem?_insert]
  by_cases hid : id = sessionId
  · rw [if_pos hid.symm, if_pos hid, Option.any_some]
  · rw [if_neg (Ne.symm hid), if_neg hid, any_sweep hu]

theorem entry_remove {now : Instant} {id : Uuid} {entry : Sm2KexSessionEntry K}
    (hentry : s.sm2KexSessions[id]? = some entry)
    (sessionId : Uuid) : (s.removeSm2KexSession id now).2.sm2KexSessions[sessionId]? =
      if id = sessionId then none else s.sm2KexSessions[sessionId]? := by
  rw [removeSm2KexSession, hentry]
  dsimp only
  rw [HashMap.getElem?_erase]
  by_cases hid : id = sessionId
  · rw [if_pos hid.symm, if_pos hid]
  · rw [if_neg (Ne.symm hid), if_neg hid]

/-- A removal is answered and done from what the store has of the session. -/
theorem SameSession.remove (h : SameSession sessionId t s s') {now : Instant} (ht : t ≤ now) :
    (s.removeSm2KexSession sessionId now).1 = (s'.removeSm2KexSession sessionId now).1 ∧
      SameSession sessionId now (s.removeSm2KexSession sessionId now).2 (s'.removeSm2KexSession sessionId now).2 := by
  cases hentry : s.sm2KexSessions[sessionId]? with
  | none =>
    have hentry' := h.entry.symm.trans hentry
    rw [removeSm2KexSession, removeSm2KexSession, hentry, hentry']
    exact ⟨rfl, h.mono ht⟩
  | some entry =>
    have hentry' := h.entry.symm.trans hentry
    refine ⟨by rw [removeSm2KexSession, removeSm2KexSession, hentry, hentry'], ?_, fun u hu => ?_⟩
    · rw [entry_remove hentry, entry_remove hentry', if_pos rfl, if_pos rfl]
    · rw [isSessionRevoked_remove hu hentry, isSessionRevoked_remove hu hentry', if_pos rfl, if_pos rfl]

theorem SameSession.remove_other (h : SameSession sessionId t s s') {id : Uuid} (hid : id ≠ sessionId) {now : Instant}
    (ht : t ≤ now) : SameSession sessionId now (s.removeSm2KexSession id now).2 s' := by
  cases hentry : s.sm2KexSessions[id]? with
  | none =>
    rw [removeSm2KexSession, hentry]
    exact h.mono ht
  | some entry =>
    refine ⟨?_, fun u hu => ?_⟩
    · rw [entry_remove hentry, if_neg hid, h.entry]
    · rw [isSessionRevoked_remove hu hentry, if_neg hid, h.revoked u (ht.trans hu)]

theorem SameSession.erase (h : SameSession sessionId t s s') (id : Uuid) : SameSession sessionId t
    { s with sm2KexSessions := s.sm2KexSessions.erase id }
    { s' with sm2KexSessions := s'.sm2KexSessions.erase id } := by
  refine ⟨?_, h.revoked⟩
  rw [HashMap.getElem?_erase, HashMap.getElem?_erase, h.entry]

/-- A message is processed from what the store has of the session. -/
theorem SameSession.process (call : ProcessCall) (h : SameSession call.sessionId t s s') (ht : t ≤ call.revocationAt) :
    (processSm2KexMessage lib.toKexLibrary s call).1 = (processSm2KexMessage lib.toKexLibrary s' call).1 ∧
      SameSession call.sessionId t (processSm2KexMessage lib.toKexLibrary s call).2
        (processSm2KexMessage lib.toKexLibrary s' call).2 := by
  unfold processSm2KexMessage
  dsimp only
  rw [h.entry, h.revoked _ ht]
  by_cases hrevoked : s'.isSessionRevoked call.sessionId call.revocationAt = true
  · simp only [if_pos hrevoked]
    exact ⟨trivial, h⟩
  · simp only [if_neg hrevoked]
    cases s'.sm2KexSessions[call.sessionId]? with
    | none => exact ⟨rfl, h⟩
    | some entry =>
      by_cases hold : sm2KexSessionTimeout < call.elapsedAt - entry.createdAt
      · simp only [if_pos hold]
        exact ⟨trivial, h.erase _⟩
      · simp only [if_neg hold]
        cases if call.msg.msgType = 1 ∨ call.msg.msgType = 2 then validateRPub call.msg.rPub else .ok () with
        | error e => exact ⟨rfl, h⟩
        | ok _ =>
          dsimp only
          cases ReplayWindow.check maxMessageHistorySize (unexpired call.now) (·.2 = lib.sha256 call.msg.serialize)
            (call.now, lib.sha256 call.msg.serialize) entry.messageHistory with
          | none => exact ⟨rfl, h.setEntry _ _⟩
          | some messageHistory => exact ⟨rfl, h.setEntry _ _⟩

/-- A message for another session. -/
theorem SameSession.process_other (h : SameSession sessionId t s s') {call : ProcessCall}
    (hid : call.sessionId ≠ sessionId) :
    SameSession sessionId t (processSm2KexMessage lib.toKexLibrary s call).2 s' := by
  refine ⟨?_, fun u hu => ?_⟩
  · rw [(outcome_process lib.toKexLibrary s call).frame hid, h.entry]
  · rw [isSessionRevoked_eq, revokedSessions_process, ← isSessionRevoked_eq, h.revoked u hu]

theorem SameSession.getSm2KexResult (h : SameSession sessionId t s s') {now : Instant} (ht : t ≤ now) :
    s.getSm2KexResult lib sessionId now = s'.getSm2KexResult lib sessionId now := by
  rw [KexSessions.getSm2KexResult, KexSessions.getSm2KexResult, h.entry, h.revoked now ht]

theorem SameSession.store (h : SameSession sessionId t s s') (env : KexEnv) (keyId : Uuid) (userId : Bytes)
    (isInitiator : Bool) (started : Except String (K × Sm2KexMessage)) :
    (s.store env keyId userId isInitiator started).1 = (s'.store env keyId userId isInitiator started).1 ∧
      SameSession sessionId t (s.store env keyId userId isInitiator started).2
        (s'.store env keyId userId isInitiator started).2 := by
  cases started with
  | error e => exact ⟨rfl, h⟩
  | ok r => exact ⟨rfl, h.setEntry _ _⟩

theorem SameSession.store_other (h : SameSession sessionId t s s') {env : KexEnv} (hid : env.uuid ≠ sessionId)
    (keyId : Uuid) (userId : Bytes) (isInitiator : Bool) (started : Except String (K × Sm2KexMessage)) :
    SameSession sessionId t (s.store env keyId userId isInitiator started).2 s' := by
  cases started with
  | error e => exact h
  | ok r => exact ⟨(getElem?_setEntry_of_ne hid _ _).trans h.entry, h.revoked⟩

theorem SameSession.acceptSession (h : SameSession sessionId t s s') (ks : Software.SoftwareKeystore) (env : KexEnv)
    (keyId : Uuid) (userId msg1 peerPublicKey : Bytes) :
    (KexSessions.acceptSession lib ks env keyId userId msg1 peerPublicKey s).1 =
      (KexSessions.acceptSession lib ks env keyId userId msg1 peerPublicKey s').1 ∧
    SameSession sessionId t (KexSessions.acceptSession lib ks env keyId userId msg1 peerPublicKey s).2
      (KexSessions.acceptSession lib ks env keyId userId msg1 peerPublicKey s').2 := by
  unfold KexSessions.acceptSession
  cases Sm2KexMessage.deserialize msg1 1 with
  | error e => exact ⟨rfl, h⟩
  | ok msg1 => exact h.store _ _ _ _ _

theorem SameSession.acceptSession_other (h : SameSession sessionId t s s') {env : KexEnv} (hid : env.uuid ≠ sessionId)
    (ks : Software.SoftwareKeystore) (keyId : Uuid) (userId msg1 peerPublicKey : Bytes) :
    SameSession sessionId t (KexSessions.acceptSession lib ks env keyId userId msg1 peerPublicKey s).2 s' := by
  unfold KexSessions.acceptSession
  cases Sm2KexMessage.deserialize msg1 1 with
  | error e => exact h
  | ok msg1 => exact h.store_other hid _ _ _ _

theorem SameSession.processMessage (h : SameSession sessionId t s s') {env : KexEnv} (ht : t ≤ env.revocationAt)
    (msg peerPublicKey : Bytes) : (KexSessions.processMessage lib env sessionId msg peerPublicKey s).1 =
      (KexSessions.processMessage lib env sessionId msg peerPublicKey s').1 ∧
    SameSession sessionId t (KexSessions.processMessage lib env sessionId msg peerPublicKey s).2
      (KexSessions.processMessage lib env sessionId msg peerPublicKey s').2 := by
  unfold KexSessions.processMessage
  cases Sm2KexMessage.deserialize msg 0 with
  | error e => exact ⟨rfl, h⟩
  | ok msg =>
    obtain ⟨hanswer, hprocess⟩ := h.process ⟨sessionId, msg, peerPublicKey, env.revocationAt, env.elapsedAt, env.now⟩ ht
    refine ⟨?_, hprocess⟩
    dsimp only
    rw [hanswer]

theorem SameSession.processMessage_other (h : SameSession sessionId t s s') {id : Uuid} (hid : id ≠ sessionId)
    (env : KexEnv) (msg peerPublicKey : Bytes) :
    SameSession sessionId t (KexSessions.processMessage lib env id msg peerPublicKey s).2 s' := by
  unfold KexSessions.processMessage
  cases Sm2KexMessage.deserialize msg 0 with
  | error e => exact h
  | ok msg => exact h.process_other hid

/-- A call about the session, on two stores that have the same of it. -/
theorem SameSession.perform (ks : Software.SoftwareKeystore) {env : KexEnv} {op : KexOp}
    (h : SameSession (about env op) t s s') (ht : ∀ u ∈ env.instants, t ≤ u) :
    (KexSessions.perform lib ks env op s).1 = (KexSessions.perform lib ks env op s').1 ∧
      ∀ t', (∀ u ∈ env.instants, u ≤ t') → SameSession (about env op) t' (KexSessions.perform lib ks env op s).2
        (KexSessions.perform lib ks env op s').2 := by
  have hread : t ≤ env.revocationAt := ht _ (by simp [KexEnv.instants])
  have hnow : t ≤ env.now := ht _ (by simp [KexEnv.instants])
  have hlater : ∀ t', (∀ u ∈ env.instants, u ≤ t') → t ≤ t' ∧ env.now ≤ t' := fun t' ht' =>
    ⟨hnow.trans (ht' _ (by simp [KexEnv.instants])), ht' _ (by simp [KexEnv.instants])⟩
  cases op with
  | createSm2KexSession keyId userId =>
    obtain ⟨hanswer, hstore⟩ := h.store env keyId userId true (initiate lib ks env keyId userId)
    exact ⟨hanswer, fun t' ht' => hstore.mono (hlater t' ht').1⟩
  | acceptSm2KexSession keyId userId msg1 peerPublicKey =>
    obtain ⟨hanswer, haccept⟩ := h.acceptSession ks env keyId userId msg1 peerPublicKey
    exact ⟨hanswer, fun t' ht' => haccept.mono (hlater t' ht').1⟩
  | processSm2KexMessage sessionId msg peerPublicKey =>
    obtain ⟨hanswer, hprocess⟩ := SameSession.processMessage h hread msg peerPublicKey
    exact ⟨hanswer, fun t' ht' => hprocess.mono (hlater t' ht').1⟩
  | getSm2KexResult sessionId =>
    exact ⟨congrArg wrap (SameSession.getSm2KexResult h hread), fun t' ht' => h.mono (hlater t' ht').1⟩
  | removeSm2KexSession sessionId =>
    obtain ⟨hanswer, hremove⟩ := SameSession.remove h hnow
    exact ⟨congrArg wrap hanswer, fun t' ht' => hremove.mono (hlater t' ht').2⟩

/-- A call about another session. -/
theorem SameSession.perform_other (ks : Software.SoftwareKeystore) (h : SameSession sessionId t s s') {env : KexEnv}
    {op : KexOp}
    (hid : about env op ≠ sessionId) (ht : ∀ u ∈ env.instants, t ≤ u) {t' : Instant}
    (ht' : ∀ u ∈ env.instants, u ≤ t') :
    SameSession sessionId t' (KexSessions.perform lib ks env op s).2 s' := by
  have hnow : t ≤ env.now := ht _ (by simp [KexEnv.instants])
  have hnow' : env.now ≤ t' := ht' _ (by simp [KexEnv.instants])
  cases op with
  | createSm2KexSession keyId userId => exact (h.store_other hid _ _ _ _).mono (hnow.trans hnow')
  | acceptSm2KexSession => exact (h.acceptSession_other hid ks _ _ _ _).mono (hnow.trans hnow')
  | processSm2KexMessage => exact (h.processMessage_other hid env _ _).mono (hnow.trans hnow')
  | getSm2KexResult id => exact h.mono (hnow.trans hnow')
  | removeSm2KexSession id => exact (h.remove_other hid hnow).mono hnow'

end KexSessions

/-! ## The keystore with its sessions -/

inductive KexInput where
  | use (c : Software.UseCall)
  | kex (env : KexEnv) (op : KexOp)

namespace KexInput

def instants : KexInput → List Instant
  | use _ => []
  | kex env _ => env.instants

/-- The calls on keys, and those about one session. -/
def concerns (sessionId : Uuid) : KexInput → Bool
  | use _ => true
  | kex env op => KexSessions.about env op = sessionId

/-- One call comes after the other by the clock. -/
def Before (i j : KexInput) : Prop := ∀ u ∈ i.instants, ∀ v ∈ j.instants, u ≤ v

end KexInput

abbrev KexAnswer := (Σ op : BackendOp, op.Reply) ⊕ (Σ op : KexOp, Except Error op.Value)

section

variable {K P Pair : Type} (crypto : Crypto) (lib : KexCreation K P Pair)

/-- The keystore as a machine, its sessions included. -/
def serveKex : Machine (KexKeystore K) KexInput KexAnswer
  | s, .use c =>
    (.inl (Software.SoftwareKeystore.use crypto s.keystore c).1,
      { s with keystore := (Software.SoftwareKeystore.use crypto s.keystore c).2 })
  | s, .kex env op =>
    (.inr ⟨op, (KexSessions.perform lib s.keystore env op s.sessions).1⟩,
      { s with sessions := (KexSessions.perform lib s.keystore env op s.sessions).2 })

/-- The stores have the same session from the end of the history on. -/
def SameSince (sessionId : Uuid) (h : History KexInput KexAnswer) (s s' : KexSessions K) : Prop :=
  ∀ t, (∀ e ∈ h, ∀ u ∈ e.1.instants, u ≤ t) → KexSessions.SameSession sessionId t s s'

variable {crypto lib} {sessionId : Uuid} {h : History KexInput KexAnswer} {ks : Software.SoftwareKeystore}
  {s s' : KexSessions K}

/-- Nothing happens to the session. -/
theorem SameSince.snoc (hs : SameSince sessionId h s s') (e : KexInput × KexAnswer) :
    SameSince sessionId (h ++ [e]) s s' :=
  fun t ht => hs t fun e' he' => ht e' (List.mem_append_left _ he')

/-- An instant between the history and a call that comes after it. -/
theorem exists_between {env : KexEnv} {op : KexOp} (hbefore : ∀ e ∈ h, KexInput.Before e.1 (.kex env op)) :
    ∃ t, (∀ e ∈ h, ∀ u ∈ e.1.instants, u ≤ t) ∧ ∀ u ∈ env.instants, t ≤ u := by
  refine ⟨min env.revocationAt (min env.elapsedAt env.now), fun e he u hu => ?_, fun u hu => ?_⟩
  · have hle := hbefore e he u hu
    simp only [KexInput.instants, KexEnv.instants, List.mem_cons, List.not_mem_nil, or_false, forall_eq_or_imp,
      forall_eq] at hle
    exact le_min hle.1 (le_min hle.2.1 hle.2.2)
  · simp only [KexEnv.instants, List.mem_cons, List.not_mem_nil, or_false] at hu
    rcases hu with rfl | rfl | rfl
    · exact min_le_left _ _
    · exact (min_le_right _ _).trans (min_le_left _ _)
    · exact (min_le_right _ _).trans (min_le_right _ _)

theorem SameSince.own {env : KexEnv} {op : KexOp} (hs : SameSince (KexSessions.about env op) h s s')
    (hbefore : ∀ e ∈ h, KexInput.Before e.1 (.kex env op)) (a : KexAnswer) :
    (KexSessions.perform lib ks env op s).1 = (KexSessions.perform lib ks env op s').1 ∧
      SameSince (KexSessions.about env op) (h ++ [(.kex env op, a)]) (KexSessions.perform lib ks env op s).2
        (KexSessions.perform lib ks env op s').2 := by
  obtain ⟨t, hpast, hfuture⟩ := exists_between hbefore
  obtain ⟨hanswer, hnext⟩ := (hs t hpast).perform ks hfuture
  exact ⟨hanswer, fun t' ht' => hnext t' (ht' (.kex env op, a) (by simp))⟩

theorem SameSince.other {env : KexEnv} {op : KexOp} (hs : SameSince sessionId h s s')
    (hid : KexSessions.about env op ≠ sessionId) (hbefore : ∀ e ∈ h, KexInput.Before e.1 (.kex env op))
    (a : KexAnswer) :
    SameSince sessionId (h ++ [(.kex env op, a)]) (KexSessions.perform lib ks env op s).2 s' := by
  obtain ⟨t, hpast, hfuture⟩ := exists_between hbefore
  exact fun t' ht' => (hs t hpast).perform_other ks hid hfuture (ht' (.kex env op, a) (by simp))

/-- The calls about one session are answered as if there were no calls about any other. -/
theorem trace_filter_concerns (start : KexKeystore K) {is : List KexInput} (hclock : is.Pairwise KexInput.Before)
    (sessionId : Uuid) : (serveKex crypto lib).trace start (is.filter (·.concerns sessionId)) =
      ((serveKex crypto lib).trace start is).filter (·.1.concerns sessionId) := by
  refine Machine.purge (G := fun h _ i => ∀ e ∈ h, KexInput.Before e.1 i)
    (R := fun h s s' => s.keystore = s'.keystore ∧ SameSince sessionId h s.sessions s'.sessions) ?_ ?_
    (Machine.along_of_pairwise (h := []) hclock) ⟨rfl, fun t _ => ⟨rfl, fun _ _ => rfl⟩⟩
  · rintro h ⟨keystore, s⟩ ⟨keystore', s'⟩ i ⟨hkeystore, hs⟩ hbefore hi
    obtain rfl : keystore = keystore' := hkeystore
    cases i with
    | use c => exact ⟨rfl, rfl, hs.snoc _⟩
    | kex env op =>
      obtain rfl : KexSessions.about env op = sessionId := of_decide_eq_true hi
      obtain ⟨hanswer, hnext⟩ := hs.own hbefore
        (serveKex crypto lib ⟨keystore, s⟩ (.kex env op)).1
      exact ⟨congrArg (fun r => (Sum.inr ⟨op, r⟩ : KexAnswer)) hanswer, rfl, hnext⟩
  · rintro h ⟨keystore, s⟩ ⟨keystore', s'⟩ i ⟨hkeystore, hs⟩ hbefore hi
    cases i with
    | use c => cases hi
    | kex env op => exact ⟨hkeystore, hs.other (of_decide_eq_false hi) hbefore _⟩

/-! ## Removed sessions -/

namespace KexSessions

/-- What the store says of a session that was removed at an instant: for five minutes that it is revoked. -/
def gone (sessionId : Uuid) (removedAt u : Instant) : Error :=
  let id := sessionId.text
  if u < removedAt + revocationTime then .keyExchangeFailed s!"SM2-KEX session {id} has been revoked"
  else .keyNotFound s!"SM2-KEX session {id} not found"

def messageRefusal (sessionId : Uuid) (removedAt : Instant) (env : KexEnv) (msg : Bytes) : Error :=
  match Sm2KexMessage.deserialize msg 0 with
  | .error e => .internal s!"invalid message: {e}"
  | .ok _ => .keyExchangeFailed (gone sessionId removedAt env.revocationAt).text

/-- What a call about a removed session is told. -/
def refusal (sessionId : Uuid) (removedAt : Instant) (env : KexEnv) : KexOp → Error
  | .processSm2KexMessage _ msg _ => messageRefusal sessionId removedAt env msg
  | .removeSm2KexSession _ =>
    let id := sessionId.text
    .keyExchangeFailed (Error.keyNotFound s!"SM2-KEX session {id} not found").text
  | _ => .keyExchangeFailed (gone sessionId removedAt env.revocationAt).text

/-- The call starts a session under the id. -/
def starts (sessionId : Uuid) (env : KexEnv) : KexOp → Prop
  | .createSm2KexSession .. | .acceptSm2KexSession .. => env.uuid = sessionId
  | _ => False

section

variable {removedAt : Instant} (hentry : s.sm2KexSessions[sessionId]? = none)
include hentry

theorem process_gone {call : ProcessCall} (hid : call.sessionId = sessionId)
    (hrevoked : s.isSessionRevoked sessionId call.revocationAt = decide (call.revocationAt < removedAt +
      revocationTime)) :
    processSm2KexMessage lib.toKexLibrary s call = (.error (gone sessionId removedAt call.revocationAt), s) := by
  subst hid
  unfold processSm2KexMessage gone
  dsimp only
  rw [hrevoked, hentry]
  by_cases hlive : call.revocationAt < removedAt + revocationTime
  · simp only [decide_eq_true hlive, if_true, if_pos hlive]
  · simp only [decide_eq_false hlive, Bool.false_eq_true, if_false, if_neg hlive]

theorem processMessage_gone {env : KexEnv}
    (hrevoked : s.isSessionRevoked sessionId env.revocationAt = decide (env.revocationAt < removedAt + revocationTime))
    (msg peerPublicKey : Bytes) : processMessage lib env sessionId msg peerPublicKey s =
      (.error (messageRefusal sessionId removedAt env msg), s) := by
  unfold processMessage messageRefusal
  cases Sm2KexMessage.deserialize msg 0 with
  | error e => rfl
  | ok msg =>
    dsimp only
    rw [process_gone hentry rfl hrevoked]
    rfl

theorem getSm2KexResult_gone {u : Instant}
    (hrevoked : s.isSessionRevoked sessionId u = decide (u < removedAt + revocationTime)) :
    s.getSm2KexResult lib sessionId u = .error (gone sessionId removedAt u) := by
  unfold KexSessions.getSm2KexResult gone
  dsimp only
  rw [hrevoked, hentry]
  by_cases hlive : u < removedAt + revocationTime
  · simp only [decide_eq_true hlive, if_true, if_pos hlive]
  · simp only [decide_eq_false hlive, Bool.false_eq_true, if_false, if_neg hlive]

/-- Where a session is removed, a call about it changes nothing. -/
theorem perform_gone {env : KexEnv} {op : KexOp} (habout : about env op = sessionId)
    (hstarts : ¬ starts sessionId env op)
    (hrevoked : s.isSessionRevoked sessionId env.revocationAt =
      decide (env.revocationAt < removedAt + revocationTime)) :
    perform lib ks env op s = (.error (refusal sessionId removedAt env op), s) := by
  subst habout
  cases op with
  | createSm2KexSession | acceptSm2KexSession => exact absurd rfl hstarts
  | processSm2KexMessage id msg peerPublicKey => exact processMessage_gone hentry hrevoked msg peerPublicKey
  | getSm2KexResult id =>
    change (wrap (s.getSm2KexResult lib id env.revocationAt), s) = _
    dsimp only [about] at hentry hrevoked
    rw [getSm2KexResult_gone hentry hrevoked]
    rfl
  | removeSm2KexSession id =>
    change (wrap (s.removeSm2KexSession id env.now).1, (s.removeSm2KexSession id env.now).2) = _
    dsimp only [about] at hentry
    rw [removeSm2KexSession, hentry]
    rfl

end

/-- The store right after the removal, as far as the session goes. -/
structure Removed (sessionId : Uuid) (removedAt : Instant) (s : KexSessions K) : Prop where
  entry : s.sm2KexSessions[sessionId]? = none
  revoked : ∀ u, removedAt ≤ u → s.isSessionRevoked sessionId u = decide (u < removedAt + revocationTime)

theorem removed_of_ok {now : Instant} (h : (s.removeSm2KexSession sessionId now).1 = .ok ()) :
    Removed sessionId now (s.removeSm2KexSession sessionId now).2 := by
  cases hentry : s.sm2KexSessions[sessionId]? with
  | none =>
    rw [removeSm2KexSession, hentry] at h
    cases h
  | some entry =>
    refine ⟨?_, fun u hu => ?_⟩
    · rw [entry_remove hentry, if_pos rfl]
    · rw [isSessionRevoked_remove hu hentry, if_pos rfl]

end KexSessions

section

variable {removedAt : Instant} {env : KexEnv} {op : KexOp}

open KexSessions in
/-- After the removal, with nothing but calls about other sessions and refusals since. -/
theorem SameSince.perform_removed (hs : SameSince sessionId h s s') (hremoved : Removed sessionId removedAt s')
    (hpast : ∃ e ∈ h, removedAt ∈ e.1.instants) (hbefore : ∀ e ∈ h, KexInput.Before e.1 (.kex env op))
    (habout : about env op = sessionId) (hstarts : ¬ starts sessionId env op) :
    perform lib ks env op s = (.error (refusal sessionId removedAt env op), s) := by
  obtain ⟨e, he, hat⟩ := hpast
  obtain ⟨t, hsince, hread⟩ := exists_between hbefore
  have hsame := hs t hsince
  have hlater : t ≤ env.revocationAt := hread _ (by simp [KexEnv.instants])
  refine perform_gone (hsame.entry.trans hremoved.entry) habout hstarts ?_
  rw [hsame.revoked _ hlater, hremoved.revoked _ ((hsince e he _ hat).trans hlater)]

end

open KexSessions in
/-- Once a session is removed, every later call about it is refused, for five minutes as revoked and then as not found,
unless its id is drawn again. -/
theorem refused_of_removed (start : KexKeystore K) {is : List KexInput} (hclock : is.Pairwise KexInput.Before)
    {h₁ h₂ : History KexInput KexAnswer} {env : KexEnv} (hrun : (serveKex crypto lib).trace start is =
      h₁ ++ (.kex env (.removeSm2KexSession sessionId), .inr ⟨.removeSm2KexSession sessionId, .ok ()⟩) :: h₂)
    (hfresh : ∀ env' op a, (KexInput.kex env' op, a) ∈ h₂ → ¬ starts sessionId env' op) {env' : KexEnv} {op : KexOp}
    {a : KexAnswer} (hcall : (.kex env' op, a) ∈ h₂) (habout : about env' op = sessionId) :
    a = .inr ⟨op, .error (refusal sessionId env.now env' op)⟩ := by
  obtain ⟨is₁, is₂, rfl, -, hanswer, hrest⟩ := Machine.trace_eq_append_cons _ hrun
  generalize (serveKex crypto lib).final start is₁ = s₁ at hanswer hrest
  -- the removal has found the session
  have hok : (s₁.sessions.removeSm2KexSession sessionId env.now).1 = .ok () := by
    have hwrapped : wrap (s₁.sessions.removeSm2KexSession sessionId env.now).1 = .ok () :=
      eq_of_heq (Sigma.mk.inj (Sum.inr.inj hanswer)).2
    cases hr : (s₁.sessions.removeSm2KexSession sessionId env.now).1 with
    | ok u => rfl
    | error e =>
      rw [hr] at hwrapped
      cases hwrapped
  have hremoved := removed_of_ok hok
  have hinputs : ∀ i ∈ is₂, ∀ env' op, i = KexInput.kex env' op → ¬ starts sessionId env' op := by
    rintro i hi env' op rfl
    have hmap := congrArg (List.map (·.1)) hrest
    rw [Machine.map_fst_trace] at hmap
    rw [hmap] at hi
    obtain ⟨⟨i, a⟩, he, rfl⟩ := List.mem_map.1 hi
    exact hfresh env' op a he
  have hafter : ([KexInput.kex env (.removeSm2KexSession sessionId)] ++ is₂).Pairwise KexInput.Before :=
    (List.pairwise_append.1 hclock).2.1
  obtain ⟨l, r, hsplit⟩ := List.append_of_mem hcall
  rw [hsplit] at hrest
  obtain ⟨j₁, j₂, rfl, -, hcalled, -⟩ := Machine.trace_eq_append_cons _ hrest
  have halong := (Machine.along_of_pairwise (M := serveKex crypto lib)
    (h := [(KexInput.kex env (.removeSm2KexSession sessionId), .inr ⟨.removeSm2KexSession sessionId, .ok ()⟩)])
    (s := (serveKex crypto lib s₁ (.kex env (.removeSm2KexSession sessionId))).2) hafter).and
    ((Machine.along_iff_forall (G := fun _ i => ∀ env' op, i = KexInput.kex env' op → ¬ starts sessionId env' op)).2
      fun is i js heq => hinputs i (heq ▸ by simp))
  obtain ⟨hj₁, hnow, -⟩ := Machine.along_append.1 halong
  have hsince := hj₁.inv (I := fun h s => SameSince sessionId h s.sessions
      (s₁.sessions.removeSm2KexSession sessionId env.now).2 ∧ ∃ e ∈ h, env.now ∈ e.1.instants) ?_
    ⟨fun t _ => ⟨rfl, fun _ _ => rfl⟩, _, List.mem_singleton_self _, by simp [KexInput.instants, KexEnv.instants]⟩
  · obtain ⟨hsame, hpast⟩ := hsince
    refine hcalled.symm.trans ?_
    change (Sum.inr ⟨op, (perform lib _ env' op _).1⟩ : KexAnswer) = _
    rw [hsame.perform_removed hremoved hpast hnow.1 habout (hnow.2 env' op rfl)]
  · rintro h ⟨keystore, s⟩ i ⟨hsame, e, he, hat⟩ ⟨hbefore, hstarts⟩
    refine ⟨?_, e, List.mem_append_left _ he, hat⟩
    cases i with
    | use c => exact hsame.snoc _
    | kex env' op =>
      by_cases hid : about env' op = sessionId
      · change SameSince sessionId _ (perform lib keystore env' op s).2 _
        rw [hsame.perform_removed hremoved ⟨e, he, hat⟩ hbefore hid (hstarts env' op rfl)]
        exact hsame.snoc _
      · exact hsame.other hid hbefore _

end

/-- A key exchange whose messages carry nothing, and which is complete from its start. -/
def plainCreation : KexCreation Unit Unit Unit where
  sha256 data := data
  fromSec1Bytes _ := .ok ()
  processMsg2 _ msg _ := (.ok msg, ())
  processMsg3 _ _ := (.ok (), ())
  fromPrivateKey _ := .ok ()
  newInitiator _ _ _ := .ok ()
  generateMsg1 _ := .ok ⟨1, .replicate 16 0, .replicate 64 7, none, none⟩
  newResponder _ _ _ := .ok ()
  processMsg1 _ msg _ := (.ok msg, ())
  getResult _ := some [1, 2, 3]

def atInstant (uuid : Uuid) (now : Instant) : KexEnv := ⟨uuid, 0, now, now, now⟩

/-- Two sessions on one key; the first is removed, and asked for again at once and after the revocation. -/
def twoSessions : List KexInput :=
  [.use ⟨⟨⟨1, 0, fun _ => 0, .ok (List.replicate 32 1)⟩, 0, fun _ => 0⟩, .generateKey .sm2 "agreement" "acme"⟩,
    .kex (atInstant 1 0) (.createSm2KexSession 1 []), .kex (atInstant 2 1) (.createSm2KexSession 1 []),
    .kex (atInstant 0 2) (.getSm2KexResult 1), .kex (atInstant 0 3) (.removeSm2KexSession 1),
    .kex (atInstant 0 4) (.getSm2KexResult 1), .kex (atInstant 0 (400 * 10 ^ 9)) (.getSm2KexResult 1),
    .kex (atInstant 0 (400 * 10 ^ 9)) (.getSm2KexResult 2)]

instance (i j : KexInput) : Decidable (KexInput.Before i j) :=
  inferInstanceAs (Decidable (∀ u ∈ i.instants, ∀ v ∈ j.instants, u ≤ v))

theorem trace_filter_twoSessions :
    (serveKex .plain plainCreation).trace ⟨.new, ⟨∅, ∅⟩⟩ (twoSessions.filter (·.concerns 1)) =
      ((serveKex .plain plainCreation).trace ⟨.new, ⟨∅, ∅⟩⟩ twoSessions).filter (·.1.concerns 1) :=
  trace_filter_concerns _ (by decide) 1

theorem refused_twoSessions : ∃ h₁ h₂, (serveKex .plain plainCreation).trace ⟨.new, ⟨∅, ∅⟩⟩ twoSessions =
      h₁ ++ (.kex (atInstant 0 3) (.removeSm2KexSession 1), .inr ⟨.removeSm2KexSession 1, .ok ()⟩) :: h₂ ∧
    ∀ env' op a, (.kex env' op, a) ∈ h₂ → KexSessions.about env' op = 1 →
      a = .inr ⟨op, .error (KexSessions.refusal 1 3 env' op)⟩ := by
  have hclock : twoSessions.Pairwise KexInput.Before := by decide
  have hrun : (serveKex .plain plainCreation).trace ⟨.new, ⟨∅, ∅⟩⟩ twoSessions =
      ((serveKex .plain plainCreation).trace ⟨.new, ⟨∅, ∅⟩⟩ twoSessions).take 4 ++
        (.kex (atInstant 0 3) (.removeSm2KexSession 1), .inr ⟨.removeSm2KexSession 1, .ok ()⟩) ::
        ((serveKex .plain plainCreation).trace ⟨.new, ⟨∅, ∅⟩⟩ twoSessions).drop 5 := rfl
  refine ⟨_, _, hrun, fun env' op a hcall habout =>
    refused_of_removed _ hclock hrun (fun env' op a he => ?_) hcall habout⟩
  -- only results are asked for after the removal
  have hmem := List.mem_map_of_mem (f := (·.1)) he
  rw [List.map_drop, Machine.map_fst_trace] at hmem
  simp only [twoSessions, List.drop_succ_cons, List.drop_zero, List.mem_cons, List.not_mem_nil, or_false,
    KexInput.kex.injEq] at hmem
  obtain ⟨-, rfl⟩ | ⟨-, rfl⟩ | ⟨-, rfl⟩ := hmem <;> rintro ⟨⟩

end GmKms.Keystore
