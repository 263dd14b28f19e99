import GmKms.Audit.Logger
import GmKms.Lib.InFlight
/-!
# One chain under concurrency

When calls keep to the order of their sequence numbers at two of their steps, what
they append is one chain; each of the two steps is under a lock of its own, and
nothing makes a call wait for the one before it.
-/

namespace GmKms.Audit

open Lib

section

variable {F : Type} (S : Formats F) (hmac : Bytes → Bytes → Bytes) (sha256 : Bytes → Bytes) (config : LoggerConfig)

/-- `verify_chain` of each entry, with the signature of the entry before it. -/
def verifiesChain (key : Bytes) : Option Bytes → List (SignedAuditEntry F) → Bool
  | _, [] => true
  | previousSignature, e :: es =>
    e.verifyChain S hmac key previousSignature && verifiesChain key (some e.signature) es

/-- The entries are a chain from its start, numbered from zero. -/
def Unforked (key : Bytes) (es : List (SignedAuditEntry F)) : Prop :=
  verifiesChain S hmac key none es ∧ es.map (·.sequence.toNat) = List.range es.length

namespace LogCall

/-- The sequence number of a call that has not appended its entry yet. -/
def sequence? : LogCall F → Option ℕ
  | .sequenced _ n | .linked _ n _ | .stamped _ n _ _ => some n.toNat
  | .signed entry | .written entry => some entry.sequence.toNat
  | .full => none

def hasStored : LogCall F → Bool
  | .signed _ | .written _ | .full => true
  | _ => false

def hasWritten : LogCall F → Bool
  | .written _ | .full => true
  | _ => false

end LogCall

namespace LoggerRun

/-- Every call with a lower number that is still under way has come this far. -/
def NoneBehind (s : LoggerRun F) (n : ℕ) (far : LogCall F → Bool) : Prop :=
  ∀ id c m, s.calls id = some c → c.sequence? = some m → m < n → far c = true

/-- An append to the WORM files that succeeds has found as many entries in them as the number of its own says, and one
that fails leaves them as they are. -/
def AppendsNext (s : LoggerRun F) (env : AppendEnv) (entry : SignedAuditEntry F) : Prop :=
  match (s.logger.worm.append S sha256 env entry).1 with
  | .ok () => s.logger.worm.hashChain.entryCount = entry.sequence
  | .error _ => env.LeavesFiles

/-- A call reads the previous signature when every lower call has stored its own, and
appends its entry when every lower call has appended its own. No append to the WORM
files succeeds after one that failed, and the sequence numbers do not run out. -/
def InOrder (s : LoggerRun F) : LogInput F → Prop
  | .log _ _ => s.logger.currentSequence.toNat + 1 < 2 ^ 64
  | .next id env =>
    match s.calls id with
    | some (.sequenced _ n) => s.NoneBehind n.toNat LogCall.hasStored
    | some (.signed entry) =>
      if config.kind = .worm then
        s.NoneBehind entry.sequence.toNat LogCall.hasWritten ∧ s.AppendsNext S sha256 env entry
      else s.NoneBehind entry.sequence.toNat fun _ => false
    | some (.written entry) => s.NoneBehind entry.sequence.toNat fun _ => false
    | _ => True
  | .timestamp _ => True
  | .flush => True

/-- What the logger has appended, and what it has written to the WORM files, is unforked. -/
def AppendsChain (s : LoggerRun F) : Prop :=
  Unforked S hmac config.signingKey s.logger.appended ∧
    (config.kind = .worm → ∃ es, s.logger.worm.content = contentOf S es ∧ Unforked S hmac config.signingKey es)

end LoggerRun

end

/-! ## Chains and their prefixes -/

section

variable {F : Type} {S : Formats F} {hmac : Bytes → Bytes → Bytes} {key : Bytes}

theorem SignedAuditEntry.verifyChain_iff {e : SignedAuditEntry F} {h : Option Bytes} :
    e.verifyChain S hmac key h ↔ e.verify S hmac key ∧ e.previousSignature = h := by
  unfold verifyChain
  rw [Bool.and_eq_true]
  cases e.previousSignature <;> cases h <;> simp

theorem verifiesChain_iff {h : Option Bytes} {es : List (SignedAuditEntry F)} :
    verifiesChain S hmac key h es ↔ (chain F).Chained h es ∧ ∀ e ∈ es, e.verify S hmac key := by
  induction es generalizing h with
  | nil => simp [verifiesChain, HashLink.Chained]
  | cons e es ih =>
    rw [verifiesChain, Bool.and_eq_true, ih, SignedAuditEntry.verifyChain_iff, List.forall_mem_cons]
    constructor
    · rintro ⟨⟨hverify, hprev⟩, hchained, hrest⟩
      exact ⟨⟨hprev, hchained⟩, hverify, hrest⟩
    · rintro ⟨⟨hprev, hchained⟩, hverify, hrest⟩
      exact ⟨⟨hverify, hprev⟩, hchained, hrest⟩

theorem unforked_iff {es : List (SignedAuditEntry F)} : Unforked S hmac key es ↔
    (chain F).Chained none es ∧ (∀ e ∈ es, e.verify S hmac key) ∧ es.map (·.sequence.toNat) = List.range es.length := by
  rw [Unforked, verifiesChain_iff, and_assoc]

theorem Unforked.take {es : List (SignedAuditEntry F)} (h : Unforked S hmac key es) (n : ℕ) :
    Unforked S hmac key (es.take n) := by
  rw [unforked_iff] at *
  obtain ⟨hchained, hverify, hsequence⟩ := h
  refine ⟨?_, fun e he => hverify e (List.mem_of_mem_take he), ?_⟩
  · rw [← List.take_append_drop n es, HashLink.chained_append] at hchained
    exact hchained.1
  · rw [List.map_take, hsequence, List.take_range, List.length_take]

/-- A new entry under the next number that names the last signature. -/
theorem Unforked.concat {es : List (SignedAuditEntry F)} (h : Unforked S hmac key es) {e : SignedAuditEntry F}
    (hprev : e.previousSignature = (chain F).lastHash none es) (hverify : e.verify S hmac key)
    (hsequence : e.sequence.toNat = es.length) : Unforked S hmac key (es ++ [e]) := by
  rw [unforked_iff] at *
  obtain ⟨hchained, hverifies, hnumbers⟩ := h
  refine ⟨HashLink.chained_append.2 ⟨hchained, hprev, trivial⟩, ?_, ?_⟩
  · intro e' he'
    rcases List.mem_append.1 he' with he' | he'
    · exact hverifies e' he'
    · rwa [List.mem_singleton.1 he']
  · simp [hnumbers, hsequence, List.range_succ]

end

/-! ## What the steps of ordered calls keep -/

namespace LoggerRun

section

variable {F : Type} {S : Formats F} {hmac : Bytes → Bytes → Bytes} {sha256 : Bytes → Bytes} {config : LoggerConfig}

/-- How far the call with number `n` has come when the entries `signed` have been signed and
the first `w` of them written. -/
def Stage (config : LoggerConfig) (signed : List (SignedAuditEntry F)) (w : ℕ) (c : LogCall F) (n : ℕ) : Prop :=
  match c with
  | .sequenced _ _ => signed.length ≤ n
  | .linked _ _ previous | .stamped _ _ previous _ => n = signed.length ∧ previous = (chain F).lastHash none signed
  | .signed entry => w ≤ n ∧ signed[n]? = some entry
  | .written entry => config.kind = .worm ∧ n < w ∧ signed[n]? = some entry
  | .full => True

/-- The entries signed so far are a chain; the appends of the first `w` to the WORM files have been tried, and those
that succeeded were the first; the first `a` are in the buffer. -/
structure Tracks (S : Formats F) (hmac : Bytes → Bytes → Bytes) (config : LoggerConfig) (s : LoggerRun F)
    (signed : List (SignedAuditEntry F)) (w a : ℕ) : Prop where
  unforked : Unforked S hmac config.signingKey signed
  previous : s.logger.previousSignature = (chain F).lastHash none signed
  le_written : a ≤ w
  written_le : w ≤ signed.length
  signed_le : signed.length ≤ s.logger.currentSequence.toNat
  appended : s.logger.appended = signed.take a
  worm : config.kind = .worm → ∃ k ≤ w, s.logger.worm.Holds S (signed.take k) ∧
    s.logger.worm.hashChain.entryCount.toNat = k
  notWorm : config.kind ≠ .worm → w = a
  inFlight : InFlight LogCall.sequence? s.calls a s.logger.currentSequence.toNat (Stage config signed w)

variable {s : LoggerRun F} {signed : List (SignedAuditEntry F)} {w a : ℕ}

theorem Tracks.appendsChain (h : Tracks S hmac config s signed w a) : s.AppendsChain S hmac config := by
  refine ⟨h.appended ▸ h.unforked.take a, fun hworm => ?_⟩
  obtain ⟨k, -, hholds, -⟩ := h.worm hworm
  exact ⟨signed.take k, hholds.content_eq, h.unforked.take k⟩

theorem tracks_start (rotationAge : ℕ) : Tracks S hmac config (start sha256 config rotationAge) [] 0 0 where
  unforked := ⟨rfl, rfl⟩
  previous := rfl
  le_written := Nat.le_refl 0
  written_le := Nat.le_refl 0
  signed_le := Nat.le_refl 0
  appended := rfl
  worm _ := ⟨0, Nat.le_refl 0, WormWriter.holds_new sha256 rotationAge, rfl⟩
  notWorm _ := rfl
  inFlight := .none

/-- A call that lower calls have overtaken nowhere is the next one to store. -/
theorem Tracks.eq_length (h : Tracks S hmac config s signed w a) {n : ℕ} (hle : signed.length ≤ n)
    (hn : n < s.logger.currentSequence.toNat) (hbehind : s.NoneBehind n LogCall.hasStored) : n = signed.length := by
  by_contra hne
  have hwritten := h.written_le
  have hleWritten := h.le_written
  obtain ⟨id, c, hc, hseq⟩ := h.inFlight.exists_call signed.length (by omega) (by omega)
  obtain ⟨-, -, hstage⟩ := h.inFlight.stage id c _ hc hseq
  have hstored := hbehind id c _ hc hseq (by omega)
  cases c with
  | sequenced | linked | stamped => simp [LogCall.hasStored] at hstored
  | signed entry => simp [Stage] at hstage
  | written entry => simp [Stage] at hstage
  | full => simp [LogCall.sequence?] at hseq

theorem Tracks.eq_written (h : Tracks S hmac config s signed w a) {n : ℕ} (hle : w ≤ n)
    (hn : n < s.logger.currentSequence.toNat) (hbehind : s.NoneBehind n LogCall.hasWritten) : n = w := by
  by_contra hne
  have hleWritten := h.le_written
  obtain ⟨id, c, hc, hseq⟩ := h.inFlight.exists_call w (by omega) (by omega)
  obtain ⟨-, -, hstage⟩ := h.inFlight.stage id c _ hc hseq
  have hwritten := hbehind id c _ hc hseq (by omega)
  cases c with
  | sequenced | linked | stamped | signed => simp [LogCall.hasWritten] at hwritten
  | written entry => simp [Stage] at hstage
  | full => simp [LogCall.sequence?] at hseq

theorem Tracks.eq_appended (h : Tracks S hmac config s signed w a) {n : ℕ} (hle : a ≤ n)
    (hn : n < s.logger.currentSequence.toNat) (hbehind : s.NoneBehind n fun _ => false) : n = a := by
  by_contra hne
  obtain ⟨id, c, hc, hseq⟩ := h.inFlight.exists_call a (by omega) (by omega)
  simpa using hbehind id c a hc hseq (by omega)

theorem Tracks.log (h : Tracks S hmac config s signed w a) {id : ℕ} {event : AuditEvent F} (hid : s.calls id = none)
    (hroom : s.logger.currentSequence.toNat + 1 < 2 ^ 64) :
    Tracks S hmac config (({ s with logger := s.logger.advance } : LoggerRun F).setCall id
      (some (.sequenced event s.logger.currentSequence))) signed w a := by
  have hnext : (s.logger.currentSequence + 1).toNat = s.logger.currentSequence.toNat + 1 := by
    rw [UInt64.toNat_add, UInt64.toNat_one, Nat.mod_eq_of_lt hroom]
  have hwritten := h.written_le
  have hleWritten := h.le_written
  have hsigned := h.signed_le
  refine { h with signed_le := ?_, inFlight := ?_ }
  · simp only [setCall, Logger.advance, hnext]
    omega
  · simp only [setCall, Logger.advance, hnext]
    apply h.inFlight.start (by omega) hid rfl
    · exact hsigned
    · exact fun d k _ hd => hd

theorem Tracks.read (h : Tracks S hmac config s signed w a) {id : ℕ} {event : AuditEvent F} {n : UInt64}
    (hid : s.calls id = some (.sequenced event n)) (hbehind : s.NoneBehind n.toNat LogCall.hasStored) :
    Tracks S hmac config (s.setCall id (some (.linked event n s.logger.previousSignature))) signed w a := by
  obtain ⟨-, hn, hstage⟩ := h.inFlight.stage id _ n.toNat hid rfl
  refine { h with inFlight := h.inFlight.move hid rfl rfl ?_ fun d k _ hd => hd }
  exact ⟨h.eq_length hstage hn hbehind, h.previous⟩

theorem Tracks.stamp (h : Tracks S hmac config s signed w a) {id : ℕ} {event : AuditEvent F} {n : UInt64}
    {previous : Option Bytes} (hid : s.calls id = some (.linked event n previous)) :
    Tracks S hmac config (s.setCall id (some (.stamped event n previous s.logger.currentTs))) signed w a := by
  obtain ⟨-, -, hstage⟩ := h.inFlight.stage id _ n.toNat hid rfl
  exact { h with inFlight := h.inFlight.move hid rfl rfl hstage fun d k _ hd => hd }

/-- The call that signs is the next one after the signed entries, so that its entry
continues the chain. -/
theorem Tracks.sign (h : Tracks S hmac config s signed w a) {id : ℕ} {c : LogCall F} {event : AuditEvent F} {n : UInt64}
    {previous : Option Bytes} (hid : s.calls id = some c) (hseq : c.sequence? = some n.toNat)
    (hstage : n.toNat = signed.length ∧ previous = (chain F).lastHash none signed) (ts : Option TrustedTimestamp) :
    Tracks S hmac config (s.sign S hmac config id event n previous ts)
      (signed ++ [.new S hmac event n config.signingKey previous ts]) w a := by
  obtain ⟨hlength, hprevious⟩ := hstage
  obtain ⟨-, hn, -⟩ := h.inFlight.stage id c n.toNat hid hseq
  have hwritten := h.written_le
  have hleWritten := h.le_written
  have hsigned := h.signed_le
  refine ⟨?_, ?_, hleWritten, ?_, ?_, ?_, ?_, h.notWorm, ?_⟩
  · exact h.unforked.concat hprevious (SignedAuditEntry.verify_new ..) hlength
  · simp [LoggerRun.sign, setCall, Logger.storeSignature, chain]
  · simp only [List.length_append, List.length_singleton]
    omega
  · simp only [LoggerRun.sign, setCall, Logger.storeSignature, List.length_append, List.length_singleton]
    omega
  · rw [List.take_append_of_le_length (by omega)]
    exact h.appended
  · intro hworm
    obtain ⟨k, hk, hholds, hcount⟩ := h.worm hworm
    refine ⟨k, hk, ?_, hcount⟩
    rw [List.take_append_of_le_length (hk.trans hwritten)]
    exact hholds
  · apply h.inFlight.move hid hseq rfl
    · refine ⟨by omega, ?_⟩
      rw [hlength, List.getElem?_append_right (Nat.le_refl _), Nat.sub_self]
      rfl
    · intro d k hk hd
      cases d with
      | sequenced event m =>
        simp only [Stage, List.length_append, List.length_singleton] at hd ⊢
        omega
      | linked event m p => exact absurd (hd.1.trans hlength.symm) hk
      | stamped event m p t => exact absurd (hd.1.trans hlength.symm) hk
      | signed entry => exact ⟨hd.1, List.getElem?_append_left (List.getElem?_eq_some_iff.1 hd.2).1 ▸ hd.2⟩
      | written entry =>
        exact ⟨hd.1, hd.2.1, List.getElem?_append_left (List.getElem?_eq_some_iff.1 hd.2.2).1 ▸ hd.2.2⟩
      | full => trivial

theorem Tracks.write (h : Tracks S hmac config s signed w a) {id : ℕ} {entry : SignedAuditEntry F}
    (hid : s.calls id = some (.signed entry)) (hkind : config.kind = .worm)
    (hbehind : s.NoneBehind entry.sequence.toNat LogCall.hasWritten) {env : AppendEnv}
    (hnextAppend : s.AppendsNext S sha256 env entry) :
    Tracks S hmac config (({ s with logger := s.logger.writeWorm S sha256 env entry } : LoggerRun F).setCall id
      (some (.written entry))) signed (w + 1) a := by
  obtain ⟨-, hn, hle, hentry⟩ := h.inFlight.stage id _ _ hid rfl
  have hnext := h.eq_written hle hn hbehind
  rw [hnext] at hentry
  have hlt : w < signed.length := (List.getElem?_eq_some_iff.1 hentry).1
  have hleWritten := h.le_written
  have hsigned := h.signed_le
  have hroom := UInt64.toNat_lt s.logger.currentSequence
  refine { h with le_written := by omega, written_le := hlt, worm := ?_, notWorm := ?_, inFlight := ?_ }
  · intro hworm
    obtain ⟨k, hk, hholds, hcount⟩ := h.worm hworm
    have houtcome : s.logger.worm.append S sha256 env entry =
      ((s.logger.worm.append S sha256 env entry).1, (s.logger.worm.append S sha256 env entry).2) := rfl
    obtain ⟨happended, hleft⟩ := hholds.append houtcome
    rw [AppendsNext] at hnextAppend
    split at hnextAppend
    · -- the entries before this one are all there
      rename_i hok
      obtain ⟨hholds', hchain⟩ := happended hok
      obtain rfl : k = w := by rw [← hcount, hnextAppend, hnext]
      refine ⟨k + 1, Nat.le_refl _, ?_, ?_⟩
      · rw [List.take_add_one, hentry]
        exact hholds'
      · change (s.logger.worm.append S sha256 env entry).2.hashChain.entryCount.toNat = k + 1
        rw [hchain, HashChainState.update, UInt64.toNat_add, hcount, UInt64.toNat_one]
        exact Nat.mod_eq_of_lt (by omega)
    · rename_i e hfailed
      obtain ⟨hholds', hchain⟩ := hleft (by rw [hfailed]; rintro ⟨⟩) hnextAppend
      refine ⟨k, Nat.le_succ_of_le hk, hholds', ?_⟩
      change (s.logger.worm.append S sha256 env entry).2.hashChain.entryCount.toNat = k
      rw [hchain, hcount]
  · exact fun hne => absurd hkind hne
  · apply h.inFlight.move hid rfl rfl
    · exact ⟨hkind, by omega, by rw [hnext, hentry]⟩
    · intro d k hk hd
      rw [hnext] at hk
      cases d with
      | signed entry =>
        refine ⟨?_, hd.2⟩
        have := hd.1
        omega
      | written entry => exact ⟨hd.1, Nat.lt_succ_of_lt hd.2.1, hd.2.2⟩
      | _ => exact hd

/-- The entry that is pushed is the next one of the signed entries. -/
theorem Tracks.push (h : Tracks S hmac config s signed w a) {id : ℕ} {c : LogCall F} {entry : SignedAuditEntry F}
    (hid : s.calls id = some c) (hseq : c.sequence? = some entry.sequence.toNat)
    (hentry : signed[entry.sequence.toNat]? = some entry)
    (hwritten : config.kind = .worm → entry.sequence.toNat < w)
    (hbehind : s.NoneBehind entry.sequence.toNat fun _ => false) :
    Tracks S hmac config (s.push config id entry) signed (if config.kind = .worm then w else a + 1) (a + 1) := by
  obtain ⟨hle, hn, -⟩ := h.inFlight.stage id c _ hid hseq
  have hnext := h.eq_appended hle hn hbehind
  rw [hnext] at hentry hseq hwritten
  have hlt : a < signed.length := (List.getElem?_eq_some_iff.1 hentry).1
  have hfinish : ∀ Q : LogCall F → ℕ → Prop, (∀ d k, k ≠ a → Stage config signed w d k → Q d k) →
      InFlight LogCall.sequence? (s.push config id entry).calls (a + 1) s.logger.currentSequence.toNat Q := by
    intro Q hQ
    refine h.inFlight.finish hid hseq ?_ hQ
    intro d hd
    split at hd
    · rw [← Option.some.inj hd]
      rfl
    · cases hd
  refine ⟨h.unforked, h.previous, ?_, ?_, h.signed_le, ?_, ?_, ?_, hfinish _ ?_⟩
  · split
    · exact hwritten ‹_›
    · exact Nat.le_refl _
  · split
    · exact h.written_le
    · exact hlt
  · have happended : (s.push config id entry).logger.appended = s.logger.appended ++ [entry] := by
      simp [LoggerRun.push, setCall, Logger.appended, Logger.push]
    rw [happended, h.appended, List.take_add_one, hentry]
    rfl
  · intro hworm
    rw [if_pos hworm]
    exact h.worm hworm
  · exact fun hne => if_neg hne
  · intro d k hk hd
    by_cases hworm : config.kind = .worm
    · simpa only [hworm, if_true] using hd
    · rw [if_neg hworm]
      have hw := h.notWorm hworm
      cases d with
      | signed entry =>
        refine ⟨?_, hd.2⟩
        have := hd.1
        omega
      | written entry => exact absurd hd.1 hworm
      | _ => exact hd

theorem Tracks.flush (h : Tracks S hmac config s signed w a) :
    Tracks S hmac config { s with logger := s.logger.flush } signed w a := by
  refine { h with appended := ?_ }
  rw [← h.appended]
  simp [Logger.appended, Logger.flush]

/-- A step of ordered calls keeps a chain. -/
theorem Tracks.step (h : Tracks S hmac config s signed w a) {i : LogInput F} (hi : s.InOrder S sha256 config i) :
    ∃ signed w a, Tracks S hmac config (s.stepTo S hmac sha256 config i) signed w a := by
  cases i with
  | log id event =>
    rw [stepTo]
    cases hid : s.calls id with
    | some c => exact ⟨_, _, _, h⟩
    | none => exact ⟨_, _, _, h.log hid hi⟩
  | next id env =>
    rw [stepTo]
    cases hid : s.calls id with
    | none => exact ⟨_, _, _, h⟩
    | some c =>
      rw [InOrder, hid] at hi
      simp only [nextOf]
      cases c with
      | sequenced event n => exact ⟨_, _, _, h.read hid hi⟩
      | linked event n previous =>
        dsimp only
        split
        · exact ⟨_, _, _, h.stamp hid⟩
        · exact ⟨_, _, _, h.sign hid rfl (h.inFlight.stage id _ n.toNat hid rfl).2.2 none⟩
      | stamped event n previous ts =>
        exact ⟨_, _, _, h.sign hid rfl (h.inFlight.stage id _ n.toNat hid rfl).2.2 ts⟩
      | signed entry =>
        obtain ⟨-, -, -, hentry⟩ := h.inFlight.stage id _ _ hid rfl
        dsimp only at hi ⊢
        split at hi
        · rename_i hkind
          rw [if_pos hkind]
          exact ⟨_, _, _, h.write hid hkind hi.1 hi.2⟩
        · rename_i hkind
          rw [if_neg hkind]
          exact ⟨_, _, _, h.push hid rfl hentry (fun hworm => absurd hworm hkind) hi⟩
      | written entry =>
        obtain ⟨-, -, -, hlt, hentry⟩ := h.inFlight.stage id _ _ hid rfl
        exact ⟨_, _, _, h.push hid rfl hentry (fun _ => hlt) hi⟩
      | full => exact ⟨_, _, _, { h.flush with inFlight := h.inFlight.leave hid rfl }⟩
  | timestamp ts => exact ⟨signed, w, a, { h with }⟩
  | flush => exact ⟨_, _, _, h.flush⟩

end

/-! ## Every run of ordered calls -/

theorem appendsChain_of_inOrder {F : Type} (S : Formats F) (hmac : Bytes → Bytes → Bytes) (sha256 : Bytes → Bytes)
    (config : LoggerConfig) (rotationAge : ℕ) (inputs : List (LogInput F))
    (h : (step S hmac sha256 config).Along (fun _ s i => s.InOrder S sha256 config i) []
      (start sha256 config rotationAge) inputs) :
    (step S hmac sha256 config).Throughout (fun _ s => s.AppendsChain S hmac config) []
      (start sha256 config rotationAge) inputs := by
  have htracks := h.throughout (I := fun _ s => ∃ signed w a, Tracks S hmac config s signed w a)
    (fun _ s i hs hi => by
      obtain ⟨signed, w, a, hs⟩ := hs
      exact hs.step hi)
    ⟨[], 0, 0, tracks_start rotationAge⟩
  apply htracks.mono
  rintro _ s ⟨signed, w, a, hs⟩
  exact hs.appendsChain

/-- The second call reads the previous signature, and signs, before the first has appended
its entry. -/
def overlapping : List (LogInput Empty) :=
  [.log 0 (sampleEvent noMetadata), .log 1 (sampleEvent noMetadata), .next 0 sampleEnv, .next 0 sampleEnv,
    .next 1 sampleEnv, .next 1 sampleEnv, .next 0 sampleEnv, .next 1 sampleEnv]

theorem noneBehind_zero {F : Type} {s : LoggerRun F} {far : LogCall F → Bool} : s.NoneBehind 0 far := by
  intro id c m _ _ hm
  exact absurd hm (Nat.not_lt_zero m)

theorem appendsChain_overlapping :
    (step plainFormats Sha256.hmac Sha256.digest (sampleConfig .signed)).Throughout
      (fun _ s => s.AppendsChain plainFormats Sha256.hmac (sampleConfig .signed)) []
      (start Sha256.digest (sampleConfig .signed) 86400000000000) overlapping := by
  apply appendsChain_of_inOrder
  simp [Machine.Along, step, stepTo, nextOf, overlapping, start, InOrder, Logger.new, Logger.advance, setCall,
    sampleConfig, LoggerRun.sign, Logger.storeSignature, SignedAuditEntry.new, noneBehind_zero, push, Logger.push]
  constructor
  · -- the first call has stored its signature when the second reads
    intro id c m hc hm hlt
    simp only [Function.update_apply] at hc
    split_ifs at hc with hzero hone
    · rw [← Option.some.inj hc]
      rfl
    · rw [← Option.some.inj hc] at hm
      rw [← Option.some.inj hm] at hlt
      exact absurd hlt (by decide)
  · -- the first call has left when the second appends
    intro id c m hc hm hlt
    simp only [Function.update_apply] at hc
    split_ifs at hc with hzero hone
    rw [← Option.some.inj hc] at hm
    rw [← Option.some.inj hm] at hlt
    exact absurd hlt (by decide)

/-- Both calls read the previous signature before either has stored its own. -/
def overtaking : List (LogInput Empty) :=
  [.log 0 (sampleEvent noMetadata), .log 1 (sampleEvent noMetadata), .next 0 sampleEnv, .next 1 sampleEnv,
    .next 0 sampleEnv, .next 1 sampleEnv, .next 0 sampleEnv, .next 1 sampleEnv]

theorem forks_overtaking :
    ¬(step plainFormats Sha256.hmac Sha256.digest (sampleConfig .signed)).Throughout
      (fun _ s => s.AppendsChain plainFormats Sha256.hmac (sampleConfig .signed)) []
      (start Sha256.digest (sampleConfig .signed) 86400000000000) overtaking := by
  simp [Machine.Throughout, step, stepTo, nextOf, overtaking, start, AppendsChain, Logger.new, Logger.advance,
    setCall, sampleConfig, LoggerRun.sign, Logger.storeSignature, LoggerRun.push, Logger.push, Logger.appended]
  intro _ _ hchain
  -- the second entry names no signature, the first has one
  have hforked := (verifiesChain_iff.1 hchain.1).1.2.1
  simp [chain, SignedAuditEntry.new] at hforked

end LoggerRun

end GmKms.Audit
