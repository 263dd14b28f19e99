import GmKms.Audit.Logger
/-!
# Calls one after another

What a logger appends and what is on disk when `log` is called again and again, when
appends to the WORM files fail, and when the process is started again.
-/

namespace GmKms.Audit

open Lib

section

variable {F : Type} (S : Formats F) (hmac : Bytes → Bytes → Bytes) (sha256 : Bytes → Bytes) (config : LoggerConfig)

/-- The events of calls that find no trusted timestamp. -/
def events (inputs : List (AuditEvent F × AppendEnv)) : List (AuditEvent F × Option TrustedTimestamp) :=
  inputs.map fun i => (i.1, none)

/-- Which appends to the WORM files succeeded. -/
def succeeded (h : History (AuditEvent F × AppendEnv) (Except AuditError Unit)) : List Bool := h.map (·.2.isOk)

/-- The logger after calls from a new one on an empty directory. -/
def Logger.after (rotationAge : ℕ) (inputs : List (AuditEvent F × AppendEnv)) : Logger F :=
  (Logger.logging S hmac sha256 config).final (.new config (.new sha256 rotationAge [])) inputs

/-- Which of their appends succeeded. -/
def appends (rotationAge : ℕ) (inputs : List (AuditEvent F × AppendEnv)) : List Bool :=
  succeeded ((Logger.logging S hmac sha256 config).trace (.new config (.new sha256 rotationAge [])) inputs)

end

namespace Logger

section

variable {F : Type} {S : Formats F} {hmac : Bytes → Bytes → Bytes} {sha256 : Bytes → Bytes} {config : LoggerConfig}
  {l : Logger F} {env : AppendEnv} {event : AuditEvent F}

/-! ## What a call changes -/

theorem ite_flush {α : Type} (f : Logger F → α) (hf : ∀ l : Logger F, f l.flush = f l) (p : Prop) [Decidable p]
    (l : Logger F) : f (if p then l.flush else l) = f l := by
  split
  · exact hf l
  · rfl

@[simp] theorem currentSequence_log :
    (l.log S hmac sha256 config env event).currentSequence = l.currentSequence + 1 := by
  rw [log, ite_flush (·.currentSequence) fun _ => rfl]
  split <;> rfl

@[simp] theorem previousSignature_log :
    (l.log S hmac sha256 config env event).previousSignature = some (l.newEntry S hmac config event).signature := by
  rw [log, ite_flush (·.previousSignature) fun _ => rfl]
  split <;> rfl

@[simp] theorem currentTs_log : (l.log S hmac sha256 config env event).currentTs = l.currentTs := by
  rw [log, ite_flush (·.currentTs) fun _ => rfl]
  split <;> rfl

@[simp] theorem appended_log :
    (l.log S hmac sha256 config env event).appended = l.appended ++ [l.newEntry S hmac config event] := by
  rw [log, ite_flush appended fun l => by simp [appended, flush]]
  split <;> simp [appended, push, writeWorm, storeSignature, advance]

theorem worm_log (hkind : config.kind = .worm) :
    (l.log S hmac sha256 config env event).worm = (l.worm.append S sha256 env (l.newEntry S hmac config event)).2 := by
  rw [log, ite_flush (·.worm) fun _ => rfl, if_pos hkind]
  rfl

/-- Without a trusted timestamp, the entry is signed without one. -/
theorem newEntry_eq (hts : l.currentTs = none) : l.newEntry S hmac config event =
    .new S hmac event l.currentSequence config.signingKey l.previousSignature none := by
  simp [newEntry, hts]

/-! ## What a run appends -/

theorem appended_logging {inputs : List (AuditEvent F × AppendEnv)} {sequence : ℕ} (hts : l.currentTs = none)
    (hsequence : l.currentSequence = .ofNat sequence) :
    ((logging S hmac sha256 config).final l inputs).appended =
      l.appended ++ signAll S hmac config.signingKey sequence l.previousSignature (events inputs) := by
  induction inputs generalizing l sequence with
  | nil => simp [Machine.final, events, signAll]
  | cons i inputs ih =>
    have hnext : l.currentSequence + 1 = .ofNat (sequence + 1) := by
      rw [hsequence]
      simp
    rw [Machine.final, logging, ih (by simp [hts]) (currentSequence_log.trans hnext), appended_log,
      previousSignature_log, newEntry_eq hts, hsequence, List.append_assoc]
    rfl

/-- A call of the WORM logger signs the next entry and appends it to the files. -/
theorem logging_worm (hkind : config.kind = .worm) {sequence : ℕ} (hts : l.currentTs = none)
    (hsequence : l.currentSequence = .ofNat sequence) (i : AuditEvent F × AppendEnv) {e : SignedAuditEntry F}
    (he : e = .new S hmac i.1 (.ofNat sequence) config.signingKey l.previousSignature none) :
    ∃ l', logging S hmac sha256 config l i = ((l.worm.append S sha256 i.2 e).1, l') ∧
      l'.worm = (l.worm.append S sha256 i.2 e).2 ∧ l'.currentTs = none ∧
      l'.currentSequence = .ofNat (sequence + 1) ∧ l'.previousSignature = some e.signature := by
  have hentry : l.newEntry S hmac config i.1 = e := by rw [newEntry_eq hts, hsequence, he]
  refine ⟨l.log S hmac sha256 config i.2 i.1, ?_, ?_, ?_, ?_, ?_⟩
  · rw [logging, if_pos hkind, hentry]
  · rw [worm_log hkind, hentry]
  · rw [currentTs_log, hts]
  · rw [currentSequence_log, hsequence]
    simp
  · rw [previousSignature_log, hentry]

/-- The files hold the entries whose appends succeeded, where the others left the files as
they were. -/
theorem holds_logging (hkind : config.kind = .worm) {inputs : List (AuditEvent F × AppendEnv)} {sequence : ℕ}
    {es : List (SignedAuditEntry F)} (hts : l.currentTs = none) (hsequence : l.currentSequence = .ofNat sequence)
    (hholds : l.worm.Holds S es) (hleaves : ∀ i ∈ inputs, i.2.LeavesFiles) :
    ((logging S hmac sha256 config).final l inputs).worm.Holds S
      (es ++ HashLink.kept (signAll S hmac config.signingKey sequence l.previousSignature (events inputs))
        (succeeded ((logging S hmac sha256 config).trace l inputs))) := by
  induction inputs generalizing l sequence es with
  | nil => simpa [Machine.final, Machine.trace, events, signAll, HashLink.kept] using hholds
  | cons i inputs ih =>
    rw [List.forall_mem_cons] at hleaves
    obtain ⟨l', hstep, hworm, hts', hsequence', hprevious⟩ :=
      @logging_worm F S hmac sha256 config l hkind sequence hts hsequence i _ rfl
    generalize he : SignedAuditEntry.new S hmac i.1 (.ofNat sequence) config.signingKey l.previousSignature none = e
      at hstep hworm hprevious
    have happend := hholds.append (Prod.mk.eta (p := l.worm.append S sha256 i.2 e)).symm
    rw [← hworm] at happend
    simp only [Machine.final, Machine.trace, hstep, events, List.map_cons, signAll, succeeded, he]
    cases hresult : (l.worm.append S sha256 i.2 e).1 with
    | ok _ =>
      have hrun := ih hts' hsequence' (happend.1 hresult).1 hleaves.2
      rw [hprevious, List.append_assoc] at hrun
      exact hrun
    | error err =>
      have hrun := ih hts' hsequence' (happend.2 (by simp [hresult]) hleaves.1).1 hleaves.2
      rw [hprevious] at hrun
      exact hrun

/-- When all appends succeed, the files hold every entry and the writer has counted it. -/
theorem holds_logging_of_ok (hkind : config.kind = .worm) {inputs : List (AuditEvent F × AppendEnv)} {sequence : ℕ}
    {es : List (SignedAuditEntry F)} (hts : l.currentTs = none) (hsequence : l.currentSequence = .ofNat sequence)
    (hholds : l.worm.Holds S es) (hok : ∀ b ∈ succeeded ((logging S hmac sha256 config).trace l inputs), b = true) :
    ((logging S hmac sha256 config).final l inputs).worm.Holds S
        (es ++ signAll S hmac config.signingKey sequence l.previousSignature (events inputs)) ∧
      ((logging S hmac sha256 config).final l inputs).worm.hashChain.entryCount =
        l.worm.hashChain.entryCount + .ofNat inputs.length := by
  induction inputs generalizing l sequence es with
  | nil => simpa [Machine.final, events, signAll] using hholds
  | cons i inputs ih =>
    obtain ⟨l', hstep, hworm, hts', hsequence', hprevious⟩ :=
      @logging_worm F S hmac sha256 config l hkind sequence hts hsequence i _ rfl
    generalize he : SignedAuditEntry.new S hmac i.1 (.ofNat sequence) config.signingKey l.previousSignature none = e
      at hstep hworm hprevious
    have happend := hholds.append (Prod.mk.eta (p := l.worm.append S sha256 i.2 e)).symm
    rw [← hworm] at happend
    simp only [Machine.trace, hstep, succeeded, List.map_cons, List.forall_mem_cons] at hok
    cases hresult : (l.worm.append S sha256 i.2 e).1 with
    | ok _ =>
      obtain ⟨hholds', hchain⟩ := happend.1 hresult
      obtain ⟨hrun, hcount⟩ := ih hts' hsequence' hholds' hok.2
      rw [hprevious, List.append_assoc] at hrun
      simp only [Machine.final, hstep, events, List.map_cons, signAll, he]
      refine ⟨hrun, ?_⟩
      rw [hcount, hchain, HashChainState.update, List.length_cons, UInt64.add_assoc, Nat.add_comm]
      simp
    | error err => simp [hresult, Except.isOk, Except.toBool] at hok

end

end Logger

/-! ## Appends that fail -/

section

variable {F : Type} (S : Formats F) (hmac : Bytes → Bytes → Bytes) (sha256 : Bytes → Bytes)

/-- The content is that of linked entries, and the verifier accepts it. -/
def StoredChain (key : Bytes) (content : Text) : Prop :=
  (∃ es, content = contentOf S es ∧ (chain F).Linked none es) ∧
    ∀ orders, (verifyContent S hmac key orders content).valid

end

section

variable {F : Type} {S : Formats F}

theorem map_kept {α β : Type} (f : α → β) (l : List α) (keep : List Bool) :
    (HashLink.kept l keep).map f = HashLink.kept (l.map f) keep := by
  induction l generalizing keep with
  | nil => cases keep <;> rfl
  | cons a l ih => rcases keep with - | ⟨_ | _, keep⟩ <;> simp [HashLink.kept, ih]

theorem map_payload_signAll (hmac : Bytes → Bytes → Bytes) (key : Bytes) (sequence : ℕ)
    (previousSignature : Option Bytes)
    (events : List (AuditEvent F × Option TrustedTimestamp)) :
    (signAll S hmac key sequence previousSignature events).map (·.payload) = events.map (·.1) := by
  induction events generalizing sequence previousSignature with
  | nil => rfl
  | cons event events ih =>
    rw [signAll, List.map_cons, List.map_cons, ih]
    rfl

/-- Entries of a log that are on disk in this order are accepted when they are linked and survive. -/
theorem storedChain_iff (hS : S.Lawful) {hmac : Bytes → Bytes → Bytes} {key : Bytes} {es : List (SignedAuditEntry F)}
    (hverify : ∀ e ∈ es, e.verify S hmac key) (hmac_inj : (messages S es).InjOn (hmac key)) :
    StoredChain S hmac key (contentOf S es) ↔
      (chain F).Linked none es ∧ ∀ e ∈ es, e.payload.metadata.Survives S := by
  have hvalid : ∀ orders, (verifyContent S hmac key orders (contentOf S es)).valid ↔ _ := fun _ =>
    valid_verifyContent_iff hS (lines_contentOf hS es) hverify hmac_inj
  constructor
  · rintro ⟨-, haccepted⟩
    refine ⟨((hvalid fun _ => .inserted).1 (haccepted _)).2, fun e he => Metadata.survives_iff_reread.2 fun order => ?_⟩
    obtain ⟨i, hi⟩ := List.mem_iff_getElem?.1 he
    exact ((hvalid fun _ => order).1 (haccepted _)).1 (e, i) (List.mk_mem_zipIdx_iff_getElem?.2 hi)
  · rintro ⟨hlinked, hsurvives⟩
    refine ⟨⟨es, rfl, hlinked⟩, fun orders => (hvalid orders).2 ⟨fun p hp => ?_, hlinked⟩⟩
    exact Metadata.survives_iff_reread.1 (hsurvives p.1 (List.fst_mem_of_mem_zipIdx hp)) (orders p.2)

theorem length_signAll (hmac : Bytes → Bytes → Bytes) (key : Bytes) (sequence : ℕ) (previousSignature : Option Bytes)
    (events : List (AuditEvent F × Option TrustedTimestamp)) :
    (signAll S hmac key sequence previousSignature events).length = events.length := by
  rw [← List.length_map, map_payload_signAll, List.length_map]

section

variable {hmac : Bytes → Bytes → Bytes} {sha256 : Bytes → Bytes} {config : LoggerConfig} {rotationAge : ℕ}
  {inputs : List (AuditEvent F × AppendEnv)}

theorem length_appends : (appends S hmac sha256 config rotationAge inputs).length = inputs.length := by
  rw [appends, succeeded, List.length_map, Machine.length_trace]

/-- The files hold the entries whose appends succeeded. -/
theorem content_after (hkind : config.kind = .worm) (hleaves : ∀ i ∈ inputs, i.2.LeavesFiles) :
    (Logger.after S hmac sha256 config rotationAge inputs).worm.Holds S
      (HashLink.kept (honestLog S hmac config.signingKey (events inputs))
        (appends S hmac sha256 config rotationAge inputs)) :=
  Logger.holds_logging hkind (l := .new config (.new sha256 rotationAge [])) rfl rfl
    (WormWriter.holds_new sha256 rotationAge) hleaves

end

/-- What is on disk is accepted just when no append failed between two that succeeded, and
the events that are on disk survive. -/
theorem storedChain_after_iff (hS : S.Lawful) (hmac : Bytes → Bytes → Bytes) (sha256 : Bytes → Bytes)
    (config : LoggerConfig) (hkind : config.kind = .worm) (rotationAge : ℕ) (inputs : List (AuditEvent F × AppendEnv))
    (hleaves : ∀ i ∈ inputs, i.2.LeavesFiles)
    (hmac_inj : (messages S (honestLog S hmac config.signingKey (events inputs))).InjOn (hmac config.signingKey))
    (hnodup : ((honestLog S hmac config.signingKey (events inputs)).map (·.signature)).Nodup) :
    StoredChain S hmac config.signingKey (Logger.after S hmac sha256 config rotationAge inputs).worm.content ↔
      ¬[true, false, true].Sublist (appends S hmac sha256 config rotationAge inputs) ∧
      ∀ event ∈ HashLink.kept (inputs.map (·.1)) (appends S hmac sha256 config rotationAge inputs),
        event.metadata.Survives S := by
  have hlog : (chain F).Chained none (honestLog S hmac config.signingKey (events inputs)) :=
    signAll_chained S hmac config.signingKey 0 none (events inputs)
  have hlength : (appends S hmac sha256 config rotationAge inputs).length =
      (honestLog S hmac config.signingKey (events inputs)).length := by
    rw [length_appends, honestLog, length_signAll, events, List.length_map]
  have hpayloads : (HashLink.kept (honestLog S hmac config.signingKey (events inputs))
      (appends S hmac sha256 config rotationAge inputs)).map (·.payload) =
        HashLink.kept (inputs.map (·.1)) (appends S hmac sha256 config rotationAge inputs) := by
    rw [map_kept, honestLog, map_payload_signAll, events, List.map_map]
    rfl
  have hverify : ∀ e ∈ HashLink.kept (honestLog S hmac config.signingKey (events inputs))
      (appends S hmac sha256 config rotationAge inputs), e.verify S hmac config.signingKey :=
    fun e he => verify_of_mem_signAll S hmac config.signingKey (HashLink.mem_of_mem_kept he)
  have hsub : messages S (HashLink.kept (honestLog S hmac config.signingKey (events inputs))
      (appends S hmac sha256 config rotationAge inputs)) ⊆
        messages S (honestLog S hmac config.signingKey (events inputs)) := by
    rintro _ ⟨e, he, hb⟩
    exact ⟨e, HashLink.mem_of_mem_kept he, hb⟩
  rw [(content_after hkind hleaves).content_eq, storedChain_iff hS hverify (hmac_inj.mono hsub),
    hlog.linked_kept_iff hnodup hlength, ← hpayloads, List.forall_mem_map]

end

/-- Calls with an event without metadata, under these environments. -/
def sampleCalls (envs : List AppendEnv) : List (AuditEvent Empty × AppendEnv) := envs.map (sampleEvent noMetadata, ·)

def fullDisk : AppendEnv :=
  { sampleEnv with fails := fun op => if op = .write then some "No space left on device (os error 28)" else none }

def fullDiskCalls : List (AuditEvent Empty × AppendEnv) := sampleCalls [sampleEnv, fullDisk, sampleEnv]

theorem nodup_signature_sampleLog : ((sampleLog 3).map (·.signature)).Nodup := by decide +kernel

theorem storedChain_after_iff_fullDisk :
    StoredChain plainFormats Sha256.hmac sampleKey (Logger.after plainFormats Sha256.hmac Sha256.digest
        (sampleConfig .worm) 86400000000000 fullDiskCalls).worm.content ↔
      ¬[true, false, true].Sublist (appends plainFormats Sha256.hmac Sha256.digest (sampleConfig .worm) 86400000000000
        fullDiskCalls) ∧
      ∀ event ∈ HashLink.kept (fullDiskCalls.map (·.1)) (appends plainFormats Sha256.hmac Sha256.digest
        (sampleConfig .worm) 86400000000000 fullDiskCalls), event.metadata.Survives plainFormats :=
  storedChain_after_iff plainFormats_lawful Sha256.hmac Sha256.digest (sampleConfig .worm) rfl 86400000000000
    fullDiskCalls (by simp [fullDiskCalls, sampleCalls, AppendEnv.LeavesFiles, sampleEnv, fullDisk])
    (injOn_messages_sampleLog nodup_signature_sampleLog) nodup_signature_sampleLog

/-- The entry of the call in the middle is not on disk, and the next one names it. -/
theorem not_storedChain_fullDisk :
    ¬StoredChain plainFormats Sha256.hmac sampleKey (Logger.after plainFormats Sha256.hmac Sha256.digest
      (sampleConfig .worm) 86400000000000 fullDiskCalls).worm.content := by
  have happends : appends plainFormats Sha256.hmac Sha256.digest (sampleConfig .worm) 86400000000000
      fullDiskCalls = [true, false, true] := by
    decide +kernel
  have hcontent := (@content_after _ plainFormats Sha256.hmac Sha256.digest (sampleConfig .worm) 86400000000000
    fullDiskCalls rfl (by simp [fullDiskCalls, sampleCalls, AppendEnv.LeavesFiles, sampleEnv, fullDisk])).content_eq
  rw [happends] at hcontent
  rintro ⟨-, haccepted⟩
  rw [hcontent] at haccepted
  have hmem : ∀ e ∈ HashLink.kept (sampleLog 3) [true, false, true], e ∈ sampleLog 3 := fun _ he =>
    HashLink.mem_of_mem_kept he
  have hlinked := (valid_iff_linked_of_readsBack plainFormats_lawful (lines_contentOf plainFormats_lawful _)
    (fun e he => verify_of_mem_signAll _ _ _ (hmem e he)) (fun p hp => by
      have hsurvives := survives_of_mem_signAll (hmem p.1 (List.fst_mem_of_mem_zipIdx hp))
      exact SignedAuditEntry.readsBack_inserted ⟨hsurvives.shallow, hsurvives.stable⟩)).1 (haccepted fun _ => .inserted)
  have hprev := hlinked.2.1 _ rfl
  revert hprev
  decide +kernel

/-! ## Processes one after another -/

section

variable {F : Type} (S : Formats F) (hmac : Bytes → Bytes → Bytes) (sha256 : Bytes → Bytes) (config : LoggerConfig)
  (rotationAge : ℕ)

/-- The entries of processes that run one after another on a directory, each started with
the number of the entries before it as its `initial_sequence`. -/
def loggedBy : List WormFile → ℕ → List (List (AuditEvent F × AppendEnv)) → List (SignedAuditEntry F)
  | _, _, [] => []
  | files, n, run :: runs =>
    let config := { config with initialSequence := .ofNat n }
    let l := (Logger.logging S hmac sha256 config).final (.new config (.new sha256 rotationAge files)) run
    l.appended ++ loggedBy l.worm.files (n + run.length) runs

/-- The `i`-th entry has sequence number `i` and links to the one before it. -/
def Continues (es : List (SignedAuditEntry F)) : Prop :=
  (chain F).Chained none es ∧ es.map (·.sequence.toNat) = List.range es.length

variable {S hmac sha256 config rotationAge}

/-- Every process starts a log of its own. -/
theorem loggedBy_eq (files : List WormFile) (n : ℕ) (runs : List (List (AuditEvent F × AppendEnv))) :
    loggedBy S hmac sha256 config rotationAge files n runs =
      runs.flatMap fun run => honestLog S hmac config.signingKey (events run) := by
  induction runs generalizing files n with
  | nil => rfl
  | cons run runs ih =>
    rw [loggedBy, ih, List.flatMap_cons, @Logger.appended_logging F S hmac sha256 _ _ _ 0 rfl rfl]
    rfl

theorem honestLog_eq_nil_iff {run : List (AuditEvent F × AppendEnv)} {key : Bytes} :
    honestLog S hmac key (events run) = [] ↔ run = [] := by
  rw [← List.length_eq_zero_iff, honestLog, length_signAll, events, List.length_map, List.length_eq_zero_iff]

/-- Behind an entry of an earlier process, no process may log. -/
theorem chained_some_flatMap_iff (key : Bytes) (h : Bytes) (runs : List (List (AuditEvent F × AppendEnv))) :
    (chain F).Chained (some h) (runs.flatMap fun run => honestLog S hmac key (events run)) ↔
      runs.countP (!·.isEmpty) = 0 := by
  induction runs with
  | nil => simp [HashLink.Chained]
  | cons run runs ih =>
    cases run with
    | nil => simpa [honestLog, events, signAll] using ih
    | cons i run =>
      refine iff_of_false ?_ (by simp)
      intro hchained
      cases hchained.1

/-- The entries are one chain just when at most one process logs. -/
theorem chained_flatMap_iff (key : Bytes) (runs : List (List (AuditEvent F × AppendEnv))) :
    (chain F).Chained none (runs.flatMap fun run => honestLog S hmac key (events run)) ↔
      runs.countP (!·.isEmpty) ≤ 1 := by
  induction runs with
  | nil => simp [HashLink.Chained]
  | cons run runs ih =>
    cases run with
    | nil => simpa [honestLog, events, signAll] using ih
    | cons i run =>
      have hfirst : (chain F).Chained none (honestLog S hmac key (events (i :: run))) := signAll_chained ..
      obtain ⟨h, hlast⟩ : ∃ h, (chain F).lastHash none (honestLog S hmac key (events (i :: run))) = some h := by
        cases hlog : honestLog S hmac key (events (i :: run)) with
        | nil => exact absurd (honestLog_eq_nil_iff.1 hlog) (List.cons_ne_nil i run)
        | cons e es => simp [HashLink.lastHash, List.getLast?_cons]
      rw [List.flatMap_cons, HashLink.chained_append, hlast, chained_some_flatMap_iff]
      simp [hfirst]

theorem length_flatMap_honestLog (key : Bytes) (runs : List (List (AuditEvent F × AppendEnv))) :
    (runs.flatMap fun run => honestLog S hmac key (events run)).length = (runs.map List.length).sum := by
  simp [List.length_flatMap, honestLog, length_signAll, events]

/-- With at most one process that logs, the entries are those of a single log. -/
theorem flatMap_eq_of_countP_le {α β : Type} {f : List α → List β} (hf : f [] = []) {runs : List (List α)}
    (h : runs.countP (!·.isEmpty) ≤ 1) : runs.flatMap f = f runs.flatten := by
  induction runs with
  | nil => simp [hf]
  | cons run runs ih =>
    cases run with
    | nil => simpa [hf] using ih (by simpa using h)
    | cons i run =>
      have hnone : ∀ r ∈ runs, r = [] := by simpa using h
      have hrest : runs.flatMap f = [] := List.flatMap_eq_nil_iff.2 fun r hr => by rw [hnone r hr, hf]
      have hflat : runs.flatten = [] := List.flatten_eq_nil_iff.2 hnone
      rw [List.flatMap_cons, List.flatten_cons, hrest, hflat, List.append_nil, List.append_nil]

end

/-- Sequence numbers and links continue over processes just when at most one of them logs
anything, and its numbers do not run out. -/
theorem continues_loggedBy_iff {F : Type} (S : Formats F) (hmac : Bytes → Bytes → Bytes) (sha256 : Bytes → Bytes)
    (config : LoggerConfig) (rotationAge : ℕ) (runs : List (List (AuditEvent F × AppendEnv))) :
    Continues (loggedBy S hmac sha256 config rotationAge [] 0 runs) ↔
      runs.countP (!·.isEmpty) ≤ 1 ∧ (runs.map List.length).sum ≤ 2 ^ 64 := by
  rw [loggedBy_eq, Continues, chained_flatMap_iff, length_flatMap_honestLog]
  refine and_congr_right fun hone => ?_
  have hflat : runs.flatMap (fun run => honestLog S hmac config.signingKey (events run)) =
      honestLog S hmac config.signingKey (events runs.flatten) :=
    flatMap_eq_of_countP_le (f := fun run => honestLog S hmac config.signingKey (events run)) rfl hone
  rw [hflat]
  constructor
  · intro hsequence
    by_contra hlt
    have hmem : 2 ^ 64 ∈ List.range (runs.map List.length).sum := List.mem_range.2 (Nat.not_le.1 hlt)
    rw [← hsequence] at hmem
    obtain ⟨e, -, he⟩ := List.mem_map.1 hmem
    exact absurd he (Nat.ne_of_lt e.sequence.toNat_lt)
  · intro hle
    have hlength : (events runs.flatten).length = (runs.map List.length).sum := by
      rw [events, List.length_map, List.length_flatten]
    rw [honestLog, map_sequence_signAll S hmac config.signingKey (by rw [hlength]; omega), hlength,
      List.range_eq_range']

/-- The second of two processes starts at zero again. -/
theorem not_continues_two_processes :
    ¬Continues (loggedBy plainFormats Sha256.hmac Sha256.digest (sampleConfig .signed) 86400000000000 [] 0
      [sampleCalls [sampleEnv], sampleCalls [sampleEnv]]) := by
  rw [loggedBy_eq, Continues, chained_flatMap_iff]
  simp [sampleCalls]

end GmKms.Audit
