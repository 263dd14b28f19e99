import GmKms.Audit.LogRun
/-!
# The WORM verifier on honest logs

What `read_all_entries` gives back of a log, and what `verify_chain` says to it. The
writer counts the entries from one and the verifier from zero, and the verifier
compares signatures with hashes, so that no log but the empty one is accepted.
-/

namespace GmKms.Audit

open Lib

namespace WormWriter

section

variable {F : Type} {S : Formats F} {w : WormWriter} {es : List (SignedAuditEntry F)}

/-! ## Reading back -/

theorem readEntries_contentOf (hS : S.Lawful) (hshallow : ∀ e ∈ es, e.payload.metadata.Shallow)
    (orders : ℕ → IterOrder (String × Value F)) :
    readEntries S orders (contentOf S es) = es.zipIdx.map fun p => p.1.reread S (orders p.2) := by
  rw [readEntries, lines_contentOf hS, List.zipIdx_map, List.filterMap_map, ← List.filterMap_eq_map]
  refine List.filterMap_congr fun p hp => ?_
  have hread := SignedAuditEntry.fromStr_line hS (hshallow p.1 (List.fst_mem_of_mem_zipIdx hp)) (orders p.2)
  have hnotBlank : (p.1.line S).isBlank = false := hS.notBlank _
  simp [hnotBlank, hread, Except.toOption]

/-- A file of the directory is read entry by entry. -/
theorem Holds.readEntries (h : w.Holds S es) (hS : S.Lawful) (hshallow : ∀ e ∈ es, e.payload.metadata.Shallow)
    {f : WormFile} (hf : f ∈ w.files) (orders : ℕ → IterOrder (String × Value F)) :
    (WormWriter.readEntries S orders f.content).length = f.content.lines.length ∧
      ∀ r ∈ WormWriter.readEntries S orders f.content, ∃ e ∈ es, ∃ order, r = e.reread S order := by
  obtain ⟨bs, hbs, rfl⟩ := h.blocks
  have hcontent := List.mem_map_of_mem (f := (·.content)) hf
  rw [hbs] at hcontent
  obtain ⟨b, hb, hcontent⟩ := List.mem_map.1 hcontent
  have hmem : ∀ e ∈ b, e ∈ bs.flatten := fun e he => List.mem_flatten.2 ⟨b, hb, he⟩
  rw [← hcontent, readEntries_contentOf hS fun e he => hshallow e (hmem e he), lines_contentOf hS]
  refine ⟨by simp, fun r hr => ?_⟩
  obtain ⟨p, hp, rfl⟩ := List.mem_map.1 hr
  exact ⟨p.1, hmem p.1 (List.fst_mem_of_mem_zipIdx hp), orders p.2, rfl⟩

theorem Holds.sum_lines (h : w.Holds S es) (hS : S.Lawful) :
    (w.files.map fun f => f.content.lines.length).sum = es.length := by
  obtain ⟨bs, hbs, rfl⟩ := h.blocks
  have hlines : w.files.map (fun f => f.content.lines.length) = (w.files.map (·.content)).map (·.lines.length) := by
    rw [List.map_map]
    rfl
  rw [hlines, hbs, List.map_map, List.length_flatten]
  congr 1
  refine List.map_congr_left fun b _ => ?_
  rw [Function.comp_apply, lines_contentOf hS, List.length_map]

/-- Every entry is read once, in some order of the files. -/
theorem Holds.readAllEntries (h : w.Holds S es) (hS : S.Lawful) (hshallow : ∀ e ∈ es, e.payload.metadata.Shallow)
    (listing : IterOrder WormFile) (orders : ℕ → ℕ → IterOrder (String × Value F)) :
    (w.readAllEntries S listing orders).length = es.length ∧
      ∀ r ∈ w.readAllEntries S listing orders, ∃ e ∈ es, ∃ order, r = e.reread S order := by
  have hlogs : (listing.arrange w.files).filter (fun f => extension? f.name = some "jsonl".toList) =
      listing.arrange w.files :=
    List.filter_eq_self.2 fun f hf => decide_eq_true (h.logs f ((listing.perm _).mem_iff.1 hf))
  have hfile : ∀ p ∈ (listing.arrange w.files).zipIdx, p.1 ∈ w.files := fun p hp =>
    (listing.perm _).mem_iff.1 (List.fst_mem_of_mem_zipIdx hp)
  rw [WormWriter.readAllEntries, hlogs]
  constructor
  · rw [List.length_map, List.length_mergeSort, List.length_flatMap]
    have hlengths : (listing.arrange w.files).zipIdx.map (fun p =>
        ((WormWriter.readEntries S (orders p.2) p.1.content).map (fileTimestamp p.1.name, ·)).length) =
          (listing.arrange w.files).zipIdx.map ((fun f => f.content.lines.length) ∘ Prod.fst) :=
      List.map_congr_left fun p hp => by
        rw [List.length_map, (h.readEntries hS hshallow (hfile p hp) _).1, Function.comp_apply]
    rw [hlengths, ← List.map_map, List.zipIdx_map_fst, ((listing.perm _).map _).sum_eq, h.sum_lines hS]
  · intro r hr
    obtain ⟨q, hq, rfl⟩ := List.mem_map.1 hr
    obtain ⟨p, hp, hq⟩ := List.mem_flatMap.1 ((List.mergeSort_perm _ _).mem_iff.1 hq)
    obtain ⟨r', hr', rfl⟩ := List.mem_map.1 hq
    exact (h.readEntries hS hshallow (hfile p hp) _).2 r' hr'

/-! ## The two checks -/

theorem valid_verifyChain_iff {sha256 : Bytes → Bytes} : (w.verifyChain S sha256 es).valid ↔
    firstInvalid S sha256 0 none es = none ∧
      (w.hashChain.entryCount ≠ 0 → .ofNat es.length = w.hashChain.entryCount - 1) := by
  rw [verifyChain]
  dsimp only
  split
  · rename_i hcount
    simp only [Bool.false_eq_true, false_iff, not_and]
    exact fun _ hlength => hcount.2.2 (hlength hcount.2.1)
  · rename_i hcount
    rw [Option.isNone_iff_eq_none]
    constructor
    · intro hnone
      refine ⟨hnone, fun hpos => ?_⟩
      by_contra hne
      exact hcount ⟨by simp [hnone], hpos, hne⟩
    · exact fun h => h.1

/-- The second entry has to name the hash of the first. -/
theorem firstInvalid_eq_none {sha256 : Bytes → Bytes} {a b : SignedAuditEntry F}
    (h : firstInvalid S sha256 0 none (a :: b :: es) = none) :
    b.previousSignature.getD [] = computeEntryHash S sha256 a := by
  by_contra hne
  simp [firstInvalid, hne] at h

end

end WormWriter

/-! ## Honest logs -/

section

variable {F : Type} (S : Formats F) (hmac : Bytes → Bytes → Bytes) (sha256 : Bytes → Bytes)

/-- The log in the directory of the writer is valid, for the writer itself and at a start,
and `verify_content` says the same. -/
def PassesVerifiers (key : Bytes) (w : WormWriter) : Prop :=
  ∀ listing orders lineOrders,
    (w.verifyChain S sha256 (w.readAllEntries S listing orders)).valid ∧
      (w.startupVerifyChain S sha256 listing orders).valid ∧
      (w.verifyChain S sha256 (w.readAllEntries S listing orders)).valid =
        (verifyContent S hmac key lineOrders w.content).valid

end

section

variable {F : Type} {S : Formats F} {hmac : Bytes → Bytes → Bytes} {sha256 : Bytes → Bytes} {key : Bytes}
  {w : WormWriter}
  {es : List (SignedAuditEntry F)}

/-- What `verify_content` accepts can be read. -/
theorem shallow_of_valid (hS : S.Lawful) {orders : ℕ → IterOrder (String × Value F)}
    (h : (verifyContent S hmac key orders (contentOf S es)).valid) : ∀ e ∈ es, e.payload.metadata.Shallow := by
  rw [verifyContent, lines_contentOf hS] at h
  cases hrun : verifyLines S hmac key orders 0 (es.map (·.line S)) ⟨none, none, 0⟩ with
  | error report =>
    rw [hrun] at h
    rw [not_valid_of_verifyLines_error hrun] at h
    cases h
  | ok st =>
    intro e he
    by_contra hdeep
    obtain ⟨i, hi⟩ := List.mem_iff_getElem?.1 (List.mem_map_of_mem (f := (·.line S)) he)
    obtain ⟨e', hread, -⟩ := read_of_verifyLines_ok hrun _ (List.mk_mem_zipIdx_iff_getElem?.2 hi)
    obtain ⟨err, herr⟩ := SignedAuditEntry.fromStr_line_deep hS hdeep (orders i)
    rw [herr] at hread
    cases hread

/-- A writer that has counted all of its entries passes only when it has none. -/
theorem eq_nil_of_passesVerifiers (hS : S.Lawful) (hholds : w.Holds S es)
    (hcount : w.hashChain.entryCount = .ofNat es.length)
    (hhash : ∀ e ∈ es, ∀ e' ∈ es, ∀ order,
      e'.previousSignature.getD [] ≠ WormWriter.computeEntryHash S sha256 (e.reread S order))
    (h : PassesVerifiers S hmac sha256 key w) : es = [] := by
  obtain ⟨hlive, -, hsame⟩ := h .inserted (fun _ _ => .inserted) fun _ => .inserted
  rw [hlive, hholds.content_eq] at hsame
  obtain ⟨hlength, hreread⟩ := hholds.readAllEntries hS (shallow_of_valid hS hsame.symm) .inserted fun _ _ => .inserted
  obtain ⟨hlinks, hcounts⟩ := WormWriter.valid_verifyChain_iff.1 hlive
  rw [hlength, hcount] at hcounts
  -- the count is wrong unless it has wrapped to zero, and then there are links
  have hzero : UInt64.ofNat es.length = 0 := by
    by_contra hne
    have hsucc := hcounts hne
    grind
  match hentries : w.readAllEntries S .inserted fun _ _ => .inserted with
  | [] => exact List.length_eq_zero_iff.1 (by rw [← hlength, hentries]; rfl)
  | [a] =>
    rw [← hlength, hentries] at hzero
    cases hzero
  | a :: b :: rest =>
    rw [hentries] at hlinks hreread
    obtain ⟨e, he, order, rfl⟩ := hreread a (by simp)
    obtain ⟨e', he', order', rfl⟩ := hreread b (by simp)
    exact absurd (WormWriter.firstInvalid_eq_none hlinks) (hhash e he e' he' order)

theorem holds_after_of_ok {config : LoggerConfig} (hkind : config.kind = .worm) {rotationAge : ℕ}
    {inputs : List (AuditEvent F × AppendEnv)} (hok : ∀ b ∈ appends S hmac sha256 config rotationAge inputs, b = true) :
    (Logger.after S hmac sha256 config rotationAge inputs).worm.Holds S
      (honestLog S hmac config.signingKey (events inputs)) ∧
      (Logger.after S hmac sha256 config rotationAge inputs).worm.hashChain.entryCount =
        .ofNat (honestLog S hmac config.signingKey (events inputs)).length := by
  obtain ⟨hholds, hcount⟩ := Logger.holds_logging_of_ok hkind (l := .new config (.new sha256 rotationAge [])) rfl rfl
    (WormWriter.holds_new sha256 rotationAge) hok
  refine ⟨hholds, ?_⟩
  rw [honestLog, length_signAll, events, List.length_map]
  exact hcount.trans (UInt64.zero_add _)

end

/-- The log of calls whose appends all succeed passes just when nothing was logged. -/
theorem passesVerifiers_after_iff {F : Type} {S : Formats F} (hS : S.Lawful) (hmac : Bytes → Bytes → Bytes)
    (sha256 : Bytes → Bytes) (config : LoggerConfig) (hkind : config.kind = .worm) (rotationAge : ℕ)
    (inputs : List (AuditEvent F × AppendEnv))
    (hok : ∀ b ∈ appends S hmac sha256 config rotationAge inputs, b = true)
    (hhash : ∀ e ∈ honestLog S hmac config.signingKey (events inputs),
      ∀ e' ∈ honestLog S hmac config.signingKey (events inputs), ∀ order,
        e'.previousSignature.getD [] ≠ WormWriter.computeEntryHash S sha256 (e.reread S order)) :
    PassesVerifiers S hmac sha256 config.signingKey (Logger.after S hmac sha256 config rotationAge inputs).worm ↔
      inputs = [] := by
  constructor
  · intro hpasses
    obtain ⟨hholds, hcount⟩ := holds_after_of_ok hkind hok
    exact honestLog_eq_nil_iff.1 (eq_nil_of_passesVerifiers hS hholds hcount hhash hpasses)
  · rintro rfl listing orders lineOrders
    have hnone : listing.arrange [] = [] := List.perm_nil.1 (listing.perm [])
    simp [Logger.after, Machine.final, Logger.new, WormWriter.new, WormWriter.readAllEntries, WormWriter.verifyChain,
      WormWriter.firstInvalid, WormWriter.startupVerifyChain, WormWriter.content, HashChainState.new, hnone]
    rfl

/-- The first entry names no hash, so that it names none of its own. -/
theorem ne_hash_one_call : ∀ e ∈ sampleLog 1, ∀ e' ∈ sampleLog 1, ∀ order,
    e'.previousSignature.getD [] ≠ WormWriter.computeEntryHash plainFormats Sha256.digest
      (e.reread plainFormats order) := by
  intro e _ e' he' order heq
  obtain rfl := List.mem_singleton.1 he'
  have hlength := congrArg List.length heq
  rw [WormWriter.computeEntryHash, Sha256.length_digest] at hlength
  cases hlength

theorem passesVerifiers_after_one_call :
    PassesVerifiers plainFormats Sha256.hmac Sha256.digest sampleKey
      (Logger.after plainFormats Sha256.hmac Sha256.digest
      (sampleConfig .worm) 86400000000000 (sampleCalls [sampleEnv])).worm ↔ sampleCalls [sampleEnv] = [] :=
  passesVerifiers_after_iff plainFormats_lawful Sha256.hmac Sha256.digest (sampleConfig .worm) rfl 86400000000000
    (sampleCalls [sampleEnv]) (by decide +kernel) ne_hash_one_call

theorem not_passesVerifiers_one_call :
    ¬PassesVerifiers plainFormats Sha256.hmac Sha256.digest sampleKey
      (Logger.after plainFormats Sha256.hmac Sha256.digest
      (sampleConfig .worm) 86400000000000 (sampleCalls [sampleEnv])).worm := by
  intro hpasses
  have hok : ∀ b ∈ appends plainFormats Sha256.hmac Sha256.digest (sampleConfig .worm) 86400000000000
      (sampleCalls [sampleEnv]), b = true := by decide +kernel
  obtain ⟨hholds, hcount⟩ := holds_after_of_ok rfl hok
  exact List.cons_ne_nil _ _ (eq_nil_of_passesVerifiers plainFormats_lawful hholds hcount ne_hash_one_call hpasses)

end GmKms.Audit
