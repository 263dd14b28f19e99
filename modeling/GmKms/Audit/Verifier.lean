import GmKms.Audit.HonestLog
/-!
# The integrity verifier

`IntegrityVerifier::verify_content`, and which rearrangements of an honest log it
accepts.
-/

namespace GmKms.Audit

open Lib

/-- What a verification reports. -/
structure VerificationReport where
  valid : Bool
  entriesChecked : ℕ
  firstInvalidIndex : Option ℕ
  error : Option String
  deriving DecidableEq

/-- What the loop over the lines carries. -/
structure VerifyState where
  prevSignature : Option Bytes
  firstInvalidIndex : Option ℕ
  entriesChecked : ℕ

section

variable {F : Type} (S : Formats F) (hmac : Bytes → Bytes → Bytes) (signingKey : Bytes)

/-- The first index that is invalid once entry `i` is read. -/
def VerifyState.checkLink (st : VerifyState) (i : ℕ) (entry : SignedAuditEntry F) : Option ℕ :=
  match st.prevSignature with
  | some expectedPrev =>
    if entry.previousSignature ≠ some expectedPrev then st.firstInvalidIndex.or (some i) else st.firstInvalidIndex
  | none => st.firstInvalidIndex

/-- The loop body for line `i`; the error is the report of an early return. -/
def verifyLine (order : IterOrder (String × Value F)) (i : ℕ) (line : Text) (st : VerifyState) :
    Except VerificationReport VerifyState :=
  match SignedAuditEntry.fromStr S order line with
  | .error e => .error
      { valid := false, entriesChecked := i, firstInvalidIndex := some i,
        error := some s!"Failed to parse entry {i}: {e}" }
  | .ok entry =>
    if !entry.verify S hmac signingKey then .error
      { valid := false, entriesChecked := i + 1, firstInvalidIndex := some i,
        error := some s!"Signature verification failed at entry {i}" }
    else .ok
      { prevSignature := some entry.signature, firstInvalidIndex := st.checkLink i entry, entriesChecked := i + 1 }

/-- The loop: the map that line `i` makes is iterated in the order `orders i`. -/
def verifyLines (orders : ℕ → IterOrder (String × Value F)) :
    ℕ → List Text → VerifyState → Except VerificationReport VerifyState
  | _, [], st => .ok st
  | i, line :: lines, st =>
    match verifyLine S hmac signingKey (orders i) i line st with
    | .error report => .error report
    | .ok st => verifyLines orders (i + 1) lines st

/-- `IntegrityVerifier::verify_content`. -/
def verifyContent (orders : ℕ → IterOrder (String × Value F)) (content : Text) : VerificationReport :=
  match verifyLines S hmac signingKey orders 0 content.lines ⟨none, none, 0⟩ with
  | .error report => report
  | .ok st =>
    { valid := st.firstInvalidIndex.isNone
      entriesChecked := st.entriesChecked
      firstInvalidIndex := st.firstInvalidIndex
      error := st.firstInvalidIndex.map fun i => s!"Chain broken at entry {i}" }

end

/-! ## Lines of any content -/

section

variable {F : Type} {S : Formats F} {hmac : Bytes → Bytes → Bytes} {signingKey : Bytes}
  {orders : ℕ → IterOrder (String × Value F)}

theorem verifyLine_ok_iff {order : IterOrder (String × Value F)} {i : ℕ} {line : Text} {st st' : VerifyState} :
    verifyLine S hmac signingKey order i line st = .ok st' ↔
      ∃ e, SignedAuditEntry.fromStr S order line = .ok e ∧ e.verify S hmac signingKey ∧
        st' = ⟨some e.signature, st.checkLink i e, i + 1⟩ := by
  unfold verifyLine
  cases hread : SignedAuditEntry.fromStr S order line with
  | error err => simp
  | ok e =>
    cases hverify : e.verify S hmac signingKey with
    | false => simp [hverify]
    | true => simpa [hverify] using eq_comm

theorem not_valid_of_verifyLine_error {order : IterOrder (String × Value F)} {i : ℕ} {line : Text} {st : VerifyState}
    {report : VerificationReport} (h : verifyLine S hmac signingKey order i line st = .error report) :
    report.valid = false := by
  unfold verifyLine at h
  split at h
  · exact (Except.error.inj h) ▸ rfl
  · split at h
    · exact (Except.error.inj h) ▸ rfl
    · cases h

theorem not_valid_of_verifyLines_error {i : ℕ} {lines : List Text} {st : VerifyState} {report : VerificationReport}
    (h : verifyLines S hmac signingKey orders i lines st = .error report) : report.valid = false := by
  induction lines generalizing i st with
  | nil => cases h
  | cons line lines ih =>
    rw [verifyLines] at h
    split at h
    · next hline => exact not_valid_of_verifyLine_error ((Except.error.inj h) ▸ hline)
    · exact ih h

/-- When the loop runs to its end, every line has been read and verified. -/
theorem read_of_verifyLines_ok {i : ℕ} {lines : List Text} {st st' : VerifyState}
    (h : verifyLines S hmac signingKey orders i lines st = .ok st') :
    ∀ p ∈ lines.zipIdx i, ∃ e, SignedAuditEntry.fromStr S (orders p.2) p.1 = .ok e ∧ e.verify S hmac signingKey := by
  induction lines generalizing i st with
  | nil => exact fun p hp => absurd hp List.not_mem_nil
  | cons line lines ih =>
    rw [verifyLines] at h
    rw [List.zipIdx_cons, List.forall_mem_cons]
    split at h
    · cases h
    · next hline =>
      obtain ⟨e, hread, hverify, -⟩ := verifyLine_ok_iff.1 hline
      exact ⟨⟨e, hread, hverify⟩, ih h⟩

theorem checkLink_eq_none_iff {st : VerifyState} {i : ℕ} {e : SignedAuditEntry F} :
    st.checkLink i e = none ↔ st.firstInvalidIndex = none ∧ ∀ p ∈ st.prevSignature, e.previousSignature = some p := by
  unfold VerifyState.checkLink
  cases st.prevSignature with
  | none => simp
  | some p => by_cases hp : e.previousSignature = some p <;> simp [hp]

end

/-! ## Lines of entries -/

/-- The content of a file of entries. -/
def contentOf {F : Type} (S : Formats F) (es : List (SignedAuditEntry F)) : Text := Text.unlines (es.map (·.line S))

section

variable {F : Type} {S : Formats F} {hmac : Bytes → Bytes → Bytes} {signingKey : Bytes}
  {orders : ℕ → IterOrder (String × Value F)}

theorem lines_contentOf (hS : S.Lawful) (es : List (SignedAuditEntry F)) :
    (contentOf S es).lines = es.map (·.line S) :=
  Text.lines_unlines fun l hl => by
    obtain ⟨e, -, rfl⟩ := List.mem_map.1 hl
    exact hS.oneLine _

/-- The entry is read back as it was. -/
def SignedAuditEntry.ReadsBack (S : Formats F) (order : IterOrder (String × Value F)) (e : SignedAuditEntry F) : Prop :=
  e.payload.metadata.Shallow ∧ e.payload.metadata.reread S order = e.payload.metadata

theorem SignedAuditEntry.fromStr_of_readsBack (hS : S.Lawful) {order : IterOrder (String × Value F)}
    {e : SignedAuditEntry F} (h : e.ReadsBack S order) : fromStr S order (e.line S) = .ok e := by
  rw [fromStr_line hS h.1, reread, AuditEvent.reread, h.2]

/-- Entries that are read back as they were pass up to the links between them. -/
theorem verifyLines_of_readsBack (hS : S.Lawful) {es : List (SignedAuditEntry F)} {i : ℕ} (st : VerifyState)
    (hverify : ∀ e ∈ es, e.verify S hmac signingKey) (hreads : ∀ p ∈ es.zipIdx i, p.1.ReadsBack S (orders p.2)) :
    ∃ st', verifyLines S hmac signingKey orders i (es.map (·.line S)) st = .ok st' ∧
      (st'.firstInvalidIndex = none ↔ st.firstInvalidIndex = none ∧ (chain F).Linked st.prevSignature es) ∧
      (st.entriesChecked = i → st'.entriesChecked = i + es.length) := by
  induction es generalizing i st with
  | nil => exact ⟨st, rfl, by simp [HashLink.Linked], fun h => h⟩
  | cons e es ih =>
    rw [List.zipIdx_cons, List.forall_mem_cons] at hreads
    rw [List.forall_mem_cons] at hverify
    have hline : verifyLine S hmac signingKey (orders i) i (e.line S) st =
        .ok ⟨some e.signature, st.checkLink i e, i + 1⟩ :=
      verifyLine_ok_iff.2 ⟨e, SignedAuditEntry.fromStr_of_readsBack hS hreads.1, hverify.1, rfl⟩
    obtain ⟨st', hok, hnone, hcount⟩ := ih ⟨some e.signature, st.checkLink i e, i + 1⟩ hverify.2 hreads.2
    refine ⟨st', ?_, ?_, fun _ => (hcount rfl).trans (by rw [List.length_cons]; omega)⟩
    · rw [List.map_cons, verifyLines, hline]
      exact hok
    · rw [hnone, checkLink_eq_none_iff, and_assoc]
      rfl

theorem verifyContent_of_readsBack (hS : S.Lawful) {es : List (SignedAuditEntry F)} {content : Text}
    (hcontent : content.lines = es.map (·.line S)) (hverify : ∀ e ∈ es, e.verify S hmac signingKey)
    (hreads : ∀ p ∈ es.zipIdx, p.1.ReadsBack S (orders p.2)) (hlinked : (chain F).Linked none es) :
    verifyContent S hmac signingKey orders content = ⟨true, es.length, none, none⟩ := by
  obtain ⟨st', hok, hnone, hcount⟩ := verifyLines_of_readsBack hS ⟨none, none, 0⟩ hverify hreads
  have hfirst : st'.firstInvalidIndex = none := hnone.2 ⟨rfl, hlinked⟩
  have hchecked : st'.entriesChecked = es.length := (hcount rfl).trans (Nat.zero_add _)
  rw [verifyContent, hcontent, hok]
  simp only [hfirst, hchecked]
  rfl

theorem valid_iff_linked_of_readsBack (hS : S.Lawful) {es : List (SignedAuditEntry F)} {content : Text}
    (hcontent : content.lines = es.map (·.line S)) (hverify : ∀ e ∈ es, e.verify S hmac signingKey)
    (hreads : ∀ p ∈ es.zipIdx, p.1.ReadsBack S (orders p.2)) :
    (verifyContent S hmac signingKey orders content).valid ↔ (chain F).Linked none es := by
  obtain ⟨st', hok, hnone, -⟩ := verifyLines_of_readsBack hS ⟨none, none, 0⟩ hverify hreads
  rw [verifyContent, hcontent, hok]
  simp only [Option.isNone_iff_eq_none, hnone, true_and]

/-- Whether a content made of entries is valid. -/
theorem valid_verifyContent_iff (hS : S.Lawful) {es : List (SignedAuditEntry F)} {content : Text}
    (hcontent : content.lines = es.map (·.line S)) (hverify : ∀ e ∈ es, e.verify S hmac signingKey)
    (hmac_inj : (messages S es).InjOn (hmac signingKey)) :
    (verifyContent S hmac signingKey orders content).valid ↔
      (∀ p ∈ es.zipIdx, p.1.ReadsBack S (orders p.2)) ∧ (chain F).Linked none es := by
  by_cases hreads : ∀ p ∈ es.zipIdx, p.1.ReadsBack S (orders p.2)
  · rw [valid_iff_linked_of_readsBack hS hcontent hverify hreads]
    exact ⟨fun h => ⟨hreads, h⟩, And.right⟩
  · refine iff_of_false ?_ fun h => hreads h.1
    rw [verifyContent, hcontent]
    cases hrun : verifyLines S hmac signingKey orders 0 (es.map (·.line S)) ⟨none, none, 0⟩ with
    | error report => simp [not_valid_of_verifyLines_error hrun]
    | ok st' =>
      refine absurd (fun p hp => ?_) hreads
      have hmem : p.1 ∈ es := List.fst_mem_of_mem_zipIdx hp
      have hline : (p.1.line S, p.2) ∈ (es.map (·.line S)).zipIdx := by
        rw [List.zipIdx_map]
        exact List.mem_map_of_mem hp
      have hsub : p.1.messages S ⊆ messages S es := fun _ hb => ⟨p.1, hmem, hb⟩
      exact (SignedAuditEntry.fromStr_verify_iff hS (hmac_inj.mono hsub) (hverify p.1 hmem) (orders p.2)).1
        (read_of_verifyLines_ok hrun _ hline)

end

/-! ## Rearranged logs -/

section

variable {F : Type} {S : Formats F}

/-- In some order of the new map, the entry is read back as it was. -/
def SignedAuditEntry.Readable (S : Formats F) (e : SignedAuditEntry F) : Prop :=
  e.payload.metadata.Shallow ∧ e.payload.metadata.Stable S

theorem SignedAuditEntry.readsBack_inserted {e : SignedAuditEntry F} (h : e.Readable S) : e.ReadsBack S .inserted :=
  ⟨h.1, Metadata.reread_inserted_of_stable h.2⟩

theorem SignedAuditEntry.ReadsBack.readable {e : SignedAuditEntry F} {order : IterOrder (String × Value F)}
    (h : e.ReadsBack S order) : e.Readable S := ⟨h.1, Metadata.stable_of_reread h.2⟩

/-- Lines taken from an honest log are found to be rearranged, unless they are a block
of it that starts later than the log and all of them can be read. -/
theorem rearrangement_detected_iff (hS : S.Lawful) (hmac : Bytes → Bytes → Bytes) (key : Bytes)
    (events : List (AuditEvent F × Option TrustedTimestamp)) (hlength : events.length ≤ 2 ^ 64)
    (hmac_inj : (messages S (honestLog S hmac key events)).InjOn (hmac key)) (tampered : List (SignedAuditEntry F))
    (hmem : ∀ e ∈ tampered, e ∈ honestLog S hmac key events) (content : Text)
    (hcontent : content.lines = tampered.map (·.line S)) :
    (¬tampered <+: honestLog S hmac key events → ∀ orders, (verifyContent S hmac key orders content).valid = false) ↔
      ¬(tampered <:+: honestLog S hmac key events ∧ ¬tampered <+: honestLog S hmac key events ∧
        ∀ e ∈ tampered, e.Readable S) := by
  have hverify : ∀ e ∈ tampered, e.verify S hmac key := fun e he => verify_of_mem_signAll S hmac key (hmem e he)
  have hsub : messages S tampered ⊆ messages S (honestLog S hmac key events) :=
    fun _ ⟨e, he, hb⟩ => ⟨e, hmem e he, hb⟩
  have hvalid : ∀ orders, (verifyContent S hmac key orders content).valid ↔
      (∀ p ∈ tampered.zipIdx, p.1.ReadsBack S (orders p.2)) ∧ (chain F).Linked none tampered :=
    fun orders => valid_verifyContent_iff hS hcontent hverify (hmac_inj.mono hsub)
  have hlinked : (chain F).Linked none tampered ↔ tampered <:+: honestLog S hmac key events :=
    (signAll_chained S hmac key 0 none events).linked_iff_isInfix (nodup_signature_honestLog hlength hmac_inj) hmem
  constructor
  · rintro hdetected ⟨hblock, hprefix, hreadable⟩
    have hreads : ∀ p ∈ tampered.zipIdx, p.1.ReadsBack S .inserted := fun p hp =>
      SignedAuditEntry.readsBack_inserted (hreadable p.1 (List.fst_mem_of_mem_zipIdx hp))
    have haccepted := (hvalid fun _ => .inserted).2 ⟨hreads, hlinked.2 hblock⟩
    rw [hdetected hprefix] at haccepted
    cases haccepted
  · intro hnot hprefix orders
    by_contra haccepted
    obtain ⟨hreads, hlink⟩ := (hvalid orders).1 (Bool.not_eq_false _ ▸ haccepted)
    refine hnot ⟨hlinked.1 hlink, hprefix, fun e he => ?_⟩
    obtain ⟨i, hi⟩ := List.mem_iff_getElem?.1 he
    exact (hreads (e, i) (List.mk_mem_zipIdx_iff_getElem?.2 hi)).readable

end

/-! ## A log of two entries -/

def sampleEvents (n : ℕ) : List (AuditEvent Empty × Option TrustedTimestamp) :=
  List.replicate n (sampleEvent noMetadata, none)

/-- An honest log of entries without metadata. -/
def sampleLog (n : ℕ) : List (SignedAuditEntry Empty) := honestLog plainFormats Sha256.hmac sampleKey (sampleEvents n)

theorem survives_of_mem_signAll {sequence : ℕ} {previousSignature : Option Bytes} {n : ℕ} {e : SignedAuditEntry Empty}
    (h : e ∈ signAll plainFormats Sha256.hmac sampleKey sequence previousSignature (sampleEvents n)) :
    e.payload.metadata.Survives plainFormats := by
  induction n generalizing sequence previousSignature with
  | zero => cases h
  | succ n ih =>
    rcases List.mem_cons.1 h with rfl | h
    · exact noMetadata_survives
    · exact ih h

/-- Without metadata there is one message for each entry, the one it was signed with. -/
theorem injOn_messages_sampleLog {n : ℕ} (h : ((sampleLog n).map (·.signature)).Nodup) :
    (messages plainFormats (sampleLog n)).InjOn (Sha256.hmac sampleKey) := by
  have hsigned : (sampleLog n).map (·.signature) =
      ((sampleLog n).map (SignedAuditEntry.input plainFormats)).map (Sha256.hmac sampleKey) := by
    rw [List.map_map]
    refine List.map_congr_left fun e he => ?_
    have hverify := verify_of_mem_signAll plainFormats Sha256.hmac sampleKey he
    exact (of_decide_eq_true hverify).symm
  rw [hsigned] at h
  refine injOn_of_nodup_map ?_ h
  rintro b ⟨e, he, hb⟩
  have hinput := SignedAuditEntry.subsingleton_messages (survives_of_mem_signAll he) hb (.inl rfl)
  rw [hinput]
  exact List.mem_map_of_mem he

/-- The two entries, in the other order. -/
theorem rearrangement_detected_iff_swapped :
    (¬(sampleLog 2).reverse <+: sampleLog 2 → ∀ orders, (verifyContent plainFormats Sha256.hmac sampleKey orders
        (contentOf plainFormats (sampleLog 2).reverse)).valid = false) ↔
      ¬((sampleLog 2).reverse <:+: sampleLog 2 ∧ ¬(sampleLog 2).reverse <+: sampleLog 2 ∧
        ∀ e ∈ (sampleLog 2).reverse, e.Readable plainFormats) :=
  rearrangement_detected_iff plainFormats_lawful Sha256.hmac sampleKey (sampleEvents 2) (by decide)
    (injOn_messages_sampleLog (by decide +kernel)) (sampleLog 2).reverse (fun _ => List.mem_reverse.1)
    (contentOf plainFormats (sampleLog 2).reverse) (lines_contentOf plainFormats_lawful _)

/-- Without its first entry, the log is still valid. -/
theorem not_detected_without_first :
    ¬(¬(sampleLog 2).drop 1 <+: sampleLog 2 → ∀ orders, (verifyContent plainFormats Sha256.hmac sampleKey orders
        (contentOf plainFormats ((sampleLog 2).drop 1))).valid = false) := by
  intro hdetected
  have hprefix : ¬(sampleLog 2).drop 1 <+: sampleLog 2 := fun h =>
    absurd (congrArg SignedAuditEntry.sequence (List.cons_prefix_cons.1 h).1) (by decide)
  have hmem : ∀ e ∈ (sampleLog 2).drop 1, e ∈ sampleLog 2 := fun e he => List.mem_of_mem_drop he
  have hreads : ∀ p ∈ ((sampleLog 2).drop 1).zipIdx, p.1.ReadsBack plainFormats .inserted := fun p hp =>
    have hsurvives := survives_of_mem_signAll (hmem p.1 (List.fst_mem_of_mem_zipIdx hp))
    SignedAuditEntry.readsBack_inserted ⟨hsurvives.shallow, hsurvives.stable⟩
  have haccepted := hdetected hprefix fun _ => .inserted
  rw [verifyContent_of_readsBack plainFormats_lawful (lines_contentOf plainFormats_lawful _)
    (fun e he => verify_of_mem_signAll _ _ _ (hmem e he)) hreads ⟨nofun, trivial⟩] at haccepted
  cases haccepted

end GmKms.Audit
