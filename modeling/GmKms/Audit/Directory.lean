import GmKms.Audit.Verifier
/-!
# The audit directory

`IntegrityVerifier::verify` over the files that rotation has split a log into.
-/

namespace GmKms.Audit

open Lib

/-! ## Files -/

/-- A file of the directory, with what reading it answers. -/
structure AuditFile where
  name : String
  content : Except String Text

/-- What stands before and after the last dot. -/
def splitLastDot (name : Text) : Option (Text × Text) :=
  match name.reverse.dropWhile (· ≠ '.') with
  | [] => none
  | _ :: stem => some (stem.reverse, (name.reverse.takeWhile (· ≠ '.')).reverse)

/-- `Path::extension` of a file name. -/
def extension? (name : String) : Option Text :=
  if name = ".." then none
  else
    match splitLastDot name.toList with
    | some (_ :: _, extension) => some extension
    | _ => none

def AuditFile.isLog (f : AuditFile) : Bool := extension? f.name = some "jsonl".toList

/-- The name `open_new_file` gives a file at `timestamp` seconds. -/
def auditFileName (timestamp : ℕ) : String := "audit-" ++ toString timestamp ++ ".jsonl"

theorem splitLastDot_append {stem extension : Text} (h : '.' ∉ extension) :
    splitLastDot (stem ++ '.' :: extension) = some (stem, extension) := by
  have hne : ∀ c ∈ extension.reverse, decide (c ≠ '.') = true := fun c hc =>
    decide_eq_true fun heq => h (heq ▸ List.mem_reverse.1 hc)
  rw [splitLastDot, List.reverse_append, List.reverse_cons, List.append_assoc, List.dropWhile_append_of_pos hne,
    List.takeWhile_append_of_pos hne]
  simp

theorem isLog_auditFileName (timestamp : ℕ) (content : Except String Text) :
    (⟨auditFileName timestamp, content⟩ : AuditFile).isLog := by
  have hname : (auditFileName timestamp).toList =
      ('a' :: "udit-".toList ++ (toString timestamp).toList) ++ '.' :: "jsonl".toList := by
    simp [auditFileName, String.toList_append]
  have hne : auditFileName timestamp ≠ ".." := fun h => by
    have hlength := congrArg (fun s => s.toList.length) h
    rw [hname] at hlength
    simp at hlength
  rw [AuditFile.isLog, extension?, if_neg hne, hname, splitLastDot_append (by decide)]
  exact decide_eq_true rfl

/-! ## The verifier -/

structure IntegrityVerifier where
  logPath : String
  signingKey : Bytes
  lastResult : Option VerificationReport

namespace IntegrityVerifier

/-- What the loop over the files carries. -/
structure FilesState where
  allValid : Bool
  totalEntries : ℕ
  firstError : Option String
  firstInvalidFile : Option String

section

variable {F : Type} (S : Formats F) (hmac : Bytes → Bytes → Bytes) (v : IntegrityVerifier)
  (orders : ℕ → ℕ → IterOrder (String × Value F))

def path (f : AuditFile) : String := v.logPath ++ "/" ++ f.name

/-- The loop over the files; it ends at the first one that is not valid. -/
def verifyFiles : ℕ → List AuditFile → FilesState → FilesState
  | _, [], st => st
  | i, f :: fs, st =>
    match f.content with
    | .error e =>
      { st with
        allValid := false
        firstError := st.firstError.or (some s!"Failed to read {S.pathDebug (v.path f)}: {e}")
        firstInvalidFile := st.firstInvalidFile.or (some (v.path f)) }
    | .ok content =>
      let report := verifyContent S hmac v.signingKey (orders i) content
      if !report.valid then
        { allValid := false
          totalEntries := st.totalEntries + report.entriesChecked
          firstError := st.firstError.or (some (report.error.getD "Unknown error"))
          firstInvalidFile := st.firstInvalidFile.or (some (v.path f)) }
      else verifyFiles (i + 1) fs { st with totalEntries := st.totalEntries + report.entriesChecked }

/-- `IntegrityVerifier::verify`, where `listing` is what `read_dir` yields. -/
def verify (listing : Except String (List AuditFile)) : Except String VerificationReport × IntegrityVerifier :=
  match listing with
  | .error e => (.error e, v)
  | .ok entries =>
    let entries := entries.filter AuditFile.isLog
    if entries = [] then
      let report : VerificationReport := ⟨true, 0, none, none⟩
      (.ok report, { v with lastResult := some report })
    else
      let paths := entries.mergeSort fun f g => f.name ≤ g.name
      let st := v.verifyFiles S hmac orders 0 paths ⟨true, 0, none, none⟩
      let report : VerificationReport :=
        { valid := st.allValid
          entriesChecked := st.totalEntries
          firstInvalidIndex := none
          error := st.firstError.map fun e =>
            match st.firstInvalidFile with
            | some file => s!"{e} (file: {file})"
            | none => e }
      (.ok report, { v with lastResult := some report })

end

/-! ## What the loop finds -/

section

variable {F : Type} {S : Formats F} {hmac : Bytes → Bytes → Bytes} {v : IntegrityVerifier}
  {orders : ℕ → ℕ → IterOrder (String × Value F)}

/-- Read and checked, the file is found valid with as many entries as lines. -/
def Accepts (S : Formats F) (hmac : Bytes → Bytes → Bytes) (v : IntegrityVerifier) (f : AuditFile) : Prop :=
  ∃ content, f.content = .ok content ∧
    ∀ orders, verifyContent S hmac v.signingKey orders content = ⟨true, content.lines.length, none, none⟩

def lineCount (f : AuditFile) : ℕ :=
  match f.content with
  | .ok content => content.lines.length
  | .error _ => 0

theorem verifyFiles_of_accepts {fs : List AuditFile} {i : ℕ} {st : FilesState} (h : ∀ f ∈ fs, Accepts S hmac v f) :
    v.verifyFiles S hmac orders i fs st = { st with totalEntries := st.totalEntries + (fs.map lineCount).sum } := by
  induction fs generalizing i st with
  | nil => rfl
  | cons f fs ih =>
    obtain ⟨⟨content, hcontent, hreport⟩, hfs⟩ := List.forall_mem_cons.1 h
    have hcount : lineCount f = content.lines.length := by rw [lineCount, hcontent]
    rw [verifyFiles, hcontent, List.map_cons, List.sum_cons, hcount]
    simp only [hreport, Bool.not_true, Bool.false_eq_true, if_false, ih hfs, Nat.add_assoc]

theorem valid_of_verifyFiles {fs : List AuditFile} {i : ℕ} {st : FilesState}
    (h : (v.verifyFiles S hmac orders i fs st).allValid) :
    ∀ f ∈ fs, ∃ content j, f.content = .ok content ∧ (verifyContent S hmac v.signingKey (orders j) content).valid := by
  induction fs generalizing i st with
  | nil => exact fun f hf => absurd hf List.not_mem_nil
  | cons f fs ih =>
    rw [verifyFiles] at h
    rw [List.forall_mem_cons]
    cases hcontent : f.content with
    | error e => simp [hcontent] at h
    | ok content =>
      cases hvalid : (verifyContent S hmac v.signingKey (orders i) content).valid with
      | false => simp [hcontent, hvalid] at h
      | true =>
        simp only [hcontent, hvalid, Bool.not_true, Bool.false_eq_true, if_false] at h
        exact ⟨⟨content, i, rfl, hvalid⟩, ih h⟩

theorem verify_of_accepts {listing : List AuditFile} (h : ∀ f ∈ listing, f.isLog → Accepts S hmac v f) :
    (v.verify S hmac orders (.ok listing)).1 =
      .ok ⟨true, ((listing.filter AuditFile.isLog).map lineCount).sum, none, none⟩ := by
  have hsorted := List.mergeSort_perm (listing.filter AuditFile.isLog) fun f g => f.name ≤ g.name
  have haccepts : ∀ f ∈ (listing.filter AuditFile.isLog).mergeSort fun f g => f.name ≤ g.name, Accepts S hmac v f := by
    intro f hf
    obtain ⟨hmem, hlog⟩ := List.mem_filter.1 (hsorted.mem_iff.1 hf)
    exact h f hmem hlog
  rw [verify]
  by_cases hentries : listing.filter AuditFile.isLog = []
  · simp only [hentries, if_true]
    rfl
  · simp only [hentries, if_false, verifyFiles_of_accepts haccepts, (hsorted.map lineCount).sum_nat, Nat.zero_add]
    rfl

theorem valid_of_verify {listing : List AuditFile} {report : VerificationReport}
    (h : (v.verify S hmac orders (.ok listing)).1 = .ok report) (hvalid : report.valid) :
    ∀ f ∈ listing, f.isLog →
      ∃ content j, f.content = .ok content ∧ (verifyContent S hmac v.signingKey (orders j) content).valid := by
  intro f hf hlog
  have hmem : f ∈ listing.filter AuditFile.isLog := List.mem_filter.2 ⟨hf, hlog⟩
  rw [verify] at h
  simp only [List.ne_nil_of_mem hmem, if_false] at h
  obtain rfl := Except.ok.inj h
  have hsorted := List.mergeSort_perm (listing.filter AuditFile.isLog) fun f g => f.name ≤ g.name
  exact valid_of_verifyFiles hvalid f (hsorted.mem_iff.2 hmem)

end

end IntegrityVerifier

/-! ## Rotated logs -/

section

variable {F : Type} {S : Formats F}

/-- A log that rotation has split into files, each with the timestamp in its name. -/
structure Rotated (log : List (SignedAuditEntry F)) (files : List (ℕ × List (SignedAuditEntry F))) : Prop where
  increasing : (files.map (·.1)).Pairwise (· < ·)
  nonempty : ∀ f ∈ files, f.2 ≠ []
  flatMap_eq : files.flatMap (·.2) = log

/-- A file other than the newest removed, two files swapped, or one replaced by a copy
of another. -/
inductive Tampering {α : Type} (files : List (ℕ × α)) : List (ℕ × α) → Prop
  | removed (i : ℕ) (h : i + 1 < files.length) : Tampering files (files.eraseIdx i)
  | swapped (i j : ℕ) (hne : i ≠ j) (hi : i < files.length) (hj : j < files.length) :
      Tampering files ((files.set i (files[i].1, files[j].2)).set j (files[j].1, files[i].2))
  | copied (i j : ℕ) (hne : i ≠ j) (hi : i < files.length) (hj : j < files.length) :
      Tampering files (files.set i (files[i].1, files[j].2))

def auditFile (S : Formats F) (f : ℕ × List (SignedAuditEntry F)) : AuditFile :=
  ⟨auditFileName f.1, .ok (contentOf S f.2)⟩

/-- The directory is found valid with all its entries, and not valid after tampering
with whole files. -/
def CrossFileIntegrity (S : Formats F) (hmac : Bytes → Bytes → Bytes) (v : IntegrityVerifier)
    (files : List (ℕ × List (SignedAuditEntry F))) : Prop :=
  (∀ orders listing, listing.Perm (files.map (auditFile S)) →
    ∃ report, (v.verify S hmac orders (.ok listing)).1 = .ok report ∧ report.valid = true ∧
      report.entriesChecked = (files.flatMap (·.2)).length) ∧
  ∀ files', Tampering files files' → ∀ orders listing, listing.Perm (files'.map (auditFile S)) →
    ∃ report, (v.verify S hmac orders (.ok listing)).1 = .ok report ∧ report.valid = false

variable {hmac : Bytes → Bytes → Bytes} {v : IntegrityVerifier} {log : List (SignedAuditEntry F)}
  {files : List (ℕ × List (SignedAuditEntry F))}

theorem Rotated.linked (h : Rotated log files) (hlog : (chain F).Chained none log) :
    ∀ f ∈ files, (chain F).Linked none f.2 := by
  intro f hf
  obtain ⟨before, after, rfl⟩ := List.append_of_mem hf
  rw [← h.flatMap_eq, List.flatMap_append, List.flatMap_cons, HashLink.chained_append, HashLink.chained_append] at hlog
  exact hlog.2.1.linked.of_some

theorem Rotated.mem (h : Rotated log files) {f : ℕ × List (SignedAuditEntry F)} (hf : f ∈ files)
    {e : SignedAuditEntry F} (he : e ∈ f.2) : e ∈ log := h.flatMap_eq ▸ List.mem_flatMap.2 ⟨f, hf, he⟩

/-- Each file of entries that survive is accepted, whatever the files beside it. -/
theorem accepts_auditFile (hS : S.Lawful) {f : ℕ × List (SignedAuditEntry F)}
    (hverify : ∀ e ∈ f.2, e.verify S hmac v.signingKey) (hsurvives : ∀ e ∈ f.2, e.payload.metadata.Survives S)
    (hlinked : (chain F).Linked none f.2) : v.Accepts S hmac (auditFile S f) := by
  have hlines := lines_contentOf hS f.2
  refine ⟨_, rfl, fun orders => ?_⟩
  rw [hlines, List.length_map]
  refine verifyContent_of_readsBack hS hlines hverify (fun p hp => ?_) hlinked
  have hmetadata := hsurvives p.1 (List.fst_mem_of_mem_zipIdx hp)
  exact ⟨hmetadata.shallow, Metadata.reread_eq_of_survives hmetadata _⟩

/-- Files that are accepted one by one are accepted together. -/
theorem verify_of_accepts_auditFile (hS : S.Lawful) {orders : ℕ → ℕ → IterOrder (String × Value F)}
    {listing : List AuditFile} (hlisting : listing.Perm (files.map (auditFile S)))
    (haccepts : ∀ f ∈ files, v.Accepts S hmac (auditFile S f)) :
    (v.verify S hmac orders (.ok listing)).1 = .ok ⟨true, (files.flatMap (·.2)).length, none, none⟩ := by
  have hmem : ∀ f ∈ listing, ∃ f' ∈ files, auditFile S f' = f := fun f hf => List.mem_map.1 (hlisting.mem_iff.1 hf)
  have hlogs : listing.filter AuditFile.isLog = listing := List.filter_eq_self.2 fun f hf => by
    obtain ⟨f', -, rfl⟩ := hmem f hf
    exact isLog_auditFileName ..
  have hcount : (listing.map IntegrityVerifier.lineCount).sum = (files.flatMap (·.2)).length := by
    have hlines : ∀ f, IntegrityVerifier.lineCount (auditFile S f) = f.2.length := fun f => by
      simp only [IntegrityVerifier.lineCount, auditFile, lines_contentOf hS, List.length_map]
    rw [(hlisting.map _).sum_nat, List.map_map, List.length_flatMap]
    exact congrArg List.sum (List.map_congr_left fun f _ => hlines f)
  rw [IntegrityVerifier.verify_of_accepts, hlogs, hcount]
  intro f hf _
  obtain ⟨f', hf', rfl⟩ := hmem f hf
  exact haccepts f' hf'

/-- A directory that is found valid in every order has entries that survive. -/
theorem survives_of_verify (hS : S.Lawful) (hverify : ∀ f ∈ files, ∀ e ∈ f.2, e.verify S hmac v.signingKey)
    (hmac_inj : (messages S (files.flatMap (·.2))).InjOn (hmac v.signingKey))
    (hvalid : ∀ orders, ∃ report, (v.verify S hmac orders (.ok (files.map (auditFile S)))).1 = .ok report ∧
      report.valid = true) :
    ∀ f ∈ files, ∀ e ∈ f.2, e.payload.metadata.Survives S := by
  intro f hf e he
  refine Metadata.survives_iff_reread.2 fun order => ?_
  obtain ⟨report, hreport, htrue⟩ := hvalid fun _ _ => order
  obtain ⟨content, j, hcontent, hok⟩ :=
    IntegrityVerifier.valid_of_verify hreport htrue _ (List.mem_map_of_mem hf) (isLog_auditFileName ..)
  obtain rfl := Except.ok.inj hcontent
  have hsub : messages S f.2 ⊆ messages S (files.flatMap (·.2)) := fun _ ⟨e, he, hb⟩ =>
    ⟨e, List.mem_flatMap.2 ⟨f, hf, he⟩, hb⟩
  have hreads := ((valid_verifyContent_iff hS (lines_contentOf hS f.2) (hverify f hf) (hmac_inj.mono hsub)).1 hok).1
  obtain ⟨i, hi⟩ := List.mem_iff_getElem?.1 he
  exact hreads (e, i) (List.mk_mem_zipIdx_iff_getElem?.2 hi)

/-- Each file is verified on its own: the links between files are checked by nothing,
so that only a log in one file is safe from tampering with whole files. -/
theorem crossFileIntegrity_iff (hS : S.Lawful) (hmac : Bytes → Bytes → Bytes) (v : IntegrityVerifier)
    (events : List (AuditEvent F × Option TrustedTimestamp))
    (hmac_inj : (messages S (honestLog S hmac v.signingKey events)).InjOn (hmac v.signingKey))
    (files : List (ℕ × List (SignedAuditEntry F))) (hfiles : Rotated (honestLog S hmac v.signingKey events) files) :
    CrossFileIntegrity S hmac v files ↔
      files.length ≤ 1 ∧ ∀ e ∈ honestLog S hmac v.signingKey events, e.payload.metadata.Survives S := by
  have hverify : ∀ f ∈ files, ∀ e ∈ f.2, e.verify S hmac v.signingKey := fun f hf e he =>
    verify_of_mem_signAll S hmac v.signingKey (hfiles.mem hf he)
  have hlinked := hfiles.linked (signAll_chained S hmac v.signingKey 0 none events)
  have haccepts := fun (hsurvives : ∀ e ∈ honestLog S hmac v.signingKey events, e.payload.metadata.Survives S) f
      (hf : f ∈ files) => accepts_auditFile (v := v) hS (hverify f hf) (fun e he => hsurvives e (hfiles.mem hf he))
        (hlinked f hf)
  constructor
  · rintro ⟨huntampered, htampered⟩
    have hsurvives : ∀ e ∈ honestLog S hmac v.signingKey events, e.payload.metadata.Survives S := by
      intro e he
      obtain ⟨f, hf, hef⟩ := List.mem_flatMap.1 (hfiles.flatMap_eq ▸ he)
      refine survives_of_verify hS hverify (hfiles.flatMap_eq ▸ hmac_inj) (fun orders => ?_) f hf e hef
      obtain ⟨report, hreport, hvalid, -⟩ := huntampered orders _ .rfl
      exact ⟨report, hreport, hvalid⟩
    refine ⟨Nat.le_of_not_lt fun hlong => ?_, hsurvives⟩
    -- the first file is removed, and every other file is accepted as before
    obtain ⟨report, hreport, hinvalid⟩ := htampered _ (.removed 0 hlong) (fun _ _ => .inserted) _ .rfl
    rw [verify_of_accepts_auditFile hS .rfl fun f hf => haccepts hsurvives f (List.mem_of_mem_eraseIdx hf)] at hreport
    rw [← Except.ok.inj hreport] at hinvalid
    cases hinvalid
  · rintro ⟨hlength, hsurvives⟩
    refine ⟨fun orders listing hlisting => ⟨_, verify_of_accepts_auditFile hS hlisting (haccepts hsurvives), rfl, rfl⟩,
      ?_⟩
    intro files' htampering
    cases htampering with
    | removed i h => omega
    | swapped i j hne hi hj => omega
    | copied i j hne hi hj => omega

end

/-! ## Concrete directories -/

def sampleVerifier : IntegrityVerifier := ⟨"/var/log/kms/audit", sampleKey, none⟩

/-- A log of two entries in two files. -/
def sampleFiles : List (ℕ × List (SignedAuditEntry Empty)) :=
  [(1750000000, (sampleLog 2).take 1), (1750003700, (sampleLog 2).drop 1)]

theorem rotated_sampleFiles : Rotated (sampleLog 2) sampleFiles :=
  ⟨by decide, by simp [sampleFiles, sampleLog, honestLog, sampleEvents, signAll, List.replicate], rfl⟩

theorem crossFileIntegrity_iff_two_files :
    CrossFileIntegrity plainFormats Sha256.hmac sampleVerifier sampleFiles ↔
      sampleFiles.length ≤ 1 ∧ ∀ e ∈ sampleLog 2, e.payload.metadata.Survives plainFormats :=
  crossFileIntegrity_iff plainFormats_lawful Sha256.hmac sampleVerifier (sampleEvents 2)
    (injOn_messages_sampleLog (by decide +kernel)) sampleFiles rotated_sampleFiles

/-- Without its first file, the directory is still valid. -/
theorem not_crossFileIntegrity_two_files :
    Rotated (sampleLog 2) sampleFiles ∧ ¬CrossFileIntegrity plainFormats Sha256.hmac sampleVerifier sampleFiles := by
  have hrotated := rotated_sampleFiles
  refine ⟨hrotated, fun h => ?_⟩
  have hlinked := hrotated.linked (signAll_chained plainFormats Sha256.hmac sampleKey 0 none (sampleEvents 2))
  obtain ⟨report, hreport, hinvalid⟩ := h.2 _ (.removed 0 (by decide)) (fun _ _ => .inserted) _ .rfl
  rw [verify_of_accepts_auditFile plainFormats_lawful .rfl] at hreport
  · rw [← Except.ok.inj hreport] at hinvalid
    cases hinvalid
  · intro f hf
    have hmem := List.mem_of_mem_eraseIdx hf
    exact accepts_auditFile plainFormats_lawful
      (fun e he => verify_of_mem_signAll plainFormats Sha256.hmac sampleKey (hrotated.mem hmem he))
      (fun e he => survives_of_mem_signAll (hrotated.mem hmem he)) (hlinked f hmem)

end GmKms.Audit
