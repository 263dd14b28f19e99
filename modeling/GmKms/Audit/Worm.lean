import GmKms.Audit.Directory
/-!
# The WORM writer

`WormWriter` with the directory it writes to. Readings of the clock and the I/O
errors of an append come from outside.
-/

namespace GmKms.Audit

open Lib

inductive AuditError where
  | io (error : String)
  deriving DecidableEq, Repr

/-- The I/O operations of an append that can fail it. -/
inductive WormIo where
  | createNew | openAppend | write | sync
  deriving DecidableEq, Repr

/-- What an append reads from outside: the clock in nanoseconds, whether the metadata of
the current file can be read, which operations fail, and how many characters a write
that fails has written. -/
structure AppendEnv where
  checkTime : ℕ
  openTime : ℕ
  writeTime : ℕ
  hasMetadata : Bool
  fails : WormIo → Option String
  written : ℕ

/-- When the append fails, it leaves the lines of the files as they are. -/
def AppendEnv.LeavesFiles (env : AppendEnv) : Prop :=
  env.fails .sync = none ∧ (env.fails .write ≠ none → env.written = 0)

structure WormFile where
  name : String
  content : Text
  modified : ℕ

structure HashChainState where
  runningHash : Bytes
  entryCount : UInt64
  deriving DecidableEq

namespace HashChainState

variable (sha256 : Bytes → Bytes)

def new : HashChainState := ⟨sha256 [], 0⟩

def update (chain : HashChainState) (entryHash : Bytes) : HashChainState :=
  ⟨sha256 (chain.runningHash ++ entryHash), chain.entryCount + 1⟩

end HashChainState

/-- The writer, with the files of its directory in the order of their creation. An empty
path is no path. -/
structure WormWriter where
  rotationAge : ℕ
  files : List WormFile
  currentFile : Option String
  currentPath : Option String
  hashChain : HashChainState

namespace WormWriter

/-- `WormWriter::new` on a directory with these files. -/
def new (sha256 : Bytes → Bytes) (rotationAge : ℕ) (files : List WormFile) : WormWriter :=
  ⟨rotationAge, files, none, none, .new sha256⟩

/-- What is in the files, in the order of their creation. -/
def content (w : WormWriter) : Text := w.files.flatMap (·.content)

/-! ## Writing -/

def rotate (w : WormWriter) : WormWriter := { w with currentFile := none, currentPath := none }

def maybeRotate (env : AppendEnv) (w : WormWriter) : WormWriter :=
  match w.currentPath with
  | none => w
  | some path =>
    match w.files.find? (·.name = path) with
    | some f => if env.hasMetadata ∧ w.rotationAge < env.checkTime - f.modified then w.rotate else w
    | none => w

/-- A file is named by the second it is opened in; one that exists is refused. -/
def openNewFile (env : AppendEnv) (w : WormWriter) : Except AuditError String × WormWriter :=
  let name := auditFileName (env.openTime / 10 ^ 9)
  match env.fails .createNew with
  | some e => (.error (.io e), w)
  | none =>
    if name ∈ w.files.map (·.name) then (.error (.io "File exists (os error 17)"), w)
    else (.ok name, { w with files := w.files ++ [⟨name, [], env.openTime⟩] })

/-- The open file, or a new one. -/
def openIfNone (env : AppendEnv) (w : WormWriter) : Except AuditError String × WormWriter :=
  match w.currentFile with
  | some name => (.ok name, w)
  | none =>
    match w.openNewFile env with
    | (.error e, w) => (.error e, w)
    | (.ok name, w) =>
      match env.fails .openAppend with
      | some e => (.error (.io e), { w with currentPath := some name })
      | none => (.ok name, { w with currentPath := some name, currentFile := some name })

def writeTo (env : AppendEnv) (name : String) (text : Text) (w : WormWriter) : WormWriter :=
  { w with
    files := w.files.map fun f =>
      if f.name = name then { f with content := f.content ++ text, modified := env.writeTime } else f }

section

variable {F : Type} (S : Formats F) (sha256 : Bytes → Bytes)

def computeEntryHash (entry : SignedAuditEntry F) : Bytes :=
  sha256 (utf8 (S.text (entry.payload.toJson S)) ++ entry.signature)

def append (env : AppendEnv) (entry : SignedAuditEntry F) (w : WormWriter) : Except AuditError Unit × WormWriter :=
  match (w.maybeRotate env).openIfNone env with
  | (.error e, w) => (.error e, w)
  | (.ok name, w) =>
    let line := entry.line S ++ ['\n']
    match env.fails .write with
    | some e => (.error (.io e), w.writeTo env name (line.take env.written))
    | none =>
      let w := w.writeTo env name line
      match env.fails .sync with
      | some e => (.error (.io e), w)
      | none => (.ok (), { w with hashChain := w.hashChain.update sha256 (computeEntryHash S sha256 entry) })

/-! ## Verifying -/

/-- The first entry that does not name the hash of the one before it. -/
def firstInvalid : ℕ → Option Bytes → List (SignedAuditEntry F) → Option ℕ
  | _, _, [] => none
  | i, prevEntryHash, entry :: entries =>
    match prevEntryHash with
    | some expectedPrev =>
      if entry.previousSignature.getD [] ≠ expectedPrev then some i
      else firstInvalid (i + 1) (some (computeEntryHash S sha256 entry)) entries
    | none => firstInvalid (i + 1) (some (computeEntryHash S sha256 entry)) entries

def verifyChain (entries : List (SignedAuditEntry F)) (w : WormWriter) : VerificationReport :=
  let invalid := firstInvalid S sha256 0 none entries
  let errorDesc := invalid.map fun i =>
    s!"chain broken at entry {i}: stored previous_signature does not match computed prev_entry_hash"
  let report : VerificationReport := ⟨invalid.isNone, entries.length, invalid, errorDesc⟩
  if report.valid ∧ w.hashChain.entryCount ≠ 0 ∧ .ofNat entries.length ≠ w.hashChain.entryCount - 1 then
    { report with
      valid := false
      error := some s!"Entry count mismatch: expected {w.hashChain.entryCount - 1}, got {entries.length}"
      firstInvalidIndex := some 0 }
  else report

/-! ## Reading -/

/-- `str::parse::<u64>`. -/
def parseU64 (t : Text) : Option ℕ :=
  let digits := if t.head? = some '+' then t.tail else t
  let n := Nat.ofDigitChars 10 digits 0
  if digits ≠ [] ∧ digits.all Char.isDigit ∧ n < 2 ^ 64 then some n else none

/-- `Path::file_stem` of a file name. -/
def fileStem (name : String) : Text :=
  if name = ".." then name.toList
  else
    match splitLastDot name.toList with
    | some (c :: stem, _) => c :: stem
    | _ => name.toList

def fileTimestamp (name : String) : ℕ :=
  let stem := fileStem name
  if "audit-".toList <+: stem then (parseU64 (stem.drop 6)).getD 0 else 0

/-- The entries of a file; blank lines and lines that cannot be parsed are skipped. -/
def readEntries (orders : ℕ → IterOrder (String × Value F)) (content : Text) : List (SignedAuditEntry F) :=
  content.lines.zipIdx.filterMap fun p =>
    if p.1.isBlank then none else (SignedAuditEntry.fromStr S (orders p.2) p.1).toOption

/-- `read_all_entries`, where `listing` is the order in which the directory is read. -/
def readAllEntries (listing : IterOrder WormFile) (orders : ℕ → ℕ → IterOrder (String × Value F)) (w : WormWriter) :
    List (SignedAuditEntry F) :=
  let files := (listing.arrange w.files).filter fun f => extension? f.name = some "jsonl".toList
  let entries := files.zipIdx.flatMap fun p => (readEntries S (orders p.2) p.1.content).map (fileTimestamp p.1.name, ·)
  (entries.mergeSort fun a b => a.1 ≤ b.1).map (·.2)

/-- `startup_verify_chain` on the directory. -/
def startupVerifyChain (listing : IterOrder WormFile) (orders : ℕ → ℕ → IterOrder (String × Value F)) (w : WormWriter) :
    VerificationReport :=
  let writer := new sha256 w.rotationAge w.files
  let entries := writer.readAllEntries S listing orders
  if entries = [] then ⟨true, 0, none, none⟩ else writer.verifyChain S sha256 entries

end

/-! ## What the files hold -/

/-- The files hold the lines of these entries, in this order, and the open file is the
last one. -/
structure Holds {F : Type} (S : Formats F) (w : WormWriter) (es : List (SignedAuditEntry F)) : Prop where
  names : (w.files.map (·.name)).Nodup
  logs : ∀ f ∈ w.files, extension? f.name = some "jsonl".toList
  last : ∀ name, w.currentFile = some name → w.files.getLast?.map (·.name) = some name
  blocks : ∃ bs : List (List (SignedAuditEntry F)), w.files.map (·.content) = bs.map (contentOf S) ∧ bs.flatten = es

section

variable {F : Type} {S : Formats F} {sha256 : Bytes → Bytes} {env : AppendEnv} {w : WormWriter}
  {es : List (SignedAuditEntry F)}

theorem contentOf_append (es es' : List (SignedAuditEntry F)) :
    contentOf S (es ++ es') = contentOf S es ++ contentOf S es' := by
  simp [contentOf, Text.unlines_append]

theorem contentOf_singleton (e : SignedAuditEntry F) : contentOf S [e] = e.line S ++ ['\n'] := by
  simp [contentOf, Text.unlines]

theorem contentOf_flatten (bs : List (List (SignedAuditEntry F))) :
    (bs.map (contentOf S)).flatten = contentOf S bs.flatten := by
  induction bs with
  | nil => rfl
  | cons b bs ih => simp [contentOf_append, ih]

theorem Holds.content_eq (h : w.Holds S es) : w.content = contentOf S es := by
  obtain ⟨bs, hbs, rfl⟩ := h.blocks
  rw [content, List.flatMap_def, hbs, contentOf_flatten]

theorem holds_new (sha256 : Bytes → Bytes) (rotationAge : ℕ) : (new sha256 rotationAge []).Holds S [] where
  names := List.nodup_nil
  logs := by simp [new]
  last := by simp [new]
  blocks := ⟨[], rfl, rfl⟩

theorem Holds.maybeRotate (h : w.Holds S es) : (w.maybeRotate env).Holds S es := by
  unfold WormWriter.maybeRotate
  split
  · exact h
  · split
    · split
      · exact { h with last := by simp [rotate] }
      · exact h
    · exact h

@[simp] theorem hashChain_maybeRotate : (w.maybeRotate env).hashChain = w.hashChain := by
  unfold WormWriter.maybeRotate
  split
  · rfl
  · split
    · split <;> rfl
    · rfl

theorem Holds.addFile (h : w.Holds S es) {name : String} {created : ℕ}
    (hnew : name ∉ w.files.map (·.name)) (hlog : extension? name = some "jsonl".toList)
    {currentFile : Option String} (hcurrent : ∀ other, currentFile = some other → other = name)
    (currentPath : Option String) :
    ({ w with files := w.files ++ [⟨name, [], created⟩], currentFile, currentPath } : WormWriter).Holds S es := by
  obtain ⟨bs, hbs, hflat⟩ := h.blocks
  refine ⟨?_, ?_, ?_, ⟨bs ++ [[]], by simp [hbs, contentOf, Text.unlines], by simp [hflat]⟩⟩
  · simp only [List.map_append, List.map_cons, List.map_nil, List.nodup_append]
    refine ⟨h.names, by simp, ?_⟩
    intro other hother last hlast heq
    rw [heq, List.mem_singleton.1 hlast] at hother
    exact hnew hother
  · intro f hf
    rcases List.mem_append.1 hf with hf | hf
    · exact h.logs f hf
    · simpa [List.mem_singleton.1 hf] using hlog
  · intro other hother
    simp [hcurrent other hother]

theorem openNewFile_ok {name : String} {w' : WormWriter} (hopen : w.openNewFile env = (.ok name, w')) :
    name = auditFileName (env.openTime / 10 ^ 9) ∧ name ∉ w.files.map (·.name) ∧
      w' = { w with files := w.files ++ [⟨name, [], env.openTime⟩] } := by
  unfold openNewFile at hopen
  dsimp only at hopen
  split at hopen
  · simp at hopen
  · split at hopen
    · simp at hopen
    · rename_i hnew
      simp only [Prod.mk.injEq, Except.ok.injEq] at hopen
      obtain ⟨rfl, rfl⟩ := hopen
      exact ⟨rfl, hnew, rfl⟩

theorem openNewFile_error {e : AuditError} {w' : WormWriter} (hopen : w.openNewFile env = (.error e, w')) : w' = w := by
  unfold openNewFile at hopen
  dsimp only at hopen
  split at hopen
  · simp at hopen
    exact hopen.2.symm
  · split at hopen
    · simp at hopen
      exact hopen.2.symm
    · simp at hopen

/-- With a file open, or one opened now, the files hold what they held. -/
theorem Holds.openIfNone (h : w.Holds S es) {r : Except AuditError String} {w' : WormWriter}
    (hopen : w.openIfNone env = (r, w')) :
    w'.Holds S es ∧ w'.hashChain = w.hashChain ∧ ∀ name, r = .ok name → w'.currentFile = some name := by
  unfold WormWriter.openIfNone at hopen
  split at hopen
  · rename_i name hcurrent
    obtain ⟨rfl, rfl⟩ := Prod.mk.inj hopen
    exact ⟨h, rfl, fun name' hname => by rw [hcurrent, Except.ok.inj hname]⟩
  · split at hopen
    · rename_i e w'' hnew
      obtain ⟨rfl, rfl⟩ := Prod.mk.inj hopen
      obtain rfl := openNewFile_error hnew
      exact ⟨h, rfl, nofun⟩
    · rename_i hcurrent _ name w'' hnew
      obtain ⟨rfl, hfresh, rfl⟩ := openNewFile_ok hnew
      have hlog : extension? (auditFileName (env.openTime / 10 ^ 9)) = some "jsonl".toList :=
        of_decide_eq_true (isLog_auditFileName _ (.ok []))
      split at hopen
      · obtain ⟨rfl, rfl⟩ := Prod.mk.inj hopen
        refine ⟨h.addFile hfresh hlog ?_ _, rfl, nofun⟩
        intro other hother
        rw [hcurrent] at hother
        cases hother
      · obtain ⟨rfl, rfl⟩ := Prod.mk.inj hopen
        refine ⟨h.addFile hfresh hlog ?_ _, rfl, fun name hname => by rw [Except.ok.inj hname]⟩
        intro other hother
        exact (Option.some.inj hother).symm

/-- Lines written to the open file stand after all lines before. -/
theorem Holds.writeTo (h : w.Holds S es) {name : String} (hcurrent : w.currentFile = some name)
    (es' : List (SignedAuditEntry F)) : (w.writeTo env name (contentOf S es')).Holds S (es ++ es') := by
  have hnames : (w.writeTo env name (contentOf S es')).files.map (·.name) = w.files.map (·.name) := by
    simp only [WormWriter.writeTo, List.map_map]
    refine List.map_congr_left fun f _ => ?_
    simp only [Function.comp_apply]
    split <;> rfl
  refine ⟨hnames ▸ h.names, ?_, ?_, ?_⟩
  · intro f hf
    obtain ⟨g, hg, rfl⟩ := List.mem_map.1 hf
    have hlog := h.logs g hg
    split <;> exact hlog
  · intro other hother
    have hlast := h.last other hother
    rw [← List.getLast?_map, hnames, List.getLast?_map]
    exact hlast
  · obtain ⟨f, hf, hname⟩ := Option.map_eq_some_iff.1 (h.last name hcurrent)
    obtain ⟨init, hinit⟩ := List.getLast?_eq_some_iff.1 hf
    obtain ⟨bs, hbs, hflat⟩ := h.blocks
    rw [hinit, List.map_append, List.map_singleton] at hbs
    have hbs' := congrArg List.length hbs
    obtain ⟨bs, b, rfl⟩ : ∃ bs' b, bs = bs' ++ [b] := by
      rcases List.eq_nil_or_concat bs with rfl | ⟨bs', b, rfl⟩
      · simp at hbs'
      · exact ⟨bs', b, by simp⟩
    rw [List.map_append, List.map_singleton] at hbs
    obtain ⟨hbs, hb⟩ := List.append_inj' hbs rfl
    refine ⟨bs ++ [b ++ es'], ?_, by simp [← hflat]⟩
    have hothers : ∀ g ∈ init, g.name ≠ name := by
      intro g hg heq
      have hnodup := h.names
      rw [hinit, List.map_append, List.map_singleton, List.nodup_append] at hnodup
      exact hnodup.2.2 _ (List.mem_map_of_mem hg) f.name (by simp) (heq.trans hname.symm)
    have hkept : init.map (fun g => (if g.name = name then
        { g with content := g.content ++ contentOf S es', modified := env.writeTime } else g).content) =
          init.map (·.content) :=
      List.map_congr_left fun g hg => by rw [if_neg (hothers g hg)]
    simp only [WormWriter.writeTo, hinit, List.map_append, List.map_map, List.map_cons, List.map_nil,
      Function.comp_def, hkept, hbs, hname, if_true, contentOf_append]
    simp at hb
    rw [hb]

/-- A successful append adds the line of its entry, one that fails and leaves the files
adds nothing. -/
theorem Holds.append (h : w.Holds S es) {e : SignedAuditEntry F} {r : Except AuditError Unit} {w' : WormWriter}
    (happend : w.append S sha256 env e = (r, w')) :
    (r = .ok () → w'.Holds S (es ++ [e]) ∧
      w'.hashChain = w.hashChain.update sha256 (computeEntryHash S sha256 e)) ∧
    (r ≠ .ok () → env.LeavesFiles → w'.Holds S es ∧ w'.hashChain = w.hashChain) := by
  unfold WormWriter.append at happend
  rcases hopen : (w.maybeRotate env).openIfNone env with ⟨err | name, w''⟩
  · obtain ⟨hholds, hchain, -⟩ := h.maybeRotate.openIfNone hopen
    simp only [hopen, Prod.mk.injEq] at happend
    obtain ⟨rfl, rfl⟩ := happend
    exact ⟨nofun, fun _ _ => ⟨hholds, hchain.trans hashChain_maybeRotate⟩⟩
  · obtain ⟨hholds, hchain, hcurrent⟩ := h.maybeRotate.openIfNone hopen
    rw [hashChain_maybeRotate] at hchain
    have hline : (w''.writeTo env name (contentOf S [e])).Holds S (es ++ [e]) := hholds.writeTo (hcurrent name rfl) _
    have hnothing : (w''.writeTo env name (contentOf S [])).Holds S (es ++ []) := hholds.writeTo (hcurrent name rfl) _
    rw [contentOf_singleton] at hline
    rw [List.append_nil] at hnothing
    simp only [hopen] at happend
    cases hwrite : env.fails .write with
    | some err =>
      simp only [hwrite, Prod.mk.injEq] at happend
      obtain ⟨rfl, rfl⟩ := happend
      refine ⟨nofun, fun _ hleaves => ?_⟩
      rw [hleaves.2 (by simp [hwrite])]
      exact ⟨hnothing, hchain⟩
    | none =>
      cases hsync : env.fails .sync with
      | some err =>
        simp only [hwrite, hsync, Prod.mk.injEq] at happend
        obtain ⟨rfl, rfl⟩ := happend
        exact ⟨nofun, fun _ hleaves => absurd hleaves.1 (by simp [hsync])⟩
      | none =>
        simp only [hwrite, hsync, Prod.mk.injEq] at happend
        obtain ⟨rfl, rfl⟩ := happend
        refine ⟨fun _ => ⟨⟨hline.names, hline.logs, hline.last, hline.blocks⟩, ?_⟩, fun hr => absurd rfl hr⟩
        simp [WormWriter.writeTo, hchain]

end

end WormWriter

end GmKms.Audit
