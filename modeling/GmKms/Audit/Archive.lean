import GmKms.Audit.Directory
import GmKms.Lib.Machine
/-!
# The archive

`ArchiveManager` copies old audit files to S3 in one scan of the directory and removes old ones in another. Any number
of scans go on at once, one directory entry at a time, while files are created and appended to.
-/

namespace GmKms.Audit

open Lib

/-- A local file, with the time it was last written at. -/
structure LocalFile where
  content : Bytes
  modified : DateTime

structure S3ArchiveConfig where
  keyPrefix : String

/-- What `next_entry` answers. The metadata of an entry can be unreadable. -/
inductive DirEntry where
  | failed (error : String)
  | finished
  | found (path : String) (hasMetadata : Bool)

/-- How far a call has come. -/
inductive ArchiveCall where
  | archiving (archived : List String)
  | uploading (archived : List String) (path : String)
  | sent (archived : List String) (path key : String) (content : Bytes)
  | cleaning (cutoff : DateTime) (removed : ℕ)
  | removing (cutoff : DateTime) (removed : ℕ) (path : String)

inductive ArchiveEvent where
  | create (path : String) (content : Bytes) (now : DateTime)
  | append (path : String) (content : Bytes) (now : DateTime)
  | archiveCompletedFiles (call : ℕ) (readDir : Except String Unit)
  | cleanupOldFiles (call : ℕ) (olderThanDays : UInt32) (now : DateTime) (readDir : Except String Unit)
  | nextEntry (call : ℕ) (entry : DirEntry) (now : DateTime)
  | read (call : ℕ) (readable : Bool) (now : DateTime)
  | response (call : ℕ) (success : Bool)
  | removeFile (call : ℕ) (permitted : Bool)

/-- What comes of an event. One that the call does not wait for is `ignored`. -/
inductive ArchiveEffect where
  | ignored
  | silent
  | panicked
  | written (path : String)
  | sent (call : ℕ) (path : String) (content : Bytes)
  | uploaded (call : ℕ) (path : String) (content : Bytes)
  | removed (call : ℕ) (path : String) (content : Bytes)
  | archived (result : Except String (List String))
  | cleaned (result : Except String ℕ)

abbrev ArchiveLog := History ArchiveEvent ArchiveEffect

structure ArchiveState where
  files : HashMap String LocalFile
  calls : HashMap ℕ ArchiveCall

namespace ArchiveState

/-- A directory on which no call is at work. -/
def ofFiles (files : HashMap String LocalFile) : ArchiveState := ⟨files, ∅⟩

def write (s : ArchiveState) (path : String) (f : LocalFile) : ArchiveState :=
  { s with files := s.files.insert path f }

def remove (s : ArchiveState) (path : String) : ArchiveState :=
  { s with files := s.files.erase path }

/-- The call goes on as `c`. -/
def goOn (s : ArchiveState) (call : ℕ) (c : ArchiveCall) : ArchiveState :=
  { s with calls := s.calls.insert call c }

def finish (s : ArchiveState) (call : ℕ) : ArchiveState :=
  { s with calls := s.calls.erase call }

/-- A `.jsonl` file whose metadata can be read. -/
def logFile? (s : ArchiveState) (path : String) (hasMetadata : Bool) : Option LocalFile :=
  if extension? path = some "jsonl".toList ∧ hasMetadata then s.files[path]? else none

section

variable (s : ArchiveState) (call : ℕ) (c : ArchiveCall)

@[simp] theorem calls_goOn : (s.goOn call c).calls[call]? = some c := by
  rw [goOn, HashMap.getElem?_insert, if_pos rfl]

@[simp] theorem files_goOn : (s.goOn call c).files = s.files := rfl

@[simp] theorem logFile?_goOn (path : String) (hasMetadata : Bool) :
    (s.goOn call c).logFile? path hasMetadata = s.logFile? path hasMetadata := rfl

end

/-- One turn of the loop of `archive_completed_files`. -/
def archiveEntry (s : ArchiveState) (call : ℕ) (archived : List String) (entry : DirEntry) (now : DateTime) :
    ArchiveEffect × ArchiveState :=
  match entry with
  | .failed e => (.archived (.error e), s.finish call)
  | .finished => (.archived (.ok archived), s.finish call)
  | .found path hasMetadata =>
    match s.logFile? path hasMetadata with
    | none => (.silent, s)
    | some f =>
      -- a file from the future is of age zero
      let age := (now - f.modified).toNat / 1000000000
      if 3600 < age then (.silent, s.goOn call (.uploading archived path)) else (.silent, s)

/-- One turn of the loop of `cleanup_old_files`. -/
def cleanupEntry (s : ArchiveState) (call : ℕ) (cutoff : DateTime) (removed : ℕ) (entry : DirEntry) :
    ArchiveEffect × ArchiveState :=
  match entry with
  | .failed e => (.cleaned (.error e), s.finish call)
  | .finished => (.cleaned (.ok removed), s.finish call)
  | .found path hasMetadata =>
    match s.logFile? path hasMetadata with
    | none => (.silent, s)
    | some f => if f.modified < cutoff then (.silent, s.goOn call (.removing cutoff removed path)) else (.silent, s)

/-- The start of `upload_file`: the file is read and sent. A clock before the Unix epoch panics. -/
def readFile (config : S3ArchiveConfig) (s : ArchiveState) (call : ℕ) (archived : List String) (path : String)
    (readable : Bool) (now : DateTime) : ArchiveEffect × ArchiveState :=
  if now < 0 then (.panicked, s.finish call)
  else match s.files[path]?, readable with
  | some f, true =>
    let key := s!"{config.keyPrefix}{now.toNat / 1000000000}-{path}.jsonl"
    (.sent call path f.content, s.goOn call (.sent archived path key f.content))
  | _, _ => (.silent, s.goOn call (.archiving archived))

def step (s3Client : Option S3ArchiveConfig) : Machine ArchiveState ArchiveEvent ArchiveEffect
  | s, .create path content now =>
    match s.files[path]? with
    | some _ => (.ignored, s)
    | none => (.written path, s.write path ⟨content, now⟩)
  | s, .append path content now =>
    match s.files[path]? with
    | some f => (.written path, s.write path ⟨f.content ++ content, now⟩)
    | none => (.ignored, s)
  | s, .archiveCompletedFiles call readDir =>
    match s.calls[call]?, s3Client, readDir with
    | some _, _, _ => (.ignored, s)
    | none, none, _ => (.archived (.ok []), s)
    | none, some _, .error e => (.archived (.error e), s)
    | none, some _, .ok () => (.silent, s.goOn call (.archiving []))
  | s, .cleanupOldFiles call olderThanDays now readDir =>
    match s.calls[call]?, readDir with
    | some _, _ => (.ignored, s)
    | none, .error e => (.cleaned (.error e), s)
    | none, .ok () => (.silent, s.goOn call (.cleaning (now - olderThanDays.toNat * 86400 * 1000000000) 0))
  | s, .nextEntry call entry now =>
    match s.calls[call]? with
    | some (.archiving archived) => s.archiveEntry call archived entry now
    | some (.cleaning cutoff removed) => s.cleanupEntry call cutoff removed entry
    | _ => (.ignored, s)
  | s, .read call readable now =>
    match s.calls[call]?, s3Client with
    | some (.uploading archived path), some config => readFile config s call archived path readable now
    | _, _ => (.ignored, s)
  | s, .response call success =>
    match s.calls[call]? with
    | some (.sent archived path key content) =>
      if success then (.uploaded call path content, s.goOn call (.archiving (archived ++ [key])))
      else (.silent, s.goOn call (.archiving archived))
    | _ => (.ignored, s)
  | s, .removeFile call permitted =>
    match s.calls[call]? with
    | some (.removing cutoff removed path) =>
      match s.files[path]?, permitted with
      | some f, true => (.removed call path f.content, (s.remove path).goOn call (.cleaning cutoff (removed + 1)))
      | _, _ => (.silent, s.goOn call (.cleaning cutoff removed))
    | _ => (.ignored, s)

/-! ## What a step does -/

/-- A call is about to remove the file. -/
def Removing (s : ArchiveState) (path : String) : Prop :=
  ∃ (call : ℕ) (cutoff : DateTime) (removed : ℕ), s.calls[call]? = some (ArchiveCall.removing cutoff removed path)

end ArchiveState

def ArchiveEvent.writesTo? : ArchiveEvent → Option String
  | .create path _ _ | .append path _ _ => some path
  | _ => none

def ArchiveEffect.writes (path : String) : ArchiveEffect → Bool
  | .written path' => path' = path
  | _ => false

/-- The effect neither changes a file nor reads one. -/
def ArchiveEffect.Quiet : ArchiveEffect → Prop
  | .written _ | .sent .. | .removed .. => False
  | _ => True

namespace ArchiveState

inductive Step (s : ArchiveState) : ArchiveEvent → ArchiveEffect → ArchiveState → Prop where
  | quiet {i effect s'} (heffect : effect.Quiet) (hfiles : s'.files = s.files)
      (hremoving : ∀ path, s'.Removing path → s.Removing path) : Step s i effect s'
  | write {i path f} (hi : i.writesTo? = some path) : Step s i (.written path) (s.write path f)
  | send {i call archived path key f} (hf : s.files[path]? = some f) :
      Step s i (.sent call path f.content) (s.goOn call (.sent archived path key f.content))
  | select {call path hasMetadata now cutoff removed f}
      (hcall : s.calls[call]? = some (ArchiveCall.cleaning cutoff removed))
      (hf : s.logFile? path hasMetadata = some f) (hold : f.modified < cutoff) :
      Step s (.nextEntry call (.found path hasMetadata) now) .silent (s.goOn call (.removing cutoff removed path))
  | remove {i call cutoff removed path f} (hcall : s.calls[call]? = some (ArchiveCall.removing cutoff removed path))
      (hf : s.files[path]? = some f) :
      Step s i (.removed call path f.content) ((s.remove path).goOn call (.cleaning cutoff (removed + 1)))

variable {s : ArchiveState} {call : ℕ} {path : String}

theorem files_of_logFile? {hasMetadata : Bool} {f : LocalFile} (h : s.logFile? path hasMetadata = some f) :
    s.files[path]? = some f := by
  rw [logFile?] at h
  split at h
  · exact h
  · cases h

/-- A call that goes on otherwise than to remove a file. -/
theorem removing_goOn {c : ArchiveCall} (hc : ∀ cutoff removed path, c ≠ .removing cutoff removed path)
    (h : (s.goOn call c).Removing path) : s.Removing path := by
  obtain ⟨call', cutoff, removed, h⟩ := h
  refine ⟨call', cutoff, removed, ?_⟩
  rw [goOn, HashMap.getElem?_insert] at h
  split at h
  · cases h
    exact absurd rfl (hc _ _ _)
  · exact h

theorem removing_goOn_removing {cutoff : DateTime} {removed : ℕ} {path' : String}
    (h : (s.goOn call (.removing cutoff removed path)).Removing path') : path' = path ∨ s.Removing path' := by
  obtain ⟨call', cutoff', removed', h⟩ := h
  rw [goOn, HashMap.getElem?_insert] at h
  split at h
  · cases h
    exact .inl rfl
  · exact .inr ⟨call', cutoff', removed', h⟩

theorem removing_finish (h : (s.finish call).Removing path) : s.Removing path := by
  obtain ⟨call', cutoff, removed, h⟩ := h
  refine ⟨call', cutoff, removed, ?_⟩
  rw [finish, HashMap.getElem?_erase] at h
  split at h
  · cases h
  · exact h

theorem Step.same {i : ArchiveEvent} {effect : ArchiveEffect} (heffect : effect.Quiet) : s.Step i effect s :=
  .quiet heffect rfl fun _ h => h

theorem Step.goOn {i : ArchiveEvent} {effect : ArchiveEffect} {c : ArchiveCall} (heffect : effect.Quiet)
    (hc : ∀ cutoff removed path, c ≠ .removing cutoff removed path) : s.Step i effect (s.goOn call c) :=
  .quiet heffect rfl fun _ => removing_goOn hc

theorem Step.finish {i : ArchiveEvent} {effect : ArchiveEffect} (heffect : effect.Quiet) :
    s.Step i effect (s.finish call) :=
  .quiet heffect rfl fun _ => removing_finish

theorem step_archiveEntry {i : ArchiveEvent} {archived : List String} {entry : DirEntry} {now : DateTime} :
    s.Step i (s.archiveEntry call archived entry now).1 (s.archiveEntry call archived entry now).2 := by
  cases entry with
  | failed e => exact .finish trivial
  | finished => exact .finish trivial
  | found path hasMetadata =>
    simp only [archiveEntry]
    split
    · exact .same trivial
    · split
      · exact .goOn trivial (by simp)
      · exact .same trivial

theorem step_cleanupEntry {cutoff now : DateTime} {removed : ℕ} {entry : DirEntry}
    (hcall : s.calls[call]? = some (ArchiveCall.cleaning cutoff removed)) :
    s.Step (.nextEntry call entry now) (s.cleanupEntry call cutoff removed entry).1
      (s.cleanupEntry call cutoff removed entry).2 := by
  cases entry with
  | failed e => exact .finish trivial
  | finished => exact .finish trivial
  | found path hasMetadata =>
    simp only [cleanupEntry]
    split
    · exact .same trivial
    · next f hf =>
      split
      · next hold => exact .select hcall hf hold
      · exact .same trivial

theorem step_readFile {i : ArchiveEvent} {config : S3ArchiveConfig} {archived : List String} {readable : Bool}
    {now : DateTime} : s.Step i (readFile config s call archived path readable now).1
      (readFile config s call archived path readable now).2 := by
  simp only [readFile]
  split
  · exact .finish trivial
  · split
    · next f _ _ hf => exact .send hf
    · exact .goOn trivial (by simp)

theorem step_cases (s3Client : Option S3ArchiveConfig) (s : ArchiveState) (i : ArchiveEvent) :
    s.Step i (step s3Client s i).1 (step s3Client s i).2 := by
  cases i with
  | create path content now =>
    simp only [step]
    split
    · exact .same trivial
    · exact .write rfl
  | append path content now =>
    simp only [step]
    split
    · exact .write rfl
    · exact .same trivial
  | archiveCompletedFiles call readDir =>
    simp only [step]
    split
    · exact .same trivial
    · exact .same trivial
    · exact .same trivial
    · exact .goOn trivial (by simp)
  | cleanupOldFiles call olderThanDays now readDir =>
    simp only [step]
    split
    · exact .same trivial
    · exact .same trivial
    · exact .goOn trivial (by simp)
  | nextEntry call entry now =>
    simp only [step]
    split
    · exact step_archiveEntry
    · next hcall => exact step_cleanupEntry hcall
    · exact .same trivial
  | read call readable now =>
    simp only [step]
    split
    · exact step_readFile
    · exact .same trivial
  | response call success =>
    simp only [step]
    split
    · split
      · exact .goOn trivial (by simp)
      · exact .goOn trivial (by simp)
    · exact .same trivial
  | removeFile call permitted =>
    simp only [step]
    split
    · next hcall =>
      split
      · next f _ hf => exact .remove hcall hf
      · exact .goOn trivial (by simp)
    · exact .same trivial

end ArchiveState

/-! ## What has been archived -/

namespace ArchiveLog

def effects (h : ArchiveLog) : List ArchiveEffect := h.map (·.2)

/-- S3 has accepted an upload of these bytes. -/
def Uploaded (h : ArchiveLog) (path : String) (content : Bytes) : Prop :=
  ∃ call, .uploaded call path content ∈ h.effects

def sinceWritten (h : ArchiveLog) (path : String) : ArchiveLog :=
  History.since (fun e => e.2.writes path) h

/-- A call has read the file since it was last written to, and S3 has accepted what the call read. -/
def Archived (h : ArchiveLog) (path : String) : Prop :=
  ∃ call content, .sent call path content ∈ (h.sinceWritten path).effects ∧ .uploaded call path content ∈ h.effects

variable {h : ArchiveLog} {path : String} {content : Bytes}

@[simp] theorem effects_append (e : ArchiveEvent × ArchiveEffect) : effects (h ++ [e]) = h.effects ++ [e.2] := by
  simp [effects]

theorem Uploaded.append (hu : h.Uploaded path content) (e : ArchiveEvent × ArchiveEffect) :
    Uploaded (h ++ [e]) path content := by
  obtain ⟨call, hup⟩ := hu
  rw [Uploaded, effects_append]
  exact ⟨call, List.mem_append_left _ hup⟩

theorem uploaded_append_silent {i : ArchiveEvent} :
    Uploaded (h ++ [(i, .silent)]) path content ↔ h.Uploaded path content := by
  simp [Uploaded]

theorem Archived.uploaded {f : LocalFile} (ha : h.Archived path)
    (hf : ∀ call content, .sent call path content ∈ (h.sinceWritten path).effects → content = f.content) :
    h.Uploaded path f.content := by
  obtain ⟨call, content, hsent, hup⟩ := ha
  rw [hf call content hsent] at hup
  exact ⟨call, hup⟩

theorem mem_sinceWritten_append {effect : ArchiveEffect} {e : ArchiveEvent × ArchiveEffect}
    (h' : effect ∈ (sinceWritten (h ++ [e]) path).effects) :
    e.2.writes path = false ∧ (effect ∈ (h.sinceWritten path).effects ∨ effect = e.2) := by
  cases hw : e.2.writes path with
  | true =>
    rw [sinceWritten, History.since_append_of_pos (by exact hw)] at h'
    cases h'
  | false =>
    rw [sinceWritten, History.since_append_of_neg (by exact hw), effects_append, List.mem_append,
      List.mem_singleton] at h'
    exact ⟨rfl, h'⟩

end ArchiveLog

namespace ArchiveState

/-- Files that cleanup finds old are archived, and one that it is about to remove is left alone. -/
structure ArchivesFirst (h : ArchiveLog) (s : ArchiveState) (i : ArchiveEvent) : Prop where
  archived : ∀ call path hasMetadata now cutoff removed f, i = .nextEntry call (.found path hasMetadata) now →
    s.calls[call]? = some (ArchiveCall.cleaning cutoff removed) → s.logFile? path hasMetadata = some f →
      f.modified < cutoff → h.Archived path
  leftAlone : ∀ path, i.writesTo? = some path → ¬ s.Removing path

/-- What an upload has read of a file since it was last written to is what is in it, and what is about to be
removed is uploaded. -/
structure UploadInv (h : ArchiveLog) (s : ArchiveState) : Prop where
  read : ∀ (path : String) (f : LocalFile), s.files[path]? = some f → ∀ call content,
    .sent call path content ∈ (h.sinceWritten path).effects → content = f.content
  removing : ∀ (path : String) (f : LocalFile), s.Removing path → s.files[path]? = some f → h.Uploaded path f.content

variable {h : ArchiveLog} {s : ArchiveState}

theorem uploadInv_ofFiles (files : HashMap String LocalFile) : UploadInv [] (ofFiles files) where
  read path f hf call content hsent := by cases hsent
  removing path f hr hf := by
    obtain ⟨call, cutoff, removed, hcall⟩ := hr
    rw [ofFiles, Std.ExtTreeMap.getElem?_empty] at hcall
    cases hcall

/-- A step that leaves the files as they are, reads a file as it is, and brings only uploaded files to removal. -/
theorem UploadInv.of_files {i : ArchiveEvent} {effect : ArchiveEffect} {s' : ArchiveState} (hi : UploadInv h s)
    (hfiles : s'.files = s.files)
    (hsent : ∀ (call : ℕ) (path : String) (content : Bytes) (f : LocalFile), effect = .sent call path content →
      s.files[path]? = some f → content = f.content)
    (hremoving : ∀ (path : String) (f : LocalFile), s'.Removing path → s.files[path]? = some f →
      h.Uploaded path f.content) : UploadInv (h ++ [(i, effect)]) s' where
  read path f hf call content h' := by
    rw [hfiles] at hf
    rcases (ArchiveLog.mem_sinceWritten_append h').2 with h' | heq
    · exact hi.read path f hf call content h'
    · exact hsent call path content f heq.symm hf
  removing path f hr hf := by
    rw [hfiles] at hf
    exact (hremoving path f hr hf).append _

theorem UploadInv.write {i : ArchiveEvent} {path : String} {f : LocalFile} (hi : UploadInv h s)
    (hleft : ¬ s.Removing path) : UploadInv (h ++ [(i, .written path)]) (s.write path f) where
  read path' f' hf call content h' := by
    obtain ⟨hw, h'⟩ := ArchiveLog.mem_sinceWritten_append h'
    rw [ArchiveState.write, HashMap.getElem?_insert] at hf
    split at hf
    · next heq => simp [ArchiveEffect.writes, heq] at hw
    · rcases h' with h' | heq
      · exact hi.read path' f' hf call content h'
      · cases heq
  removing path' f' hr hf := by
    rw [ArchiveState.write, HashMap.getElem?_insert] at hf
    split at hf
    · next heq => exact absurd (heq ▸ hr) hleft
    · exact (hi.removing path' f' hr hf).append _

theorem UploadInv.remove {i : ArchiveEvent} {call call' cutoff removed : _} {path : String} {content : Bytes}
    (hi : UploadInv h s) : UploadInv (h ++ [(i, .removed call path content)])
      ((s.remove path).goOn call' (.cleaning cutoff removed)) where
  read path' f hf call content h' := by
    rw [goOn, ArchiveState.remove, HashMap.getElem?_erase] at hf
    split at hf
    · cases hf
    · rcases (ArchiveLog.mem_sinceWritten_append h').2 with h' | heq
      · exact hi.read path' f hf call content h'
      · cases heq
  removing path' f hr hf := by
    rw [goOn, ArchiveState.remove, HashMap.getElem?_erase] at hf
    split at hf
    · cases hf
    · exact (hi.removing path' f (removing_goOn (by simp) hr) hf).append _

theorem UploadInv.step {i : ArchiveEvent} {effect : ArchiveEffect} {s' : ArchiveState} (hi : UploadInv h s)
    (ha : ArchivesFirst h s i) (hstep : s.Step i effect s') : UploadInv (h ++ [(i, effect)]) s' := by
  cases hstep with
  | quiet heffect hfiles hremoving =>
    refine hi.of_files hfiles ?_ fun path f hr hf => hi.removing path f (hremoving path hr) hf
    rintro call path content f rfl
    exact heffect.elim
  | write hw => exact hi.write (ha.leftAlone _ hw)
  | send hf =>
    refine hi.of_files rfl ?_ fun path f hr hf => hi.removing path f (removing_goOn (by simp) hr) hf
    intro call path content f' heq hf'
    cases heq
    cases hf.symm.trans hf'
    rfl
  | @select call path hasMetadata now cutoff removed f hcall hf hold =>
    refine hi.of_files rfl (fun call path content f heq => by cases heq) fun path' f' hr hf' => ?_
    rcases removing_goOn_removing hr with rfl | hr
    · have harchived := ha.archived call path' hasMetadata now cutoff removed f rfl hcall hf hold
      exact harchived.uploaded (hi.read path' f' hf')
    · exact hi.removing path' f' hr hf'
  | remove hcall hf => exact hi.remove

/-- What a removal removes is uploaded. -/
theorem UploadInv.removed {i : ArchiveEvent} {call : ℕ} {path : String} {content : Bytes} {s' : ArchiveState}
    (hi : UploadInv h s) (hstep : s.Step i (.removed call path content) s') : h.Uploaded path content := by
  cases hstep with
  | quiet heffect => exact heffect.elim
  | remove hcall hf => exact hi.removing _ _ ⟨_, _, _, hcall⟩ hf

/-- What the step removes was uploaded before, with all that was in it. -/
def RemovesUploaded (s3Client : Option S3ArchiveConfig) (h : ArchiveLog) (s : ArchiveState) (i : ArchiveEvent) : Prop :=
  ∀ call path content, (step s3Client s i).1 = .removed call path content → h.Uploaded path content

/-- Cleanup removes only what has been uploaded in every run in which all files it finds old have been archived, and
are left alone until they are removed. -/
theorem removesUploaded_run (s3Client : Option S3ArchiveConfig) (files : HashMap String LocalFile)
    (is : List ArchiveEvent) (h : (step s3Client).Along ArchivesFirst [] (ofFiles files) is) :
    (step s3Client).Along (RemovesUploaded s3Client) [] (ofFiles files) is := by
  refine h.mono_of_inv (fun h s i hi ha => hi.step ha (step_cases s3Client s i)) ?_ (uploadInv_ofFiles files)
  intro h s i hi _ call path content hremoved
  have hstep := step_cases s3Client s i
  rw [hremoved] at hstep
  exact hi.removed hstep

/-! ## Cleanup by itself -/

/-- A cleanup that finds one file. -/
def cleanup (call : ℕ) (olderThanDays : UInt32) (now : DateTime) (path : String) : List ArchiveEvent :=
  [.cleanupOldFiles call olderThanDays now (.ok ()), .nextEntry call (.found path true) now, .removeFile call true]

/-- Cleanup looks at the age of a file alone: it is right only about files uploaded before it. -/
theorem removesUploaded_cleanup {s3Client : Option S3ArchiveConfig} {call : ℕ} {path : String} {f : LocalFile}
    {olderThanDays : UInt32} {now : DateTime} (hcall : s.calls[call]? = none) (hf : s.logFile? path true = some f)
    (hold : f.modified < now - olderThanDays.toNat * 86400 * 1000000000) :
    (step s3Client).Along (RemovesUploaded s3Client) h s (cleanup call olderThanDays now path) ↔
      h.Uploaded path f.content := by
  have hfile := files_of_logFile? hf
  simp only [Machine.Along, cleanup, RemovesUploaded, step, hcall, calls_goOn, logFile?_goOn, hf, files_goOn,
    cleanupEntry, if_pos hold, hfile, ArchiveEffect.removed.injEq, reduceCtorEq, false_imp_iff, implies_true, true_and,
    and_true, and_imp, ArchiveLog.uploaded_append_silent]
  constructor
  · intro huploaded
    exact huploaded _ _ _ rfl rfl rfl
  · rintro huploaded _ _ _ rfl rfl rfl
    exact huploaded

def auditLog : HashMap String LocalFile :=
  (∅ : HashMap String LocalFile).insert "audit-1.jsonl" ⟨[123, 125], 0⟩

/-- Two days later the file is archived, whatever S3 answers. -/
def archiveLog (success : Bool) : List ArchiveEvent :=
  [.archiveCompletedFiles 0 (.ok ()), .nextEntry 0 (.found "audit-1.jsonl" true) (DateTime.hours 48),
    .read 0 true (DateTime.hours 48), .response 0 success, .nextEntry 0 .finished (DateTime.hours 48)]

theorem archivesFirst_of_not_found {i : ArchiveEvent} (hwrites : i.writesTo? = none)
    (hfound : ∀ call path hasMetadata now, i ≠ .nextEntry call (.found path hasMetadata) now) :
    ArchivesFirst h s i where
  archived call path hasMetadata now _ _ _ heq := absurd heq (hfound call path hasMetadata now)
  leftAlone path hpath := by
    rw [hwrites] at hpath
    cases hpath

/-- S3 accepts the upload, and the file is cleaned up. -/
theorem removesUploaded_run_archiveLog :
    (step (some ⟨"audit-logs/"⟩)).Along ArchivesFirst [] (ofFiles auditLog)
      (archiveLog true ++ cleanup 1 1 (DateTime.hours 48) "audit-1.jsonl") ∧
    (step (some ⟨"audit-logs/"⟩)).Along (RemovesUploaded (some ⟨"audit-logs/"⟩)) [] (ofFiles auditLog)
      (archiveLog true ++ cleanup 1 1 (DateTime.hours 48) "audit-1.jsonl") := by
  have hrun : (step (some ⟨"audit-logs/"⟩)).Along ArchivesFirst [] (ofFiles auditLog)
      (archiveLog true ++ cleanup 1 1 (DateTime.hours 48) "audit-1.jsonl") := by
    refine ⟨archivesFirst_of_not_found rfl (by simp), ⟨?_, by simp [ArchiveEvent.writesTo?]⟩,
      archivesFirst_of_not_found rfl (by simp), archivesFirst_of_not_found rfl (by simp),
      archivesFirst_of_not_found rfl (by simp), archivesFirst_of_not_found rfl (by simp),
      ⟨?_, by simp [ArchiveEvent.writesTo?]⟩, archivesFirst_of_not_found rfl (by simp), trivial⟩
    · intro call path hasMetadata now cutoff removed f heq hcall
      cases heq
      cases (show some (ArchiveCall.archiving []) = some (.cleaning cutoff removed) from hcall)
    · intro call path hasMetadata now cutoff removed f heq _ _ _
      cases heq
      exact ⟨0, [123, 125], List.mem_of_getElem? (i := 2) rfl, List.mem_of_getElem? (i := 3) rfl⟩
  exact ⟨hrun, removesUploaded_run _ _ _ hrun⟩

/-- S3 refuses the upload, and the file is cleaned up. -/
theorem not_removesUploaded_archiveLog :
    ¬ (step (some ⟨"audit-logs/"⟩)).Along (RemovesUploaded (some ⟨"audit-logs/"⟩)) [] (ofFiles auditLog)
      (archiveLog false ++ cleanup 1 1 (DateTime.hours 48) "audit-1.jsonl") := by
  rw [Machine.along_append, removesUploaded_cleanup (f := ⟨[123, 125], 0⟩) rfl rfl (by decide)]
  rintro ⟨-, call, hup⟩
  have heffects : ArchiveLog.effects ((step (some ⟨"audit-logs/"⟩)).trace (ofFiles auditLog) (archiveLog false)) =
      [.silent, .silent, .sent 0 "audit-1.jsonl" [123, 125], .silent, .archived (.ok [])] := rfl
  rw [List.nil_append, heffects] at hup
  simp at hup

end ArchiveState

end GmKms.Audit
