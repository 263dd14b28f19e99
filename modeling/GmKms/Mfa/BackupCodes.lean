import GmKms.Audit.PlainFormats
import GmKms.Lib.Machine
import GmKms.Lib.Sha256
/-!
# Backup codes

`MfaManager::consume_backup_code` on instances that share the database: the list of hashes is
loaded, and written back without the one that was presented. The two steps of a call are apart,
and a write that fails goes unnoticed.
-/

namespace GmKms.Mfa

open Lib
open Audit (utf8)

/-- How `serde_json` writes and reads a `Vec<String>`. -/
structure CodesText where
  write : List String → String
  read : String → Option (List String)
  read_write : ∀ codes, read (write codes) = some codes

/-- `str::trim`. -/
def trim (t : Text) : Text := (t.dropWhile Text.isWhiteSpace).rdropWhile Text.isWhiteSpace

/-- `uppercase` is the table of `char::to_uppercase`. -/
def hashBackupCode (uppercase : Char → Text) (code : String) : String :=
  hexEncode (Sha256.digest (utf8 ((trim code.toList).flatMap uppercase)))

/-- A call between its load and its write: the list it loaded, and where the presented hash is. -/
structure Consumption where
  process : ℕ
  userId : String
  normalized : String
  loaded : List String
  pos : ℕ

/-- The list with the presented hash removed. -/
def Consumption.codes (c : Consumption) : List String := c.loaded.eraseIdx c.pos

/-- The column `backup_codes` of the rows of `mfa_configs`, by user; the codes that each process
holds in memory, which it reads only without a database; and the calls under way. -/
structure MfaRun where
  backupCodes : HashMap String String
  memory : ℕ → HashMap String (List String)
  calls : ℕ → Option Consumption

/-- The steps of calls, which are numbered: the `SELECT`, which succeeds or fails, and the `UPDATE`,
which writes or fails. -/
inductive MfaInput where
  | load (call process : ℕ) (userId code : String) (readable : Bool)
  | writeBack (call : ℕ) (written : Bool)

inductive MfaReply where
  /-- There is no such call, or the number is taken. -/
  | idle
  | loaded
  | returned (userId normalized : String) (consumed : Bool)

namespace MfaRun

variable (text : CodesText) (uppercase : Char → Text)

def loadBackupCodes (s : MfaRun) (userId : String) (readable : Bool) : Option (List String) :=
  if readable then s.backupCodes[userId]?.bind text.read else none

def updateBackupCodes (s : MfaRun) (userId : String) (codesJson : String) : HashMap String String :=
  match s.backupCodes[userId]? with
  | none => s.backupCodes
  | some _ => s.backupCodes.insert userId codesJson

def consumeBackupCode : Machine MfaRun MfaInput MfaReply
  | s, .load call process userId code readable =>
    match s.calls call with
    | some _ => (.idle, s)
    | none =>
      let normalized := hashBackupCode uppercase code
      match s.loadBackupCodes text userId readable with
      | none => (.returned userId normalized false, s)
      | some codes =>
        match codes.findIdx? fun c => c = normalized with
        | none => (.returned userId normalized false, s)
        | some pos =>
          (.loaded, { s with calls := Function.update s.calls call (some ⟨process, userId, normalized, codes, pos⟩) })
  | s, .writeBack call written =>
    match s.calls call with
    | none => (.idle, s)
    | some c =>
      -- the result of the query is dropped
      let backupCodes := if written then s.updateBackupCodes c.userId (text.write c.codes) else s.backupCodes
      (.returned c.userId c.normalized true,
        { backupCodes
          memory := Function.update s.memory c.process ((s.memory c.process).insert c.userId c.codes)
          calls := Function.update s.calls call none })

/-! ## Single use -/

def stored (s : MfaRun) (userId : String) : Option (List String) := s.loadBackupCodes text userId true

/-- The step returns true for the hash. -/
def consumes (userId hash : String) (e : MfaInput × MfaReply) : Bool :=
  match e.2 with
  | .returned userId' hash' true => userId' = userId && hash' = hash
  | _ => false

/-- The step presents a code with the hash. -/
def Presents (userId hash : String) (e : MfaInput × MfaReply) : Prop :=
  match e.1 with
  | .load _ _ userId' code _ => userId' = userId ∧ hashBackupCode uppercase code = hash
  | .writeBack .. => False

/-- No more calls have returned true for a hash than it is stored times, and the codes that were not
presented are all still stored. -/
structure SingleUse (userId : String) (codes : List String) (h : History MfaInput MfaReply) (s : MfaRun) : Prop where
  once : ∀ hash, h.countP (consumes userId hash) ≤ codes.count hash
  kept : ∃ left, s.stored text userId = some left ∧
    ∀ hash, (∀ e ∈ h, ¬ Presents uppercase userId hash e) → left.count hash = codes.count hash

/-- A call for the user writes successfully, and nothing has been written since it loaded. -/
def Undisturbed (userId : String) (_ : History MfaInput MfaReply) (s : MfaRun) : MfaInput → Prop
  | .load .. => True
  | .writeBack call written => ∀ c, s.calls call = some c → c.userId = userId →
      written = true ∧ s.stored text userId = some c.loaded

/-! ## The invariant -/

/-- The hashes that are stored and those that were consumed are the codes; what was consumed or is
about to be was presented. -/
structure Accounted (userId : String) (codes : List String) (h : History MfaInput MfaReply) (s : MfaRun) : Prop where
  split : ∃ left, s.stored text userId = some left ∧
    ∀ hash, left.count hash + h.countP (consumes userId hash) = codes.count hash
  presented : ∀ hash, h.countP (consumes userId hash) ≠ 0 → ∃ e ∈ h, Presents uppercase userId hash e
  pending : ∀ call c, s.calls call = some c → c.userId = userId →
    (∃ e ∈ h, Presents uppercase userId c.normalized e) ∧ c.loaded[c.pos]? = some c.normalized

variable {text uppercase}

theorem singleUse_of_accounted {userId : String} {codes : List String} {h : History MfaInput MfaReply} {s : MfaRun}
    (hs : Accounted text uppercase userId codes h s) : SingleUse text uppercase userId codes h s := by
  obtain ⟨left, hstored, hsplit⟩ := hs.split
  refine ⟨fun hash => ?_, left, hstored, fun hash hnot => ?_⟩
  · rw [← hsplit hash]
    exact Nat.le_add_left _ _
  · have hzero : h.countP (consumes userId hash) = 0 := by
      by_contra hne
      obtain ⟨e, he, hpresents⟩ := hs.presented hash hne
      exact hnot e he hpresents
    rw [← hsplit hash, hzero, Nat.add_zero]

/-- The hash at `pos` is the one that is missing after the removal. -/
theorem count_eraseIdx {codes : List String} {pos : ℕ} {x : String} (h : codes[pos]? = some x) (hash : String) :
    (codes.eraseIdx pos).count hash + (if x = hash then 1 else 0) = codes.count hash := by
  obtain ⟨hpos, hx⟩ := List.getElem?_eq_some_iff.1 h
  have hperm := (List.getElem_cons_eraseIdx_perm hpos).count_eq hash
  rw [hx, List.count_cons] at hperm
  simpa using hperm

theorem mem_snoc {ε : Type} {P : ε → Prop} {h : List ε} (e : ε) (hx : ∃ x ∈ h, P x) : ∃ x ∈ h ++ [e], P x := by
  obtain ⟨x, hmem, hx⟩ := hx
  exact ⟨x, List.mem_append_left _ hmem, hx⟩

/-- A step that stores nothing for the user and returns no true. -/
theorem Accounted.snoc {userId : String} {codes : List String} {h : History MfaInput MfaReply} {s s' : MfaRun}
    (hs : Accounted text uppercase userId codes h s) {e : MfaInput × MfaReply}
    (hstored : s'.stored text userId = s.stored text userId) (hconsumes : ∀ hash, consumes userId hash e = false)
    (hpending : ∀ call c, s'.calls call = some c → c.userId = userId → s.calls call = some c ∨
      Presents uppercase userId c.normalized e ∧ c.loaded[c.pos]? = some c.normalized) :
    Accounted text uppercase userId codes (h ++ [e]) s' := by
  have hcount : ∀ hash, (h ++ [e]).countP (consumes userId hash) = h.countP (consumes userId hash) := by
    intro hash
    rw [List.countP_append, List.countP_singleton, hconsumes]
    rfl
  refine ⟨?_, ?_, ?_⟩
  · obtain ⟨left, hleft, hsplit⟩ := hs.split
    refine ⟨left, hstored.trans hleft, fun hash => ?_⟩
    rw [hcount]
    exact hsplit hash
  · intro hash hne
    rw [hcount] at hne
    exact mem_snoc e (hs.presented hash hne)
  · intro call c hc huser
    rcases hpending call c hc huser with hold | ⟨hpresents, hpos⟩
    · obtain ⟨hpresented, hpos⟩ := hs.pending call c hold huser
      exact ⟨mem_snoc e hpresented, hpos⟩
    · exact ⟨⟨e, List.mem_append_right _ (List.mem_singleton_self _), hpresents⟩, hpos⟩

theorem accounted_load {userId : String} {codes : List String} {h : History MfaInput MfaReply} {s : MfaRun}
    (hs : Accounted text uppercase userId codes h s) (call process : ℕ) (userId' code : String) (readable : Bool) :
    Accounted text uppercase userId codes
      (h ++ [(.load call process userId' code readable,
        (consumeBackupCode text uppercase s (.load call process userId' code readable)).1)])
      (consumeBackupCode text uppercase s (.load call process userId' code readable)).2 := by
  simp only [consumeBackupCode]
  cases hcall : s.calls call with
  | some c => exact hs.snoc rfl (fun _ => rfl) fun _ _ hc _ => .inl hc
  | none =>
    dsimp only
    cases hload : s.loadBackupCodes text userId' readable with
    | none => exact hs.snoc rfl (fun _ => rfl) fun _ _ hc _ => .inl hc
    | some loaded =>
      dsimp only
      cases hfind : loaded.findIdx? fun c => c = hashBackupCode uppercase code with
      | none => exact hs.snoc rfl (fun _ => rfl) fun _ _ hc _ => .inl hc
      | some pos =>
        dsimp only
        refine hs.snoc rfl (fun _ => rfl) fun call' c hc huser => ?_
        dsimp only at hc
        by_cases hsame : call' = call
        · subst hsame
          rw [Function.update_self, Option.some.injEq] at hc
          subst hc
          obtain ⟨hpos, hfound, -⟩ := List.findIdx?_eq_some_iff_getElem.1 hfind
          refine .inr ⟨⟨huser, rfl⟩, ?_⟩
          rw [List.getElem?_eq_getElem hpos, of_decide_eq_true hfound]
        · rw [Function.update_of_ne hsame] at hc
          exact .inl hc

/-- What the write of a call leaves stored. -/
theorem stored_update (s : MfaRun) (userId : String) (codes : List String) (other : String) (memory)
    (calls : ℕ → Option Consumption) :
    (⟨s.updateBackupCodes userId (text.write codes), memory, calls⟩ : MfaRun).stored text other =
      if other = userId ∧ (s.backupCodes[userId]?).isSome then some codes else s.stored text other := by
  unfold stored loadBackupCodes updateBackupCodes
  cases hrow : s.backupCodes[userId]? with
  | none => simp
  | some row =>
    dsimp only
    rw [HashMap.getElem?_insert]
    by_cases hother : other = userId
    · simp [hother, text.read_write]
    · simp [hother]

theorem accounted_writeBack {userId : String} {codes : List String} {h : History MfaInput MfaReply} {s : MfaRun}
    (hs : Accounted text uppercase userId codes h s) (call : ℕ) (written : Bool)
    (hclean : Undisturbed text userId h s (.writeBack call written)) :
    Accounted text uppercase userId codes
      (h ++ [(.writeBack call written, (consumeBackupCode text uppercase s (.writeBack call written)).1)])
      (consumeBackupCode text uppercase s (.writeBack call written)).2 := by
  simp only [consumeBackupCode]
  cases hcall : s.calls call with
  | none => exact hs.snoc rfl (fun _ => rfl) fun _ _ hc _ => .inl hc
  | some c =>
    have hothers : ∀ call' c', Function.update s.calls call none call' = some c' → s.calls call' = some c' := by
      intro call' c' hc'
      by_cases hsame : call' = call
      · subst hsame
        rw [Function.update_self] at hc'
        cases hc'
      · rwa [Function.update_of_ne hsame] at hc'
    dsimp only
    by_cases huser : c.userId = userId
    · obtain ⟨rfl, hloaded⟩ := hclean c hcall huser
      obtain ⟨hpresented, hpos⟩ := hs.pending call c hcall huser
      obtain ⟨left, hleft, hsplit⟩ := hs.split
      have hconsumes : ∀ hash, consumes userId hash
          (MfaInput.writeBack call true, MfaReply.returned c.userId c.normalized true) =
          decide (c.normalized = hash) := by
        intro hash
        simp [consumes, huser]
      have hrow : (s.backupCodes[c.userId]?).isSome := by
        rw [huser]
        obtain ⟨row, hrow, -⟩ := Option.bind_eq_some_iff.1 hloaded
        rw [hrow]
        rfl
      refine ⟨⟨c.codes, ?_, fun hash => ?_⟩, fun hash hne => ?_, fun call' c' hc' huser' => ?_⟩
      · rw [if_pos rfl, stored_update, if_pos ⟨huser.symm, hrow⟩]
      · -- the list that was loaded is the one that is stored
        rw [hloaded, Option.some.injEq] at hleft
        subst hleft
        have hcount := count_eraseIdx hpos hash
        rw [List.countP_append, List.countP_singleton, hconsumes, ← hsplit hash, ← hcount, Consumption.codes]
        by_cases hhash : c.normalized = hash <;> simp [hhash]
        omega
      · rw [List.countP_append, List.countP_singleton, hconsumes] at hne
        by_cases hhash : c.normalized = hash
        · exact mem_snoc _ (hhash ▸ hpresented)
        · exact mem_snoc _ (hs.presented hash (by simpa [hhash] using hne))
      · obtain ⟨hpresented', hpos'⟩ := hs.pending call' c' (hothers call' c' hc') huser'
        exact ⟨mem_snoc _ hpresented', hpos'⟩
    · refine hs.snoc ?_ (fun hash => ?_) fun call' c' hc' _ => .inl (hothers call' c' hc')
      · cases written with
        | false => rfl
        | true => rw [if_pos rfl, stored_update, if_neg fun h => huser h.1.symm]
      · simp [consumes, huser]

/-- Calls whose writes succeed, and find stored what the calls loaded, consume each code once and
lose none. -/
theorem singleUse_of_undisturbed (text : CodesText) (uppercase : Char → Text) (userId : String) {codes : List String}
    {s : MfaRun} (hcalls : s.calls = fun _ => none) (hstored : s.stored text userId = some codes)
    {steps : List MfaInput}
    (hclean : (consumeBackupCode text uppercase).Along (Undisturbed text userId) [] s steps) :
    (consumeBackupCode text uppercase).Throughout (SingleUse text uppercase userId codes) [] s steps := by
  have hstart : Accounted text uppercase userId codes [] s := by
    refine ⟨⟨codes, hstored, fun _ => rfl⟩, fun hash hne => absurd rfl hne, fun call c hc => ?_⟩
    rw [hcalls] at hc
    cases hc
  refine (hclean.throughout (fun h s i hs hi => ?_) hstart).mono fun _ _ => singleUse_of_accounted
  cases i with
  | load call process userId' code readable => exact accounted_load hs call process userId' code readable
  | writeBack call written => exact accounted_writeBack hs call written hi

/-! ## Two processes -/

/-- The list as a JSON array. -/
def jsonCodes : CodesText where
  write codes := String.ofList (JsonText.write Audit.noFloats (.arr (codes.map .str)))
  read t :=
    match JsonText.read Audit.noFloats Audit.recursionLimit t.toList with
    | some (.arr items) => items.mapM Json.asString?
    | _ => none
  read_write codes := by
    have hfit : (Json.arr (codes.map .str) : Json Empty).IntsFit := by
      rw [Json.IntsFit, Json.intsFitItems_iff]
      rintro j hj
      obtain ⟨code, -, rfl⟩ := List.mem_map.1 hj
      trivial
    have hdepth : (Json.arr (codes.map .str) : Json Empty).depth ≤ Audit.recursionLimit := by
      have hitems : Json.depthItems (codes.map (.str : String → Json Empty)) ≤ 0 := by
        rw [Json.depthItems_le_iff]
        rintro j hj
        obtain ⟨code, -, rfl⟩ := List.mem_map.1 hj
        exact Nat.le_refl _
      rw [Json.depth]
      exact Nat.le_trans (Nat.succ_le_succ hitems) (by decide)
    rw [String.toList_ofList, JsonText.read_write Audit.noFloats_lawful hfit, if_pos hdepth, Json.mapFloat_id]
    refine Json.mapM_map_eq_some (fun code => ?_) codes
    rfl

def asciiUppercase (c : Char) : Text := [c.toUpper]

def sampleHash : String := hashBackupCode asciiUppercase "AB12-CD34"

/-- A user with one backup code. -/
def oneCode (calls : ℕ → Option Consumption) : MfaRun where
  backupCodes := (∅ : HashMap String String).insert "user-1" (jsonCodes.write [sampleHash])
  memory _ := ∅
  calls := calls

theorem stored_oneCode (calls : ℕ → Option Consumption) :
    (oneCode calls).stored jsonCodes "user-1" = some [sampleHash] := by
  simp [stored, loadBackupCodes, oneCode, jsonCodes.read_write]

theorem consume_load {s : MfaRun} {call : ℕ} {userId code : String} {codes : List String} {pos : ℕ}
    (hcall : s.calls call = none) (hstored : s.stored text userId = some codes)
    (hfind : (codes.findIdx? fun c => c = hashBackupCode uppercase code) = some pos) (process : ℕ) :
    consumeBackupCode text uppercase s (.load call process userId code true) =
      (.loaded,
        { s with
          calls := Function.update s.calls call
            (some ⟨process, userId, hashBackupCode uppercase code, codes, pos⟩) }) := by
  rw [stored] at hstored
  simp only [consumeBackupCode, hcall, hstored, hfind]

theorem load_oneCode {calls : ℕ → Option Consumption} {call : ℕ} (hcall : calls call = none) (process : ℕ) :
    consumeBackupCode jsonCodes asciiUppercase (oneCode calls) (.load call process "user-1" "AB12-CD34" true) =
      (.loaded, oneCode (Function.update calls call (some ⟨process, "user-1", sampleHash, [sampleHash], 0⟩))) := by
  have hfind : ([sampleHash].findIdx? fun c => c = hashBackupCode asciiUppercase "AB12-CD34") = some 0 := by
    rw [sampleHash]
    simp
  exact consume_load hcall (stored_oneCode calls) hfind process

/-- The code is presented, and presented again once the first call has returned. -/
def oneAfterTheOther : List MfaInput :=
  [.load 0 0 "user-1" "AB12-CD34" true, .writeBack 0 true, .load 1 1 "user-1" "AB12-CD34" true]

theorem singleUse_oneAfterTheOther : (consumeBackupCode jsonCodes asciiUppercase).Throughout
    (SingleUse jsonCodes asciiUppercase "user-1" [sampleHash]) [] (oneCode fun _ => none) oneAfterTheOther := by
  refine singleUse_of_undisturbed jsonCodes asciiUppercase "user-1" rfl (stored_oneCode _) ⟨trivial, ?_, trivial,
    trivial⟩
  rw [load_oneCode rfl]
  dsimp only
  intro c hc _
  simp only [oneCode, Function.update_self, Option.some.injEq] at hc
  subst hc
  exact ⟨rfl, stored_oneCode _⟩

/-- Both calls load before either writes. -/
def bothLoaded : List MfaInput :=
  [.load 0 0 "user-1" "AB12-CD34" true, .load 1 1 "user-1" "AB12-CD34" true, .writeBack 0 true, .writeBack 1 true]

/-- Both return true for the one code. -/
theorem not_singleUse_bothLoaded : ¬ (consumeBackupCode jsonCodes asciiUppercase).Throughout
    (SingleUse jsonCodes asciiUppercase "user-1" [sampleHash]) [] (oneCode fun _ => none) bothLoaded := by
  intro h
  have honce := h.final.once sampleHash
  rw [bothLoaded, Machine.trace, load_oneCode rfl, Machine.trace, load_oneCode rfl] at honce
  simp [Machine.trace, consumeBackupCode, consumes, oneCode] at honce

end MfaRun

end GmKms.Mfa
