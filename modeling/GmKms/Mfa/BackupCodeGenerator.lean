import GmKms.Mfa.BackupCodes
/-!
# The backup code generator

`BackupCodeGenerator` keeps a set of hashes and, beside it, the number of codes that remain. A code that is not in the
set counts as a failed attempt; from the fifth one on, every failed attempt locks the generator for a while.
-/

namespace GmKms.Mfa

open Lib

structure BackupCode where
  code : String
  used : Bool
  usedAt : Option ℤ

/-- Of `MfaError`, what `consume_code` returns. -/
inductive BackupCodeError where
  | invalidCode
  | noBackupCodes
  | backupCodeLocked (seconds : ℕ)
  deriving DecidableEq

def maxFailedAttempts : UInt32 := 5

def lockoutDurationSecs : ℤ := 300

/-- Times are whole seconds. -/
structure BackupCodeGenerator where
  /-- Hashes. -/
  codes : Finset String
  remaining : ℕ
  failedAttempts : UInt32
  lockoutUntil : Option ℤ

namespace BackupCodeGenerator

/-- `generate_single_code`, of four random bytes. -/
def generateSingleCode (bytes : UInt32) : String :=
  let digits := Nat.toDigits 10 (bytes.toNat % 100000000)
  String.ofList (List.replicate (8 - digits.length) '0' ++ digits)

section

variable (uppercase : Char → Text)

/-- The loop of `generate` over what the random generator yields; `none` where it wants more. -/
def generateLoop (count : ℕ) (codes : Finset String) (backupCodes : List BackupCode) :
    List UInt32 → Option (Finset String × List BackupCode)
  | [] => if codes.card < count then none else some (codes, backupCodes)
  | bytes :: draws =>
    if codes.card < count then
      let code := generateSingleCode bytes
      let hash := hashBackupCode uppercase code
      if hash ∈ codes then generateLoop count codes backupCodes draws
      else generateLoop count (insert hash codes) (backupCodes ++ [⟨code, false, none⟩]) draws
    else some (codes, backupCodes)

def generate (count : ℕ) (draws : List UInt32) : Option (BackupCodeGenerator × List BackupCode) := do
  let (codes, backupCodes) ← generateLoop uppercase count ∅ [] draws
  return ({ codes, remaining := count, failedAttempts := 0, lockoutUntil := none }, backupCodes)

def isLockedOut (g : BackupCodeGenerator) (now : ℤ) : Option ℕ :=
  g.lockoutUntil.bind fun lockoutUntil => if now < lockoutUntil then some (lockoutUntil - now).toNat else none

def consumeCode (g : BackupCodeGenerator) (now : ℤ) (code : String) :
    Except BackupCodeError Unit × BackupCodeGenerator :=
  match g.isLockedOut now with
  | some retryAfter => (.error (.backupCodeLocked retryAfter), g)
  | none =>
    let normalizedHash := hashBackupCode uppercase code
    if normalizedHash ∉ g.codes then
      let failedAttempts := g.failedAttempts + 1
      if maxFailedAttempts ≤ failedAttempts then
        (.error (.backupCodeLocked lockoutDurationSecs.toNat),
          { g with failedAttempts, lockoutUntil := some (now + lockoutDurationSecs) })
      else (.error .invalidCode, { g with failedAttempts })
    else if g.remaining = 0 then (.error .noBackupCodes, g)
    else
      (.ok (),
        { codes := g.codes.erase normalizedHash
          remaining := g.remaining - 1
          failedAttempts := 0
          lockoutUntil := none })

def isValidCode (g : BackupCodeGenerator) (code : String) : Bool := hashBackupCode uppercase code ∈ g.codes

end

/-- The loop of `load`: the set, and how many codes have gone into it. -/
def loadLoop : List BackupCode → Finset String × ℕ → Finset String × ℕ
  | [], acc => acc
  | backupCode :: codes, (codeSet, remaining) =>
    loadLoop codes (if !backupCode.used then (insert backupCode.code codeSet, remaining + 1) else (codeSet, remaining))

def load (codes : List BackupCode) : BackupCodeGenerator :=
  let (codes, remaining) := loadLoop codes (∅, 0)
  { codes, remaining, failedAttempts := 0, lockoutUntil := none }

/-! ## Runs -/

/-- How a generator comes about. -/
inductive Start where
  | generated (count : ℕ) (draws : List UInt32)
  | loaded (codes : List BackupCode)

/-- A call of `consume_code` at a time. -/
structure Call where
  now : ℤ
  code : String

/-- What a call answers, and whether it has looked the code up in the set. -/
structure Reply where
  answer : Except BackupCodeError Unit
  compared : Bool

abbrev Log := History Call Reply

def succeeded (e : Call × Reply) : Bool := e.2.answer.isOk

/-- When codes have been looked up since the last success. -/
def guesses (h : Log) : List ℤ :=
  (History.since succeeded h).filterMap fun e => if e.2.compared then some e.1.now else none

section

variable (uppercase : Char → Text)

def Start.generator : Start → Option BackupCodeGenerator
  | generated count draws => (generate uppercase count draws).map (·.1)
  | loaded codes => some (load codes)

/-- The generator as a machine that answers `consume_code`. -/
def consume : Machine BackupCodeGenerator Call Reply := fun g c =>
  (⟨(g.consumeCode uppercase c.now c.code).1, (g.isLockedOut c.now).isNone⟩, (g.consumeCode uppercase c.now c.code).2)

/-- The codes that are still accepted, by their hashes. -/
def accepted (g : BackupCodeGenerator) : Set String :=
  {hash | ∃ code, hashBackupCode uppercase code = hash ∧ g.isValidCode uppercase code = true}

/-- The call has consumed a code with the hash. -/
def consumes (hash : String) (e : Call × Reply) : Bool := succeeded e && hashBackupCode uppercase e.1.code = hash

/-- After the calls, the number that remains is that of the codes still accepted; no code has been accepted twice; and
since the last success no more than five codes have been looked up, and one more for each lockout that has gone by since
the fifth. -/
structure Exact (h : Log) (g : BackupCodeGenerator) : Prop where
  remaining : g.remaining = (g.accepted uppercase).ncard
  once : ∀ hash, h.countP (consumes uppercase hash) ≤ 1
  guesses : ∀ fifth last, (guesses h)[4]? = some fifth → (guesses h).getLast? = some last →
    (((guesses h).length : ℤ) - maxFailedAttempts.toNat) * lockoutDurationSecs ≤ last - fifth

/-- The codes that are unused, as `load` takes them. -/
def unused (codes : List BackupCode) : List String := (codes.filter fun c => !c.used).map (·.code)

/-- The unused codes of a list that is loaded are hashes, and differ. -/
def Start.Sound : Start → Prop
  | generated .. => True
  | loaded codes => (unused codes).Nodup ∧ ∀ hash ∈ unused codes, ∃ code, hashBackupCode uppercase code = hash

/-- A code that fails is not looked up when the counter is full. -/
def CountsOn (g : BackupCodeGenerator) (c : Call) : Prop :=
  g.isLockedOut c.now = none → hashBackupCode uppercase c.code ∉ g.codes → g.failedAttempts ≠ .ofNat (2 ^ 32 - 1)

end

/-! ## One call -/

section

variable {uppercase : Char → Text}

/-- How a call can end: locked out; with a code that is not in the set; with one that is, where none should remain; or
with success. -/
inductive Step (uppercase : Char → Text) (g : BackupCodeGenerator) (c : Call) : Reply → BackupCodeGenerator → Prop where
  | locked {reply : Reply} (rejected : reply.answer.isOk = false) (compared : reply.compared = false) :
      Step uppercase g c reply g
  | wrong {reply : Reply} (rejected : reply.answer.isOk = false) (compared : reply.compared = true)
      (unlocked : g.isLockedOut c.now = none) (wrong : hashBackupCode uppercase c.code ∉ g.codes) :
      Step uppercase g c reply
        { g with
          failedAttempts := g.failedAttempts + 1
          lockoutUntil :=
            if maxFailedAttempts ≤ g.failedAttempts + 1 then some (c.now + lockoutDurationSecs) else g.lockoutUntil }
  | exhausted {reply : Reply} (rejected : reply.answer.isOk = false) (compared : reply.compared = true)
      (right : hashBackupCode uppercase c.code ∈ g.codes) (none : g.remaining = 0) : Step uppercase g c reply g
  | accepted {reply : Reply} (ok : reply.answer.isOk = true) (right : hashBackupCode uppercase c.code ∈ g.codes)
      (some : g.remaining ≠ 0) :
      Step uppercase g c reply
        { codes := g.codes.erase (hashBackupCode uppercase c.code)
          remaining := g.remaining - 1
          failedAttempts := 0
          lockoutUntil := .none }

variable (uppercase) in
theorem consume_step (g : BackupCodeGenerator) (c : Call) :
    Step uppercase g c (consume uppercase g c).1 (consume uppercase g c).2 := by
  unfold consume consumeCode
  cases hlocked : g.isLockedOut c.now with
  | some retryAfter => exact .locked rfl rfl
  | none =>
    dsimp only
    by_cases hwrong : hashBackupCode uppercase c.code ∉ g.codes
    · rw [if_pos hwrong]
      have hstep : Step uppercase g c ⟨.error .invalidCode, true⟩ _ := .wrong rfl rfl hlocked hwrong
      have hstep' : Step uppercase g c ⟨.error (.backupCodeLocked lockoutDurationSecs.toNat), true⟩ _ :=
        .wrong rfl rfl hlocked hwrong
      split
      · rw [if_pos ‹_›] at hstep'
        exact hstep'
      · rw [if_neg ‹_›] at hstep
        exact hstep
    · rw [if_neg hwrong]
      by_cases hnone : g.remaining = 0
      · rw [if_pos hnone]
        exact .exhausted rfl rfl (not_not.1 hwrong) hnone
      · rw [if_neg hnone]
        exact .accepted rfl (not_not.1 hwrong) hnone

theorem guesses_append_of_success {h : Log} {e : Call × Reply} (he : e.2.answer.isOk = true) :
    guesses (h ++ [e]) = [] := by
  rw [guesses, History.since_append_of_pos (p := succeeded) he, List.filterMap_nil]

theorem guesses_append_of_rejected {h : Log} {e : Call × Reply} (he : e.2.answer.isOk = false) :
    guesses (h ++ [e]) = guesses h ++ if e.2.compared then [e.1.now] else [] := by
  rw [guesses, History.since_append_of_neg (p := succeeded) he, List.filterMap_append, guesses]
  cases hcompared : e.2.compared <;> simp [hcompared]

/-- The counter has the number of guesses, and from the fifth one on the last has locked the generator. The lockouts fit
between the fifth and the last. -/
structure Tally (times : List ℤ) (g : BackupCodeGenerator) : Prop where
  failedAttempts : g.failedAttempts.toNat = times.length
  few : times.length < 5 → g.lockoutUntil = none
  many : 5 ≤ times.length → ∃ last, times.getLast? = some last ∧ g.lockoutUntil = some (last + lockoutDurationSecs)
  spaced : ∀ fifth last, times[4]? = some fifth → times.getLast? = some last →
    ((times.length : ℤ) - maxFailedAttempts.toNat) * lockoutDurationSecs ≤ last - fifth

theorem Tally.nil {g : BackupCodeGenerator} (hzero : g.failedAttempts = 0) (hnone : g.lockoutUntil = none) :
    Tally [] g where
  failedAttempts := by rw [hzero]; rfl
  few _ := hnone
  many h := absurd h (by decide)
  spaced _ _ h := by cases h

/-- A failed attempt comes no earlier than the last lockout ends. -/
theorem Tally.guess {times : List ℤ} {g : BackupCodeGenerator} (ht : Tally times g) {now : ℤ}
    (hunlocked : g.isLockedOut now = none) (hroom : g.failedAttempts ≠ .ofNat (2 ^ 32 - 1)) :
    Tally (times ++ [now])
      { g with
        failedAttempts := g.failedAttempts + 1
        lockoutUntil := if maxFailedAttempts ≤ g.failedAttempts + 1 then some (now + lockoutDurationSecs)
          else g.lockoutUntil } := by
  have hlt : times.length + 1 < 2 ^ 32 := by
    have hle := g.failedAttempts.toNat_lt
    have hne : g.failedAttempts.toNat ≠ 2 ^ 32 - 1 := fun heq => hroom (UInt32.toNat_inj.1 heq)
    rw [ht.failedAttempts] at hle hne
    omega
  have hcount : (g.failedAttempts + 1).toNat = times.length + 1 := by
    rw [UInt32.toNat_add, ht.failedAttempts]
    exact Nat.mod_eq_of_lt hlt
  have hlocks : maxFailedAttempts ≤ g.failedAttempts + 1 ↔ 5 ≤ times.length + 1 := by
    rw [UInt32.le_iff_toNat_le, hcount]
    rfl
  refine ⟨by rw [hcount, List.length_append, List.length_singleton], ?_, ?_, ?_⟩
  · intro hfew
    rw [List.length_append, List.length_singleton] at hfew
    dsimp only
    rw [if_neg fun h => absurd (hlocks.1 h) (by omega)]
    exact ht.few (by omega)
  · intro hmany
    rw [List.length_append, List.length_singleton] at hmany
    exact ⟨now, List.getLast?_concat, if_pos (hlocks.2 hmany)⟩
  · intro fifth last hfifth hlast
    rw [List.getLast?_concat, Option.some.injEq] at hlast
    subst hlast
    rw [List.length_append, List.length_singleton]
    have hmax : maxFailedAttempts.toNat = 5 := rfl
    have hsecs : lockoutDurationSecs = 300 := rfl
    rcases lt_trichotomy times.length 4 with hshort | hfour | hlong
    · rw [List.getElem?_eq_none (by simp; omega)] at hfifth
      cases hfifth
    · rw [List.getElem?_append_right hfour.le, hfour] at hfifth
      cases hfifth
      rw [hfour, hmax]
      simp
    · obtain ⟨last, hlast, huntil⟩ := ht.many hlong
      have hafter : last + lockoutDurationSecs ≤ now := by
        simpa [isLockedOut, huntil] using hunlocked
      rw [List.getElem?_append_left hlong] at hfifth
      have hspaced := ht.spaced fifth last hfifth hlast
      rw [hmax, hsecs] at hspaced ⊢
      rw [hsecs] at hafter
      push_cast at hspaced ⊢
      linarith

/-! ## Beginnings -/

/-- All codes of the set are hashes. -/
def Hashed (uppercase : Char → Text) (codes : Finset String) : Prop :=
  ∀ hash ∈ codes, ∃ code, hashBackupCode uppercase code = hash

theorem accepted_subset (g : BackupCodeGenerator) : g.accepted uppercase ⊆ ↑g.codes := by
  rintro _ ⟨code, rfl, hvalid⟩
  exact of_decide_eq_true hvalid

/-- The codes that are accepted are those of the set, where all of them are hashes. -/
theorem accepted_eq {g : BackupCodeGenerator} (h : Hashed uppercase g.codes) : g.accepted uppercase = ↑g.codes := by
  refine (accepted_subset g).antisymm fun hash hmem => ?_
  obtain ⟨code, rfl⟩ := h hash hmem
  exact ⟨code, rfl, decide_eq_true hmem⟩

variable (uppercase) in
/-- The number beside the set is its size, the set has hashes, none of which has been consumed, and the guesses are
counted. -/
structure Inv (h : Log) (g : BackupCodeGenerator) : Prop where
  remaining : g.remaining = g.codes.card
  hashed : Hashed uppercase g.codes
  once : ∀ hash, h.countP (consumes uppercase hash) ≤ 1
  fresh : ∀ hash ∈ g.codes, h.countP (consumes uppercase hash) = 0
  tally : Tally (guesses h) g

theorem Inv.exact {h : Log} {g : BackupCodeGenerator} (hi : Inv uppercase h g) : Exact uppercase h g where
  remaining := by rw [accepted_eq hi.hashed, Set.ncard_coe_finset, hi.remaining]
  once := hi.once
  guesses := hi.tally.spaced

theorem countP_consumes_of_rejected (h : Log) {c : Call} {reply : Reply} (hrejected : reply.answer.isOk = false)
    (hash : String) :
    (h ++ [(c, reply)]).countP (consumes uppercase hash) = h.countP (consumes uppercase hash) := by
  rw [List.countP_append, List.countP_singleton]
  simp [consumes, succeeded, hrejected]

/-- A rejected call adds no consumption; what it does to the counter is in its tally. -/
theorem Inv.rejected {h : Log} {g g' : BackupCodeGenerator} {c : Call} {reply : Reply} (hi : Inv uppercase h g)
    (hrejected : reply.answer.isOk = false) (hcodes : g'.codes = g.codes) (hremaining : g'.remaining = g.remaining)
    (htally : Tally (guesses (h ++ [(c, reply)])) g') : Inv uppercase (h ++ [(c, reply)]) g' where
  remaining := by rw [hremaining, hi.remaining, hcodes]
  hashed := by rw [hcodes]; exact hi.hashed
  once hash := by rw [countP_consumes_of_rejected h hrejected]; exact hi.once hash
  fresh hash hmem := by
    rw [countP_consumes_of_rejected h hrejected]
    exact hi.fresh hash (hcodes ▸ hmem)
  tally := htally

/-- The hash of a success was in the set, and is no longer. -/
theorem Inv.accepted {h : Log} {g : BackupCodeGenerator} {c : Call} {reply : Reply} (hi : Inv uppercase h g)
    (hok : reply.answer.isOk = true) (hright : hashBackupCode uppercase c.code ∈ g.codes) :
    Inv uppercase (h ++ [(c, reply)])
      { codes := g.codes.erase (hashBackupCode uppercase c.code)
        remaining := g.remaining - 1
        failedAttempts := 0
        lockoutUntil := none } := by
  have hcount : ∀ hash, (h ++ [(c, reply)]).countP (consumes uppercase hash) =
      h.countP (consumes uppercase hash) + if hashBackupCode uppercase c.code = hash then 1 else 0 := by
    intro hash
    rw [List.countP_append, List.countP_singleton]
    simp [consumes, succeeded, hok]
  refine ⟨?_, ?_, ?_, ?_, ?_⟩
  · rw [Finset.card_erase_of_mem hright, hi.remaining]
  · exact fun hash hmem => hi.hashed hash (Finset.mem_of_mem_erase hmem)
  · intro hash
    rw [hcount]
    split
    · rename_i heq
      rw [hi.fresh hash (heq ▸ hright)]
    · exact hi.once hash
  · intro hash hmem
    obtain ⟨hne, hmem⟩ := Finset.mem_erase.1 hmem
    rw [hcount, if_neg hne.symm]
    exact hi.fresh hash hmem
  · rw [guesses_append_of_success hok]
    exact Tally.nil rfl rfl

theorem Inv.step {h : Log} {g : BackupCodeGenerator} {c : Call} (hi : Inv uppercase h g) (hc : CountsOn uppercase g c) :
    Inv uppercase (h ++ [(c, (consume uppercase g c).1)]) (consume uppercase g c).2 := by
  generalize hout : consume uppercase g c = out
  have hstep := consume_step uppercase g c
  rw [hout] at hstep
  obtain ⟨reply, g'⟩ := out
  cases hstep with
  | locked rejected compared =>
    refine hi.rejected rejected rfl rfl ?_
    rw [guesses_append_of_rejected rejected, compared]
    simpa using hi.tally
  | wrong rejected compared unlocked wrong =>
    refine hi.rejected rejected rfl rfl ?_
    rw [guesses_append_of_rejected rejected, compared]
    exact hi.tally.guess unlocked (hc unlocked wrong)
  | exhausted _ _ right none =>
    rw [hi.remaining, Finset.card_eq_zero] at none
    rw [none] at right
    exact absurd right (Finset.notMem_empty _)
  | accepted ok right => exact hi.accepted ok right

end

instance {uppercase : Char → Text} {g : BackupCodeGenerator} {c : Call} : Decidable (CountsOn uppercase g c) :=
  inferInstanceAs (Decidable (_ → _ → _))

/-- A wrong code, a code twice and the other one. -/
def sampleCalls : List Call := [⟨0, "INVALID"⟩, ⟨1, "AB12-CD34"⟩, ⟨2, "AB12-CD34"⟩, ⟨3, "EF56-AB78"⟩]

end BackupCodeGenerator

end GmKms.Mfa
