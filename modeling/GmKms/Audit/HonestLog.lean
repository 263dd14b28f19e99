import GmKms.Audit.Survival
import GmKms.Lib.HashChain
/-!
# Honest logs

The entries that one logger produces when events are logged one after another.
-/

namespace GmKms.Audit

open Lib

variable {F : Type}

/-- The link between entries: the signature, and the signature before. -/
def chain (F : Type) : HashLink (SignedAuditEntry F) Bytes := ⟨(·.signature), (·.previousSignature)⟩

/-- The entries of events that are signed one after another, from a sequence number and
the signature before on. -/
def signAll (S : Formats F) (hmac : Bytes → Bytes → Bytes) (key : Bytes) :
    ℕ → Option Bytes → List (AuditEvent F × Option TrustedTimestamp) → List (SignedAuditEntry F)
  | _, _, [] => []
  | sequence, previousSignature, (payload, ts) :: events =>
    let e := SignedAuditEntry.new S hmac payload (.ofNat sequence) key previousSignature ts
    e :: signAll S hmac key (sequence + 1) (some e.signature) events

/-- The log of events from its start. -/
def honestLog (S : Formats F) (hmac : Bytes → Bytes → Bytes) (key : Bytes)
    (events : List (AuditEvent F × Option TrustedTimestamp)) : List (SignedAuditEntry F) :=
  signAll S hmac key 0 none events

/-- The messages signed and checked for the entries of a log. -/
def messages (S : Formats F) (log : List (SignedAuditEntry F)) : Set Bytes := {b | ∃ e ∈ log, b ∈ e.messages S}

/-! ## Sequence numbers in the signed bytes -/

@[simp] theorem length_leBytes (x n : ℕ) : (leBytes x n).length = n := by
  induction n generalizing x with
  | zero => rfl
  | succ n ih => rw [leBytes, List.length_cons, ih]

theorem mod_eq_of_leBytes_eq {x y n : ℕ} (h : leBytes x n = leBytes y n) : x % 256 ^ n = y % 256 ^ n := by
  induction n generalizing x y with
  | zero => simp [Nat.mod_one]
  | succ n ih =>
    obtain ⟨hlow, hhigh⟩ := List.cons.inj h
    have hlow : x % 256 = y % 256 := by simpa using congrArg UInt8.toNat hlow
    rw [Nat.pow_succ, Nat.mul_comm, Nat.mod_mul, Nat.mod_mul, hlow, ih hhigh]

theorem SignedAuditEntry.sequence_eq_of_input_eq {S : Formats F} {e e' : SignedAuditEntry F}
    (h : e.input S = e'.input S) : e.sequence = e'.sequence := by
  rw [input, input, signingInput, signingInput, List.append_assoc, List.append_assoc] at h
  have hbytes := mod_eq_of_leBytes_eq (List.append_inj_left h (by simp))
  have hlt : e.sequence.toNat < 256 ^ 8 := e.sequence.toNat_lt
  have hlt' : e'.sequence.toNat < 256 ^ 8 := e'.sequence.toNat_lt
  rw [Nat.mod_eq_of_lt hlt, Nat.mod_eq_of_lt hlt'] at hbytes
  exact UInt64.toNat_inj.1 hbytes

/-! ## What an honest log is like -/

section

variable (S : Formats F) (hmac : Bytes → Bytes → Bytes) (key : Bytes)

theorem signAll_chained (sequence : ℕ) (previousSignature : Option Bytes)
    (events : List (AuditEvent F × Option TrustedTimestamp)) :
    (chain F).Chained previousSignature (signAll S hmac key sequence previousSignature events) := by
  induction events generalizing sequence previousSignature with
  | nil => trivial
  | cons event events ih => exact ⟨rfl, ih _ _⟩

theorem verify_of_mem_signAll {sequence : ℕ} {previousSignature : Option Bytes}
    {events : List (AuditEvent F × Option TrustedTimestamp)} {e : SignedAuditEntry F}
    (h : e ∈ signAll S hmac key sequence previousSignature events) : e.verify S hmac key := by
  induction events generalizing sequence previousSignature with
  | nil => cases h
  | cons event events ih =>
    rcases List.mem_cons.1 h with rfl | h
    · exact SignedAuditEntry.verify_new ..
    · exact ih h

theorem map_sequence_signAll {sequence : ℕ} {previousSignature : Option Bytes}
    {events : List (AuditEvent F × Option TrustedTimestamp)} (h : sequence + events.length ≤ 2 ^ 64) :
    (signAll S hmac key sequence previousSignature events).map (·.sequence.toNat) =
      List.range' sequence events.length := by
  induction events generalizing sequence previousSignature with
  | nil => rfl
  | cons event events ih =>
    rw [List.length_cons] at h
    rw [signAll, List.map_cons, ih (by omega), List.length_cons, List.range'_succ]
    exact congrArg (· :: _) (Nat.mod_eq_of_lt (by omega))

variable {S hmac key}

theorem hmac_input_of_mem_honestLog {events : List (AuditEvent F × Option TrustedTimestamp)} {e : SignedAuditEntry F}
    (h : e ∈ honestLog S hmac key events) : hmac key (e.input S) = e.signature :=
  of_decide_eq_true (verify_of_mem_signAll S hmac key h)

theorem nodup_sequence_honestLog (S : Formats F) (hmac : Bytes → Bytes → Bytes) (key : Bytes)
    {events : List (AuditEvent F × Option TrustedTimestamp)} (h : events.length ≤ 2 ^ 64) :
    ((honestLog S hmac key events).map (·.sequence.toNat)).Nodup := by
  rw [honestLog, map_sequence_signAll S hmac key (by omega)]
  exact List.nodup_range'

theorem nodup_signature_honestLog {events : List (AuditEvent F × Option TrustedTimestamp)}
    (h : events.length ≤ 2 ^ 64) (hmac_inj : (messages S (honestLog S hmac key events)).InjOn (hmac key)) :
    ((honestLog S hmac key events).map (chain F).hash).Nodup := by
  have hsequence := nodup_sequence_honestLog S hmac key h
  refine List.Nodup.map_on ?_ hsequence.of_map
  intro e he e' he' hsignature
  have hhmac : hmac key (e.input S) = hmac key (e'.input S) :=
    (hmac_input_of_mem_honestLog he).trans (hsignature.trans (hmac_input_of_mem_honestLog he').symm)
  have hinput : e.input S = e'.input S := hmac_inj ⟨e, he, .inl rfl⟩ ⟨e', he', .inl rfl⟩ hhmac
  exact List.inj_on_of_nodup_map hsequence he he'
    (congrArg UInt64.toNat (SignedAuditEntry.sequence_eq_of_input_eq hinput))

end

end GmKms.Audit
