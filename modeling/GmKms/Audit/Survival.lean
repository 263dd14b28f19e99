import GmKms.Audit.PlainFormats
import GmKms.Audit.Storage
import GmKms.Lib.Sha256
import Mathlib
/-!
# Signatures of stored entries

When an entry that has been written as a JSON line and read back still verifies.
The metadata map is iterated again to check the signature, so that only a map
with at most one key is sure to give the bytes that were signed.
-/

namespace GmKms.Audit

open Lib

variable {F : Type} {S : Formats F}

/-! ## Metadata that comes back as it was -/

/-- Every number of the map is read back as it is. -/
def Metadata.Stable (S : Formats F) (m : Metadata F) : Prop := ∀ e ∈ m.entries, e.2.mapFloat S.reparse = e.2

/-- Metadata that is read back as it was, in whatever order the new map is iterated. -/
structure Metadata.Survives (S : Formats F) (m : Metadata F) : Prop where
  shallow : m.Shallow
  stable : m.Stable S
  length_le : m.entries.length ≤ 1

theorem length_le_of_reverse_eq {α : Type} {l : List α} (hnodup : l.Nodup) (h : l.reverse = l) : l.length ≤ 1 := by
  cases l with
  | nil => exact Nat.zero_le 1
  | cons a l =>
    rw [List.reverse_cons] at h
    cases hrev : l.reverse with
    | nil => simp [List.reverse_eq_nil_iff.1 hrev]
    | cons b rest =>
      rw [hrev] at h
      have hmem : a ∈ l := List.mem_reverse.1 (by rw [hrev, (List.cons.inj h).1]; exact List.mem_cons_self)
      exact absurd hmem (List.nodup_cons.1 hnodup).1

namespace Metadata

theorem ext_entries {m m' : Metadata F} (h : m.entries = m'.entries) : m = m' := by
  cases m
  cases m'
  cases h
  rfl

theorem map_reparse_of_stable {m : Metadata F} (h : m.Stable S) :
    m.entries.map (fun e => (e.1, e.2.mapFloat S.reparse)) = m.entries := by
  have hsame : m.entries.map (fun e => (e.1, e.2.mapFloat S.reparse)) = m.entries.map id :=
    List.map_congr_left fun e he => Prod.ext rfl (h e he)
  rw [hsame, List.map_id]

theorem reread_inserted_of_stable {m : Metadata F} (h : m.Stable S) : m.reread S .inserted = m :=
  ext_entries ((entries_reread .inserted m).trans (map_reparse_of_stable h))

theorem reread_eq_of_survives {m : Metadata F} (h : m.Survives S) (order : IterOrder (String × Value F)) :
    m.reread S order = m := by
  refine ext_entries ?_
  rw [entries_reread, map_reparse_of_stable h.stable]
  have hperm := order.perm m.entries
  match hentries : m.entries with
  | [] => exact List.perm_nil.1 (hentries ▸ hperm)
  | [e] => exact List.perm_singleton.1 (hentries ▸ hperm)
  | _ :: _ :: _ => exact absurd h.length_le (by simp [hentries])

/-- Two entries are read back in one of two orders. -/
theorem reread_of_length_le_two {m : Metadata F} (h : m.entries.length ≤ 2) (order : IterOrder (String × Value F)) :
    m.reread S order = m.reread S .inserted ∨ m.reread S order = m.reread S .reversed := by
  have hperm := order.perm (m.entries.map fun e => (e.1, e.2.mapFloat S.reparse))
  have hread {order' : IterOrder (String × Value F)}
      (heq : order.arrange (m.entries.map fun e => (e.1, e.2.mapFloat S.reparse)) =
        order'.arrange (m.entries.map fun e => (e.1, e.2.mapFloat S.reparse))) :
      m.reread S order = m.reread S order' := ext_entries (by rw [entries_reread, entries_reread, heq])
  match hentries : m.entries with
  | [] =>
    rw [hentries] at hperm hread
    exact .inl (hread (List.perm_nil.1 hperm))
  | [e] =>
    rw [hentries] at hperm hread
    exact .inl (hread (List.perm_singleton.1 hperm))
  | [e, e'] =>
    rw [hentries] at hperm hread
    exact (List.perm_pair.1 hperm).imp hread hread
  | _ :: _ :: _ :: _ => simp [hentries] at h

/-- Whatever the order, a map that comes back as it was has come back with its own values. -/
theorem stable_of_reread {m : Metadata F} {order : IterOrder (String × Value F)} (h : m.reread S order = m) :
    m.Stable S := by
  intro e he
  have hmem : (e.1, e.2.mapFloat S.reparse) ∈ m.entries := by
    rw [← h, entries_reread, (order.perm _).mem_iff]
    exact List.mem_map_of_mem he
  have hsame := List.inj_on_of_nodup_map m.nodup hmem he rfl
  exact (Prod.ext_iff.1 hsame).2

theorem length_le_of_reread {m : Metadata F} (h : m.reread S .reversed = m) : m.entries.length ≤ 1 := by
  have hkeys : (m.entries.map (·.1)).reverse = m.entries.map (·.1) := by
    have hentries := entries_reread (S := S) .reversed m
    rw [h] at hentries
    conv_rhs => rw [hentries]
    rw [IterOrder.reversed, List.map_reverse, List.map_map]
    rfl
  rw [← List.length_map]
  exact length_le_of_reverse_eq m.nodup hkeys

theorem survives_iff_reread {m : Metadata F} : m.Survives S ↔ ∀ order, m.Shallow ∧ m.reread S order = m := by
  constructor
  · exact fun h order => ⟨h.shallow, reread_eq_of_survives h order⟩
  · exact fun h => ⟨(h .inserted).1, stable_of_reread (h .inserted).2, length_le_of_reread (h .reversed).2⟩

end Metadata

/-! ## Signed and checked bytes -/

/-- What is signed of an entry. -/
def SignedAuditEntry.input (S : Formats F) (e : SignedAuditEntry F) : Bytes :=
  signingInput S e.payload e.sequence e.previousSignature

/-- What is signed of an entry, and what may be checked when it is read back. -/
def SignedAuditEntry.messages (S : Formats F) (e : SignedAuditEntry F) : Set Bytes :=
  {b | b = e.input S ∨ ∃ order, b = (e.reread S order).input S}

theorem Metadata.toJson_injective {m m' : Metadata F} (h : m.toJson = m'.toJson) : m = m' := by
  have hinjective : Function.Injective fun e : String × Value F => (e.1, e.2.1) := fun e e' he =>
    Prod.ext (Prod.ext_iff.1 he).1 (Subtype.ext (Prod.ext_iff.1 he).2)
  rw [Metadata.toJson, Metadata.toJson, Json.obj.injEq] at h
  exact ext_entries (hinjective.list_map h)

namespace SignedAuditEntry

theorem input_reread_eq_iff (hS : S.Lawful) (e : SignedAuditEntry F) (order : IterOrder (String × Value F)) :
    (e.reread S order).input S = e.input S ↔ e.payload.metadata.reread S order = e.payload.metadata := by
  constructor
  · intro h
    have htext := utf8_injective (List.append_cancel_left h)
    have hjson := hS.text_injective (AuditEvent.intsFit_toJson _) (AuditEvent.intsFit_toJson _) htext
    simp only [AuditEvent.toJson, reread, AuditEvent.reread, Json.obj.injEq, List.cons.injEq, Prod.mk.injEq, true_and,
      and_true] at hjson
    exact Metadata.toJson_injective hjson
  · intro h
    rw [input, input, reread, AuditEvent.reread, h]

/-- Read back, the entry is sure to verify. -/
def Survives (S : Formats F) (hmac : Bytes → Bytes → Bytes) (key : Bytes) (e : SignedAuditEntry F) : Prop :=
  ∀ order, ∃ e', fromStr S order (e.line S) = .ok e' ∧ e'.verify S hmac key

theorem reread_eq_of_survives {e : SignedAuditEntry F} (h : e.payload.metadata.Survives S)
    (order : IterOrder (String × Value F)) : e.reread S order = e := by
  rw [reread, AuditEvent.reread, Metadata.reread_eq_of_survives h]

theorem subsingleton_messages {e : SignedAuditEntry F} (h : e.payload.metadata.Survives S) :
    (e.messages S).Subsingleton := by
  have hinput : ∀ b ∈ e.messages S, b = e.input S := by
    rintro b (rfl | ⟨order, rfl⟩)
    · rfl
    · rw [reread_eq_of_survives h]
  exact fun b hb b' hb' => (hinput b hb).trans (hinput b' hb').symm

/-- The messages of an entry that is read back in one of two orders. -/
theorem mem_messages_of_length_le_two {e : SignedAuditEntry F} (hstable : e.payload.metadata.Stable S)
    (hlength : e.payload.metadata.entries.length ≤ 2) {b : Bytes} (hb : b ∈ e.messages S) :
    b ∈ [e.input S, (e.reread S .reversed).input S] := by
  rcases hb with rfl | ⟨order, rfl⟩
  · exact List.mem_cons_self
  · rcases Metadata.reread_of_length_le_two (S := S) hlength order with h | h
    · have hsame : e.reread S order = e := by
        rw [reread, AuditEvent.reread, h, Metadata.reread_inserted_of_stable hstable]
      rw [hsame]
      exact List.mem_cons_self
    · have hreversed : e.reread S order = e.reread S .reversed := by
        rw [reread, AuditEvent.reread, h, reread, AuditEvent.reread]
      rw [hreversed]
      exact List.mem_cons_of_mem _ List.mem_cons_self

theorem verify_new (hmac : Bytes → Bytes → Bytes) (payload : AuditEvent F) (sequence : UInt64) (key : Bytes)
    (previousSignature : Option Bytes) (ts : Option TrustedTimestamp) :
    (new S hmac payload sequence key previousSignature ts).verify S hmac key := by
  simp [verify, new]

/-- A read entry verifies just when its metadata are those that were signed. -/
theorem verify_reread_iff (hS : S.Lawful) {hmac : Bytes → Bytes → Bytes} {key : Bytes} {e : SignedAuditEntry F}
    (hmac_inj : (e.messages S).InjOn (hmac key)) (he : e.verify S hmac key) (order : IterOrder (String × Value F)) :
    (e.reread S order).verify S hmac key ↔ e.payload.metadata.reread S order = e.payload.metadata := by
  rw [← input_reread_eq_iff hS, ← hmac_inj.eq_iff (.inr ⟨order, rfl⟩) (.inl rfl)]
  rw [verify, decide_eq_true_iff] at he ⊢
  exact ⟨fun h => h.trans he.symm, fun h => Eq.trans h he⟩

theorem fromStr_verify_iff (hS : S.Lawful) {hmac : Bytes → Bytes → Bytes} {key : Bytes} {e : SignedAuditEntry F}
    (hmac_inj : (e.messages S).InjOn (hmac key)) (he : e.verify S hmac key) (order : IterOrder (String × Value F)) :
    (∃ e', fromStr S order (e.line S) = .ok e' ∧ e'.verify S hmac key) ↔
      e.payload.metadata.Shallow ∧ e.payload.metadata.reread S order = e.payload.metadata := by
  rw [← verify_reread_iff hS hmac_inj he]
  by_cases hshallow : e.payload.metadata.Shallow
  · simp [fromStr_line hS hshallow, hshallow]
  · obtain ⟨err, herr⟩ := fromStr_line_deep hS hshallow order
    simp [herr, hshallow]

theorem survives_iff_metadata (hS : S.Lawful) {hmac : Bytes → Bytes → Bytes} {key : Bytes} {e : SignedAuditEntry F}
    (hmac_inj : (e.messages S).InjOn (hmac key)) (he : e.verify S hmac key) :
    e.Survives S hmac key ↔ e.payload.metadata.Survives S :=
  (forall_congr' (fromStr_verify_iff hS hmac_inj he)).trans Metadata.survives_iff_reread.symm

end SignedAuditEntry

/-- A new entry survives storage when its metadata have at most one key, and values
that are shallow enough and whose numbers are read back as they are. -/
theorem new_survives_iff (hS : S.Lawful) (hmac : Bytes → Bytes → Bytes) (payload : AuditEvent F) (sequence : UInt64)
    (key : Bytes) (previousSignature : Option Bytes) (ts : Option TrustedTimestamp)
    (hmac_inj : ((SignedAuditEntry.new S hmac payload sequence key previousSignature ts).messages S).InjOn (hmac key)) :
    (SignedAuditEntry.new S hmac payload sequence key previousSignature ts).Survives S hmac key ↔
      payload.metadata.Survives S :=
  SignedAuditEntry.survives_iff_metadata hS hmac_inj (SignedAuditEntry.verify_new ..)

/-! ## Concrete entries -/

instance (m : Metadata F) : Decidable m.Shallow := inferInstanceAs (Decidable (∀ e ∈ _, _))

def noMetadata : Metadata Empty := ⟨[], List.nodup_nil⟩

def twoKeys : Metadata Empty where
  entries := [("source_ip", ⟨.str "10.0.0.7", rfl⟩), ("mfa", ⟨.bool true, rfl⟩)]
  nodup := by decide

theorem noMetadata_survives : noMetadata.Survives plainFormats where
  shallow := by decide
  stable := nofun
  length_le := by decide

def sampleEvent (metadata : Metadata Empty) : AuditEvent Empty where
  eventId := 0x67e5504410b1426f9247bb680e5fe0c8
  timestamp := 0
  eventType := .keyCreated
  actorId := "test-user"
  actorType := "user"
  action := "test"
  resourceType := "key"
  resourceId := some "test-key"
  result := "success"
  metadata := metadata

def sampleKey : Bytes := utf8 "test-signing-key-32-bytes-long!!".toList

/-- A function that tells the members of a list apart is injective on them. -/
theorem injOn_of_nodup_map {α β : Type} {f : α → β} {s : Set α} {l : List α} (hs : ∀ a ∈ s, a ∈ l)
    (h : (l.map f).Nodup) : s.InjOn f :=
  fun a ha b hb heq => List.inj_on_of_nodup_map h (hs a ha) (hs b hb) heq

/-- The two orders of the two keys have different signatures. -/
theorem new_survives_iff_twoKeys :
    (SignedAuditEntry.new plainFormats Sha256.hmac (sampleEvent twoKeys) 0 sampleKey none none).Survives plainFormats
      Sha256.hmac sampleKey ↔ twoKeys.Survives plainFormats := by
  have hstable : twoKeys.Stable plainFormats := by
    intro e he
    rcases List.mem_pair.1 he with rfl | rfl <;> rfl
  refine new_survives_iff plainFormats_lawful Sha256.hmac (sampleEvent twoKeys) 0 sampleKey none none ?_
  exact injOn_of_nodup_map (fun b => SignedAuditEntry.mem_messages_of_length_le_two hstable (by decide))
    (by decide +kernel)

/-- Iterated in the other order, the two keys give other bytes. -/
theorem not_survives_twoKeys :
    ¬(SignedAuditEntry.new plainFormats Sha256.hmac (sampleEvent twoKeys) 0 sampleKey none none).Survives plainFormats
      Sha256.hmac sampleKey := by
  intro h
  obtain ⟨e, hline, hverify⟩ := h .reversed
  rw [SignedAuditEntry.fromStr_line plainFormats_lawful (by decide), Except.ok.injEq] at hline
  subst hline
  revert hverify
  decide +kernel

end GmKms.Audit
