import GmKms.Audit.Entry
/-!
# Entries through storage

What the JSON line of an entry is read back as, and which entries still verify
then, whatever the order in which the new metadata map is iterated.
-/

namespace GmKms.Audit

open Lib

variable {F : Type}

/-! ## What is read back -/

/-- The metadata as read back from its JSON. -/
def Metadata.reread (S : Formats F) (order : IterOrder (String × Value F)) (m : Metadata F) : Metadata F :=
  ofFields order (m.entries.map fun e => (e.1, e.2.mapFloat S.reparse))

def AuditEvent.reread (S : Formats F) (order : IterOrder (String × Value F)) (e : AuditEvent F) : AuditEvent F :=
  { e with metadata := e.metadata.reread S order }

def SignedAuditEntry.reread (S : Formats F) (order : IterOrder (String × Value F)) (e : SignedAuditEntry F) :
    SignedAuditEntry F :=
  { e with payload := e.payload.reread S order }

section

variable {S : Formats F} (order : IterOrder (String × Value F))

theorem Metadata.entries_reread (m : Metadata F) :
    (m.reread S order).entries = order.arrange (m.entries.map fun e => (e.1, e.2.mapFloat S.reparse)) := by
  refine congrArg order.arrange (foldl_insert ?_)
  simpa [Function.comp_def] using m.nodup

theorem Metadata.ofJson?_toJson (m : Metadata F) :
    Metadata.ofJson? order (m.toJson.mapFloat S.reparse) = some (m.reread S order) := by
  rw [toJson, Json.mapFloat_obj, ofJson?, reread]
  have hfields : ∀ entries : List (String × Value F),
      ((entries.map fun e => (e.1, e.2.1)).map fun e => (e.1, Json.mapFloat S.reparse e.2)).mapM
        (fun e => (Value.ofJson? e.2).map (e.1, ·)) = some (entries.map fun e => (e.1, e.2.mapFloat S.reparse)) := by
    intro entries
    rw [List.map_map]
    refine Json.mapM_map_eq (fun e => ?_) entries
    have hvalue := Value.ofJson?_val (e.2.mapFloat S.reparse)
    rw [Value.mapFloat] at hvalue
    simp [hvalue, Value.mapFloat]
  rw [hfields]
  rfl

theorem optionOfJson?_string (o : Option String) (f : F → F) :
    optionOfJson? Json.asString? (some ((optionToJson .str o : Json F).mapFloat f)) = some o := by
  cases o <;> rfl

theorem AuditEvent.ofJson?_toJson (hS : S.Lawful) (e : AuditEvent F) :
    AuditEvent.ofJson? S order ((e.toJson S).mapFloat S.reparse) = some (e.reread S order) := by
  rw [AuditEvent.toJson, Json.mapFloat_obj]
  simp only [AuditEvent.ofJson?, List.map_cons, List.map_nil, Json.mapFloat_str, Json.asString?, Json.required?,
    Json.once?_cons_self, Json.once?_cons_of_ne, ne_eq, List.mem_cons, List.not_mem_nil, String.reduceEq, or_self,
    not_false_eq_true,
    Option.bind_eq_bind, Option.bind_some, Option.join_some, Option.elim_some, Option.pure_def,
    hS.parseUuid_text, hS.parseTime_timeText, EventType.ofName?_name, optionOfJson?_string,
    Metadata.ofJson?_toJson, AuditEvent.reread]

theorem int64OfJson?_toInt (n : Int64) : int64OfJson? (.int n.toInt : Json F) = some n := by
  rw [int64OfJson?, if_pos ⟨n.le_toInt, n.toInt_lt⟩, Int64.ofInt_toInt]

theorem TrustedTimestamp.ofJson?_toJson (ts : TrustedTimestamp) (f : F → F) :
    TrustedTimestamp.ofJson? ((ts.toJson : Json F).mapFloat f) = some ts := by
  rw [TrustedTimestamp.toJson, Json.mapFloat_obj]
  simp -implicitDefEqProofs only [TrustedTimestamp.ofJson?, List.map_cons, List.map_nil, Json.mapFloat_str,
    Json.mapFloat_int, mapFloat_bytesToJson, Json.asString?, Json.required?, Json.once?_cons_self,
    Json.once?_cons_of_ne, ne_eq, List.mem_cons, List.not_mem_nil, String.reduceEq, or_self, not_false_eq_true,
    Option.bind_eq_bind, Option.bind_some, Option.join_some, Option.pure_def, bytesOfJson?_bytesToJson,
    int64OfJson?_toInt, Json.asUnsigned?_int (UInt32.toNat_lt _), UInt32.ofNat_toNat]

theorem optionOfJson?_bytes (o : Option Bytes) (f : F → F) :
    optionOfJson? bytesOfJson? (some ((optionToJson bytesToJson o : Json F).mapFloat f)) = some o := by
  cases o with
  | none => rfl
  | some b =>
    rw [optionToJson, mapFloat_bytesToJson, optionOfJson?_some (by rintro ⟨⟩), bytesOfJson?_bytesToJson,
      Option.map_some]

theorem optionOfJson?_timestamp (ts : TrustedTimestamp) (f : F → F) :
    optionOfJson? TrustedTimestamp.ofJson? (some ((ts.toJson : Json F).mapFloat f)) = some (some ts) := by
  rw [optionOfJson?_some, TrustedTimestamp.ofJson?_toJson, Option.map_some]
  rw [TrustedTimestamp.toJson, Json.mapFloat_obj]
  rintro ⟨⟩

theorem SignedAuditEntry.ofJson?_toJson (hS : S.Lawful) (e : SignedAuditEntry F) :
    SignedAuditEntry.ofJson? S order ((e.toJson S).mapFloat S.reparse) = some (e.reread S order) := by
  obtain ⟨payload, signature, sequence, previousSignature, trustedTimestamp⟩ := e
  rw [SignedAuditEntry.toJson, Json.mapFloat_obj]
  cases trustedTimestamp <;>
    simp -implicitDefEqProofs only [SignedAuditEntry.ofJson?, Option.toList, List.map_cons, List.map_nil,
      List.cons_append, List.nil_append,
      Json.mapFloat_int, mapFloat_bytesToJson, Json.required?, Json.once?_cons_self, Json.once?_cons_of_ne,
      Json.once?_nil, ne_eq, List.mem_cons, List.not_mem_nil, String.reduceEq, or_self, not_false_eq_true,
      Option.bind_eq_bind, Option.bind_some,
      Option.join_some, Option.pure_def, bytesOfJson?_bytesToJson, AuditEvent.ofJson?_toJson order hS,
      optionOfJson?_none, optionOfJson?_bytes, optionOfJson?_timestamp, Json.asUnsigned?_int (UInt64.toNat_lt _),
      UInt64.ofNat_toNat, SignedAuditEntry.reread]

end

/-! ## Which lines are read back -/

theorem depth_bytesToJson_le (b : Bytes) : (bytesToJson b : Json F).depth ≤ 1 := by
  refine Nat.succ_le_succ (Json.depthItems_le_iff.2 fun j hj => ?_)
  obtain ⟨x, -, rfl⟩ := List.mem_map.1 hj
  exact Nat.le_refl 0

theorem intsFit_bytesToJson (b : Bytes) : (bytesToJson b : Json F).IntsFit := by
  refine Json.intsFitItems_iff.2 fun j hj => ?_
  obtain ⟨x, -, rfl⟩ := List.mem_map.1 hj
  have hx := x.toNat_lt
  exact ⟨by omega, by omega⟩

theorem depth_optionToJson_le {α : Type} {f : α → Json F} {d : ℕ} (hf : ∀ a, (f a).depth ≤ d) (o : Option α) :
    (optionToJson f o).depth ≤ d := by
  cases o with
  | none => exact Nat.zero_le d
  | some a => exact hf a

theorem intsFit_optionToJson {α : Type} {f : α → Json F} (hf : ∀ a, (f a).IntsFit) (o : Option α) :
    (optionToJson f o).IntsFit := by
  cases o with
  | none => trivial
  | some a => exact hf a

theorem TrustedTimestamp.depth_toJson_le (ts : TrustedTimestamp) : (ts.toJson : Json F).depth ≤ 2 := by
  refine Json.depth_obj_le_iff.2 ?_
  simp [depth_bytesToJson_le, Json.depth]

theorem TrustedTimestamp.intsFit_toJson (ts : TrustedTimestamp) : (ts.toJson : Json F).IntsFit := by
  have htime : Json.Int64Fits ts.genTime.toInt := ⟨ts.genTime.le_toInt, Int.lt_trans ts.genTime.toInt_lt (by decide)⟩
  have hmillis : Json.Int64Fits ts.accuracyMillis.toNat := ⟨by omega, by have := ts.accuracyMillis.toNat_lt; omega⟩
  refine Json.intsFitFields_iff.2 ?_
  simp [intsFit_bytesToJson, Json.IntsFit, htime, hmillis]

section

variable {S : Formats F}

theorem AuditEvent.intsFit_toJson (e : AuditEvent F) : (e.toJson S).IntsFit := by
  have hmetadata : e.metadata.toJson.IntsFit := by
    refine Json.intsFitFields_iff.2 fun f hf => ?_
    obtain ⟨m, -, rfl⟩ := List.mem_map.1 hf
    exact Json.intsFit_of_isValue m.2.2
  have hresource : (optionToJson .str e.resourceId : Json F).IntsFit :=
    intsFit_optionToJson (f := .str) (fun _ => trivial) _
  refine Json.intsFitFields_iff.2 ?_
  simp [Json.IntsFit, hmetadata, hresource]

theorem SignedAuditEntry.intsFit_toJson (e : SignedAuditEntry F) : (e.toJson S).IntsFit := by
  have hsequence : Json.Int64Fits e.sequence.toNat := ⟨by omega, by have := e.sequence.toNat_lt; omega⟩
  have hprevious : (optionToJson bytesToJson e.previousSignature : Json F).IntsFit :=
    intsFit_optionToJson intsFit_bytesToJson _
  refine Json.intsFitFields_iff.2 ?_
  simp [or_imp, forall_and, AuditEvent.intsFit_toJson, intsFit_bytesToJson, hprevious, Json.IntsFit, hsequence,
    TrustedTimestamp.intsFit_toJson]

theorem AuditEvent.depth_toJson_le_iff {e : AuditEvent F} {d : ℕ} :
    (e.toJson S).depth ≤ d + 2 ↔ ∀ m ∈ e.metadata.entries, m.2.1.depth ≤ d := by
  have hmetadata : e.metadata.toJson.depth ≤ d + 1 ↔ ∀ m ∈ e.metadata.entries, m.2.1.depth ≤ d := by
    rw [Metadata.toJson, Json.depth_obj_le_iff]
    exact List.forall_mem_map
  have hresource : (optionToJson .str e.resourceId : Json F).depth ≤ d + 1 :=
    depth_optionToJson_le (fun _ => Nat.zero_le _) _
  rw [AuditEvent.toJson, Json.depth_obj_le_iff, ← hmetadata]
  simp [Json.depth, hresource]

theorem SignedAuditEntry.depth_toJson_le_iff {e : SignedAuditEntry F} {d : ℕ} :
    (e.toJson S).depth ≤ d + 3 ↔ ∀ m ∈ e.payload.metadata.entries, m.2.1.depth ≤ d := by
  have hbytes : ∀ b, (bytesToJson b : Json F).depth ≤ d + 2 := fun b => Nat.le_trans (depth_bytesToJson_le b) (by omega)
  have hprevious : (optionToJson bytesToJson e.previousSignature : Json F).depth ≤ d + 2 :=
    depth_optionToJson_le hbytes _
  have htimestamp : ∀ ts : TrustedTimestamp, (ts.toJson : Json F).depth ≤ d + 2 :=
    fun ts => Nat.le_trans ts.depth_toJson_le (by omega)
  rw [SignedAuditEntry.toJson, Json.depth_obj_le_iff, ← AuditEvent.depth_toJson_le_iff (S := S)]
  simp [or_imp, forall_and, Json.depth, hbytes, hprevious, htimestamp]

/-- Inside an entry, each value of the map is read back. -/
def Metadata.Shallow (m : Metadata F) : Prop := ∀ e ∈ m.entries, e.2.1.depth + 3 ≤ recursionLimit

theorem SignedAuditEntry.depth_toJson_le_recursionLimit {e : SignedAuditEntry F} :
    (e.toJson S).depth ≤ recursionLimit ↔ e.payload.metadata.Shallow := by
  have hdepth := depth_toJson_le_iff (S := S) (e := e) (d := recursionLimit - 3)
  rw [Nat.sub_add_cancel (show 3 ≤ recursionLimit by decide)] at hdepth
  simpa only [Metadata.Shallow, Nat.le_sub_iff_add_le (show 3 ≤ recursionLimit by decide)] using hdepth

theorem SignedAuditEntry.fromStr_line (hS : S.Lawful) {e : SignedAuditEntry F} (h : e.payload.metadata.Shallow)
    (order : IterOrder (String × Value F)) : fromStr S order (e.line S) = .ok (e.reread S order) := by
  rw [fromStr, line, hS.fromStr_text e.intsFit_toJson (depth_toJson_le_recursionLimit.2 h)]
  simp only [ofJson?_toJson order hS]

theorem SignedAuditEntry.fromStr_line_deep (hS : S.Lawful) {e : SignedAuditEntry F} (h : ¬e.payload.metadata.Shallow)
    (order : IterOrder (String × Value F)) : ∃ err, fromStr S order (e.line S) = .error err := by
  obtain ⟨err, herr⟩ := hS.fromStr_deep e.intsFit_toJson (Nat.lt_of_not_le (mt depth_toJson_le_recursionLimit.1 h))
  exact ⟨err, by rw [fromStr, line, herr]⟩

end

end GmKms.Audit
