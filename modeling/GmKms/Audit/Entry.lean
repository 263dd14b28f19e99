import GmKms.Audit.Formats
/-!
# Signed audit entries

`SignedAuditEntry` and the events it signs, with the serialization that
`#[derive(Serialize, Deserialize)]` gives them.
-/

namespace GmKms.Audit

open Lib

/-- The metadata of an event: a `HashMap<String, Value>` as the list of its entries
in the order in which this map is iterated. -/
structure Metadata (F : Type) where
  entries : List (String × Value F)
  nodup : (entries.map (·.1)).Nodup

structure AuditEvent (F : Type) where
  eventId : Uuid
  timestamp : DateTime
  eventType : EventType
  actorId : String
  actorType : String
  action : String
  resourceType : String
  resourceId : Option String
  result : String
  metadata : Metadata F

structure TrustedTimestamp where
  rawToken : Bytes
  genTime : Int64
  serialNumber : Bytes
  policy : String
  hashAlgorithm : String
  nonce : Bytes
  accuracyMillis : UInt32

structure SignedAuditEntry (F : Type) where
  payload : AuditEvent F
  signature : Bytes
  sequence : UInt64
  previousSignature : Option Bytes
  trustedTimestamp : Option TrustedTimestamp

namespace Metadata

variable {F : Type}

/-- Insertion into a `HashMap`: the value of a key that is there is replaced. -/
def insert (entries : List (String × Value F)) (e : String × Value F) : List (String × Value F) :=
  entries.filter (·.1 ≠ e.1) ++ [e]

theorem nodup_foldl_insert (fields : List (String × Value F)) {entries : List (String × Value F)}
    (h : (entries.map (·.1)).Nodup) : ((fields.foldl insert entries).map (·.1)).Nodup := by
  induction fields generalizing entries with
  | nil => exact h
  | cons e fields ih =>
    refine ih ?_
    rw [insert, List.map_append, List.nodup_append]
    refine ⟨h.sublist (List.filter_sublist.map _), List.pairwise_singleton _ _, ?_⟩
    intro k hk k' hk' heq
    obtain ⟨e', he', rfl⟩ := List.mem_map.1 hk
    rw [List.map_singleton, List.mem_singleton] at hk'
    have hne := (List.mem_filter.1 he').2
    simp [heq, hk'] at hne

/-- The map of the fields, as a new map iterates over it. -/
def ofFields (order : IterOrder (String × Value F)) (fields : List (String × Value F)) : Metadata F where
  entries := order.arrange (fields.foldl insert [])
  nodup := ((order.perm _).map _).nodup_iff.2 (nodup_foldl_insert fields List.nodup_nil)

theorem foldl_insert {fields entries : List (String × Value F)} (h : ((entries ++ fields).map (·.1)).Nodup) :
    fields.foldl insert entries = entries ++ fields := by
  induction fields generalizing entries with
  | nil => simp
  | cons e fields ih =>
    have hnew : entries.filter (·.1 ≠ e.1) = entries := by
      refine List.filter_eq_self.2 fun e' he' => ?_
      rw [List.map_append, List.map_cons, List.nodup_append] at h
      exact decide_eq_true (h.2.2 _ (List.mem_map_of_mem he') _ List.mem_cons_self)
    rw [List.foldl_cons, insert, hnew, ih (by simpa using h), List.append_assoc]
    rfl

end Metadata

section

variable {F : Type} (S : Formats F)

/-! ## Serialization -/

def Metadata.toJson (m : Metadata F) : Json F := .obj (m.entries.map fun e => (e.1, e.2.1))

def AuditEvent.toJson (e : AuditEvent F) : Json F :=
  .obj [
    ("event_id", .str e.eventId.text),
    ("timestamp", .str (S.timeText e.timestamp)),
    ("event_type", .str e.eventType.name),
    ("actor_id", .str e.actorId),
    ("actor_type", .str e.actorType),
    ("action", .str e.action),
    ("resource_type", .str e.resourceType),
    ("resource_id", optionToJson .str e.resourceId),
    ("result", .str e.result),
    ("metadata", e.metadata.toJson)]

def TrustedTimestamp.toJson (ts : TrustedTimestamp) : Json F :=
  .obj [
    ("raw_token", bytesToJson ts.rawToken),
    ("gen_time", .int ts.genTime.toInt),
    ("serial_number", bytesToJson ts.serialNumber),
    ("policy", .str ts.policy),
    ("hash_algorithm", .str ts.hashAlgorithm),
    ("nonce", bytesToJson ts.nonce),
    ("accuracy_millis", .int ts.accuracyMillis.toNat)]

/-- The timestamp is left out when there is none. -/
def SignedAuditEntry.toJson (e : SignedAuditEntry F) : Json F :=
  .obj ([
    ("payload", e.payload.toJson S),
    ("signature", bytesToJson e.signature),
    ("sequence", .int e.sequence.toNat),
    ("previous_signature", optionToJson bytesToJson e.previousSignature)] ++
    e.trustedTimestamp.toList.map fun ts => ("trusted_timestamp", ts.toJson))

/-- The JSON line of an entry. -/
def SignedAuditEntry.line (e : SignedAuditEntry F) : Text := S.text (e.toJson S)

/-! ## Deserialization -/

def Metadata.ofJson? (order : IterOrder (String × Value F)) : Json F → Option (Metadata F)
  | .obj fields => do
    let fields ← fields.mapM fun e => (Value.ofJson? e.2).map (e.1, ·)
    return ofFields order fields
  | _ => none

def AuditEvent.ofJson? (order : IterOrder (String × Value F)) : Json F → Option (AuditEvent F)
  | .obj fields => do
    let eventId ← S.parseUuid (← (← Json.required? fields "event_id").asString?)
    let timestamp ← S.parseTime (← (← Json.required? fields "timestamp").asString?)
    let eventType ← EventType.ofName? (← (← Json.required? fields "event_type").asString?)
    let actorId ← (← Json.required? fields "actor_id").asString?
    let actorType ← (← Json.required? fields "actor_type").asString?
    let action ← (← Json.required? fields "action").asString?
    let resourceType ← (← Json.required? fields "resource_type").asString?
    let resourceId ← optionOfJson? Json.asString? (← Json.once? fields "resource_id")
    let result ← (← Json.required? fields "result").asString?
    let metadata ← (← Json.once? fields "metadata").elim (some (Metadata.ofFields order [])) (Metadata.ofJson? order)
    return { eventId, timestamp, eventType, actorId, actorType, action, resourceType, resourceId, result, metadata }
  | _ => none

def int64OfJson? : Json F → Option Int64
  | .int n => if -2 ^ 63 ≤ n ∧ n < 2 ^ 63 then some (Int64.ofInt n) else none
  | _ => none

def TrustedTimestamp.ofJson? : Json F → Option TrustedTimestamp
  | .obj fields => do
    let rawToken ← bytesOfJson? (← Json.required? fields "raw_token")
    let genTime ← int64OfJson? (← Json.required? fields "gen_time")
    let serialNumber ← bytesOfJson? (← Json.required? fields "serial_number")
    let policy ← (← Json.required? fields "policy").asString?
    let hashAlgorithm ← (← Json.required? fields "hash_algorithm").asString?
    let nonce ← bytesOfJson? (← Json.required? fields "nonce")
    let accuracyMillis ← (← Json.required? fields "accuracy_millis").asUnsigned? 32
    return { rawToken, genTime, serialNumber, policy, hashAlgorithm, nonce, accuracyMillis := .ofNat accuracyMillis }
  | _ => none

def SignedAuditEntry.ofJson? (order : IterOrder (String × Value F)) : Json F → Option (SignedAuditEntry F)
  | .obj fields => do
    let payload ← AuditEvent.ofJson? S order (← Json.required? fields "payload")
    let signature ← bytesOfJson? (← Json.required? fields "signature")
    let sequence ← (← Json.required? fields "sequence").asUnsigned? 64
    let previousSignature ← optionOfJson? bytesOfJson? (← Json.once? fields "previous_signature")
    let trustedTimestamp ← optionOfJson? TrustedTimestamp.ofJson? (← Json.once? fields "trusted_timestamp")
    return { payload, signature, sequence := .ofNat sequence, previousSignature, trustedTimestamp }
  | _ => none

/-- `serde_json::from_str::<SignedAuditEntry>`, where the metadata map that it makes is
iterated in the given order. -/
def SignedAuditEntry.fromStr (order : IterOrder (String × Value F)) (line : Text) :
    Except String (SignedAuditEntry F) :=
  match S.fromStr line with
  | .error e => .error e
  | .ok j =>
    match ofJson? S order j with
    | none => .error (S.invalid j)
    | some e => .ok e

/-! ## Signatures -/

/-- The `n` low bytes of `x`, low first. -/
def leBytes (x : ℕ) : ℕ → Bytes
  | 0 => []
  | n + 1 => UInt8.ofNat x :: leBytes (x / 256) n

/-- What is signed: sequence, previous signature and payload. -/
def signingInput (payload : AuditEvent F) (sequence : UInt64) (previousSignature : Option Bytes) : Bytes :=
  leBytes sequence.toNat 8 ++ previousSignature.getD [] ++ utf8 (S.text (payload.toJson S))

/-- `SignedAuditEntry::new`, where `hmac` signs with HMAC-SHA256 under a key. -/
def SignedAuditEntry.new (hmac : Bytes → Bytes → Bytes) (payload : AuditEvent F) (sequence : UInt64)
    (signingKey : Bytes) (previousSignature : Option Bytes) (trustedTimestamp : Option TrustedTimestamp) :
    SignedAuditEntry F :=
  { payload
    signature := hmac signingKey (signingInput S payload sequence previousSignature)
    sequence, previousSignature, trustedTimestamp }

def SignedAuditEntry.verify (hmac : Bytes → Bytes → Bytes) (e : SignedAuditEntry F) (signingKey : Bytes) : Bool :=
  hmac signingKey (signingInput S e.payload e.sequence e.previousSignature) = e.signature

def SignedAuditEntry.verifyChain (hmac : Bytes → Bytes → Bytes) (e : SignedAuditEntry F) (signingKey : Bytes)
    (previousSignature : Option Bytes) : Bool :=
  e.verify S hmac signingKey &&
    match e.previousSignature, previousSignature with
    | some curr, some prev => curr = prev
    | none, none => true
    | _, _ => false

end

end GmKms.Audit
