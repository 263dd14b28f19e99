import GmKms.Core.Types
/-!
# SM2-KEX messages on the wire

A message has its fields always; on the wire some are left out. The encoder leaves out
what is absent, the decoder what the message type does not use.
-/

namespace GmKms.Keystore

/-- `gm_crypto::sm2_kex::Sm2KexMessage`. -/
structure Sm2KexMessage where
  msgType : UInt8
  senderId : List.Vector UInt8 16
  rPub : List.Vector UInt8 64
  signature : Option (List.Vector UInt8 64)
  confirmation : Option (List.Vector UInt8 32)
  deriving DecidableEq

namespace Sm2KexMessage

/-- `serialize_sm2_kex_message`. -/
def serialize (msg : Sm2KexMessage) : Bytes :=
  [msg.msgType] ++ msg.senderId.toList ++ msg.rPub.toList ++
    msg.signature.elim [] (·.toList) ++ msg.confirmation.elim [] (·.toList)

/-- The `n` bytes from `offset` on, where there are so many. -/
def field (bytes : Bytes) (offset n : ℕ) (name : String) : Except String (List.Vector UInt8 n) :=
  if h : bytes.length < offset + n then .error s!"insufficient bytes for {name}"
  else .ok ⟨(bytes.drop offset).take n, by simp; omega⟩

/-- `[0u8; 64]`. -/
def zeroKey : List.Vector UInt8 64 := .replicate 64 0

/-- `deserialize_sm2_kex_message`. An expected type of 0 stands for any. -/
def deserialize (bytes : Bytes) (expectedType : UInt8) : Except String Sm2KexMessage :=
  match bytes.head? with
  | none => .error "empty message"
  | some msgType =>
    if expectedType ≠ 0 ∧ msgType ≠ expectedType then
      .error s!"expected msg_type {expectedType}, got {msgType}"
    else do
      let senderId ← field bytes 1 16 "sender_id"
      let (rPub, offset) ←
        if msgType = 1 ∨ msgType = 2 then (·, 17 + 64) <$> field bytes 17 64 "r_pub"
        else pure (zeroKey, 17)
      let (signature, offset) ←
        if msgType = 2 then (fun sig => (some sig, offset + 64)) <$> field bytes offset 64 "signature"
        else pure (none, offset)
      let confirmation ←
        if msgType = 3 then some <$> field bytes offset 32 "confirmation" else pure none
      return ⟨msgType, senderId, rPub, signature, confirmation⟩

/-- The messages of a protocol run: the second carries a signature, the third a confirmation. -/
def OfRun (m : Sm2KexMessage) : Prop :=
  (m.msgType = 1 ∨ m.msgType = 2 ∨ m.msgType = 3) ∧ (m.signature.isSome ↔ m.msgType = 2) ∧
    (m.confirmation.isSome ↔ m.msgType = 3)

instance (m : Sm2KexMessage) : Decidable m.OfRun := inferInstanceAs (Decidable (_ ∧ _ ∧ _))

theorem field_append (before : Bytes) {n : ℕ} (v : List.Vector UInt8 n) (rest : Bytes) (name : String) :
    field (before ++ (v.toList ++ rest)) before.length n name = .ok v := by
  have hlen : v.toList.length = n := v.2
  rw [field, dif_neg (by simp only [List.length_append, hlen]; omega)]
  congr 1
  apply Subtype.ext
  show ((before ++ (v.toList ++ rest)).drop before.length).take n = v.toList
  rw [List.drop_left, List.take_left' hlen]

/-- The first half of an ephemeral key. -/
def leading (r : List.Vector UInt8 64) : List.Vector UInt8 32 := ⟨r.toList.take 32, by simp⟩

/-- What the decoder makes of the bytes: of a third message it skips the ephemeral key, and
takes the bytes of that key for the confirmation. -/
def received (m : Sm2KexMessage) : Sm2KexMessage :=
  if m.msgType = 3 then { m with rPub := zeroKey, confirmation := some (leading m.rPub) } else m

theorem field_senderId (m : Sm2KexMessage) : field m.serialize 1 16 "sender_id" = .ok m.senderId := by
  have h := field_append [m.msgType] m.senderId
    (m.rPub.toList ++ (m.signature.elim [] (·.toList) ++ m.confirmation.elim [] (·.toList))) "sender_id"
  simpa [serialize] using h

theorem field_rPub (m : Sm2KexMessage) : field m.serialize 17 64 "r_pub" = .ok m.rPub := by
  have h := field_append ([m.msgType] ++ m.senderId.toList) m.rPub
    (m.signature.elim [] (·.toList) ++ m.confirmation.elim [] (·.toList)) "r_pub"
  simpa [serialize] using h

theorem field_signature {m : Sm2KexMessage} {sig : List.Vector UInt8 64} (hsig : m.signature = some sig) :
    field m.serialize 81 64 "signature" = .ok sig := by
  have h := field_append ([m.msgType] ++ m.senderId.toList ++ m.rPub.toList) sig
    (m.confirmation.elim [] (·.toList)) "signature"
  simpa [serialize, hsig] using h

/-- Without a gap for the ephemeral key, the confirmation is read where that key begins. -/
theorem field_confirmation (m : Sm2KexMessage) :
    field m.serialize 17 32 "confirmation" = .ok (leading m.rPub) := by
  have hr : (leading m.rPub).toList ++ m.rPub.toList.drop 32 = m.rPub.toList := List.take_append_drop 32 _
  have h := field_append ([m.msgType] ++ m.senderId.toList) (leading m.rPub)
    (m.rPub.toList.drop 32 ++ (m.signature.elim [] (·.toList) ++ m.confirmation.elim [] (·.toList))) "confirmation"
  rw [← List.append_assoc (leading m.rPub).toList, hr] at h
  simpa [serialize] using h

/-- Equal bytes carry the same ephemeral key in a message of the same type. -/
theorem eq_of_serialize_eq {m m' : Sm2KexMessage} (h : m.serialize = m'.serialize) :
    m.msgType = m'.msgType ∧ m.rPub = m'.rPub := by
  constructor
  · exact List.head_eq_of_cons_eq h
  · have hr := m.field_rPub
    rw [h, m'.field_rPub, Except.ok.injEq] at hr
    exact hr.symm

theorem deserialize_serialize {m : Sm2KexMessage} (hrun : m.OfRun) {expectedType : UInt8}
    (hexpected : expectedType = m.msgType ∨ expectedType = 0) :
    deserialize m.serialize expectedType = .ok m.received := by
  obtain ⟨htype, hsig, hconf⟩ := hrun
  have hsender := field_senderId m
  have hr := field_rPub m
  have hconfirm := field_confirmation m
  have hhead : m.serialize.head? = some m.msgType := rfl
  have haccepted : ¬(expectedType ≠ 0 ∧ m.msgType ≠ expectedType) := by
    rcases hexpected with rfl | rfl <;> simp
  have hok : ∀ {α β : Type} (a : α) (f : α → Except String β), (Except.ok a >>= f) = f a := fun _ _ => rfl
  rw [deserialize, hhead]
  simp only [if_neg haccepted, hsender, hr, hok]
  rcases htype with h | h | h
  · have hsig' : m.signature = none := by simpa [h] using hsig
    have hconf' : m.confirmation = none := by simpa [h] using hconf
    simp [h, received]
    rw [← h, ← hsig', ← hconf']
  · have hconf' : m.confirmation = none := by simpa [h] using hconf
    obtain ⟨sig, hsig'⟩ := Option.isSome_iff_exists.1 (hsig.2 h)
    simp [h, received, hok, field_signature hsig']
    rw [← h, ← hsig', ← hconf']
  · have hsig' : m.signature = none := by simpa [h] using hsig
    simp [h, received, hconfirm, hsig']

/-! ## Round trip -/

/-- The message is read back, with its type given and with the type detected. -/
def RoundTrips (m : Sm2KexMessage) : Prop :=
  deserialize m.serialize m.msgType = .ok m ∧ deserialize m.serialize 0 = .ok m

theorem received_eq_iff (m : Sm2KexMessage) :
    m.received = m ↔ (m.msgType = 3 → m.rPub = zeroKey ∧ m.confirmation = some (leading zeroKey)) := by
  by_cases h : m.msgType = 3
  · rw [received, if_pos h]
    constructor
    · intro heq _
      obtain ⟨t, sender, r, sig, conf⟩ := m
      injection heq with _ _ hr _ hconf
      exact ⟨hr.symm, by rw [← hconf, ← hr]⟩
    · intro hzero
      obtain ⟨t, sender, r, sig, conf⟩ := m
      obtain ⟨hr, hconf⟩ := hzero h
      subst hr hconf
      rfl
  · rw [received, if_neg h]
    exact ⟨fun _ h' => absurd h' h, fun _ => rfl⟩

/-- A first or second message is read back. A third one is so only when its ephemeral key
and its confirmation are all zeros. -/
theorem roundTrips_iff {m : Sm2KexMessage} (hrun : m.OfRun) :
    m.RoundTrips ↔ (m.msgType = 3 → m.rPub = zeroKey ∧ m.confirmation = some (leading zeroKey)) := by
  rw [RoundTrips, deserialize_serialize hrun (.inl rfl), deserialize_serialize hrun (.inr rfl), and_self,
    Except.ok.injEq]
  exact m.received_eq_iff

def sampleMessage (msgType : UInt8) (confirmation : Option (List.Vector UInt8 32)) : Sm2KexMessage :=
  ⟨msgType, .replicate 16 7, zeroKey, none, confirmation⟩

theorem roundTrips_first : (sampleMessage 1 none).RoundTrips :=
  (roundTrips_iff (by decide)).2 (by decide)

theorem not_roundTrips_third : (sampleMessage 3 (some (.replicate 32 1))).OfRun ∧
    ¬(sampleMessage 3 (some (.replicate 32 1))).RoundTrips := by
  refine ⟨by decide, fun h => ?_⟩
  have hread := h.2
  rw [deserialize_serialize (by decide) (.inr rfl), Except.ok.injEq] at hread
  revert hread
  decide

end Sm2KexMessage

end GmKms.Keystore
