import GmKms.Audit.DerCursor
/-!
# The request to a timestamp authority

`der_tlv` and `build_timestamp_request`, and what `DerCursor` reads of them.
-/

namespace GmKms.Audit

open Lib Lib.Der

/-- `der_len`: of a length from 256 on the two low bytes. -/
def derLen (len : ℕ) : List UInt8 :=
  if len < 128 then [UInt8.ofNat len]
  else if len < 256 then [0x81, UInt8.ofNat len]
  else [0x82, UInt8.ofNat (len / 256), UInt8.ofNat (len % 256)]

def derTlv (tag : UInt8) (value : List UInt8) : List UInt8 := tag :: (derLen value.length ++ value)

def derIntegerBytes (bytes : List UInt8) : List UInt8 := derTlv 0x02 bytes

def derOctetString (bytes : List UInt8) : List UInt8 := derTlv 0x04 bytes

def derOid (bytes : List UInt8) : List UInt8 := derTlv 0x06 bytes

def derNull : List UInt8 := [0x05, 0x00]

def derBoolean (val : Bool) : List UInt8 := [0x01, 0x01, if val then 0xFF else 0x00]

def derSequence (contents : List UInt8) : List UInt8 := derTlv 0x30 contents

inductive TimestampHashAlgorithm where
  | sha256
  | sm3
  deriving DecidableEq

namespace TimestampHashAlgorithm

def oidBytes : TimestampHashAlgorithm → List UInt8
  | sha256 => [0x60, 0x86, 0x48, 0x01, 0x65, 0x03, 0x04, 0x02, 0x01]
  | sm3 => [0x2A, 0x81, 0x1C, 0xCF, 0x55, 0x01, 0x83, 0x11]

def asOid : TimestampHashAlgorithm → String
  | sha256 => "2.16.840.1.101.3.4.2.1"
  | sm3 => "1.2.156.10197.1.401"

theorem oidBytesToString_oidBytes (algorithm : TimestampHashAlgorithm) :
    DerCursor.oidBytesToString algorithm.oidBytes = algorithm.asOid := by
  cases algorithm <;> decide

end TimestampHashAlgorithm

def messageImprint (digest : List UInt8) (algorithm : TimestampHashAlgorithm) : List UInt8 :=
  derSequence (derSequence (derOid algorithm.oidBytes ++ derNull) ++ derOctetString digest)

/-- What stands in the outer SEQUENCE. -/
def requestContent (digest nonce : List UInt8) (algorithm : TimestampHashAlgorithm) : List UInt8 :=
  derIntegerBytes [0x01] ++ (messageImprint digest algorithm ++ (derIntegerBytes nonce ++ derBoolean true))

def buildTimestampRequest (digest nonce : List UInt8) (algorithm : TimestampHashAlgorithm) : List UInt8 :=
  derSequence (requestContent digest nonce algorithm)

/-! ## Read back -/

namespace DerCursor

/-- `read_tag`, `read_length` and `read_bytes`. -/
def readTlv (c : DerCursor) : Panicking (UInt8 × List UInt8 × DerCursor) := do
  let (tag, c) ← c.readTag
  let (value, c) ← c.readValue
  return (tag, value.bytes, c)

/-- The fields of a request: digest, nonce and the OID of the algorithm. -/
def readRequest (c : DerCursor) : Panicking (List UInt8 × List UInt8 × String) := do
  let (seq, _) ← c.readSequenceContent
  let (_, seq) ← seq.readInteger
  let (mi, seq) ← seq.readSequenceContent
  let (algId, mi) ← mi.readSequenceContent
  let (oid, _) ← algId.readOid
  let (hashed, _) ← mi.readOctetString
  let (nonce, _) ← seq.readInteger
  return (hashed.bytes, nonce.bytes, oid)

end DerCursor

/-- The two low bytes are read. -/
theorem isLength_derLen (len : ℕ) : IsLength (derLen len) (len % 65536) := by
  rw [derLen]
  split
  · have hto : (UInt8.ofNat len).toNat = len % 65536 := by
      rw [UInt8.toNat_ofNat']
      omega
    have hlt : UInt8.ofNat len < 0x80 := by
      rw [UInt8.lt_iff_toNat_lt, hto]
      change len % 65536 < 128
      omega
    have := IsLength.short _ hlt
    rwa [hto] at this
  · split
    · have hof : ofBytes [UInt8.ofNat len] = len % 65536 := by
        change 0 * 256 + (UInt8.ofNat len).toNat = _
        rw [UInt8.toNat_ofNat']
        omega
      have := IsLength.long [UInt8.ofNat len] (by simp)
      rwa [hof] at this
    · have hof : ofBytes [UInt8.ofNat (len / 256), UInt8.ofNat (len % 256)] = len % 65536 := by
        change (0 * 256 + (UInt8.ofNat (len / 256)).toNat) * 256 + (UInt8.ofNat (len % 256)).toNat = _
        rw [UInt8.toNat_ofNat', UInt8.toNat_ofNat']
        omega
      have := IsLength.long [UInt8.ofNat (len / 256), UInt8.ofNat (len % 256)] (by simp)
      rwa [hof] at this

theorem derLen_length (len : ℕ) : (derLen len).length ≤ 3 := by
  rw [derLen]
  split
  · simp
  · split <;> simp

section

variable {c : DerCursor} {tags : UInt8 → Bool} {tag : UInt8} {value trailing : List UInt8}

/-- Of a value that is written, as many bytes are read as the two low bytes of its length say. -/
theorem element?_derTlv (h : c.rest = derTlv tag value ++ trailing) (htag : tags tag) :
    ∃ e, c.element? tags = some e ∧ e.tag = tag ∧ e.content.bytes = value.take (value.length % 65536) ∧
      e.after.rest = value.drop (value.length % 65536) ++ trailing := by
  have hlen : (value.take (value.length % 65536)).length = value.length % 65536 :=
    List.length_take_of_le (Nat.mod_le _ _)
  have hfield := isLength_derLen value.length
  rw [← hlen] at hfield
  have hrest : c.rest = tag :: (derLen value.length ++
      (value.take (value.length % 65536) ++ (value.drop (value.length % 65536) ++ trailing))) := by
    rw [h, derTlv, ← List.append_assoc (value.take _), List.take_append_drop, List.cons_append, List.append_assoc]
  obtain ⟨e, he, het, hec, her, -⟩ : ∃ e, c.element? tags = some e ∧ _ :=
    Place.element?_of_rest hfield hrest htag fun _ => DerCursor.lengthOf_of_lt
  exact ⟨e, he, het, hec, her⟩

theorem element?_derTlv_of_lt (h : c.rest = derTlv tag value ++ trailing) (htag : tags tag)
    (hlt : value.length < 65536) :
    ∃ e, c.element? tags = some e ∧ e.tag = tag ∧ e.content.bytes = value ∧ e.after.rest = trailing := by
  obtain ⟨e, he, het, hec, her⟩ := element?_derTlv h htag
  rw [Nat.mod_eq_of_lt hlt] at hec her
  rw [List.take_length] at hec
  rw [List.drop_length] at her
  exact ⟨e, he, het, hec, her⟩

theorem readTlv_eq_ok {r : UInt8 × List UInt8 × DerCursor} : c.readTlv.run = some (.ok r) ↔
    ∃ e, c.element? anyTag = some e ∧ (e.tag, e.content.bytes, e.after) = r := by
  refine (DerCursor.eq_ok_of_tag anyTag (fun tag r => pure (tag, r.1.bytes, r.2)) (fun _ _ h => nomatch h)
    fun _ _ _ => rfl).trans ?_
  simp only [Panicking.pure_eq_ok]

/-- Reading gives back what was written and leaves the cursor at the bytes after it. -/
def ReadsBack (tag : UInt8) (value trailing : List UInt8) (c : DerCursor) : Prop :=
  ∃ q, c.readTlv.run = some (.ok (tag, value, q)) ∧ q.rest = trailing

theorem readsBack_of_rest (h : c.rest = derTlv tag value ++ trailing) :
    ReadsBack tag value trailing c ↔ value.length < 65536 := by
  constructor
  · rintro ⟨q, hq, -⟩
    obtain ⟨e, he, hr⟩ := readTlv_eq_ok.1 hq
    obtain ⟨e', he', -, hcontent, -⟩ : ∃ e, c.element? anyTag = some e ∧ _ := element?_derTlv h rfl
    cases he.symm.trans he'
    cases hr
    have hlen := congrArg List.length hcontent
    rw [List.length_take] at hlen
    omega
  · intro hlt
    obtain ⟨e, he, rfl, rfl, rfl⟩ : ∃ e, c.element? anyTag = some e ∧ _ := element?_derTlv_of_lt h rfl hlt
    exact ⟨e.after, readTlv_eq_ok.2 ⟨e, he, rfl⟩, rfl⟩

end

/-- The request parses back to what it was built from. -/
def ParsesBack (digest nonce : List UInt8) (algorithm : TimestampHashAlgorithm) (c : DerCursor) : Prop :=
  c.readRequest.run = some (.ok (digest, nonce, algorithm.asOid))

section

variable {c : DerCursor} {digest nonce : List UInt8} {algorithm : TimestampHashAlgorithm}

theorem length_derTlv (tag : UInt8) (value : List UInt8) : (derTlv tag value).length ≤ value.length + 4 ∧
    value.length < (derTlv tag value).length := by
  have hlen := derLen_length value.length
  rw [derTlv, List.length_cons, List.length_append]
  omega

theorem readSequenceContent_eq_ok {r : DerCursor × DerCursor} : c.readSequenceContent.run = some (.ok r) ↔
    ∃ e, c.element? (onlyTag 0x30) = some e ∧ (e.content.start, e.after) = r := by
  rw [DerCursor.readSequenceContent, Panicking.bind_eq_ok]
  constructor
  · rintro ⟨r', hr', h⟩
    obtain ⟨e, he, rfl⟩ := DerCursor.readExpected_eq_ok.1 hr'
    exact ⟨e, he, Panicking.pure_eq_ok.1 h⟩
  · rintro ⟨e, he, h⟩
    exact ⟨_, DerCursor.readExpected_eq_ok.2 ⟨e, he, rfl⟩, Panicking.pure_eq_ok.2 h⟩

/-- What is read of digest and nonce is in the content of the outer SEQUENCE, one after the other. -/
theorem room_of_readRequest {oid : String} (h : c.readRequest.run = some (.ok (digest, nonce, oid))) :
    ∃ e, c.element? (onlyTag 0x30) = some e ∧ digest.length + nonce.length ≤ e.content.bytes.length := by
  obtain ⟨r, hr, h⟩ := Panicking.bind_eq_ok.1 h
  obtain ⟨e, he, rfl⟩ := readSequenceContent_eq_ok.1 hr
  obtain ⟨r, hr, h⟩ := Panicking.bind_eq_ok.1 h
  obtain ⟨version, hversion, rfl⟩ := DerCursor.readExpected_eq_ok.1 hr
  obtain ⟨r, hr, h⟩ := Panicking.bind_eq_ok.1 h
  obtain ⟨mi, hmi, rfl⟩ := readSequenceContent_eq_ok.1 hr
  obtain ⟨r, hr, h⟩ := Panicking.bind_eq_ok.1 h
  obtain ⟨algId, halgId, rfl⟩ := readSequenceContent_eq_ok.1 hr
  obtain ⟨_, -, h⟩ := Panicking.bind_eq_ok.1 h
  obtain ⟨r, hr, h⟩ := Panicking.bind_eq_ok.1 h
  obtain ⟨hashed, hhashed, rfl⟩ := DerCursor.readExpected_eq_ok.1 hr
  obtain ⟨r, hr, h⟩ := Panicking.bind_eq_ok.1 h
  obtain ⟨nonceElement, hnonce, rfl⟩ := DerCursor.readExpected_eq_ok.1 hr
  cases Panicking.pure_eq_ok.1 h
  have hversionRoom := Place.element?_room hversion
  have hmiRoom := Place.element?_room hmi
  have halgIdRoom := Place.element?_room halgId
  have hhashedRoom := Place.element?_room hhashed
  have hnonceRoom := Place.element?_room hnonce
  refine ⟨e, he, ?_⟩
  rw [Slice.start_rest] at halgIdRoom hversionRoom
  omega

theorem length_messageImprint : (messageImprint digest algorithm).length ≤ digest.length + 30 := by
  have hsequence := (length_derTlv 0x30 (derSequence (derOid algorithm.oidBytes ++ derNull) ++ derOctetString digest)).1
  have hdigest := (length_derTlv 0x04 digest).1
  have halgorithm : (derSequence (derOid algorithm.oidBytes ++ derNull)).length ≤ 20 := by
    cases algorithm <;> decide
  rw [List.length_append] at hsequence
  change (derTlv 0x30 _).length ≤ _
  change (derTlv 0x04 digest).length ≤ _ at hdigest
  rw [derOctetString] at hsequence
  rw [derOctetString]
  omega

theorem length_requestContent : (requestContent digest nonce algorithm).length =
    3 + (messageImprint digest algorithm).length + (derTlv 0x02 nonce).length + 3 := by
  rw [requestContent, List.length_append, List.length_append, List.length_append, ← Nat.add_assoc, ← Nat.add_assoc]
  rfl

/-- Of a longer request no more is read than what its two length bytes can say, and that is too little. -/
theorem parsesBack_of_rest (h : c.rest = buildTimestampRequest digest nonce algorithm) :
    ParsesBack digest nonce algorithm c ↔ (requestContent digest nonce algorithm).length < 65536 := by
  have hcontent := @length_requestContent digest nonce algorithm
  rw [← List.append_nil (buildTimestampRequest _ _ _)] at h
  constructor
  · intro hparse
    obtain ⟨e, he, hroom⟩ := room_of_readRequest hparse
    obtain ⟨e', he', -, hbytes, -⟩ : ∃ e, c.element? (onlyTag 0x30) = some e ∧ _ := element?_derTlv h rfl
    cases he.symm.trans he'
    have hlen := congrArg List.length hbytes
    rw [List.length_take] at hlen
    have himprint := @length_messageImprint digest algorithm
    have hnonce := (length_derTlv 0x02 nonce).1
    omega
  · intro hlt
    have hnonce := (length_derTlv 0x02 nonce).2
    have himprint := (length_derTlv 0x30
      (derSequence (derOid algorithm.oidBytes ++ derNull) ++ derOctetString digest)).2
    have hdigest := (length_derTlv 0x04 digest).2
    change _ < (messageImprint digest algorithm).length at himprint
    rw [List.length_append, derOctetString] at himprint
    obtain ⟨e, he, -, hcontent, -⟩ : ∃ e, c.element? (onlyTag 0x30) = some e ∧ _ :=
      element?_derTlv_of_lt h rfl hlt
    obtain ⟨version, hversion, -, -, hrest⟩ : ∃ v, DerCursor.element? e.content.start (onlyTag 0x02) = some v ∧ _ :=
      element?_derTlv_of_lt hcontent rfl (by decide)
    obtain ⟨mi, hmi, -, hmiContent, hrest⟩ : ∃ v, DerCursor.element? version.after (onlyTag 0x30) = some v ∧ _ :=
      element?_derTlv_of_lt hrest rfl (by rw [List.length_append, derOctetString]; omega)
    obtain ⟨algId, halgId, -, halgContent, hmiRest⟩ :
        ∃ v, DerCursor.element? mi.content.start (onlyTag 0x30) = some v ∧ _ :=
      element?_derTlv_of_lt hmiContent rfl (by cases algorithm <;> decide)
    obtain ⟨oid, hoid, -, hoidContent, -⟩ :
        ∃ v, DerCursor.element? algId.content.start (onlyTag 0x06) = some v ∧ _ :=
      element?_derTlv_of_lt halgContent rfl (by cases algorithm <;> decide)
    rw [← List.append_nil (derOctetString _)] at hmiRest
    obtain ⟨hashed, hhashed, -, hhashedContent, -⟩ :
        ∃ v, DerCursor.element? algId.after (onlyTag 0x04) = some v ∧ _ :=
      element?_derTlv_of_lt hmiRest rfl (by omega)
    obtain ⟨nonceElement, hnonceElement, -, hnonceContent, -⟩ :
        ∃ v, DerCursor.element? mi.after (onlyTag 0x02) = some v ∧ _ :=
      element?_derTlv_of_lt hrest rfl (by omega)
    have hoidText : (DerCursor.readOid algId.content.start).run = some (.ok (algorithm.asOid, oid.after)) := by
      refine Panicking.bind_eq_ok.2 ⟨_, DerCursor.readExpected_eq_ok.2 ⟨oid, hoid, rfl⟩, ?_⟩
      rw [← algorithm.oidBytesToString_oidBytes, ← hoidContent]
      rfl
    refine Panicking.bind_eq_ok.2 ⟨_, readSequenceContent_eq_ok.2 ⟨e, he, rfl⟩, ?_⟩
    refine Panicking.bind_eq_ok.2 ⟨_, DerCursor.readExpected_eq_ok.2 ⟨version, hversion, rfl⟩, ?_⟩
    refine Panicking.bind_eq_ok.2 ⟨_, readSequenceContent_eq_ok.2 ⟨mi, hmi, rfl⟩, ?_⟩
    refine Panicking.bind_eq_ok.2 ⟨_, readSequenceContent_eq_ok.2 ⟨algId, halgId, rfl⟩, ?_⟩
    refine Panicking.bind_eq_ok.2 ⟨_, hoidText, ?_⟩
    refine Panicking.bind_eq_ok.2 ⟨_, DerCursor.readExpected_eq_ok.2 ⟨hashed, hhashed, rfl⟩, ?_⟩
    refine Panicking.bind_eq_ok.2 ⟨_, DerCursor.readExpected_eq_ok.2 ⟨nonceElement, hnonceElement, rfl⟩, ?_⟩
    rw [← hhashedContent, ← hnonceContent]
    rfl

/-- Writer and reader agree on a value, and on a request. -/
theorem writerReader_agree {tag : UInt8} {value trailing : List UInt8} {c' : DerCursor}
    (h : c.rest = derTlv tag value ++ trailing) (h' : c'.rest = buildTimestampRequest digest nonce algorithm) :
    (ReadsBack tag value trailing c ∧ ParsesBack digest nonce algorithm c') ↔
      value.length < 65536 ∧ (requestContent digest nonce algorithm).length < 65536 :=
  and_congr (readsBack_of_rest h) (parsesBack_of_rest h')

end

theorem writerReader_agree_short : (ReadsBack 0x04 [1, 2] [3] ⟨0, [0x04, 0x02, 1, 2, 3], by decide⟩ ∧
      ParsesBack [7] [9] .sm3 ⟨0, buildTimestampRequest [7] [9] .sm3, by decide⟩) ↔
    [1, 2].length < 65536 ∧ (requestContent [7] [9] .sm3).length < 65536 :=
  writerReader_agree rfl rfl

/-- A value of 65536 bytes, written with the length 0. -/
def longValue : DerCursor where
  pos := 0
  rest := derTlv 0x04 (List.replicate 65536 0)
  short := by
    have hlen := (length_derTlv 0x04 (List.replicate 65536 0)).1
    rw [List.length_replicate] at hlen
    omega

theorem not_readsBack_longValue : ¬ ReadsBack 0x04 (List.replicate 65536 0) [] longValue := by
  intro h
  have hrest : longValue.rest = derTlv 0x04 (List.replicate 65536 0) ++ [] := (List.append_nil _).symm
  have hlt := (readsBack_of_rest hrest).1 h
  rw [List.length_replicate] at hlt
  exact absurd hlt (Nat.lt_irrefl _)

end GmKms.Audit
