import GmKms.Audit.TokenDigest
/-!
# The token of a response

Well-formed responses that grant a timestamp, as DER writes them. The token that `parse_timestamp_response` keeps is a
slice of the response by positions in the content of the outer SEQUENCE: it starts before the token by the length of the
outer header.
-/

namespace GmKms.Audit

open Lib Lib.Der

/-- What follows the time (accuracy, ordering, nonce, tsa and extensions) may be anything. -/
structure TstInfo where
  version : List UInt8
  policy : List UInt8
  hashAlgorithm : List UInt8
  hashedMessage : List UInt8
  serialNumber : List UInt8
  genTime : List UInt8
  more : List UInt8

/-- What follows the encapContentInfo (certificates, crls and signerInfos) may be anything. -/
structure TimeStampToken where
  version : List UInt8
  digestAlgorithms : List UInt8
  eContentType : List UInt8
  tstInfo : TstInfo
  more : List UInt8

/-- `id-signedData`. -/
def idSignedData : List UInt8 := [0x2A, 0x86, 0x48, 0x86, 0xF7, 0x0D, 0x01, 0x07, 0x02]

def TstInfo.messageImprint (t : TstInfo) : List UInt8 :=
  element 0x30 (element 0x30 t.hashAlgorithm ++ element 0x04 t.hashedMessage)

def TstInfo.encode (t : TstInfo) : List UInt8 :=
  element 0x30 (element 0x02 t.version ++ (element 0x06 t.policy ++ (t.messageImprint ++
    (element 0x02 t.serialNumber ++ (element 0x18 t.genTime ++ t.more)))))

namespace TimeStampToken

variable (token : TimeStampToken)

def encapContentInfo : List UInt8 :=
  element 0x30 (element 0x06 token.eContentType ++ element 0xA0 (element 0x04 token.tstInfo.encode))

def signedData : List UInt8 :=
  element 0x30 (element 0x02 token.version ++
    (element 0x31 token.digestAlgorithms ++ (token.encapContentInfo ++ token.more)))

def encode : List UInt8 := element 0x30 (element 0x06 idSignedData ++ element 0xA0 token.signedData)

end TimeStampToken

/-- A status that grants, with any string and failure info. -/
structure PkiStatusInfo where
  status : UInt8
  granted : status ≤ 1
  more : List UInt8

def PkiStatusInfo.encode (info : PkiStatusInfo) : List UInt8 := element 0x30 (element 0x02 [info.status] ++ info.more)

/-- A response that grants a timestamp. The outer length may have any form of at most eight octets. -/
structure TimeStampResp where
  statusInfo : PkiStatusInfo
  token : TimeStampToken
  outerLength : List UInt8
  isLength : IsLength outerLength (statusInfo.encode ++ token.encode).length
  octets : outerLength.length ≤ 9
  short : (0x30 :: (outerLength ++ (statusInfo.encode ++ token.encode))).length < 2 ^ 63

def TimeStampResp.encode (r : TimeStampResp) : Slice := ⟨_, r.short⟩

/-- The parser returns the token of the response, and finds the digest in it. -/
def TimeStampResp.Extracts (r : TimeStampResp) (nonce : List UInt8) : Prop :=
  ∃ response, (parseTimestampResponse r.encode r.token.tstInfo.hashedMessage nonce).run = some (.ok response) ∧
    response.token.bytes = r.token.encode ∧
    (verifyDigestInToken response.token r.token.tstInfo.hashedMessage).run = some (.ok true)

/-- The path to the hashedMessage leads there. -/
theorem follow_tokenPath (token : TimeStampToken) {s : Slice} (hs : s.bytes = token.encode) :
    ∃ q, follow ofBytes tokenPath s.start = some q ∧ q.rest = element 0x04 token.tstInfo.hashedMessage := by
  have hv : ∀ octets, ofBytes octets < 2 ^ 63 → ofBytes octets = ofBytes octets := fun _ _ => rfl
  have hlast : ∀ {q : Place} {tag content}, q.rest = element tag content → q.rest = element tag content ++ [] :=
    fun h => by
    rw [List.append_nil, h]
  -- ContentInfo
  refine leads_into (hlast hs) rfl hv fun q hq => ?_
  refine leads_past hq rfl hv fun q hq => ?_
  -- SignedData
  refine leads_into (hlast hq) rfl hv fun q hq => ?_
  refine leads_into (hlast hq) rfl hv fun q hq => ?_
  refine leads_past hq rfl hv fun q hq => ?_
  refine leads_past hq rfl hv fun q hq => ?_
  -- encapContentInfo
  refine leads_into hq rfl hv fun q hq => ?_
  refine leads_past hq rfl hv fun q hq => ?_
  refine leads_into (hlast hq) rfl hv fun q hq => ?_
  -- TSTInfo
  refine leads_into (hlast hq) rfl hv fun q hq => ?_
  refine leads_into (hlast hq) rfl hv fun q hq => ?_
  refine leads_past hq rfl hv fun q hq => ?_
  refine leads_past hq rfl hv fun q hq => ?_
  -- messageImprint
  refine leads_into hq rfl hv fun q hq => ?_
  refine leads_past hq rfl hv fun q hq => ?_
  exact ⟨q, rfl, hq⟩

/-- The digest is in the token: it would be found in the right slice. -/
theorem verifyDigestInToken_encode (token : TimeStampToken) {s : Slice} (hs : s.bytes = token.encode) :
    (verifyDigestInToken s token.tstInfo.hashedMessage).run = some (.ok true) := by
  apply verifyDigestInToken_of_hashedMessage?
  obtain ⟨q, hq, hrest⟩ := follow_tokenPath token hs
  rw [← List.append_nil (element _ _)] at hrest
  obtain ⟨e, he, -, hcontent, -⟩ : ∃ e, q.element? ofBytes (onlyTag 0x04) = some e ∧ _ :=
    Place.element?_of_element hrest rfl fun _ _ => rfl
  rw [hashedMessage?, hq, Option.bind_some, he, Option.map_some, hcontent]

/-- The slice that is kept starts and ends where the token does in the content of the outer SEQUENCE. -/
theorem range?_of_parse {response : Slice} {digest nonce : List UInt8} {t : TimestampResponse}
    (h : (parseTimestampResponse response digest nonce).run = some (.ok t)) : ∃ resp info token,
      DerCursor.element? response.start (onlyTag 0x30) = some resp ∧
      DerCursor.element? resp.content.start (onlyTag 0x30) = some info ∧
      DerCursor.element? info.after anyTag = some token ∧
      response.range? info.after.pos token.after.pos = some t.token := by
  obtain ⟨⟨resp, outer⟩, hresp, h⟩ := Panicking.bind_eq_ok.1 h
  obtain ⟨r, hr, hrest⟩ := Panicking.bind_eq_ok.1 hresp
  obtain ⟨e, he, rfl⟩ := DerCursor.readExpected_eq_ok.1 hr
  cases Panicking.pure_eq_ok.1 hrest
  obtain ⟨⟨statusInfo, rest⟩, hstatus, h⟩ := Panicking.bind_eq_ok.1 h
  obtain ⟨r, hr, hrest⟩ := Panicking.bind_eq_ok.1 hstatus
  obtain ⟨info, hinfo, rfl⟩ := DerCursor.readExpected_eq_ok.1 hr
  cases Panicking.pure_eq_ok.1 hrest
  obtain ⟨status, -, h⟩ := Panicking.bind_eq_ok.1 h
  obtain ⟨_, -, h⟩ := Panicking.bind_eq_ok.1 h
  dsimp only at h
  split at h
  · cases h
  · obtain ⟨r, hr, h⟩ := Panicking.bind_eq_ok.1 h
    obtain ⟨token, htoken, rfl⟩ := DerCursor.readTlvValue_eq_ok.1 hr
    obtain ⟨raw, hraw, h⟩ := Panicking.bind_eq_ok.1 h
    obtain ⟨_, -, h⟩ := Panicking.bind_eq_ok.1 h
    obtain ⟨_, -, h⟩ := Panicking.bind_eq_ok.1 h
    obtain ⟨_, -, h⟩ := Panicking.bind_eq_ok.1 h
    cases Panicking.pure_eq_ok.1 h
    obtain ⟨_, hrange, hok⟩ := Option.map_eq_some_iff.1 hraw
    cases hok
    exact ⟨e, info, token, he, hinfo, htoken, hrange⟩

/-- A token is not itself shifted by 2 to 10 bytes: the tag of its type is not among the bytes of the type. -/
theorem encode_ne_shift (token : TimeStampToken) {h : ℕ} (hlow : 2 ≤ h) (hhigh : h ≤ 10) :
    ∃ i b, token.encode[i + h]? = some b ∧ token.encode[i]? ≠ some b := by
  have hoid : element 0x06 idSignedData = [0x06, 0x09, 0x2A, 0x86, 0x48, 0x86, 0xF7, 0x0D, 0x01, 0x07,
      0x02] := by decide
  let body := element 0x06 idSignedData ++ element 0xA0 token.signedData
  let header := 0x30 :: lengthField body.length
  have hencode : token.encode = header ++ body := rfl
  have hbody : ∀ j, token.encode[header.length + j]? = body[j]? := fun j => by
    rw [hencode, List.getElem?_append_right (Nat.le_add_right _ _), Nat.add_sub_cancel_left]
  have hfirst : body[0]? = some 0x06 := rfl
  obtain ⟨b, hb, hne⟩ : ∃ b, (element 0x06 idSignedData)[h]? = some b ∧ some 0x06 ≠ some b := by
    rw [hoid]
    interval_cases h <;> exact ⟨_, rfl, by decide⟩
  have hlen : h < (element 0x06 idSignedData).length := by
    rw [hoid]
    exact Nat.lt_succ_of_le hhigh
  refine ⟨header.length, b, ?_, ?_⟩
  · rw [hbody, List.getElem?_append_left hlen, hb]
  · rw [← Nat.add_zero header.length, hbody, hfirst]
    exact hne

/-- No well-formed response has its token extracted. -/
theorem TimeStampResp.not_extracts (r : TimeStampResp) (nonce : List UInt8) : ¬ r.Extracts nonce := by
  rintro ⟨t, hparse, htoken, -⟩
  obtain ⟨resp, info, token, hresp, hinfo, htok, hrange⟩ := range?_of_parse hparse
  have hv : ∀ octets, ofBytes octets < 2 ^ 63 → lengthOf octets = ofBytes octets := fun _ => DerCursor.lengthOf_of_lt
  -- where the elements stand
  have houter : r.encode.start.rest = 0x30 :: (r.outerLength ++ ((r.statusInfo.encode ++ r.token.encode) ++ [])) := by
    rw [List.append_nil]
    rfl
  obtain ⟨resp', hresp', -, hcontent, -, -⟩ : ∃ e, Place.element? lengthOf r.encode.start (onlyTag 0x30) = some e ∧ _ :=
    Place.element?_of_rest r.isLength houter rfl hv
  cases hresp.symm.trans hresp'
  obtain ⟨info', hinfo', -, -, hrest, hstart⟩ :
      ∃ e, Place.element? lengthOf resp.content.start (onlyTag 0x30) = some e ∧ _ :=
    Place.element?_of_element hcontent rfl hv
  cases hinfo.symm.trans hinfo'
  rw [← List.append_nil r.token.encode] at hrest
  obtain ⟨token', htoken', -, -, -, hstop⟩ : ∃ e, Place.element? lengthOf info.after anyTag = some e ∧ _ :=
    Place.element?_of_element hrest rfl hv
  cases htok.symm.trans htoken'
  have hraw : r.token.encode = (r.encode.bytes.take token.after.pos).drop info.after.pos :=
    htoken.symm.trans (Slice.bytes_of_range? hrange)
  have hbytes : r.encode.bytes = (0x30 :: r.outerLength) ++ (r.statusInfo.encode ++ r.token.encode) := rfl
  have hinfoPos : info.after.pos = r.statusInfo.encode.length := hstart.trans (Nat.zero_add _)
  have htokenPos : token.after.pos = r.statusInfo.encode.length + r.token.encode.length := by
    rw [hstop, hinfoPos]
    rfl
  -- so the token is itself shifted by the outer header
  have hkept : ∀ i, i < r.token.encode.length →
      r.token.encode[i]? = r.encode.bytes[r.statusInfo.encode.length + i]? := by
    intro i hi
    conv_lhs => rw [hraw]
    rw [List.getElem?_drop, List.getElem?_take, hinfoPos, htokenPos, if_pos (by omega)]
  have hstands : ∀ i, r.encode.bytes[r.statusInfo.encode.length + (i + (0x30 :: r.outerLength).length)]? =
      r.token.encode[i]? := by
    intro i
    rw [hbytes, List.getElem?_append_right (by omega), List.getElem?_append_right (by omega)]
    congr 1
    omega
  have hlen := r.isLength.length_pos
  have hoctets := r.octets
  obtain ⟨i, b, hi, hne⟩ := encode_ne_shift r.token (h := (0x30 :: r.outerLength).length)
    (by rw [List.length_cons]; omega) (by rw [List.length_cons]; omega)
  have hlt := (List.getElem?_eq_some_iff.1 hi).1
  rw [hkept _ hlt, hstands] at hi
  exact hne hi

def sampleTimeStampToken : TimeStampToken where
  version := [0x03]
  digestAlgorithms := []
  eContentType := [0x2A, 0x86, 0x48, 0x86, 0xF7, 0x0D, 0x01, 0x09, 0x10, 0x01, 0x04]
  tstInfo :=
    { version := [0x01], policy := [0x2A, 0x03], hashAlgorithm := [0x06, 0x02, 0x2A, 0x04],
      hashedMessage := [0xAA, 0xBB]
      serialNumber := [0x05]
      genTime := [0x32, 0x30, 0x32, 0x34, 0x30, 0x32, 0x32, 0x39, 0x31, 0x32, 0x33, 0x34, 0x35, 0x36, 0x5A]
      more := [] }
  more := [0x31, 0x00]

/-- Its token is in a response with an outer header of two bytes. -/
def sampleResp : TimeStampResp where
  statusInfo := ⟨0, by decide, []⟩
  token := sampleTimeStampToken
  outerLength := [0x59]
  isLength := .short 0x59 (by decide)
  octets := by decide
  short := by decide

theorem sampleResp_not_extracts : ¬ sampleResp.Extracts [] := by
  rintro ⟨t, hparse, htoken, -⟩
  have hwrong : (((parseTimestampResponse sampleResp.encode [0xAA, 0xBB] []).run.bind Except.toOption).all fun t =>
      decide (t.token.bytes = sampleResp.token.encode)) = false := by decide +kernel
  have hparse' : (parseTimestampResponse sampleResp.encode [0xAA, 0xBB] []).run = some (.ok t) := hparse
  rw [hparse'] at hwrong
  exact of_decide_eq_false hwrong htoken

end GmKms.Audit
