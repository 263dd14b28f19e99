import GmKms.Audit.DerCursor
/-!
# The answer of a timestamp authority

`parse_timestamp_response`, `verify_digest_in_token` and `verify_timestamp`.
-/

namespace GmKms.Audit

open Lib Lib.Der

/-- Nanoseconds from 1970 on. -/
abbrev SystemTime := ℤ

structure TimestampResponse where
  token : Slice
  serialNumber : List UInt8
  accuracyMillis : UInt32
  timestamp : SystemTime
  policy : String
  deriving DecidableEq

namespace DerCursor

/-- There is another element, under `tag`. -/
def nextIs (c : DerCursor) (tag : UInt8) : Panicking Bool := do
  if c.remaining = 0 then return false
  return (← c.peekTag) = tag

/-- The next element, if it is an INTEGER. -/
def readIntegerIf (c : DerCursor) : Panicking (Option Slice × DerCursor) := do
  if ← c.nextIs 0x02 then
    let (value, c) ← c.readInteger
    return (some value, c)
  else return (none, c)

end DerCursor

/-- The status string of a rejection. Reading it may fail, and it may panic too. -/
def statusMessage (status : DerCursor) : Panicking String :=
  if 0 < status.remaining then
    ExceptT.mk (status.readTlvValue.run.map fun
      | .ok (v, _) => .ok (String.ofList (Utf8.decodeLossy v.bytes))
      | .error _ => .ok "unknown")
  else return "no details"

/-- `granted` and `grantedWithMods`. -/
def granted (status : List UInt8) : Bool := status.headD 0 ≤ 1

/-- The check of the status, whose value is `status`; `rest` is what follows it. -/
def checkStatus (status : List UInt8) (rest : DerCursor) : Panicking Unit :=
  let statusVal := status.headD 0
  if granted status then return ()
  else if statusVal = 2 then do
    let msg ← statusMessage rest
    throw (.tsaFailed s!"TSA rejected request (status=2): {msg}")
  else throw (.tsaFailed s!"TSA returned unexpected status: {statusVal}")

/-- The ContentInfo `token_tlv` down to the TSTInfo in it: the policy, and the cursor after it. -/
def readContentInfo (tokenTlv : Slice) : Panicking (String × DerCursor) := do
  let (_, ci) ← (DerCursor.new tokenTlv).readOid
  let (sdBytes, _) ← ci.readExpected 0xA0 "[0] EXPLICIT (0xA0)"
  let (sd, _) ← (DerCursor.new sdBytes).readSequenceContent
  let (_, sd) ← sd.readTlvValue
  let sd ← sd.skipSet
  let (eci, _) ← sd.readSequenceContent
  let (_, eci) ← eci.readOid
  let (ecBytes, _) ← eci.readExpected 0xA0 "[0] EXPLICIT for eContent"
  let (tstinfoBytes, _) ← (DerCursor.new ecBytes).readOctetString
  let (tst, _) ← (DerCursor.new tstinfoBytes).readSequenceContent
  let (_, tst) ← tst.readInteger
  tst.readOid

/-- `messageImprint`. -/
def checkImprint (tst : DerCursor) (expectedDigest : List UInt8) : Panicking DerCursor := do
  let (mi, tst) ← tst.readSequenceContent
  let (_, mi) ← mi.readTlvValue
  let (hashedMsg, _) ← mi.readOctetString
  if hashedMsg.bytes ≠ expectedDigest then
    let expected := hexEncode expectedDigest
    let got := hexEncode hashedMsg.bytes
    throw (.tsaFailed s!"TSA response digest mismatch: expected {expected}, got {got}")
  return tst

def accuracyMillis (millis : Option Slice) : UInt32 :=
  match millis with
  | some ⟨b :: bytes, _⟩ => (b :: bytes).foldl (fun m b => m <<< 8 ||| b.toUInt32) 0
  | _ => 1000

/-- `accuracy`: of seconds and milliseconds only the second integer counts. -/
def readAccuracy (tst : DerCursor) : Panicking (UInt32 × DerCursor) := do
  if ← tst.nextIs 0x30 then
    let (acc, tst) ← tst.readSequenceContent
    let (_, acc) ← acc.readIntegerIf
    let (millis, _) ← acc.readIntegerIf
    return (accuracyMillis millis, tst)
  else return (1000, tst)

/-- `SystemTime::UNIX_EPOCH + Duration::from_secs(secs)`. -/
def sinceEpoch (secs : ℕ) : Panicking SystemTime :=
  ExceptT.mk (if secs < 2 ^ 63 then some (.ok (secs * 1000000000)) else none)

/-- The slice of the response that is kept as the token. -/
def sliceOf (bytes : Slice) (start stop : ℕ) : Panicking Slice := ExceptT.mk ((bytes.range? start stop).map .ok)

/-- What the TSTInfo says after the imprint: serial number, time and accuracy. The nonce is read too. -/
def readTstInfo (tst : DerCursor) : Panicking (List UInt8 × SystemTime × UInt32) := do
  let (serial, tst) ← tst.readInteger
  let (genTime, tst) ← tst.readTime
  let (accuracyMillis, tst) ← readAccuracy tst
  let _ ← tst.readIntegerIf
  return (serial.bytes, ← sinceEpoch genTime, accuracyMillis)

/-- A nonce other than `expectedNonce` is only logged. -/
def parseTimestampResponse (response : Slice) (expectedDigest _expectedNonce : List UInt8) :
    Panicking TimestampResponse := do
  let (resp, _) ← (DerCursor.new response).readSequenceContent
  let (statusInfo, resp) ← resp.readSequenceContent
  let (status, statusInfo) ← statusInfo.readInteger
  checkStatus status.bytes statusInfo
  if resp.remaining = 0 then
    throw (.tsaFailed "TSA response has no TimeStampToken (granted but no token)")
  let tokenStart := resp.pos
  let (tokenTlv, resp) ← resp.readTlvValue
  let rawToken ← sliceOf response tokenStart resp.pos
  let (policy, tst) ← readContentInfo tokenTlv
  let tst ← checkImprint tst expectedDigest
  let (serial, timestamp, accuracyMillis) ← readTstInfo tst
  return { token := rawToken, serialNumber := serial, accuracyMillis, timestamp, policy }

def verifyDigestInToken (token : Slice) (expectedDigest : List UInt8) : Panicking Bool := do
  let (ci, _) ← (DerCursor.new token).readSequenceContent
  let (_, ci) ← ci.readOid
  let (tag0, ci) ← ci.readTag
  if tag0 ≠ 0xA0 then return false
  let (sdBytes, _) ← ci.readValue
  let (sd, _) ← (DerCursor.new sdBytes).readSequenceContent
  let (_, sd) ← sd.readTlvValue
  let sd ← sd.skipSet
  let (eci, _) ← sd.readSequenceContent
  let (_, eci) ← eci.readOid
  let (tag0, eci) ← eci.readTag
  if tag0 ≠ 0xA0 then return false
  let (ecBytes, _) ← eci.readValue
  let (tstinfoBytes, _) ← (DerCursor.new ecBytes).readOctetString
  let (tst, _) ← (DerCursor.new tstinfoBytes).readSequenceContent
  let (_, tst) ← tst.readInteger
  let (_, tst) ← tst.readOid
  let (mi, _) ← tst.readSequenceContent
  let (_, mi) ← mi.readTlvValue
  let (digest, _) ← mi.readOctetString
  return digest.bytes = expectedDigest

/-- `as_secs` of the time since 1970, the whole seconds of it; an earlier time counts as 1970. -/
def asSecs (t : SystemTime) : ℤ := max (t / 1000000000) 0

structure TimestampConfig where
  maxTimeSkewSecs : UInt64

/-- `now` is what the clock says. -/
def TimestampConfig.verifyTimestamp (config : TimestampConfig) (now : SystemTime) (digest : List UInt8)
    (response : TimestampResponse) : Panicking Bool := do
  -- what the check of the digest returns is not looked at
  let _ ← verifyDigestInToken response.token digest
  if config.maxTimeSkewSecs.toNat < (asSecs response.timestamp - asSecs now).natAbs then return false
  return true

end GmKms.Audit
