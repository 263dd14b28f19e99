import GmKms.Audit.GenTimeRange
import GmKms.Audit.TokenDigest
/-!
# Where the parser panics

The walk through a response, element by element: it panics exactly where an element that it comes to ends beyond what a
`usize` can count, and where the time it comes to is not in range.
-/

namespace GmKms.Audit

open Lib Lib.Der

namespace DerCursor

/-- An element under one of `tags` fits, and if it is all there, `Q` holds of it. -/
def Then (c : DerCursor) (tags : UInt8 → Bool) (Q : Element → Prop) : Prop :=
  c.Fits tags ∧ ∀ e, c.element? tags = some e → Q e

/-- If there is an INTEGER at `c` it is read, and `Q` holds of the place after it. -/
def IfInteger (c : DerCursor) (Q : DerCursor → Prop) : Prop :=
  if c.rest.head? = some 0x02 then c.Then (onlyTag 0x02) fun e => Q e.after else Q c

theorem then_congr {c : DerCursor} {tags : UInt8 → Bool} {Q Q' : Element → Prop}
    (h : ∀ e, c.element? tags = some e → (Q e ↔ Q' e)) : c.Then tags Q ↔ c.Then tags Q' :=
  and_congr_right fun _ => forall₂_congr h

end DerCursor

open DerCursor

section

variable {α : Type} {tags : UInt8 → Bool} {c : DerCursor}

theorem Reads.bind_isSome {x : Panicking (Slice × DerCursor)} (hx : Reads tags c x)
    {f : Slice × DerCursor → Panicking α} :
    (x >>= f).run.isSome ↔ c.Then tags fun e => (f (e.content, e.after)).run.isSome := by
  rw [Panicking.isSome_bind, hx.isSome]
  refine and_congr_right fun _ => ?_
  constructor
  · intro h e he
    exact h _ ((hx.ok _).2 ⟨e, he, rfl⟩)
  · intro h r hr
    obtain ⟨e, he, rfl⟩ := (hx.ok r).1 hr
    exact h e he

theorem readSequenceContent_bind_isSome {f : DerCursor × DerCursor → Panicking α} :
    (c.readSequenceContent >>= f).run.isSome ↔
      c.Then (onlyTag 0x30) fun e => (f (e.content.start, e.after)).run.isSome := by
  rw [readSequenceContent, bind_assoc]
  refine (readExpected_reads c _ _).bind_isSome.trans (then_congr fun e _ => ?_)
  rfl

theorem nextIs_eq (c : DerCursor) (tag : UInt8) : c.nextIs tag = pure (decide (c.rest.head? = some tag)) := by
  rw [nextIs, remaining, peekTag]
  cases c.rest with
  | nil => rfl
  | cons b rest => simp

variable {R : DerCursor → Prop}

theorem readIntegerIf_bind_isSome {f : Option Slice × DerCursor → Panicking α}
    (hf : ∀ v q, (f (v, q)).run.isSome ↔ R q) : (c.readIntegerIf >>= f).run.isSome ↔ c.IfInteger R := by
  rw [readIntegerIf, nextIs_eq, pure_bind, IfInteger]
  by_cases hnext : c.rest.head? = some 0x02
  · rw [if_pos (decide_eq_true hnext), if_pos hnext, bind_assoc]
    exact (readInteger_reads c).bind_isSome.trans (then_congr fun e _ => hf _ _)
  · rw [if_neg (by simpa using hnext), if_neg hnext, pure_bind]
    exact hf none c

/-- An accuracy, if there is one, and then `R`. -/
def IfAccuracy (c : DerCursor) (R : DerCursor → Prop) : Prop :=
  if c.rest.head? = some 0x30 then
    c.Then (onlyTag 0x30) fun acc => IfInteger acc.content.start fun q => q.IfInteger fun _ => R acc.after
  else R c

theorem readAccuracy_bind_isSome {f : UInt32 × DerCursor → Panicking α} (hf : ∀ m q, (f (m, q)).run.isSome ↔ R q) :
    (readAccuracy c >>= f).run.isSome ↔ IfAccuracy c R := by
  rw [readAccuracy, nextIs_eq, pure_bind, IfAccuracy]
  by_cases hnext : c.rest.head? = some 0x30
  · rw [if_pos (decide_eq_true hnext), if_pos hnext, bind_assoc]
    refine readSequenceContent_bind_isSome.trans (then_congr fun acc _ => ?_)
    dsimp only
    rw [bind_assoc]
    refine readIntegerIf_bind_isSome fun _ q => ?_
    dsimp only
    rw [bind_assoc]
    exact readIntegerIf_bind_isSome fun _ q => hf _ _
  · rw [if_neg (by simpa using hnext), if_neg hnext, pure_bind]
    exact hf 1000 c

/-- The tags of a UTCTime and a GeneralizedTime. -/
def isTime (tag : UInt8) : Bool := tag = 0x17 ∨ tag = 0x18

/-- The time in `e`, if it is one that is read at all, is in range, and if it is read, `R` holds. -/
def IfTime (e : Element) (R : Prop) : Prop :=
  ∀ text, Utf8.decode e.content.bytes = .ok text → ∀ width, yearWidth e.tag text = some width →
    TimeInRange text width ∧ (TimeReads text width → R)

theorem timeOf_bind_isSome {f : ℕ × DerCursor → Panicking α} {e : Element}
    (hf : ∀ secs, secs < 2 ^ 63 → ((f (secs, e.after)).run.isSome ↔ R e.after)) :
    (timeOf e.tag (e.content, e.after) >>= f).run.isSome ↔ IfTime e (R e.after) := by
  rw [timeOf, IfTime]
  cases hdecode : Utf8.decode e.content.bytes with
  | error err => simp
  | ok text =>
    simp only [bind_assoc, pure_bind, Except.ok.injEq, forall_eq']
    rw [Panicking.isSome_bind, parseTime_isSome]
    constructor
    · rintro ⟨hrange, h⟩ width hwidth
      refine ⟨hrange width hwidth, fun hreads => ?_⟩
      obtain ⟨secs, hsecs⟩ := parseTime_returns.2 ⟨width, hwidth, hrange width hwidth, hreads⟩
      exact (hf secs (parseTime_lt hsecs)).1 (h secs hsecs)
    · intro h
      refine ⟨fun width hwidth => (h width hwidth).1, fun secs hsecs => (hf secs (parseTime_lt hsecs)).2 ?_⟩
      obtain ⟨width, hwidth, -, hreads⟩ := parseTime_returns.1 ⟨secs, hsecs⟩
      exact (h width hwidth).2 hreads

theorem readTime_bind_isSome {f : ℕ × DerCursor → Panicking α}
    (hf : ∀ secs q, secs < 2 ^ 63 → ((f (secs, q)).run.isSome ↔ R q)) :
    (c.readTime >>= f).run.isSome ↔ c.Then isTime fun e => IfTime e (R e.after) := by
  rw [readTime, bind_assoc]
  refine (isSome_of_tag isTime (fun tag r => timeOf tag r >>= f) (fun tag q h => ?_) fun tag q h => ?_).trans
    (and_congr_right fun _ => forall₂_congr fun e _ => timeOf_bind_isSome fun secs hsecs => hf secs e.after hsecs)
  · have htag : tag ≠ 0x17 ∧ tag ≠ 0x18 := by simpa [isTime] using h
    dsimp only
    rw [if_pos htag]
    rfl
  · have htag : ¬ (tag ≠ 0x17 ∧ tag ≠ 0x18) := by
      rintro ⟨h₁, h₂⟩
      simp [isTime, h₁, h₂] at h
    dsimp only
    rw [if_neg htag, bind_assoc]

/-! ## The response -/

/-- The fields of the TSTInfo after the imprint. -/
def TstInfoInRange (tst : DerCursor) : Prop :=
  tst.Then (onlyTag 0x02) fun serial => Then serial.after isTime fun time =>
    IfTime time (IfAccuracy time.after fun q => q.IfInteger fun _ => True)

/-- The imprint at `tst`, and what comes after it if it is the digest expected. -/
def ImprintInRange (expectedDigest : List UInt8) (tst : DerCursor) : Prop :=
  tst.Then (onlyTag 0x30) fun imprint => Then imprint.content.start anyTag fun algorithm =>
    Then algorithm.after (onlyTag 0x04) fun hashedMessage =>
      hashedMessage.content.bytes = expectedDigest → TstInfoInRange imprint.after

/-- What follows a status: a token if it is granted, a text if it is rejected. -/
def StatusInRange (expectedDigest : List UInt8) (info status : Element) : Prop :=
  if granted status.content.bytes then
    Then info.after anyTag fun token => InRange contentInfoPath token.content.start ∧
      ∀ tst, place? contentInfoPath token.content.start = some tst → ImprintInRange expectedDigest tst
  else status.content.bytes.head? = some 2 → Fits status.after anyTag

/-- No element that the walk comes to ends beyond what a `usize` can count, and a time that it comes to is in range. -/
def ResponseInRange (expectedDigest : List UInt8) (response : Slice) : Prop :=
  Then response.start (onlyTag 0x30) fun resp => Then resp.content.start (onlyTag 0x30) fun info =>
    Then info.content.start (onlyTag 0x02) fun status => StatusInRange expectedDigest info status

theorem readTstInfo_isSome : (readTstInfo c).run.isSome ↔ TstInfoInRange c := by
  refine (readInteger_reads c).bind_isSome.trans (then_congr fun serial _ => ?_)
  refine readTime_bind_isSome (R := fun q => IfAccuracy q fun q => q.IfInteger fun _ => True) fun secs q hsecs => ?_
  refine readAccuracy_bind_isSome fun m q => readIntegerIf_bind_isSome fun v q => ?_
  rw [sinceEpoch, if_pos hsecs]
  exact iff_of_true rfl trivial

theorem checkImprint_bind_isSome {expectedDigest : List UInt8} {f : DerCursor → Panicking α}
    (hf : ∀ q, (f q).run.isSome ↔ TstInfoInRange q) :
    (checkImprint c expectedDigest >>= f).run.isSome ↔ ImprintInRange expectedDigest c := by
  rw [checkImprint, bind_assoc]
  refine readSequenceContent_bind_isSome.trans (then_congr fun imprint _ => ?_)
  dsimp only
  rw [bind_assoc]
  refine (readTlvValue_reads _).bind_isSome.trans (then_congr fun algorithm _ => ?_)
  dsimp only
  rw [bind_assoc]
  refine (readOctetString_reads _).bind_isSome.trans (then_congr fun hashedMessage _ => ?_)
  dsimp only
  by_cases hdigest : hashedMessage.content.bytes = expectedDigest
  · rw [if_neg (not_not.2 hdigest), pure_bind, hf]
    exact ⟨fun h _ => h, fun h => h hdigest⟩
  · rw [if_pos hdigest]
    exact iff_of_true rfl fun h => absurd h hdigest

theorem header?_ne_some (h : c.remaining = 0) (r : UInt8 × List UInt8 × DerCursor) : c.header? ≠ some r := by
  intro hheader
  obtain ⟨q', hnext, -⟩ := header?_eq_some.1 hheader
  obtain ⟨hrest, -⟩ := Place.next?_eq_some hnext
  rw [remaining, hrest, List.length_cons] at h
  omega

/-- Where nothing is left there is no element. -/
theorem then_of_remaining (h : c.remaining = 0) (Q : Element → Prop) : c.Then tags Q := by
  constructor
  · intro tag octets q hheader
    exact absurd hheader (header?_ne_some h _)
  · intro e he
    obtain ⟨octets, q, hheader, -⟩ := Place.element?_eq_some.1 he
    exact absurd hheader (header?_ne_some h _)

theorem statusMessage_isSome : (statusMessage c).run.isSome ↔ c.Fits anyTag := by
  rw [statusMessage]
  split
  · rw [ExceptT.run_mk, Option.isSome_map, readTlvValue_isSome]
  · rename_i hremaining
    exact iff_of_true rfl (then_of_remaining (by omega) fun _ => True).1

theorem checkStatus_bind_isSome {status : List UInt8} {f : Unit → Panicking α} :
    (checkStatus status c >>= f).run.isSome ↔
      if granted status then (f ()).run.isSome = true else status.head? = some 2 → c.Fits anyTag := by
  have hhead : status.head? = some 2 ↔ status.headD 0 = 2 := by cases status <;> simp
  by_cases hg : granted status
  · rw [checkStatus, if_pos hg, if_pos hg, pure_bind]
  · rw [checkStatus, if_neg hg, if_neg hg, hhead]
    by_cases htwo : status.headD 0 = 2
    · rw [if_pos htwo, bind_assoc, Panicking.isSome_bind, statusMessage_isSome]
      exact ⟨fun h _ => h.1, fun h => ⟨h htwo, fun _ _ => rfl⟩⟩
    · rw [if_neg htwo]
      exact iff_of_true rfl fun h => absurd h htwo

/-- The slice kept as the token ends before the response does. -/
theorem sliceOf_of_element {response : Slice} {resp info token : Element}
    (hresp : Place.element? lengthOf response.start tags = some resp) {tags' tags'' : UInt8 → Bool}
    (hinfo : Place.element? lengthOf resp.content.start tags' = some info)
    (htoken : Place.element? lengthOf info.after tags'' = some token) :
    ∃ raw, sliceOf response info.after.pos token.after.pos = pure raw := by
  obtain ⟨-, -, hcontent⟩ := Place.element?_bounds hresp
  obtain ⟨hinfoStop, -, -⟩ := Place.element?_bounds hinfo
  obtain ⟨htokenStop, hle, -⟩ := Place.element?_bounds htoken
  have hstop : token.after.pos ≤ response.bytes.length := by
    have hafter : token.after.pos ≤ token.after.stop := Nat.le_add_right _ _
    have hstart : ∀ s : Slice, s.start.stop = s.bytes.length := fun s => Nat.zero_add _
    rw [htokenStop, hinfoStop, hstart] at hafter
    rw [hstart] at hcontent
    omega
  have hrange : info.after.pos ≤ token.after.pos ∧ token.after.pos ≤ response.bytes.length := ⟨hle, hstop⟩
  rw [sliceOf, Slice.range?, if_pos hrange]
  exact ⟨_, rfl⟩

theorem parseTimestampResponse_isSome {response : Slice} {expectedDigest expectedNonce : List UInt8} :
    (parseTimestampResponse response expectedDigest expectedNonce).run.isSome ↔
      ResponseInRange expectedDigest response := by
  rw [parseTimestampResponse]
  refine readSequenceContent_bind_isSome.trans (then_congr fun resp hresp => ?_)
  refine readSequenceContent_bind_isSome.trans (then_congr fun info hinfo => ?_)
  refine (readInteger_reads _).bind_isSome.trans (then_congr fun status hstatus => ?_)
  refine checkStatus_bind_isSome.trans ?_
  rw [StatusInRange]
  split
  swap
  · exact Iff.rfl
  dsimp only
  by_cases hremaining : remaining info.after = 0
  · rw [if_pos hremaining]
    exact iff_of_true rfl (then_of_remaining hremaining _)
  · rw [if_neg hremaining]
    refine (readTlvValue_reads _).bind_isSome.trans (then_congr fun token htoken => ?_)
    dsimp only
    obtain ⟨raw, hraw⟩ := sliceOf_of_element hresp hinfo htoken
    rw [hraw, pure_bind]
    refine (readContentInfo_goes _).bind_isSome fun r => ?_
    refine checkImprint_bind_isSome fun tst => ?_
    rw [Panicking.isSome_bind, readTstInfo_isSome]
    exact and_iff_left fun _ _ => rfl

end

/-- The two parsers return, with a result or an error. -/
def Total (response token : Slice) (expectedDigest expectedNonce : List UInt8) : Prop :=
  (parseTimestampResponse response expectedDigest expectedNonce).run.isSome ∧
    (verifyDigestInToken token expectedDigest).run.isSome

theorem total_iff {response token : Slice} {expectedDigest expectedNonce : List UInt8} :
    Total response token expectedDigest expectedNonce ↔
      ResponseInRange expectedDigest response ∧ InRange (tokenPath ++ [.past (onlyTag 0x04)]) token.start :=
  and_congr parseTimestampResponse_isSome verifyDigestInToken_isSome

/-- A response whose time is in the month 00. -/
def monthZero : Slice where
  bytes := [
    0x30, 0x59, 0x30, 0x03, 0x02, 0x01, 0x00, 0x30, 0x52, 0x06, 0x09, 0x2A, 0x86, 0x48, 0x86, 0xF7, 0x0D, 0x01, 0x07,
    0x02, 0xA0, 0x45, 0x30, 0x43, 0x02, 0x01, 0x03, 0x31, 0x00, 0x30, 0x3A, 0x06, 0x0B, 0x2A, 0x86, 0x48, 0x86, 0xF7,
    0x0D, 0x01, 0x09, 0x10, 0x01, 0x04, 0xA0, 0x2B, 0x04, 0x29, 0x30, 0x27, 0x02, 0x01, 0x01, 0x06, 0x02, 0x2A, 0x03,
    0x30, 0x0A, 0x30, 0x04, 0x06, 0x02, 0x2A, 0x04, 0x04, 0x02, 0xAA, 0xBB, 0x02, 0x01, 0x05, 0x18, 0x0F, 0x32, 0x30,
    0x32, 0x34, 0x30, 0x30, 0x32, 0x39, 0x31, 0x32, 0x33, 0x34, 0x35, 0x36, 0x5A, 0x31, 0x00]
  short := by decide

theorem not_total_monthZero : ¬ Total monthZero sampleToken [0xAA, 0xBB] [] := by
  rintro ⟨h, -⟩
  have hpanic : (parseTimestampResponse monthZero [0xAA, 0xBB] []).run = none := by decide +kernel
  rw [hpanic] at h
  cases h

end GmKms.Audit
