import GmKms.Audit.DerWalk
/-!
# The digest in a token

`verify_digest_in_token` looks for the hashedMessage and says whether it is the digest. `verify_timestamp` asks it and
does not look at the answer.
-/

namespace GmKms.Audit

open Lib Lib.Der

/-- From a token to the hashedMessage in its TSTInfo. -/
def tokenPath : List Step := .into (onlyTag 0x30) :: (contentInfoPath ++ toHashedMessage)

/-- The hashedMessage in the TSTInfo of a token, each length the number its octets are. -/
def hashedMessage? (token : Slice) : Option (List UInt8) :=
  (follow ofBytes tokenPath token.start).bind fun q => (q.element? ofBytes (onlyTag 0x04)).map (·.content.bytes)

/-- The next element has a tag, and that is not the one of `[0]`. -/
def NotExplicit (c : DerCursor) : Prop := ∃ tag q, c.next? = some (tag, q) ∧ tag ≠ 0xA0

/-- `R` holds in the `[0]` at `c`, or there is something else and the answer is `false`. -/
def InExplicit (b : Bool) (R : DerCursor → Prop) (c : DerCursor) : Prop :=
  (∃ q, place? [explicit] c = some q ∧ R q) ∨ b = false ∧ NotExplicit c

section

variable {path : List Step} {c : DerCursor} {F : UInt8 × DerCursor → Panicking Bool}
  {G : Slice × DerCursor → Panicking Bool}

theorem isSome_of_explicit (hwrong : ∀ tag q, tag ≠ 0xA0 → F (tag, q) = pure false)
    (hright : ∀ q, F (0xA0, q) = q.readValue >>= G) (hG : ∀ r, (G r).run.isSome ↔ InRange path r.1.start) :
    (c.readTag >>= F).run.isSome ↔ InRange (explicit :: path) c := by
  refine (DerCursor.isSome_of_tag (onlyTag 0xA0) (fun _ => G) (fun tag q h => ?_) fun tag q h => ?_).trans ?_
  · rw [hwrong tag q (of_decide_eq_false h)]
    rfl
  · rw [of_decide_eq_true h]
    exact hright q
  · refine and_congr_right fun _ => ?_
    constructor
    · intro h q hq
      obtain ⟨e, he, rfl⟩ := Option.map_eq_some_iff.1 hq
      exact (hG _).1 (h e he)
    · intro h e he
      exact (hG _).2 (h _ (Option.map_eq_some_iff.2 ⟨e, he, rfl⟩))

theorem eq_ok_of_explicit {b : Bool} {R : DerCursor → Prop} (hwrong : ∀ tag q, tag ≠ 0xA0 → F (tag, q) = pure false)
    (hright : ∀ q, F (0xA0, q) = q.readValue >>= G) (hG : ∀ r, (G r).run = some (.ok b) ↔ R r.1.start) :
    (c.readTag >>= F).run = some (.ok b) ↔ ∃ q, place? [] c = some q ∧ InExplicit b R q := by
  refine Iff.trans ?_ (show InExplicit b R c ↔ _ by simp [follow])
  rw [Panicking.bind_eq_ok]
  constructor
  · rintro ⟨⟨tag, q⟩, hr, h⟩
    by_cases htag : tag = 0xA0
    · subst htag
      rw [hright] at h
      obtain ⟨r, hvalue, hb⟩ := Panicking.bind_eq_ok.1 h
      obtain ⟨octets, q', hoctets, htake⟩ := DerCursor.readValue_eq_ok.1 hvalue
      have hheader := DerCursor.header?_eq_some.2 ⟨q, DerCursor.readTag_eq_ok.1 hr, hoctets⟩
      have he : c.element? (onlyTag 0xA0) = some ⟨0xA0, r.1, r.2⟩ :=
        Place.element?_eq_some.2 ⟨octets, q', hheader, rfl, htake⟩
      exact .inl ⟨_, place?_single.trans (Option.map_eq_some_iff.2 ⟨_, he, rfl⟩), (hG r).1 hb⟩
    · rw [hwrong tag q htag, Panicking.pure_eq_ok] at h
      exact .inr ⟨h.symm, tag, q, DerCursor.readTag_eq_ok.1 hr, htag⟩
  · rintro (⟨q, hq, hR⟩ | ⟨rfl, tag, q, hnext, htag⟩)
    · obtain ⟨e, he, rfl⟩ := Option.map_eq_some_iff.1 (place?_single.symm.trans hq)
      obtain ⟨octets, q, hheader, htag, htake⟩ := Place.element?_eq_some.1 he
      obtain ⟨q', hnext, hoctets⟩ := DerCursor.header?_eq_some.1 hheader
      refine ⟨_, DerCursor.readTag_eq_ok.2 hnext, ?_⟩
      rw [of_decide_eq_true htag, hright]
      exact Panicking.bind_eq_ok.2 ⟨_, DerCursor.readValue_eq_ok.2 ⟨octets, q, hoctets, htake⟩, (hG _).2 hR⟩
    · exact ⟨_, DerCursor.readTag_eq_ok.2 hnext, by rw [hwrong tag q htag]; rfl⟩

end

variable {token : Slice} {digest : List UInt8} {b : Bool}

/-- It panics where an element that it comes to does not fit. -/
theorem verifyDigestInToken_isSome : (verifyDigestInToken token digest).run.isSome ↔
    InRange (tokenPath ++ [.past (onlyTag 0x04)]) token.start := by
  refine (DerCursor.readSequenceContent_into _).isSome_cons fun r => ?_
  refine (DerCursor.readOid_past _).isSome_cons fun r => ?_
  refine isSome_of_explicit (fun _ _ h => if_pos h) (fun _ => if_neg (not_not.2 rfl)) fun r => ?_
  refine (DerCursor.readSequenceContent_into _).isSome_cons fun r => ?_
  refine (DerCursor.readTlvValue_reads _).past.isSome_cons fun r => ?_
  refine (DerCursor.skipSet_past _).isSome_cons fun r => ?_
  refine (DerCursor.readSequenceContent_into _).isSome_cons fun r => ?_
  refine (DerCursor.readOid_past _).isSome_cons fun r => ?_
  refine isSome_of_explicit (fun _ _ h => if_pos h) (fun _ => if_neg (not_not.2 rfl)) fun r => ?_
  refine (DerCursor.readOctetString_reads _).into.isSome_cons fun r => ?_
  refine (DerCursor.readSequenceContent_into _).isSome_cons fun r => ?_
  refine (DerCursor.readInteger_reads _).past.isSome_cons fun r => ?_
  refine (DerCursor.readOid_past _).isSome_cons fun r => ?_
  refine (DerCursor.readSequenceContent_into _).isSome_cons fun r => ?_
  refine (DerCursor.readTlvValue_reads _).past.isSome_cons fun r => ?_
  refine (DerCursor.readOctetString_reads _).past.isSome_cons fun r => ?_
  exact iff_of_true rfl trivial

/-- From a token to the place of the `[0]` in its ContentInfo. -/
def firstExplicit : List Step := .into (onlyTag 0x30) :: toSignedData

/-- From a token to the place of the `[0]` in its encapContentInfo. -/
def secondExplicit : List Step := firstExplicit ++ explicit :: toEContent

/-- The hashedMessage is at `c`, and `b` says whether it is the digest. -/
def Compares (digest : List UInt8) (b : Bool) (c : DerCursor) : Prop :=
  ∃ e, c.element? (onlyTag 0x04) = some e ∧ decide (e.content.bytes = digest) = b

theorem compare_eq_ok {c : DerCursor} :
    (c.readOctetString >>= fun r => pure (decide (r.1.bytes = digest))).run = some (.ok b) ↔
      ∃ q, place? [] c = some q ∧ Compares digest b q := by
  rw [Panicking.bind_eq_ok]
  constructor
  · rintro ⟨r, hr, hb⟩
    obtain ⟨e, he, rfl⟩ := DerCursor.readExpected_eq_ok.1 hr
    exact ⟨c, rfl, e, he, Panicking.pure_eq_ok.1 hb⟩
  · rintro ⟨q, hq, e, he, hb⟩
    cases hq
    exact ⟨_, DerCursor.readExpected_eq_ok.2 ⟨e, he, rfl⟩, Panicking.pure_eq_ok.2 hb⟩

/-- The walk down a token, with its two exits. -/
theorem verifyDigestInToken_walk : (verifyDigestInToken token digest).run = some (.ok b) ↔
    ∃ q, place? firstExplicit token.start = some q ∧ InExplicit b (fun q => ∃ q', place? toEContent q = some q' ∧
      InExplicit b (fun q => ∃ q', place? (toImprint ++ toHashedMessage) q = some q' ∧ Compares digest b q') q') q := by
  refine (DerCursor.readSequenceContent_into _).bind_eq_ok fun r => ?_
  refine (DerCursor.readOid_past _).bind_eq_ok fun r => ?_
  refine eq_ok_of_explicit (fun _ _ h => if_pos h) (fun _ => if_neg (not_not.2 rfl)) fun r => ?_
  refine (DerCursor.readSequenceContent_into _).bind_eq_ok fun r => ?_
  refine (DerCursor.readTlvValue_reads _).past.bind_eq_ok fun r => ?_
  refine (DerCursor.skipSet_past _).bind_eq_ok fun r => ?_
  refine (DerCursor.readSequenceContent_into _).bind_eq_ok fun r => ?_
  refine (DerCursor.readOid_past _).bind_eq_ok fun r => ?_
  refine eq_ok_of_explicit (fun _ _ h => if_pos h) (fun _ => if_neg (not_not.2 rfl)) fun r => ?_
  refine (DerCursor.readOctetString_reads _).into.bind_eq_ok fun r => ?_
  refine (DerCursor.readSequenceContent_into _).bind_eq_ok fun r => ?_
  refine (DerCursor.readInteger_reads _).past.bind_eq_ok fun r => ?_
  refine (DerCursor.readOid_past _).bind_eq_ok fun r => ?_
  refine (DerCursor.readSequenceContent_into _).bind_eq_ok fun r => ?_
  refine (DerCursor.readTlvValue_reads _).past.bind_eq_ok fun r => ?_
  exact compare_eq_ok

/-- The two ways to return: by the hashedMessage, or with `false` where something else is in the place of a `[0]`. -/
theorem verifyDigestInToken_eq_ok : (verifyDigestInToken token digest).run = some (.ok b) ↔
    (∃ q, place? tokenPath token.start = some q ∧ Compares digest b q) ∨
    b = false ∧ ∃ path ∈ [firstExplicit, secondExplicit], ∃ q, place? path token.start = some q ∧ NotExplicit q := by
  have hpath : tokenPath = firstExplicit ++
      ([explicit] ++ (toEContent ++ ([explicit] ++ (toImprint ++ toHashedMessage)))) :=
    rfl
  have hsecond : secondExplicit = firstExplicit ++ ([explicit] ++ toEContent) := rfl
  rw [verifyDigestInToken_walk, hpath]
  simp only [List.mem_cons, List.not_mem_nil, or_false, exists_eq_or_imp, exists_eq_left, hsecond, exists_place?_append]
  constructor
  · rintro ⟨q, hq, ⟨q₁, hq₁, q₂, hq₂, ⟨q₃, hq₃, h⟩ | ⟨rfl, h⟩⟩ | ⟨rfl, h⟩⟩
    · exact .inl ⟨q, hq, q₁, hq₁, q₂, hq₂, q₃, hq₃, h⟩
    · exact .inr ⟨rfl, .inr ⟨q, hq, q₁, hq₁, q₂, hq₂, h⟩⟩
    · exact .inr ⟨rfl, .inl ⟨q, hq, h⟩⟩
  · rintro (⟨q, hq, q₁, hq₁, q₂, hq₂, q₃, hq₃, h⟩ | ⟨rfl, ⟨q, hq, h⟩ | ⟨q, hq, q₁, hq₁, q₂, hq₂, h⟩⟩)
    · exact ⟨q, hq, .inl ⟨q₁, hq₁, q₂, hq₂, .inl ⟨q₃, hq₃, h⟩⟩⟩
    · exact ⟨q, hq, .inr ⟨rfl, h⟩⟩
    · exact ⟨q, hq, .inl ⟨q₁, hq₁, q₂, hq₂, .inr ⟨rfl, h⟩⟩⟩

/-- A digest that is in the token is found. -/
theorem verifyDigestInToken_of_hashedMessage? (h : hashedMessage? token = some digest) :
    (verifyDigestInToken token digest).run = some (.ok true) := by
  obtain ⟨q, hq, h⟩ := Option.bind_eq_some_iff.1 h
  obtain ⟨e, he, hbytes⟩ := Option.map_eq_some_iff.1 h
  have hshort : ∀ octets, ofBytes octets < 2 ^ 63 → lengthOf octets = ofBytes octets := fun _ =>
    DerCursor.lengthOf_of_lt
  exact verifyDigestInToken_eq_ok.2
    (.inl ⟨q, follow_of_agree hshort hq, e, Place.element?_of_agree hshort he, decide_eq_true hbytes⟩)

/-- The walk down the token does not break off. -/
def Answers (token : Slice) : Prop :=
  (∃ q, place? tokenPath token.start = some q ∧ ∃ e, q.element? (onlyTag 0x04) = some e) ∨
  ∃ path ∈ [firstExplicit, secondExplicit], ∃ q, place? path token.start = some q ∧ NotExplicit q

theorem verifyDigestInToken_returns_iff : (∃ b, (verifyDigestInToken token digest).run = some (.ok b)) ↔
    Answers token := by
  constructor
  · rintro ⟨b, hb⟩
    rcases verifyDigestInToken_eq_ok.1 hb with ⟨q, hq, e, he, -⟩ | ⟨-, h⟩
    · exact .inl ⟨q, hq, e, he⟩
    · exact .inr h
  · rintro (⟨q, hq, e, he⟩ | h)
    · exact ⟨_, verifyDigestInToken_eq_ok.2 (.inl ⟨q, hq, e, he, rfl⟩)⟩
    · exact ⟨false, verifyDigestInToken_eq_ok.2 (.inr ⟨rfl, h⟩)⟩

/-- A token for the digest `AA BB`. -/
def sampleToken : Slice where
  bytes := [
    0x30, 0x52, 0x06, 0x09, 0x2A, 0x86, 0x48, 0x86, 0xF7, 0x0D, 0x01, 0x07, 0x02, 0xA0, 0x45, 0x30, 0x43, 0x02, 0x01,
    0x03, 0x31, 0x00, 0x30, 0x3A, 0x06, 0x0B, 0x2A, 0x86, 0x48, 0x86, 0xF7, 0x0D, 0x01, 0x09, 0x10, 0x01, 0x04, 0xA0,
    0x2B, 0x04, 0x29, 0x30, 0x27, 0x02, 0x01, 0x01, 0x06, 0x02, 0x2A, 0x03, 0x30, 0x0A, 0x30, 0x04, 0x06, 0x02, 0x2A,
    0x04, 0x04, 0x02, 0xAA, 0xBB, 0x02, 0x01, 0x05, 0x18, 0x0F, 0x32, 0x30, 0x32, 0x34, 0x30, 0x32, 0x32, 0x39, 0x31,
    0x32, 0x33, 0x34, 0x35, 0x36, 0x5A, 0x31, 0x00]
  short := by decide

namespace TimestampConfig

variable (config : TimestampConfig) (now : SystemTime) (response : TimestampResponse)

/-- The time of the response is within the skew of the clock, both in whole seconds and not before 1970. -/
def Near : Prop := (asSecs response.timestamp - asSecs now).natAbs ≤ config.maxTimeSkewSecs.toNat

/-- The time of the response is within the skew of the clock. -/
def Within : Prop := (response.timestamp - now).natAbs ≤ config.maxTimeSkewSecs.toNat * 1000000000

variable {config now response}

/-- The digest plays no part. -/
theorem verifyTimestamp_eq_true :
    (config.verifyTimestamp now digest response).run = some (.ok true) ↔ Answers response.token ∧
      config.Near now response := by
  rw [verifyTimestamp, Panicking.bind_eq_ok, ← @verifyDigestInToken_returns_iff _ digest, Near]
  constructor
  · rintro ⟨b, hb, h⟩
    split at h
    · cases Panicking.pure_eq_ok.1 h
    · exact ⟨⟨b, hb⟩, by omega⟩
  · rintro ⟨⟨b, hb⟩, hnear⟩
    exact ⟨b, hb, by rw [if_neg (by omega)]; rfl⟩

variable (config now response) in
/-- What is accepted has the digest in its token and a time near the clock. -/
def Binds (digest : List UInt8) : Prop :=
  (config.verifyTimestamp now digest response).run = some (.ok true) →
    hashedMessage? response.token = some digest ∧ config.Within now response

/-- What is accepted for another digest is bound to nothing. -/
theorem binds_iff : config.Binds now response digest ↔ ¬ config.Near now response ∨ ¬ Answers response.token ∨
    hashedMessage? response.token = some digest ∧ config.Within now response := by
  rw [Binds, verifyTimestamp_eq_true]
  tauto

theorem not_binds_otherDigest : ¬ (TimestampConfig.mk 300).Binds 1709210096000000000
    ⟨sampleToken, [0x05], 1000, 1709210096000000000, "1.2.3"⟩ [0xCC, 0xDD] := by
  intro h
  have hbound := h (by decide +kernel)
  have hfound : hashedMessage? sampleToken = some [0xAA, 0xBB] := by decide +kernel
  exact absurd (hfound.symm.trans hbound.1) (by decide)

end TimestampConfig

end GmKms.Audit
