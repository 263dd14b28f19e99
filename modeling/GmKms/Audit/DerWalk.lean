import GmKms.Audit.Timestamp
/-!
# Where the readers go

A reader goes along a path through the elements: it panics exactly where an element come to does not fit, and returns
exactly where the path leads somewhere.
-/

namespace GmKms.Audit

open Lib Lib.Der

/-- Every element come to on the path ends where a `usize` can count. -/
abbrev InRange (path : List Step) (c : DerCursor) : Prop := Along lengthOf (2 ^ 64) path c

/-- Where the path leads, lengths read as `read_length` does. -/
abbrev place? (path : List Step) (c : DerCursor) : Option DerCursor := follow lengthOf path c

/-- `place` of what `x` returns is where the path leads. -/
structure Goes {α : Type} (path : List Step) (c : DerCursor) (x : Panicking α) (place : α → DerCursor) : Prop where
  isSome : x.run.isSome ↔ InRange path c
  ok : ∀ q, (∃ a, x.run = some (.ok a) ∧ place a = q) ↔ place? path c = some q

/-- A reader of one element. -/
structure Reads (tags : UInt8 → Bool) (c : DerCursor) (x : Panicking (Slice × DerCursor)) : Prop where
  isSome : x.run.isSome ↔ c.Fits tags
  ok : ∀ r, x.run = some (.ok r) ↔ ∃ e, c.element? tags = some e ∧ (e.content, e.after) = r

section

variable {α β : Type} {path path' : List Step} {c : DerCursor} {x : Panicking α} {f : α → Panicking β}
  {place : α → DerCursor} {place' : β → DerCursor} {tags : UInt8 → Bool} {s : Step}

theorem inRange_single : InRange [s] c ↔ c.Fits s.tags := and_iff_left fun _ _ => trivial

theorem place?_single : place? [s] c = s.go? lengthOf c := by
  change (s.go? lengthOf c).bind some = s.go? lengthOf c
  cases s.go? lengthOf c <;> rfl

/-- What is found where a longer path leads. -/
theorem exists_place?_append {R : DerCursor → Prop} : (∃ q, place? (path ++ path') c = some q ∧ R q) ↔
    ∃ q', place? path c = some q' ∧ ∃ q, place? path' q' = some q ∧ R q := by
  rw [place?, follow_append]
  constructor
  · rintro ⟨q, hq, hR⟩
    obtain ⟨q', hq', hq⟩ := Option.bind_eq_some_iff.1 hq
    exact ⟨q', hq', q, hq, hR⟩
  · rintro ⟨q', hq', q, hq, hR⟩
    exact ⟨q, Option.bind_eq_some_iff.2 ⟨q', hq', hq⟩, hR⟩

theorem Goes.pure {a : α} (h : place a = c) : Goes [] c (pure a) place where
  isSome := iff_of_true rfl trivial
  ok q := by
    simp only [Panicking.pure_eq_ok]
    constructor
    · rintro ⟨_, rfl, rfl⟩
      rw [h]
      rfl
    · intro hq
      cases hq
      exact ⟨a, rfl, h⟩

theorem Goes.bind (hx : Goes path c x place) (hf : ∀ a, Goes path' (place a) (f a) place') :
    Goes (path ++ path') c (x >>= f) place' where
  isSome := by
    rw [Panicking.isSome_bind, hx.isSome]
    refine Iff.trans (and_congr_right fun _ => ?_) along_append.symm
    constructor
    · intro h q hq
      obtain ⟨a, ha, rfl⟩ := (hx.ok q).2 hq
      exact (hf a).isSome.1 (h a ha)
    · intro h a ha
      exact (hf a).isSome.2 (h _ ((hx.ok _).1 ⟨a, ha, rfl⟩))
  ok q := by
    rw [place?, follow_append, Option.bind_eq_some_iff]
    constructor
    · rintro ⟨b, hb, rfl⟩
      obtain ⟨a, ha, hb⟩ := Panicking.bind_eq_ok.1 hb
      exact ⟨_, (hx.ok _).1 ⟨a, ha, rfl⟩, ((hf a).ok _).1 ⟨b, hb, rfl⟩⟩
    · rintro ⟨q', hq', hq⟩
      obtain ⟨a, ha, rfl⟩ := (hx.ok q').2 hq'
      obtain ⟨b, hb, rfl⟩ := ((hf a).ok q).2 hq
      exact ⟨b, Panicking.bind_eq_ok.2 ⟨a, ha, hb⟩, rfl⟩

theorem Goes.cons (hx : Goes [s] c x place) (hf : ∀ a, Goes path' (place a) (f a) place') :
    Goes (s :: path') c (x >>= f) place' := hx.bind hf

/-- What follows is only asked for panics. -/
theorem Goes.bind_isSome {R : DerCursor → Prop} (hx : Goes path c x place) (hf : ∀ a, (f a).run.isSome ↔ R (place a)) :
    (x >>= f).run.isSome ↔ InRange path c ∧ ∀ q, place? path c = some q → R q := by
  rw [Panicking.isSome_bind, hx.isSome]
  refine and_congr_right fun _ => ?_
  constructor
  · intro h q hq
    obtain ⟨a, ha, rfl⟩ := (hx.ok q).2 hq
    exact (hf a).1 (h a ha)
  · intro h a ha
    exact (hf a).2 (h _ ((hx.ok _).1 ⟨a, ha, rfl⟩))

theorem Goes.isSome_cons (hx : Goes [s] c x place) (hf : ∀ a, (f a).run.isSome ↔ InRange path (place a)) :
    (x >>= f).run.isSome ↔ InRange (s :: path) c := by
  refine (hx.bind_isSome hf).trans ?_
  rw [inRange_single, place?_single]
  exact Iff.rfl

/-- What follows returns by what is found where its path leads. -/
theorem Goes.bind_eq_ok {b : β} {Q : DerCursor → Prop} (hx : Goes [s] c x place)
    (hf : ∀ a, (f a).run = some (.ok b) ↔ ∃ q, place? path (place a) = some q ∧ Q q) :
    (x >>= f).run = some (.ok b) ↔ ∃ q, place? (s :: path) c = some q ∧ Q q := by
  rw [Panicking.bind_eq_ok]
  constructor
  · rintro ⟨a, ha, hb⟩
    obtain ⟨q, hq, hQ⟩ := (hf a).1 hb
    have ha' := place?_single.symm.trans ((hx.ok _).1 ⟨a, ha, rfl⟩)
    exact ⟨q, Option.bind_eq_some_iff.2 ⟨_, ha', hq⟩, hQ⟩
  · rintro ⟨q, hq, hQ⟩
    obtain ⟨q', hq', hq⟩ := Option.bind_eq_some_iff.1 hq
    obtain ⟨a, ha, rfl⟩ := (hx.ok q').2 (place?_single.trans hq')
    exact ⟨a, ha, (hf a).2 ⟨q, hq, hQ⟩⟩

theorem Reads.goes {x : Panicking (Slice × DerCursor)} {place : Slice × DerCursor → DerCursor}
    (hx : Reads s.tags c x) (hplace : ∀ e, place (e.content, e.after) = s.target e) : Goes [s] c x place where
  isSome := hx.isSome.trans inRange_single.symm
  ok q := by
    rw [place?_single, Step.go?, Option.map_eq_some_iff]
    constructor
    · rintro ⟨r, hr, rfl⟩
      obtain ⟨e, he, rfl⟩ := (hx.ok r).1 hr
      exact ⟨e, he, (hplace e).symm⟩
    · rintro ⟨e, he, rfl⟩
      exact ⟨_, (hx.ok _).2 ⟨e, he, rfl⟩, hplace e⟩

theorem Reads.past {x : Panicking (Slice × DerCursor)} (hx : Reads tags c x) : Goes [.past tags] c x (·.2) :=
  hx.goes (s := .past tags) fun _ => rfl

theorem Reads.into {x : Panicking (Slice × DerCursor)} (hx : Reads tags c x) : Goes [.into tags] c x (·.1.start) :=
  hx.goes (s := .into tags) fun _ => rfl

end

namespace DerCursor

variable (c : DerCursor)

theorem readTlvValue_reads : Reads anyTag c c.readTlvValue := ⟨readTlvValue_isSome, fun _ => readTlvValue_eq_ok⟩

theorem readExpected_reads (tag : UInt8) (what : String) : Reads (onlyTag tag) c (c.readExpected tag what) :=
  ⟨readExpected_isSome, fun _ => readExpected_eq_ok⟩

theorem readSequenceContent_into : Goes [.into (onlyTag 0x30)] c c.readSequenceContent (·.1) :=
  (readExpected_reads c 0x30 "SEQUENCE (0x30)").into.cons fun _ => .pure rfl

theorem readOid_past : Goes [.past (onlyTag 0x06)] c c.readOid (·.2) :=
  (readExpected_reads c 0x06 "OID (0x06)").past.cons fun _ => .pure rfl

theorem skipSet_past : Goes [.past (onlyTag 0x31)] c c.skipSet id :=
  (readExpected_reads c 0x31 "SET (0x31)").past.cons fun _ => .pure rfl

theorem readInteger_reads : Reads (onlyTag 0x02) c c.readInteger := readExpected_reads c 0x02 "INTEGER (0x02)"

theorem readOctetString_reads : Reads (onlyTag 0x04) c c.readOctetString :=
  readExpected_reads c 0x04 "OCTET STRING (0x04)"

end DerCursor

/-! ## Down a token -/

/-- From the content of a ContentInfo past its type and into its `[0]`. -/
def toSignedData : List Step := [.past (onlyTag 0x06)]

/-- From the content of that `[0]` to the `[0]` of the encapContentInfo. -/
def toEContent : List Step :=
  [.into (onlyTag 0x30), .past anyTag, .past (onlyTag 0x31), .into (onlyTag 0x30), .past (onlyTag 0x06)]

/-- From the content of that one to the messageImprint of the TSTInfo. -/
def toImprint : List Step :=
  [.into (onlyTag 0x04), .into (onlyTag 0x30), .past (onlyTag 0x02), .past (onlyTag 0x06)]

/-- From the messageImprint to the hashedMessage. -/
def toHashedMessage : List Step := [.into (onlyTag 0x30), .past anyTag]

def explicit : Step := .into (onlyTag 0xA0)

/-- From the content of a ContentInfo to the messageImprint. -/
def contentInfoPath : List Step := toSignedData ++ explicit :: toEContent ++ explicit :: toImprint

theorem readContentInfo_goes (tokenTlv : Slice) :
    Goes contentInfoPath tokenTlv.start (readContentInfo tokenTlv) (·.2) := by
  refine (DerCursor.readOid_past _).cons fun r => ?_
  refine (DerCursor.readExpected_reads _ _ _).into.cons fun r => ?_
  refine (DerCursor.readSequenceContent_into _).cons fun r => ?_
  refine (DerCursor.readTlvValue_reads _).past.cons fun r => ?_
  refine (DerCursor.skipSet_past _).cons fun r => ?_
  refine (DerCursor.readSequenceContent_into _).cons fun r => ?_
  refine (DerCursor.readOid_past _).cons fun r => ?_
  refine (DerCursor.readExpected_reads _ _ _).into.cons fun r => ?_
  refine (DerCursor.readOctetString_reads _).into.cons fun r => ?_
  refine (DerCursor.readSequenceContent_into _).cons fun r => ?_
  refine (DerCursor.readInteger_reads _).past.cons fun r => ?_
  exact DerCursor.readOid_past _

end GmKms.Audit
