import GmKms.Audit.GenTime
import GmKms.Lib.Der
import GmKms.Lib.Utf8
/-!
# Reading DER

`DerCursor`. Where its arithmetic in `usize` overflows it panics. What each reader comes to is said by the element at
the cursor: it panics where that element does not fit, and returns where the element is all there.
-/

namespace GmKms.Audit

open Lib Lib.Der

/-- `usize` addition. -/
def addUsize (m n : ℕ) : Panicking ℕ := ExceptT.mk (if m + n < 2 ^ 64 then some (.ok (m + n)) else none)

@[simp] theorem addUsize_isSome {m n : ℕ} : (addUsize m n).run.isSome ↔ m + n < 2 ^ 64 := by
  rw [addUsize, ExceptT.run_mk]
  split <;> simp_all

theorem addUsize_of_lt {m n : ℕ} (h : m + n < 2 ^ 64) : addUsize m n = pure (m + n) := by
  rw [addUsize, if_pos h]
  rfl

/-! ## The cursor -/

/-- `pos` and the bytes from there on. -/
abbrev DerCursor := Place

/-- The octets shifted into a `usize`. -/
def lengthOf (octets : List UInt8) : ℕ := (octets.foldl (fun (len : UInt64) b => len <<< 8 ||| b.toUInt64) 0).toNat

namespace DerCursor

def new (bytes : Slice) : DerCursor := bytes.start

def remaining (c : DerCursor) : ℕ := c.rest.length

def unexpectedEnd (c : DerCursor) : TimestampError :=
  let pos := c.pos
  .internal s!"unexpected end of DER at position {pos}"

def peekTag (c : DerCursor) : Panicking UInt8 :=
  match c.rest with
  | [] => throw c.unexpectedEnd
  | tag :: _ => return tag

def readTag (c : DerCursor) : Panicking (UInt8 × DerCursor) :=
  match c.next? with
  | none => throw c.unexpectedEnd
  | some r => return r

def readLength (c : DerCursor) : Panicking (ℕ × DerCursor) :=
  match c.next? with
  | none => throw (.internal "unexpected end of DER reading length")
  | some (first, c) =>
    if first < 0x80 then return (first.toNat, c)
    else do
      let numOctets := (first &&& 0x7F).toNat
      let _ ← addUsize c.pos numOctets
      match c.take? numOctets with
      | none => throw (.internal "DER length extends past end of data")
      | some (octets, c) => return (lengthOf octets.bytes, c)

def readBytes (c : DerCursor) (count : ℕ) : Panicking (Slice × DerCursor) := do
  let _ ← addUsize c.pos count
  match c.take? count with
  | none =>
    let remaining := c.remaining
    throw (.internal s!"not enough bytes: need {count} have {remaining}")
  | some r => return r

/-- Length and value, once the tag is read. -/
def readValue (c : DerCursor) : Panicking (Slice × DerCursor) := do
  let (len, c) ← c.readLength
  c.readBytes len

def readTlvValue (c : DerCursor) : Panicking (Slice × DerCursor) := do
  let (_, c) ← c.readTag
  c.readValue

/-- The value under one tag. -/
def readExpected (tag : UInt8) (what : String) (c : DerCursor) : Panicking (Slice × DerCursor) := do
  let (got, c) ← c.readTag
  if got ≠ tag then
    let hex := hexEncode [got]
    throw (.internal s!"expected {what}, got 0x{hex}")
  c.readValue

def readSequenceContent (c : DerCursor) : Panicking (DerCursor × DerCursor) := do
  let (content, c) ← c.readExpected 0x30 "SEQUENCE (0x30)"
  return (new content, c)

def readInteger (c : DerCursor) : Panicking (Slice × DerCursor) := c.readExpected 0x02 "INTEGER (0x02)"

/-- The components after the first two. Those bits that do not fit 32 are shifted out. -/
def oidArcs : Option UInt32 → List UInt8 → List UInt32
  | none, [] => []
  | some val, [] => [val]
  | val, b :: bytes =>
    let val := val.getD 0 <<< 7 ||| (b &&& 0x7F).toUInt32
    if b &&& 0x80 = 0 then val :: oidArcs none bytes else oidArcs (some val) bytes

def oidBytesToString : List UInt8 → String
  | [] => ""
  | b :: bytes =>
    let first := b / 40
    let second := b % 40
    (oidArcs none bytes).foldl (fun result val => s!"{result}.{val}") s!"{first}.{second}"

def readOid (c : DerCursor) : Panicking (String × DerCursor) := do
  let (bytes, c) ← c.readExpected 0x06 "OID (0x06)"
  return (oidBytesToString bytes.bytes, c)

def readOctetString (c : DerCursor) : Panicking (Slice × DerCursor) := c.readExpected 0x04 "OCTET STRING (0x04)"

/-- `read_time` on a value read under `tag`. -/
def timeOf (tag : UInt8) (r : Slice × DerCursor) : Panicking (ℕ × DerCursor) :=
  match Utf8.decode r.1.bytes with
  | .error e =>
    let text := e.text
    throw (.internal s!"time is not valid UTF-8: {text}")
  | .ok timeStr => return (← parseTime tag timeStr, r.2)

def readTime (c : DerCursor) : Panicking (ℕ × DerCursor) := do
  let (tag, c) ← c.readTag
  if tag ≠ 0x17 ∧ tag ≠ 0x18 then
    let hex := hexEncode [tag]
    throw (.internal s!"expected UTCTime (0x17) or GeneralizedTime (0x18), got 0x{hex}")
  let r ← c.readValue
  timeOf tag r

/-- `skip_set`. -/
def skipSet (c : DerCursor) : Panicking DerCursor := do
  let (_, c) ← c.readExpected 0x31 "SET (0x31)"
  return c

example : oidBytesToString [0x2A, 0x86, 0x48, 0x86, 0xF7, 0x0D, 0x01, 0x07, 0x02] = "1.2.840.113549.1.7.2" := by decide

/-! ## What the readers come to -/

/-- Where an element ends can be counted in a `usize`. -/
abbrev Fits (c : DerCursor) (tags : UInt8 → Bool) : Prop := Place.Fits lengthOf (2 ^ 64) c tags

/-- The element at the cursor, its length read as `read_length` does. -/
abbrev element? (c : DerCursor) (tags : UInt8 → Bool) : Option Element := Place.element? lengthOf c tags

theorem lengthOf_singleton (b : UInt8) : lengthOf [b] = b.toNat := by
  have hb := b.toNat_lt
  simp [lengthOf]

/-- What does not fit a `usize` is shifted out. -/
theorem lengthOf_eq (octets : List UInt8) : lengthOf octets = ofBytes octets % 2 ^ 64 := by
  induction octets using List.reverseRecOn with
  | nil => rfl
  | append_singleton octets b ih =>
    have hb := b.toNat_lt
    rw [ofBytes_append_singleton, lengthOf, List.foldl_append, List.foldl_cons, List.foldl_nil, UInt64.toNat_or,
      UInt64.toNat_shiftLeft, ← lengthOf, ih, Nat.shiftLeft_eq]
    -- the low byte is empty after the shift, so that the or is a sum
    have hshift : ofBytes octets % 2 ^ 64 * 2 ^ ((8 : UInt64).toNat % 64) % 2 ^ 64 = 2 ^ 8 *
        (ofBytes octets % 2 ^ 56) := by
      change ofBytes octets % 2 ^ 64 * 256 % 2 ^ 64 = _
      omega
    rw [hshift, UInt8.toNat_toUInt64, ← Nat.two_pow_add_eq_or_of_lt hb]
    omega

theorem lengthOf_of_lt {octets : List UInt8} (h : ofBytes octets < 2 ^ 63) : lengthOf octets = ofBytes octets := by
  rw [lengthOf_eq]
  omega

theorem toNat_and_0x7F (b : UInt8) : (b &&& 0x7F).toNat = b.toNat % 128 := by
  rw [UInt8.toNat_and]
  exact Nat.and_two_pow_sub_one_eq_mod b.toNat 7

variable {c : DerCursor}

theorem readLength_eq (c : DerCursor) : c.readLength = match c.octets? with
    | some (octets, q) => pure (lengthOf octets, q)
    | none => throw (.internal
      (if c.next? = none then "unexpected end of DER reading length" else "DER length extends past end of data")) := by
  rw [readLength, Place.octets?]
  cases hnext : c.next? with
  | none => rfl
  | some r =>
    obtain ⟨first, q⟩ := r
    dsimp only
    rw [Option.bind_some]
    dsimp only
    by_cases hfirst : first < 0x80
    · rw [if_pos hfirst, if_pos hfirst, ← lengthOf_singleton]
    · -- a slice ends before the middle of memory, and there are at most 127 octets
      have hsum : q.pos + first.toNat % 128 < 2 ^ 64 := by
        have hshort := q.short
        omega
      rw [if_neg hfirst, if_neg hfirst, toNat_and_0x7F, addUsize_of_lt hsum, pure_bind]
      cases q.take? (first.toNat % 128) <;> rfl

theorem readLength_isSome : c.readLength.run.isSome := by
  rw [readLength_eq]
  split <;> rfl

theorem readLength_eq_ok {n : ℕ} {q : DerCursor} :
    c.readLength.run = some (.ok (n, q)) ↔ ∃ octets, c.octets? = some (octets, q) ∧ n = lengthOf octets := by
  rw [readLength_eq]
  cases c.octets? with
  | none => simp
  | some r =>
    obtain ⟨octets, q'⟩ := r
    simp [eq_comm, and_comm]

theorem readBytes_isSome {n : ℕ} : (c.readBytes n).run.isSome ↔ c.pos + n < 2 ^ 64 := by
  rw [readBytes, Panicking.isSome_bind, addUsize_isSome, and_iff_left_iff_imp]
  intro _ _ _
  split <;> rfl

theorem readBytes_eq_ok {n : ℕ} {r : Slice × DerCursor} : (c.readBytes n).run = some (.ok r) ↔ c.take? n = some r := by
  rw [readBytes, Panicking.bind_eq_ok]
  cases htake : c.take? n with
  | none => simp
  | some r' =>
    obtain ⟨-, -, hpos⟩ := Place.take?_eq_some htake
    have hshort := r'.2.short
    rw [addUsize_of_lt (by omega)]
    simp

theorem readValue_isSome :
    c.readValue.run.isSome ↔ ∀ octets q, c.octets? = some (octets, q) → q.pos + lengthOf octets < 2 ^ 64 := by
  rw [readValue, Panicking.isSome_bind, and_iff_right readLength_isSome]
  constructor
  · intro h octets q hoctets
    exact readBytes_isSome.1 (h _ (readLength_eq_ok.2 ⟨octets, hoctets, rfl⟩))
  · rintro h ⟨n, q⟩ hr
    obtain ⟨octets, hoctets, rfl⟩ := readLength_eq_ok.1 hr
    exact readBytes_isSome.2 (h octets q hoctets)

theorem readValue_eq_ok {r : Slice × DerCursor} :
    c.readValue.run = some (.ok r) ↔ ∃ octets q, c.octets? = some (octets, q) ∧ q.take? (lengthOf octets) = some r := by
  rw [readValue, Panicking.bind_eq_ok]
  constructor
  · rintro ⟨⟨n, q⟩, hr, h⟩
    obtain ⟨octets, hoctets, rfl⟩ := readLength_eq_ok.1 hr
    exact ⟨octets, q, hoctets, readBytes_eq_ok.1 h⟩
  · rintro ⟨octets, q, hoctets, h⟩
    exact ⟨_, readLength_eq_ok.2 ⟨octets, hoctets, rfl⟩, readBytes_eq_ok.2 h⟩

theorem readTag_isSome : c.readTag.run.isSome := by
  rw [readTag]
  split <;> rfl

theorem readTag_eq_ok {r : UInt8 × DerCursor} : c.readTag.run = some (.ok r) ↔ c.next? = some r := by
  rw [readTag]
  cases c.next? with
  | none => simp
  | some r' => simp

/-- The header of an element is its tag and then the octets of its length. -/
theorem header?_eq_some {tag : UInt8} {octets : List UInt8} {q : DerCursor} :
    c.header? = some (tag, octets, q) ↔ ∃ q', c.next? = some (tag, q') ∧ q'.octets? = some (octets, q) := by
  rw [Place.header?, Option.bind_eq_some_iff]
  constructor
  · rintro ⟨⟨tag', q'⟩, hnext, h⟩
    obtain ⟨r, hr, heq⟩ := Option.map_eq_some_iff.1 h
    cases heq
    exact ⟨q', hnext, hr⟩
  · rintro ⟨q', hnext, h⟩
    exact ⟨_, hnext, Option.map_eq_some_iff.2 ⟨_, h, rfl⟩⟩

section

/-! A reader looks at the tag, refuses a wrong one, and goes on with the value. -/

variable {α : Type} (tags : UInt8 → Bool) {f : UInt8 × DerCursor → Panicking α}
  (g : UInt8 → Slice × DerCursor → Panicking α)

theorem isSome_of_tag (hwrong : ∀ tag q, tags tag = false → (f (tag, q)).run.isSome)
    (hright : ∀ tag q, tags tag = true → f (tag, q) = q.readValue >>= g tag) :
    (c.readTag >>= f).run.isSome ↔
      c.Fits tags ∧ ∀ e, c.element? tags = some e → (g e.tag (e.content, e.after)).run.isSome := by
  rw [Panicking.isSome_bind, and_iff_right readTag_isSome]
  constructor
  · intro h
    constructor
    · intro tag octets q hheader htag
      obtain ⟨q', hnext, hoctets⟩ := header?_eq_some.1 hheader
      have hf := h _ (readTag_eq_ok.2 hnext)
      rw [hright tag q' htag] at hf
      exact readValue_isSome.1 (Panicking.isSome_bind.1 hf).1 octets q hoctets
    · intro e he
      obtain ⟨octets, q, hheader, htag, htake⟩ := Place.element?_eq_some.1 he
      obtain ⟨q', hnext, hoctets⟩ := header?_eq_some.1 hheader
      have hf := h _ (readTag_eq_ok.2 hnext)
      rw [hright e.tag q' htag] at hf
      exact (Panicking.isSome_bind.1 hf).2 _ (readValue_eq_ok.2 ⟨octets, q, hoctets, htake⟩)
  · rintro ⟨hfits, hrest⟩ ⟨tag, q'⟩ hr
    have hnext := readTag_eq_ok.1 hr
    cases htag : tags tag with
    | false => exact hwrong tag q' htag
    | true =>
      rw [hright tag q' htag]
      refine Panicking.isSome_bind.2 ⟨readValue_isSome.2 fun octets q hoctets => ?_, fun r hr => ?_⟩
      · exact hfits tag octets q (header?_eq_some.2 ⟨q', hnext, hoctets⟩) htag
      · obtain ⟨octets, q, hoctets, htake⟩ := readValue_eq_ok.1 hr
        have hheader := header?_eq_some.2 ⟨q', hnext, hoctets⟩
        exact hrest ⟨tag, r.1, r.2⟩ (Place.element?_eq_some.2 ⟨octets, q, hheader, htag, htake⟩)

theorem eq_ok_of_tag {a : α} (hwrong : ∀ tag q, tags tag = false → (f (tag, q)).run ≠ some (.ok a))
    (hright : ∀ tag q, tags tag = true → f (tag, q) = q.readValue >>= g tag) :
    (c.readTag >>= f).run = some (.ok a) ↔
      ∃ e, c.element? tags = some e ∧ (g e.tag (e.content, e.after)).run = some (.ok a) := by
  rw [Panicking.bind_eq_ok]
  constructor
  · rintro ⟨⟨tag, q'⟩, hr, hf⟩
    cases htag : tags tag with
    | false => exact absurd hf (hwrong tag q' htag)
    | true =>
      rw [hright tag q' htag] at hf
      obtain ⟨r, hvalue, hg⟩ := Panicking.bind_eq_ok.1 hf
      obtain ⟨octets, q, hoctets, htake⟩ := readValue_eq_ok.1 hvalue
      have hheader := header?_eq_some.2 ⟨q', readTag_eq_ok.1 hr, hoctets⟩
      exact ⟨⟨tag, r.1, r.2⟩, Place.element?_eq_some.2 ⟨octets, q, hheader, htag, htake⟩, hg⟩
  · rintro ⟨e, he, hg⟩
    obtain ⟨octets, q, hheader, htag, htake⟩ := Place.element?_eq_some.1 he
    obtain ⟨q', hnext, hoctets⟩ := header?_eq_some.1 hheader
    refine ⟨_, readTag_eq_ok.2 hnext, ?_⟩
    rw [hright e.tag q' htag]
    exact Panicking.bind_eq_ok.2 ⟨_, readValue_eq_ok.2 ⟨octets, q, hoctets, htake⟩, hg⟩

end

theorem readTlvValue_isSome : c.readTlvValue.run.isSome ↔ c.Fits anyTag := by
  refine (isSome_of_tag anyTag (fun _ => pure) (fun _ _ h => nomatch h) fun _ q _ => ?_).trans
    (and_iff_left fun _ _ => rfl)
  exact (bind_pure q.readValue).symm

theorem readTlvValue_eq_ok {r : Slice × DerCursor} :
    c.readTlvValue.run = some (.ok r) ↔ ∃ e, c.element? anyTag = some e ∧ (e.content, e.after) = r := by
  refine (eq_ok_of_tag anyTag (fun _ => pure) (fun _ _ h => nomatch h) fun _ q _ => ?_).trans ?_
  · exact (bind_pure q.readValue).symm
  · simp only [Panicking.pure_eq_ok]

variable {tag : UInt8} {what : String}

theorem readExpected_isSome : (c.readExpected tag what).run.isSome ↔ c.Fits (onlyTag tag) := by
  refine (isSome_of_tag (onlyTag tag) (fun _ => pure) (fun got q h => ?_) fun got q h => ?_).trans
    (and_iff_left fun _ _ => rfl)
  · dsimp only
    rw [if_pos (of_decide_eq_false h)]
    rfl
  · dsimp only
    rw [if_neg (not_not.2 (of_decide_eq_true h)), bind_pure]

theorem readExpected_eq_ok {r : Slice × DerCursor} :
    (c.readExpected tag what).run = some (.ok r) ↔
      ∃ e, c.element? (onlyTag tag) = some e ∧ (e.content, e.after) = r := by
  refine (eq_ok_of_tag (onlyTag tag) (fun _ => pure) (fun got q h => ?_) fun got q h => ?_).trans ?_
  · dsimp only
    rw [if_pos (of_decide_eq_false h)]
    exact Panicking.throw_ne_ok
  · dsimp only
    rw [if_neg (not_not.2 (of_decide_eq_true h)), bind_pure]
  · simp only [Panicking.pure_eq_ok]

end DerCursor

end GmKms.Audit
