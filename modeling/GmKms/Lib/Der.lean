import GmKms.Lib.Bytes
/-!
# Tag, length and content

Elements as DER writes them: a tag, the length of the content, the content. A length below 128 is one byte. A longer
one is the count of its octets, with the high bit set, and the octets, high first.
A reader goes from place to place. A path says through which elements, so that `follow` needs no reader: it is where a
field stands.
-/

namespace Lib.Der

open Sha256 (toBytes)

/-- A slice of memory. -/
structure Slice where
  bytes : List UInt8
  short : bytes.length < 2 ^ 63
  deriving DecidableEq

/-- A place in a slice: the bytes before it are only counted. -/
structure Place where
  pos : ℕ
  rest : List UInt8
  short : pos + rest.length < 2 ^ 63
  deriving DecidableEq

/-- The bytes from `start` on and before `stop`. -/
def Slice.range? (s : Slice) (start stop : ℕ) : Option Slice :=
  if start ≤ stop ∧ stop ≤ s.bytes.length then
    have short := s.short
    some ⟨(s.bytes.take stop).drop start, by rw [List.length_drop, List.length_take]; omega⟩
  else none

theorem Slice.bytes_of_range? {s t : Slice} {start stop : ℕ} (h : s.range? start stop = some t) :
    t.bytes = (s.bytes.take stop).drop start := by
  rw [range?] at h
  split at h
  · cases h
    rfl
  · cases h

def Slice.start (s : Slice) : Place where
  pos := 0
  rest := s.bytes
  short := by rw [Nat.zero_add]; exact s.short

namespace Place

def next? : Place → Option (UInt8 × Place)
  | ⟨_, [], _⟩ => none
  | ⟨pos, b :: rest, short⟩ => some (b, ⟨pos + 1, rest, by rw [List.length_cons] at short; omega⟩)

/-- The next `n` bytes and the place after them. -/
def take? (p : Place) (n : ℕ) : Option (Slice × Place) :=
  if h : n ≤ p.rest.length then
    have short := p.short
    some (⟨p.rest.take n, by rw [List.length_take]; omega⟩, ⟨p.pos + n, p.rest.drop n, by rw [List.length_drop]; omega⟩)
  else none

/-- The octets of a length, and the place after them. -/
def octets? (p : Place) : Option (List UInt8 × Place) :=
  p.next?.bind fun (first, q) =>
    if first < 0x80 then some ([first], q) else (q.take? (first.toNat % 128)).map fun (octets, q) => (octets.bytes, q)

/-- The tag and the octets of the length. -/
def header? (p : Place) : Option (UInt8 × List UInt8 × Place) :=
  p.next?.bind fun (tag, q) => q.octets?.map fun (octets, q) => (tag, octets, q)

end Place

/-! ## What a reader leaves -/

/-- The bytes of the slice a place is in. -/
def Place.stop (p : Place) : ℕ := p.pos + p.rest.length

@[simp] theorem Slice.start_pos (s : Slice) : s.start.pos = 0 := rfl

@[simp] theorem Slice.start_rest (s : Slice) : s.start.rest = s.bytes := rfl

theorem Place.next?_eq_some {p q : Place} {b : UInt8} (h : p.next? = some (b, q)) :
    p.rest = b :: q.rest ∧ q.pos = p.pos + 1 := by
  obtain ⟨pos, rest, short⟩ := p
  cases rest with
  | nil => cases h
  | cons b' rest =>
    cases h
    exact ⟨rfl, rfl⟩

theorem Place.next?_of_rest {p : Place} {b : UInt8} {rest : List UInt8} (h : p.rest = b :: rest) :
    ∃ q, p.next? = some (b, q) ∧ q.rest = rest ∧ q.pos = p.pos + 1 := by
  obtain ⟨pos, rest', short⟩ := p
  cases h
  exact ⟨_, rfl, rfl, rfl⟩

theorem Place.take?_eq_some {p q : Place} {n : ℕ} {content : Slice} (h : p.take? n = some (content, q)) :
    p.rest = content.bytes ++ q.rest ∧ content.bytes.length = n ∧ q.pos = p.pos + n := by
  rw [take?] at h
  split at h
  · rename_i hn
    cases h
    exact ⟨(List.take_append_drop n p.rest).symm, List.length_take_of_le hn, rfl⟩
  · cases h

theorem Place.take?_of_rest {p : Place} {bytes rest : List UInt8} (h : p.rest = bytes ++ rest) :
    ∃ content q, p.take? bytes.length = some (content, q) ∧ content.bytes = bytes ∧ q.rest = rest ∧
      q.pos = p.pos + bytes.length := by
  have hle : bytes.length ≤ p.rest.length := by
    rw [h, List.length_append]
    omega
  refine ⟨_, _, dif_pos hle, ?_, ?_, rfl⟩
  · change p.rest.take bytes.length = bytes
    rw [h, List.take_left]
  · change p.rest.drop bytes.length = rest
    rw [h, List.drop_left]

theorem Place.next?_stop {p q : Place} {b : UInt8} (h : p.next? = some (b, q)) : q.stop = p.stop := by
  obtain ⟨hrest, hpos⟩ := next?_eq_some h
  rw [stop, stop, hrest, hpos, List.length_cons]
  omega

theorem Place.take?_stop {p q : Place} {n : ℕ} {content : Slice} (h : p.take? n = some (content, q)) :
    q.stop = p.stop := by
  obtain ⟨hrest, hlen, hpos⟩ := take?_eq_some h
  rw [stop, stop, hrest, hpos, List.length_append, hlen]
  omega

theorem Place.octets?_stop {p q : Place} {octets : List UInt8} (h : p.octets? = some (octets, q)) :
    q.stop = p.stop := by
  rw [octets?, Option.bind_eq_some_iff] at h
  obtain ⟨⟨first, q'⟩, hfirst, h⟩ := h
  have hq' := next?_stop hfirst
  dsimp only at h
  split at h
  · cases h
    exact hq'
  · obtain ⟨⟨content, r⟩, htake, hr⟩ := Option.map_eq_some_iff.1 h
    cases hr
    exact (take?_stop htake).trans hq'

theorem Place.octets?_pos {p q : Place} {octets : List UInt8} (h : p.octets? = some (octets, q)) : p.pos ≤ q.pos := by
  rw [octets?, Option.bind_eq_some_iff] at h
  obtain ⟨⟨first, q'⟩, hfirst, h⟩ := h
  obtain ⟨-, hq'⟩ := next?_eq_some hfirst
  dsimp only at h
  split at h
  · cases h
    omega
  · obtain ⟨⟨content, r⟩, htake, hr⟩ := Option.map_eq_some_iff.1 h
    cases hr
    obtain ⟨-, -, hpos⟩ := take?_eq_some htake
    exact Nat.le_trans (by omega) hpos.ge

theorem Place.header?_stop {p q : Place} {tag : UInt8} {octets : List UInt8} (h : p.header? = some (tag, octets, q)) :
    q.stop = p.stop := by
  rw [header?, Option.bind_eq_some_iff] at h
  obtain ⟨⟨tag', q'⟩, htag, h⟩ := h
  obtain ⟨⟨octets', r⟩, hoctets, hr⟩ := Option.map_eq_some_iff.1 h
  cases hr
  exact (octets?_stop hoctets).trans (next?_stop htag)

theorem Place.header?_pos {p q : Place} {tag : UInt8} {octets : List UInt8} (h : p.header? = some (tag, octets, q)) :
    p.pos ≤ q.pos := by
  rw [header?, Option.bind_eq_some_iff] at h
  obtain ⟨⟨tag', q'⟩, htag, h⟩ := h
  obtain ⟨⟨octets', r⟩, hoctets, hr⟩ := Option.map_eq_some_iff.1 h
  cases hr
  obtain ⟨-, hq'⟩ := next?_eq_some htag
  have hle := octets?_pos hoctets
  omega

/-! ## Elements and paths -/

/-- An element read: its tag, its content, and the place after it. -/
structure Element where
  tag : UInt8
  content : Slice
  after : Place

def anyTag (_ : UInt8) : Bool := true

def onlyTag (expected tag : UInt8) : Bool := tag = expected

/-- From an element to the next one, or to the first one in it. -/
inductive Step where
  | past (tags : UInt8 → Bool)
  | into (tags : UInt8 → Bool)

def Step.tags : Step → UInt8 → Bool
  | past tags => tags
  | into tags => tags

def Step.target : Step → Element → Place
  | past _, e => e.after
  | into _, e => e.content.start

section

/-! What a reader takes octets for is `value`, and what it can count to is below `limit`. -/

variable (value : List UInt8 → ℕ) (limit : ℕ)

/-- The element at a place, if its tag is one of `tags` and it is all there. -/
def Place.element? (p : Place) (tags : UInt8 → Bool) : Option Element :=
  p.header?.bind fun (tag, octets, q) =>
    if tags tag then (q.take? (value octets)).map fun (content, after) => ⟨tag, content, after⟩ else none

/-- Where an element with one of `tags` would end can be counted. -/
def Place.Fits (p : Place) (tags : UInt8 → Bool) : Prop :=
  ∀ tag octets q, p.header? = some (tag, octets, q) → tags tag → q.pos + value octets < limit

def Step.go? (s : Step) (p : Place) : Option Place := (p.element? value s.tags).map s.target

def follow : List Step → Place → Option Place
  | [], p => some p
  | s :: path, p => (s.go? value p).bind (follow path)

/-- Every element come to on a path fits. -/
def Along : List Step → Place → Prop
  | [], _ => True
  | s :: path, p => p.Fits value limit s.tags ∧ ∀ q, s.go? value p = some q → Along path q

variable {value limit} {p q : Place} {s : Step} {path path' : List Step} {tags : UInt8 → Bool}

theorem Place.element?_eq_some {e : Element} : p.element? value tags = some e ↔ ∃ octets q,
    p.header? = some (e.tag, octets, q) ∧ tags e.tag ∧ q.take? (value octets) = some (e.content, e.after) := by
  rw [element?, Option.bind_eq_some_iff]
  constructor
  · rintro ⟨⟨tag, octets, q⟩, hheader, h⟩
    dsimp only at h
    split at h
    · rename_i htag
      obtain ⟨⟨content, after⟩, htake, rfl⟩ := Option.map_eq_some_iff.1 h
      exact ⟨octets, q, hheader, htag, htake⟩
    · cases h
  · rintro ⟨octets, q, hheader, htag, htake⟩
    refine ⟨_, hheader, ?_⟩
    dsimp only
    rw [if_pos htag, htake]
    rfl

/-- What is left after an element is the end of the same slice. -/
theorem Place.element?_bounds {e : Element} (h : p.element? value tags = some e) :
    e.after.stop = p.stop ∧ p.pos ≤ e.after.pos ∧ e.content.bytes.length ≤ p.stop := by
  obtain ⟨octets, q, hheader, -, htake⟩ := element?_eq_some.1 h
  have hstop := header?_stop hheader
  have hpos := header?_pos hheader
  have hafter := take?_stop htake
  obtain ⟨hrest, -, hend⟩ := take?_eq_some htake
  refine ⟨hafter.trans hstop, by omega, ?_⟩
  rw [← hstop, stop, hrest, List.length_append]
  omega

theorem Place.element?_room {e : Element} (h : p.element? value tags = some e) :
    e.content.bytes.length + e.after.rest.length ≤ p.rest.length := by
  obtain ⟨octets, q, hheader, -, htake⟩ := element?_eq_some.1 h
  have hstop := header?_stop hheader
  have hpos := header?_pos hheader
  obtain ⟨hrest, -, -⟩ := take?_eq_some htake
  rw [← List.length_append, ← hrest]
  rw [stop, stop] at hstop
  omega

/-- An element that is all there ends within the slice. -/
theorem Place.fits_of_element? {e : Element} (h : p.element? value tags = some e) (hlimit : 2 ^ 63 ≤ limit) :
    p.Fits value limit tags := by
  obtain ⟨octets, q, hheader, -, htake⟩ := element?_eq_some.1 h
  intro tag octets' q' hheader' _
  cases hheader.symm.trans hheader'
  obtain ⟨-, -, hpos⟩ := take?_eq_some htake
  have hshort := e.after.short
  omega

/-- Two readers that agree on the lengths there can be read the same elements. -/
theorem Place.element?_of_agree {value' : List UInt8 → ℕ}
    (hv : ∀ octets, value octets < 2 ^ 63 → value' octets = value octets)
    {e : Element} (h : p.element? value tags = some e) : p.element? value' tags = some e := by
  obtain ⟨octets, q, hheader, htag, htake⟩ := element?_eq_some.1 h
  refine element?_eq_some.2 ⟨octets, q, hheader, htag, ?_⟩
  obtain ⟨-, hlen, -⟩ := take?_eq_some htake
  rw [hv octets (by rw [← hlen]; exact e.content.short), htake]

theorem follow_of_agree {value' : List UInt8 → ℕ} (hv : ∀ octets, value octets < 2 ^ 63 → value' octets = value octets)
    (h : follow value path p = some q) : follow value' path p = some q := by
  induction path generalizing p with
  | nil => exact h
  | cons s path ih =>
    obtain ⟨q', hq', h⟩ := Option.bind_eq_some_iff.1 h
    obtain ⟨e, he, rfl⟩ := Option.map_eq_some_iff.1 hq'
    refine Option.bind_eq_some_iff.2 ⟨_, ?_, ih h⟩
    rw [Step.go?, Place.element?_of_agree hv he, Option.map_some]

theorem follow_append : follow value (path ++ path') p = (follow value path p).bind (follow value path') := by
  induction path generalizing p with
  | nil => rfl
  | cons s path ih =>
    rw [List.cons_append, follow, follow, Option.bind_assoc]
    congr 1
    funext q
    exact ih

theorem along_append : Along value limit (path ++ path') p ↔
    Along value limit path p ∧ ∀ q, follow value path p = some q → Along value limit path' q := by
  induction path generalizing p with
  | nil => simp [Along, follow]
  | cons s path ih =>
    rw [List.cons_append, Along, Along, follow, and_assoc]
    refine and_congr_right fun _ => ?_
    constructor
    · intro h
      refine ⟨fun q hq => (ih.1 (h q hq)).1, fun q' hq' => ?_⟩
      obtain ⟨q, hq, hq'⟩ := Option.bind_eq_some_iff.1 hq'
      exact (ih.1 (h q hq)).2 q' hq'
    · rintro ⟨hfirst, hrest⟩ q hq
      exact ih.2 ⟨hfirst q hq, fun q' hq' => hrest q' (Option.bind_eq_some_iff.2 ⟨q, hq, hq'⟩)⟩

end

/-! ## Writing -/

/-- A way to write the length `n`. -/
inductive IsLength : List UInt8 → ℕ → Prop
  | short (b : UInt8) (h : b < 0x80) : IsLength [b] b.toNat
  | long (octets : List UInt8) (h : octets.length < 128) :
    IsLength (UInt8.ofNat (128 + octets.length) :: octets) (ofBytes octets)

theorem IsLength.length_pos {field : List UInt8} {n : ℕ} (h : IsLength field n) : 0 < field.length := by
  cases h <;> exact Nat.succ_pos _

/-- The octets of a length that has no short form, as few as there can be. -/
def minimalOctets (n : ℕ) : List UInt8 := toBytes n (Nat.log 256 n + 1)

def lengthField (n : ℕ) : List UInt8 :=
  if n < 128 then [UInt8.ofNat n]
  else
    let octets := minimalOctets n
    UInt8.ofNat (128 + octets.length) :: octets

def element (tag : UInt8) (content : List UInt8) : List UInt8 := tag :: (lengthField content.length ++ content)

theorem length_minimalOctets (n : ℕ) (h : n < 2 ^ 63) : (minimalOctets n).length ≤ 8 := by
  rw [minimalOctets, Sha256.length_toBytes]
  apply Nat.succ_le_of_lt
  exact Nat.log_lt_of_lt_pow' (by decide) (by omega)

theorem isLength_lengthField (n : ℕ) (h : n < 2 ^ 63) : IsLength (lengthField n) n := by
  rw [lengthField]
  split
  · rename_i hn
    have hto : (UInt8.ofNat n).toNat = n := by
      rw [UInt8.toNat_ofNat']
      omega
    have hlt : UInt8.ofNat n < 0x80 := by
      rw [UInt8.lt_iff_toNat_lt, hto]
      exact hn
    have := IsLength.short _ hlt
    rwa [hto] at this
  · have hof : ofBytes (minimalOctets n) = n := by
      rw [minimalOctets, ofBytes_toBytes]
      exact Nat.mod_eq_of_lt (Nat.lt_pow_succ_log_self (by decide) n)
    have hlen := length_minimalOctets n h
    have := IsLength.long (minimalOctets n) (by omega)
    rwa [hof] at this

/-! ## Reading what is written -/

section

variable {p : Place} {tag : UInt8} {content rest : List UInt8} {tags : UInt8 → Bool} {value : List UInt8 → ℕ}

theorem Place.octets?_of_isLength {field : List UInt8} {n : ℕ} (hn : IsLength field n) (h : p.rest = field ++ rest) :
    ∃ octets q, p.octets? = some (octets, q) ∧ ofBytes octets = n ∧ q.rest = rest ∧ q.pos = p.pos + field.length := by
  cases hn with
  | short b hb =>
    obtain ⟨q, hq, hrest, hpos⟩ := next?_of_rest h
    refine ⟨[b], q, ?_, ?_, hrest, hpos⟩
    · rw [octets?, hq]
      exact if_pos hb
    · rw [ofBytes_cons]
      simp [ofBytes]
  | long octets hlen =>
    have hcount : (UInt8.ofNat (128 + octets.length)).toNat = 128 + octets.length := by
      rw [UInt8.toNat_ofNat']
      omega
    obtain ⟨q, hq, hrest, hpos⟩ := next?_of_rest h
    obtain ⟨part, q', htake, hbytes, hrest', hpos'⟩ := take?_of_rest hrest
    refine ⟨octets, q', ?_, rfl, hrest', by rw [hpos', hpos, List.length_cons]; omega⟩
    have hlong : ¬ UInt8.ofNat (128 + octets.length) < 0x80 := by
      rw [UInt8.lt_iff_toNat_lt, hcount]
      change ¬ 128 + octets.length < 128
      omega
    have hmod : (128 + octets.length) % 128 = octets.length := by omega
    rw [octets?, hq, Option.bind_some]
    dsimp only
    rw [if_neg hlong, hcount, hmod, htake, Option.map_some, hbytes]

/-- An element is read as it was written, by every reader that takes lengths for what they are as far as memory goes. -/
theorem Place.element?_of_rest {field : List UInt8} (hn : IsLength field content.length)
    (h : p.rest = tag :: (field ++ (content ++ rest))) (htag : tags tag)
    (hv : ∀ octets, ofBytes octets < 2 ^ 63 → value octets = ofBytes octets) :
    ∃ e, p.element? value tags = some e ∧ e.tag = tag ∧ e.content.bytes = content ∧ e.after.rest = rest ∧
      e.after.pos = p.pos + (1 + field.length + content.length) := by
  obtain ⟨q, hq, hrest, hpos⟩ := next?_of_rest h
  obtain ⟨octets, q', hoctets, hof, hrest', hpos'⟩ := octets?_of_isLength hn hrest
  obtain ⟨part, after, htake, hbytes, hafter, hend⟩ := take?_of_rest hrest'
  refine ⟨⟨tag, part, after⟩, element?_of_agree hv (element?_eq_some.2 ⟨octets, q', ?_, htag, ?_⟩), rfl, hbytes, hafter,
    ?_⟩
  · rw [header?, hq, Option.bind_some]
    dsimp only
    rw [hoctets, Option.map_some]
  · rw [hof]
    exact htake
  · change after.pos = _
    omega

theorem Place.element?_of_element (h : p.rest = element tag content ++ rest) (htag : tags tag)
    (hv : ∀ octets, ofBytes octets < 2 ^ 63 → value octets = ofBytes octets) :
    ∃ e, p.element? value tags = some e ∧ e.tag = tag ∧ e.content.bytes = content ∧ e.after.rest = rest ∧
      e.after.pos = p.pos + (element tag content).length := by
  have hshort : content.length < 2 ^ 63 := by
    have hp := p.short
    rw [h, element, List.length_append, List.length_cons, List.length_append] at hp
    omega
  rw [element, List.cons_append, List.append_assoc] at h
  obtain ⟨e, he, het, hec, her, hep⟩ := element?_of_rest (isLength_lengthField _ hshort) h htag hv
  refine ⟨e, he, het, hec, her, ?_⟩
  rw [hep, element, List.length_cons, List.length_append]
  omega

variable {bytes : List UInt8} {path : List Step}

/-- A path over what is written leads past its elements. -/
theorem leads_past (h : p.rest = element tag content ++ rest) (htag : tags tag)
    (hv : ∀ octets, ofBytes octets < 2 ^ 63 → value octets = ofBytes octets)
    (next : ∀ q : Place, q.rest = rest → ∃ q', follow value path q = some q' ∧ q'.rest = bytes) :
    ∃ q, follow value (.past tags :: path) p = some q ∧ q.rest = bytes := by
  obtain ⟨e, he, -, -, hrest, -⟩ := Place.element?_of_element h htag hv
  rw [follow, Step.go?, Step.tags, he]
  exact next e.after hrest

/-- And into them. -/
theorem leads_into (h : p.rest = element tag content ++ rest) (htag : tags tag)
    (hv : ∀ octets, ofBytes octets < 2 ^ 63 → value octets = ofBytes octets)
    (next : ∀ q : Place, q.rest = content → ∃ q', follow value path q = some q' ∧ q'.rest = bytes) :
    ∃ q, follow value (.into tags :: path) p = some q ∧ q.rest = bytes := by
  obtain ⟨e, he, -, hcontent, -, -⟩ := Place.element?_of_element h htag hv
  rw [follow, Step.go?, Step.tags, he]
  exact next e.content.start hcontent

end

end Lib.Der
