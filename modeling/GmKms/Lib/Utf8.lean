import GmKms.Lib.Text
/-!
# Decoding UTF-8

`str::from_utf8` with the position and length of its error, and `String::from_utf8_lossy`, which puts U+FFFD for each
longest beginning of a character that is cut off.
-/

namespace Lib.Utf8

/-- `Utf8Error`: where the valid part ends, and how many bytes are refused there, unless the text ends too early. -/
structure Utf8Error where
  validUpTo : ℕ
  errorLen : Option ℕ
  deriving DecidableEq

/-- Its `Display`. -/
def Utf8Error.text (e : Utf8Error) : String :=
  let i := e.validUpTo
  match e.errorLen with
  | some n => s!"invalid utf-8 sequence of {n} bytes from index {i}"
  | none => s!"incomplete utf-8 byte sequence from index {i}"

/-- A character of which `used` bytes are read and `owed` are to come, the next one from `low` to `high`. -/
structure Pending where
  value : ℕ
  used : ℕ
  owed : ℕ
  low : UInt8
  high : UInt8

/-- What a first byte begins: a character of one byte, or one that goes on. -/
def begin? (b : UInt8) : Option (Char ⊕ Pending) :=
  if b < 0x80 then some (.inl (Char.ofNat b.toNat))
  else if 0xC2 ≤ b ∧ b ≤ 0xDF then some (.inr ⟨b.toNat % 32, 1, 1, 0x80, 0xBF⟩)
  else if b = 0xE0 then some (.inr ⟨b.toNat % 16, 1, 2, 0xA0, 0xBF⟩)
  else if b = 0xED then some (.inr ⟨b.toNat % 16, 1, 2, 0x80, 0x9F⟩)
  else if 0xE1 ≤ b ∧ b ≤ 0xEF then some (.inr ⟨b.toNat % 16, 1, 2, 0x80, 0xBF⟩)
  else if b = 0xF0 then some (.inr ⟨b.toNat % 8, 1, 3, 0x90, 0xBF⟩)
  else if 0xF1 ≤ b ∧ b ≤ 0xF3 then some (.inr ⟨b.toNat % 8, 1, 3, 0x80, 0xBF⟩)
  else if b = 0xF4 then some (.inr ⟨b.toNat % 8, 1, 3, 0x80, 0x8F⟩)
  else none

/-- The next byte of a character, if it can be. -/
def Pending.next? (p : Pending) (b : UInt8) : Option (Char ⊕ Pending) :=
  if p.low ≤ b ∧ b ≤ p.high then
    let value := p.value * 64 + b.toNat % 64
    if p.owed = 1 then some (.inl (Char.ofNat value)) else some (.inr ⟨value, p.used + 1, p.owed - 1, 0x80, 0xBF⟩)
  else none

/-- `start` is where the character begins. -/
def decodeFrom (start : ℕ) : Option Pending → List UInt8 → Except Utf8Error Text
  | none, [] => .ok []
  | some _, [] => .error ⟨start, none⟩
  | none, b :: bytes =>
    match begin? b with
    | none => .error ⟨start, some 1⟩
    | some (.inl c) => (decodeFrom (start + 1) none bytes).map (c :: ·)
    | some (.inr p) => decodeFrom start (some p) bytes
  | some p, b :: bytes =>
    match p.next? b with
    | none => .error ⟨start, some p.used⟩
    | some (.inl c) => (decodeFrom (start + p.used + 1) none bytes).map (c :: ·)
    | some (.inr p) => decodeFrom start (some p) bytes

/-- `str::from_utf8`. -/
def decode (bytes : List UInt8) : Except Utf8Error Text := decodeFrom 0 none bytes

def replacement : Char := Char.ofNat 0xFFFD

def decodeLossyFrom : Option Pending → List UInt8 → Text
  | none, [] => []
  | some _, [] => [replacement]
  | none, b :: bytes =>
    match begin? b with
    | none => replacement :: decodeLossyFrom none bytes
    | some (.inl c) => c :: decodeLossyFrom none bytes
    | some (.inr p) => decodeLossyFrom (some p) bytes
  | some p, b :: bytes =>
    match p.next? b with
    | some (.inl c) => c :: decodeLossyFrom none bytes
    | some (.inr p) => decodeLossyFrom (some p) bytes
    | none =>
      -- the byte that does not go on may begin a character
      match begin? b with
      | none => replacement :: replacement :: decodeLossyFrom none bytes
      | some (.inl c) => replacement :: c :: decodeLossyFrom none bytes
      | some (.inr p) => replacement :: decodeLossyFrom (some p) bytes

/-- `String::from_utf8_lossy`. -/
def decodeLossy (bytes : List UInt8) : Text := decodeLossyFrom none bytes

example : decode [0x32, 0xC3, 0xA9] = .ok ['2', 'é'] := by decide

example : decode [0x32, 0xE2, 0x82] = .error ⟨1, none⟩ := by decide

end Lib.Utf8
