import Mathlib
/-!
# Base32

The alphabet of letters and the digits from 2 to 7, without padding. The bits of the bytes are written out, high first,
and taken five at a time; the last digit is filled up with zeros.
-/

namespace Lib.Base32

def alphabet : List Char := "ABCDEFGHIJKLMNOPQRSTUVWXYZ234567".toList

def digit (n : ℕ) : Char := alphabet.getD n 'A'

def value? (c : Char) : Option ℕ := alphabet.findIdx? (· = c)

/-- The `width` low bits of `n`, high first. -/
def bits : ℕ → ℕ → List Bool
  | 0, _ => []
  | width + 1, n => bits width (n / 2) ++ [decide (n % 2 = 1)]

def ofBits (l : List Bool) : ℕ := l.foldl (fun n b => 2 * n + b.toNat) 0

def encodeBits : List Bool → List Char
  | a :: b :: c :: d :: e :: rest => digit (ofBits [a, b, c, d, e]) :: encodeBits rest
  | [a, b, c, d] => [digit (ofBits [a, b, c, d, false])]
  | [a, b, c] => [digit (ofBits [a, b, c, false, false])]
  | [a, b] => [digit (ofBits [a, b, false, false, false])]
  | [a] => [digit (ofBits [a, false, false, false, false])]
  | [] => []

def encode (bytes : List UInt8) : List Char := encodeBits (bytes.flatMap fun b => bits 8 b.toNat)

/-- Whole bytes; bits that make up none are dropped. -/
def bytesOf : List Bool → List UInt8
  | a :: b :: c :: d :: e :: f :: g :: h :: rest => .ofNat (ofBits [a, b, c, d, e, f, g, h]) :: bytesOf rest
  | _ => []

def decode (t : List Char) : Option (List UInt8) := do
  let values ← t.mapM value?
  return bytesOf (values.flatMap (bits 5))

/-! ## Bits -/

theorem length_bits (width n : ℕ) : (bits width n).length = width := by
  induction width generalizing n with
  | zero => rfl
  | succ width ih => rw [bits, List.length_append, ih, List.length_singleton]

theorem ofBits_append (l : List Bool) (b : Bool) : ofBits (l ++ [b]) = 2 * ofBits l + b.toNat := by
  rw [ofBits, List.foldl_append]
  rfl

theorem ofBits_bits {width n : ℕ} (h : n < 2 ^ width) : ofBits (bits width n) = n := by
  induction width generalizing n with
  | zero =>
    obtain rfl : n = 0 := by omega
    rfl
  | succ width ih =>
    rw [bits, ofBits_append, ih (by omega)]
    by_cases hodd : n % 2 = 1
    · simp only [hodd, decide_true, Bool.toNat_true]
      omega
    · simp only [hodd, decide_false, Bool.toNat_false]
      omega

theorem bits_ofBits (l : List Bool) : bits l.length (ofBits l) = l := by
  induction l using List.reverseRecOn with
  | nil => rfl
  | append_singleton l b ih =>
    rw [List.length_append, List.length_singleton, bits, ofBits_append]
    cases b with
    | false =>
      have hhalf : (2 * ofBits l + false.toNat) / 2 = ofBits l := by simp
      rw [hhalf, ih]
      simp
    | true =>
      have hhalf : (2 * ofBits l + true.toNat) / 2 = ofBits l := by simp only [Bool.toNat_true]; omega
      rw [hhalf, ih]
      simp [Nat.add_mod]

theorem ofBits_lt (l : List Bool) : ofBits l < 2 ^ l.length := by
  induction l using List.reverseRecOn with
  | nil => decide
  | append_singleton l b ih =>
    rw [ofBits_append, List.length_append, List.length_singleton, Nat.pow_succ]
    have hb := Bool.toNat_lt b
    omega

/-! ## What was encoded decodes -/

theorem value?_digit {n : ℕ} (hn : n < 32) : value? (digit n) = some n := by
  have h : ∀ n < 32, value? (digit n) = some n := by decide +kernel
  exact h n hn

theorem digit_mem (n : ℕ) : digit n ∈ alphabet := by
  unfold digit
  by_cases h : n < alphabet.length
  · rw [List.getD_eq_getElem _ _ h]
    exact List.getElem_mem h
  · rw [List.getD_eq_default _ _ (not_lt.1 h)]
    decide

theorem mem_alphabet {l : List Bool} {c : Char} (h : c ∈ encodeBits l) : c ∈ alphabet := by
  induction l using encodeBits.induct with
  | case1 a b c' d e rest ih =>
    rcases List.mem_cons.1 h with rfl | h
    · exact digit_mem _
    · exact ih h
  | case6 => cases h
  | _ =>
    obtain rfl := List.mem_singleton.1 h
    exact digit_mem _

/-- The values of five bits that were encoded are those bits. -/
theorem value?_digit_ofBits {l : List Bool} (h : l.length = 5) : ∃ v, value? (digit (ofBits l)) = some v ∧
    bits 5 v = l :=
  ⟨ofBits l, value?_digit (by simpa [h] using ofBits_lt l), by rw [← h, bits_ofBits]⟩

/-- The digits hold the bits, filled up with fewer than five. -/
theorem values_encodeBits (l : List Bool) : ∃ values fill, (encodeBits l).mapM value? = some values ∧
    values.flatMap (bits 5) = l ++ fill ∧ fill.length < 5 := by
  have hlast : ∀ l zeros : List Bool, l.length + zeros.length = 5 → zeros.length < 5 → ∃ values fill,
      [digit (ofBits (l ++ zeros))].mapM value? = some values ∧ values.flatMap (bits 5) = l ++ fill ∧
      fill.length < 5 := by
    intro l zeros hlength hzeros
    obtain ⟨v, hv, hbits⟩ := value?_digit_ofBits (List.length_append.trans hlength)
    exact ⟨[v], zeros, by simp [hv], by simpa using hbits, hzeros⟩
  induction l using encodeBits.induct with
  | case1 a b c d e rest ih =>
    obtain ⟨values, fill, hvalues, hbits, hfill⟩ := ih
    obtain ⟨v, hv, hfive⟩ := value?_digit_ofBits (l := [a, b, c, d, e]) rfl
    refine ⟨v :: values, fill, ?_, ?_, hfill⟩
    · rw [encodeBits, List.mapM_cons, hv, hvalues]
      rfl
    · rw [List.flatMap_cons, hfive, hbits]
      rfl
  | case2 a b c d => exact hlast [a, b, c, d] [false] rfl (by decide)
  | case3 a b c => exact hlast [a, b, c] [false, false] rfl (by decide)
  | case4 a b => exact hlast [a, b] [false, false, false] rfl (by decide)
  | case5 a => exact hlast [a] [false, false, false, false] rfl (by decide)
  | case6 => exact ⟨[], [], rfl, rfl, by decide⟩

theorem bytesOf_append {l : List Bool} (h : l.length = 8) (rest : List Bool) :
    bytesOf (l ++ rest) = .ofNat (ofBits l) :: bytesOf rest := by
  match l, h with
  | [a, b, c, d, e, f, g, h], _ => rfl

theorem bytesOf_of_lt {l : List Bool} (h : l.length < 8) : bytesOf l = [] := by
  unfold bytesOf
  split
  · simp only [List.length_cons] at h
    omega
  · rfl

theorem bytesOf_flatMap (bytes : List UInt8) {fill : List Bool} (h : fill.length < 8) :
    bytesOf ((bytes.flatMap fun b => bits 8 b.toNat) ++ fill) = bytes := by
  induction bytes with
  | nil => exact bytesOf_of_lt h
  | cons b bytes ih =>
    rw [List.flatMap_cons, List.append_assoc, bytesOf_append (length_bits 8 _), ih, ofBits_bits b.toNat_lt,
      UInt8.ofNat_toNat]

theorem decode_encode (bytes : List UInt8) : decode (encode bytes) = some bytes := by
  obtain ⟨values, fill, hvalues, hbits, hfill⟩ := values_encodeBits (bytes.flatMap fun b => bits 8 b.toNat)
  rw [decode, encode, hvalues]
  exact congrArg some (by rw [hbits, bytesOf_flatMap bytes (by omega)])

example : encode "foobar".toUTF8.toList = "MZXW6YTBOI".toList := by decide +kernel

end Lib.Base32
