import Mathlib
/-!
# Base64

The standard alphabet with padding, groups of three bytes as four digits. The decoder
takes canonical texts only; it gives back what the encoder wrote.
-/

namespace Lib.Base64

def alphabet : List Char := "ABCDEFGHIJKLMNOPQRSTUVWXYZabcdefghijklmnopqrstuvwxyz0123456789+/".toList

def digit (n : ℕ) : Char := alphabet.getD n 'A'

def value? (c : Char) : Option ℕ := alphabet.findIdx? (· = c)

def encodeChars : List UInt8 → List Char
  | a :: b :: c :: bytes =>
    digit (a.toNat / 4) :: digit (a.toNat % 4 * 16 + b.toNat / 16) :: digit (b.toNat % 16 * 4 + c.toNat / 64) ::
      digit (c.toNat % 64) :: encodeChars bytes
  | [a, b] => [digit (a.toNat / 4), digit (a.toNat % 4 * 16 + b.toNat / 16), digit (b.toNat % 16 * 4), '=']
  | [a] => [digit (a.toNat / 4), digit (a.toNat % 4 * 16), '=', '=']
  | [] => []

def encode (bytes : List UInt8) : String := String.ofList (encodeChars bytes)

/-- The bytes of two, three and four digits; bits that no byte takes are zero. -/
def one (w x : Char) : Option (List UInt8) := do
  let w ← value? w
  let x ← value? x
  if x % 16 = 0 then return [.ofNat (w * 4 + x / 16)] else none

def two (w x y : Char) : Option (List UInt8) := do
  let w ← value? w
  let x ← value? x
  let y ← value? y
  if y % 4 = 0 then return [.ofNat (w * 4 + x / 16), .ofNat (x % 16 * 16 + y / 4)] else none

def three (w x y z : Char) : Option (List UInt8) := do
  let w ← value? w
  let x ← value? x
  let y ← value? y
  let z ← value? z
  return [.ofNat (w * 4 + x / 16), .ofNat (x % 16 * 16 + y / 4), .ofNat (y % 4 * 64 + z)]

def decodeChars : List Char → Option (List UInt8)
  | w :: x :: y :: z :: chars =>
    if z = '=' then
      if chars ≠ [] then none
      else if y = '=' then one w x
      else two w x y
    else do
      let group ← three w x y z
      let bytes ← decodeChars chars
      return group ++ bytes
  | [] => some []
  | _ => none

def decode (text : String) : Option (List UInt8) := decodeChars text.toList

/-! ## What was encoded decodes -/

theorem value?_digit {n : ℕ} (hn : n < 64) : value? (digit n) = some n := by
  have h : ∀ n < 64, value? (digit n) = some n := by decide +kernel
  exact h n hn

theorem digit_ne {n : ℕ} (hn : n < 64) : digit n ≠ '=' := by
  have h : ∀ n < 64, digit n ≠ '=' := by decide +kernel
  exact h n hn

theorem ofNat_eq {b : UInt8} {n : ℕ} (h : n = b.toNat) : UInt8.ofNat n = b := by
  rw [h, UInt8.ofNat_toNat]

theorem three_digits (a b c : UInt8) :
    three (digit (a.toNat / 4)) (digit (a.toNat % 4 * 16 + b.toNat / 16)) (digit (b.toNat % 16 * 4 + c.toNat / 64))
      (digit (c.toNat % 64)) = some [a, b, c] := by
  have ha := a.toNat_lt
  have hb := b.toNat_lt
  have hc := c.toNat_lt
  unfold three
  rw [value?_digit (by omega), value?_digit (by omega), value?_digit (by omega), value?_digit (by omega)]
  have h₁ := @ofNat_eq a (a.toNat / 4 * 4 + (a.toNat % 4 * 16 + b.toNat / 16) / 16) (by omega)
  have h₂ := @ofNat_eq b ((a.toNat % 4 * 16 + b.toNat / 16) % 16 * 16 + (b.toNat % 16 * 4 + c.toNat / 64) / 4)
    (by omega)
  have h₃ := @ofNat_eq c ((b.toNat % 16 * 4 + c.toNat / 64) % 4 * 64 + c.toNat % 64) (by omega)
  simp only [Option.bind_eq_bind, Option.bind_some, Option.pure_def, h₁, h₂, h₃]

theorem two_digits (a b : UInt8) :
    two (digit (a.toNat / 4)) (digit (a.toNat % 4 * 16 + b.toNat / 16)) (digit (b.toNat % 16 * 4)) = some [a, b] := by
  have ha := a.toNat_lt
  have hb := b.toNat_lt
  unfold two
  rw [value?_digit (by omega), value?_digit (by omega), value?_digit (by omega)]
  have h₁ := @ofNat_eq a (a.toNat / 4 * 4 + (a.toNat % 4 * 16 + b.toNat / 16) / 16) (by omega)
  have h₂ := @ofNat_eq b ((a.toNat % 4 * 16 + b.toNat / 16) % 16 * 16 + b.toNat % 16 * 4 / 4) (by omega)
  have hpad : b.toNat % 16 * 4 % 4 = 0 := by omega
  simp only [Option.bind_eq_bind, Option.bind_some, Option.pure_def, h₁, h₂, hpad, if_true]

theorem one_digits (a : UInt8) : one (digit (a.toNat / 4)) (digit (a.toNat % 4 * 16)) = some [a] := by
  have ha := a.toNat_lt
  unfold one
  rw [value?_digit (by omega), value?_digit (by omega)]
  have h₁ := @ofNat_eq a (a.toNat / 4 * 4 + a.toNat % 4 * 16 / 16) (by omega)
  have hpad : a.toNat % 4 * 16 % 16 = 0 := by omega
  simp only [Option.bind_eq_bind, Option.bind_some, Option.pure_def, h₁, hpad, if_true]

theorem decodeChars_encodeChars (bytes : List UInt8) : decodeChars (encodeChars bytes) = some bytes := by
  induction bytes using encodeChars.induct with
  | case1 a b c bytes ih =>
    have hc := c.toNat_lt
    rw [encodeChars, decodeChars, if_neg (digit_ne (by omega)), three_digits, ih]
    rfl
  | case2 a b =>
    have hb := b.toNat_lt
    rw [encodeChars, decodeChars, if_pos rfl, if_neg (by simp), if_neg (digit_ne (by omega)), two_digits]
  | case3 a => rw [encodeChars, decodeChars, if_pos rfl, if_neg (by simp), if_pos rfl, one_digits]
  | case4 => rfl

theorem decode_encode (bytes : List UInt8) : decode (encode bytes) = some bytes := by
  rw [decode, encode, String.toList_ofList, decodeChars_encodeChars]

theorem encode_inj {bytes bytes' : List UInt8} (h : encode bytes = encode bytes') : bytes = bytes' := by
  have hdecoded := congrArg decode h
  rwa [decode_encode, decode_encode, Option.some.injEq] at hdecoded

/-! ## Only what was encoded decodes -/

theorem digit_of_value? {c : Char} {n : ℕ} (h : value? c = some n) : n < 64 ∧ digit n = c := by
  obtain ⟨hn, hc, -⟩ := List.findIdx?_eq_some_iff_getElem.1 h
  refine ⟨hn, ?_⟩
  rw [digit, List.getD_eq_getElem _ _ hn]
  exact of_decide_eq_true hc

theorem toNat_ofNat {n : ℕ} (h : n < 256) : (UInt8.ofNat n).toNat = n := by
  rw [UInt8.toNat_ofNat', Nat.mod_eq_of_lt h]

theorem one_eq_some {w x : Char} {bytes : List UInt8} (h : one w x = some bytes) :
    ∃ a, bytes = [a] ∧ w = digit (a.toNat / 4) ∧ x = digit (a.toNat % 4 * 16) := by
  unfold one at h
  obtain ⟨m, hm, hx⟩ := Option.bind_eq_some_iff.1 h
  obtain ⟨n, hn, hbytes⟩ := Option.bind_eq_some_iff.1 hx
  obtain ⟨hm64, rfl⟩ := digit_of_value? hm
  obtain ⟨hn64, rfl⟩ := digit_of_value? hn
  split at hbytes
  · rename_i hpad
    cases hbytes
    have ha := toNat_ofNat (show m * 4 + n / 16 < 256 by omega)
    refine ⟨_, rfl, ?_, ?_⟩ <;> rw [ha] <;> congr 1 <;> omega
  · cases hbytes

theorem two_eq_some {w x y : Char} {bytes : List UInt8} (h : two w x y = some bytes) :
    ∃ a b, bytes = [a, b] ∧ w = digit (a.toNat / 4) ∧ x = digit (a.toNat % 4 * 16 + b.toNat / 16) ∧
      y = digit (b.toNat % 16 * 4) := by
  unfold two at h
  obtain ⟨m, hm, hx⟩ := Option.bind_eq_some_iff.1 h
  obtain ⟨n, hn, hy⟩ := Option.bind_eq_some_iff.1 hx
  obtain ⟨k, hk, hbytes⟩ := Option.bind_eq_some_iff.1 hy
  obtain ⟨hm64, rfl⟩ := digit_of_value? hm
  obtain ⟨hn64, rfl⟩ := digit_of_value? hn
  obtain ⟨hk64, rfl⟩ := digit_of_value? hk
  split at hbytes
  · rename_i hpad
    cases hbytes
    have ha := toNat_ofNat (show m * 4 + n / 16 < 256 by omega)
    have hb := toNat_ofNat (show n % 16 * 16 + k / 4 < 256 by omega)
    refine ⟨_, _, rfl, ?_, ?_, ?_⟩ <;> simp only [ha, hb] <;> congr 1 <;> omega
  · cases hbytes

theorem three_eq_some {w x y z : Char} {bytes : List UInt8} (h : three w x y z = some bytes) :
    ∃ a b c, bytes = [a, b, c] ∧ w = digit (a.toNat / 4) ∧ x = digit (a.toNat % 4 * 16 + b.toNat / 16) ∧
      y = digit (b.toNat % 16 * 4 + c.toNat / 64) ∧ z = digit (c.toNat % 64) := by
  unfold three at h
  obtain ⟨m, hm, hx⟩ := Option.bind_eq_some_iff.1 h
  obtain ⟨n, hn, hy⟩ := Option.bind_eq_some_iff.1 hx
  obtain ⟨k, hk, hz⟩ := Option.bind_eq_some_iff.1 hy
  obtain ⟨l, hl, hbytes⟩ := Option.bind_eq_some_iff.1 hz
  obtain ⟨hm64, rfl⟩ := digit_of_value? hm
  obtain ⟨hn64, rfl⟩ := digit_of_value? hn
  obtain ⟨hk64, rfl⟩ := digit_of_value? hk
  obtain ⟨hl64, rfl⟩ := digit_of_value? hl
  cases hbytes
  have ha := toNat_ofNat (show m * 4 + n / 16 < 256 by omega)
  have hb := toNat_ofNat (show n % 16 * 16 + k / 4 < 256 by omega)
  have hc := toNat_ofNat (show k % 4 * 64 + l < 256 by omega)
  refine ⟨_, _, _, rfl, ?_, ?_, ?_, ?_⟩ <;> simp only [ha, hb, hc] <;> congr 1 <;> omega

/-- Every group of digits is the encoding of its bytes, so no text but the encoded one decodes. -/
theorem eq_encodeChars {chars : List Char} {bytes : List UInt8} (h : decodeChars chars = some bytes) :
    chars = encodeChars bytes := by
  induction chars using decodeChars.induct generalizing bytes with
  | case1 w x y chars hmore =>
    rw [decodeChars, if_pos rfl, if_pos hmore] at h
    cases h
  | case2 w x chars hend =>
    obtain rfl := not_not.1 hend
    rw [decodeChars, if_pos rfl, if_neg hend, if_pos rfl] at h
    obtain ⟨a, rfl, rfl, rfl⟩ := one_eq_some h
    rw [encodeChars]
  | case3 w x y chars hend hdigit =>
    obtain rfl := not_not.1 hend
    rw [decodeChars, if_pos rfl, if_neg hend, if_neg hdigit] at h
    obtain ⟨a, b, rfl, rfl, rfl, rfl⟩ := two_eq_some h
    rw [encodeChars]
  | case4 w x y z chars hdigit ih =>
    rw [decodeChars, if_neg hdigit] at h
    obtain ⟨group, hgroup, h⟩ := Option.bind_eq_some_iff.1 h
    obtain ⟨rest, hrest, h⟩ := Option.bind_eq_some_iff.1 h
    cases h
    obtain ⟨a, b, c, rfl, rfl, rfl, rfl, rfl⟩ := three_eq_some hgroup
    rw [ih hrest, List.cons_append, List.cons_append, List.cons_append, List.nil_append, encodeChars]
  | case5 =>
    cases h
    rfl
  | case6 chars hlong hnil =>
    rw [decodeChars] at h
    · cases h
    · exact hlong
    · exact hnil

theorem decodeChars_eq_some_iff {chars : List Char} {bytes : List UInt8} :
    decodeChars chars = some bytes ↔ chars = encodeChars bytes := by
  constructor
  · exact eq_encodeChars
  · rintro rfl
    exact decodeChars_encodeChars bytes

/-! ## The text -/

theorem digit_mem (n : ℕ) : digit n ∈ alphabet := by
  unfold digit
  by_cases hn : n < alphabet.length
  · rw [List.getD_eq_getElem _ _ hn]
    exact List.getElem_mem hn
  · rw [List.getD_eq_default _ _ (Nat.not_lt.1 hn)]
    decide

theorem exists_digit {c : Char} (h : c ∈ alphabet) : ∃ n < 64, digit n = c := by
  obtain ⟨n, hn, rfl⟩ := List.mem_iff_getElem.1 h
  exact ⟨n, hn, List.getD_eq_getElem _ _ hn⟩

theorem mem_encodeChars {bytes : List UInt8} {c : Char} (h : c ∈ encodeChars bytes) : c ∈ '=' :: alphabet := by
  induction bytes using encodeChars.induct with
  | case1 a b d bytes ih =>
    rw [encodeChars] at h
    simp only [List.mem_cons] at h ⊢
    rcases h with rfl | rfl | rfl | rfl | h
    · exact .inr (digit_mem _)
    · exact .inr (digit_mem _)
    · exact .inr (digit_mem _)
    · exact .inr (digit_mem _)
    · exact List.mem_cons.1 (ih h)
  | case2 a b =>
    simp only [encodeChars, List.mem_cons, List.not_mem_nil, or_false] at h ⊢
    rcases h with rfl | rfl | rfl | rfl
    · exact .inr (digit_mem _)
    · exact .inr (digit_mem _)
    · exact .inr (digit_mem _)
    · exact .inl rfl
  | case3 a =>
    simp only [encodeChars, List.mem_cons, List.not_mem_nil, or_false] at h ⊢
    rcases h with rfl | rfl | rfl | rfl
    · exact .inr (digit_mem _)
    · exact .inr (digit_mem _)
    · exact .inl rfl
    · exact .inl rfl
  | case4 => cases h

theorem length_encodeChars (bytes : List UInt8) : (encodeChars bytes).length = (bytes.length + 2) / 3 * 4 := by
  induction bytes using encodeChars.induct with
  | case1 a b c bytes ih =>
    simp only [encodeChars, List.length_cons, ih]
    omega
  | case2 a b => simp [encodeChars]
  | case3 a => simp [encodeChars]
  | case4 => rfl

example : encode [0x66, 0x6F, 0x6F, 0x62] = "Zm9vYg==" := by decide

/-! ## The alphabet for URLs

It has `-` and `_` in the place of `+` and `/`, and no padding. The decoder of the standard alphabet reads a few of
these texts.
-/

/-- The character that stands for the same six bits. -/
def urlChar (c : Char) : Char := if c = '+' then '-' else if c = '/' then '_' else c

def encodeUrlChars (bytes : List UInt8) : List Char := ((encodeChars bytes).filter (· ≠ '=')).map urlChar

def encodeUrl (bytes : List UInt8) : String := String.ofList (encodeUrlChars bytes)

theorem urlChar_eq_self_iff {c : Char} : urlChar c = c ↔ c ≠ '+' ∧ c ≠ '/' := by
  unfold urlChar
  by_cases hplus : c = '+'
  · subst hplus
    decide
  · by_cases hslash : c = '/'
    · subst hslash
      decide
    · simp [hplus, hslash]

theorem map_urlChar_eq_iff {chars : List Char} : chars.map urlChar = chars ↔ ∀ c ∈ chars, c ≠ '+' ∧ c ≠ '/' := by
  have hself : chars.map urlChar = chars ↔ chars.map urlChar = chars.map id := by rw [List.map_id]
  rw [hself, List.map_inj_left]
  exact forall₂_congr fun c _ => urlChar_eq_self_iff

/-- Padding follows unless the groups of three come out even. -/
theorem pad_mem_encodeChars_iff {bytes : List UInt8} : '=' ∈ encodeChars bytes ↔ bytes.length % 3 ≠ 0 := by
  induction bytes using encodeChars.induct with
  | case1 a b c bytes ih =>
    have ha := a.toNat_lt
    have hb := b.toNat_lt
    have hc := c.toNat_lt
    have h₁ := (digit_ne (show a.toNat / 4 < 64 by omega)).symm
    have h₂ := (digit_ne (show a.toNat % 4 * 16 + b.toNat / 16 < 64 by omega)).symm
    have h₃ := (digit_ne (show b.toNat % 16 * 4 + c.toNat / 64 < 64 by omega)).symm
    have h₄ := (digit_ne (show c.toNat % 64 < 64 by omega)).symm
    rw [encodeChars]
    simp only [List.mem_cons, h₁, h₂, h₃, h₄, false_or, ih, List.length_cons, Nat.add_assoc, Nat.reduceAdd,
      Nat.add_mod_right]
  | case2 a b => simp [encodeChars]
  | case3 a => simp [encodeChars]
  | case4 => simp [encodeChars]

/-- The two encodings are one where there is no padding and no character that differs. -/
theorem encodeUrlChars_eq_iff {bytes : List UInt8} : encodeUrlChars bytes = encodeChars bytes ↔
    bytes.length % 3 = 0 ∧ '+' ∉ encodeChars bytes ∧ '/' ∉ encodeChars bytes := by
  rw [← not_not (a := bytes.length % 3 = 0), ← ne_eq, ← pad_mem_encodeChars_iff]
  unfold encodeUrlChars
  constructor
  · intro h
    have hlength := congrArg List.length h
    rw [List.length_map] at hlength
    have hfilter := List.filter_sublist.eq_of_length hlength
    have hpad : '=' ∉ encodeChars bytes := by
      intro hmem
      rw [← hfilter] at hmem
      simpa using (List.mem_filter.1 hmem).2
    rw [hfilter, map_urlChar_eq_iff] at h
    refine ⟨hpad, ?_, ?_⟩
    · intro hmem
      exact (h _ hmem).1 rfl
    · intro hmem
      exact (h _ hmem).2 rfl
  · rintro ⟨hpad, hplus, hslash⟩
    have hfilter : (encodeChars bytes).filter (· ≠ '=') = encodeChars bytes := by
      rw [List.filter_eq_self]
      intro c hc
      simpa using ne_of_mem_of_not_mem hc hpad
    rw [hfilter, map_urlChar_eq_iff]
    intro c hc
    exact ⟨ne_of_mem_of_not_mem hc hplus, ne_of_mem_of_not_mem hc hslash⟩

theorem decode_encodeUrl_iff {bytes : List UInt8} : decode (encodeUrl bytes) = some bytes ↔
    bytes.length % 3 = 0 ∧ '+' ∉ encodeChars bytes ∧ '/' ∉ encodeChars bytes := by
  rw [decode, encodeUrl, String.toList_ofList, decodeChars_eq_some_iff, encodeUrlChars_eq_iff]

example : encodeUrl [0xFB, 0xFF] = "-_8" := by decide

end Lib.Base64
