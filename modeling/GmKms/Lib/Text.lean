import Mathlib
/-!
# Text, its lines and its numerals

Text as a list of characters, cut into lines as Rust's `str::lines` does.
-/

namespace Lib

abbrev Text := List Char

namespace Text

/-- The text up to and with each newline. -/
def splitInclusive : Text → List Text
  | [] => []
  | c :: t =>
    if c = '\n' then ['\n'] :: splitInclusive t
    else
      match splitInclusive t with
      | [] => [[c]]
      | p :: ps => (c :: p) :: ps

def stripSuffix? (c : Char) (t : Text) : Option Text :=
  if t.getLast? = some c then some t.dropLast else none

/-- A line without its end, which is a newline or a carriage return and a newline. -/
def stripEnd (line : Text) : Text :=
  match stripSuffix? '\n' line with
  | none => line
  | some line => (stripSuffix? '\r' line).getD line

def lines (t : Text) : List Text := (splitInclusive t).map stripEnd

/-- Each line and a newline. -/
def unlines (ls : List Text) : Text := ls.flatMap (· ++ ['\n'])

/-- A character with the Unicode property `White_Space`. -/
def isWhiteSpace (c : Char) : Bool :=
  let n := c.toNat
  (9 ≤ n && n ≤ 13) || n = 0x20 || n = 0x85 || n = 0xA0 || n = 0x1680 || (0x2000 ≤ n && n ≤ 0x200A) || n = 0x2028 ||
    n = 0x2029 || n = 0x202F || n = 0x205F || n = 0x3000

/-- `trim().is_empty()`. -/
def isBlank (t : Text) : Bool := t.all isWhiteSpace

/-- No line end within. -/
def OneLine (t : Text) : Prop := '\n' ∉ t ∧ '\r' ∉ t

instance (t : Text) : Decidable t.OneLine := inferInstanceAs (Decidable (_ ∧ _))

theorem splitInclusive_line {t rest : Text} (h : '\n' ∉ t) :
    splitInclusive (t ++ '\n' :: rest) = (t ++ ['\n']) :: splitInclusive rest := by
  induction t with
  | nil => simp [splitInclusive]
  | cons c t ih =>
    obtain ⟨hc, ht⟩ : c ≠ '\n' ∧ '\n' ∉ t := by simpa [eq_comm] using h
    rw [List.cons_append, splitInclusive, if_neg hc, ih ht]
    rfl

theorem stripEnd_line {t : Text} (h : '\r' ∉ t) : stripEnd (t ++ ['\n']) = t := by
  have hlast : t.getLast? ≠ some '\r' := fun hlast => h (List.mem_of_getLast? hlast)
  simp [stripEnd, stripSuffix?, hlast]

theorem lines_unlines {ls : List Text} (h : ∀ l ∈ ls, OneLine l) : lines (unlines ls) = ls := by
  induction ls with
  | nil => rfl
  | cons l ls ih =>
    obtain ⟨⟨hn, hr⟩, hls⟩ := List.forall_mem_cons.1 h
    have hcons : unlines (l :: ls) = l ++ '\n' :: unlines ls := by simp [unlines]
    rw [hcons, lines, splitInclusive_line hn, List.map_cons, stripEnd_line hr]
    exact congrArg (l :: ·) (ih hls)

theorem unlines_append (ls ls' : List Text) : unlines (ls ++ ls') = unlines ls ++ unlines ls' := List.flatMap_append

end Text

/-! ## Numerals

Decimal numerals as a grammar, and the value that is read from left to right.
-/

/-- Decimal digits, the first of which counts most. -/
inductive Numeral : Text → ℕ → Prop
  | digit {d : ℕ} (h : d < 10) : Numeral [d.digitChar] d
  | snoc {t : Text} {n d : ℕ} (ht : Numeral t n) (h : d < 10) : Numeral (t ++ [d.digitChar]) (10 * n + d)

namespace Numeral

theorem exists_digitChar {c : Char} (h : c.isDigit = true) : ∃ d < 10, d.digitChar = c := by
  have hrange : 48 ≤ c.toNat ∧ c.toNat ≤ 57 := Char.isDigit_iff_toNat.1 h
  have hlt : c.toNat - 48 < 10 := by omega
  refine ⟨c.toNat - 48, hlt, Char.toNat_inj.1 ?_⟩
  rw [Nat.toNat_digitChar_of_lt_ten hlt]
  omega

theorem all_isDigit_singleton {d : ℕ} (h : d < 10) : [d.digitChar].all Char.isDigit = true := by
  rw [List.all_cons, List.all_nil, Bool.and_true, Nat.isDigit_digitChar, decide_eq_true h]

theorem ne_nil {t : Text} {n : ℕ} (h : Numeral t n) : t ≠ [] := by
  cases h <;> simp

theorem all_isDigit {t : Text} {n : ℕ} (h : Numeral t n) : t.all Char.isDigit = true := by
  induction h with
  | digit h => exact all_isDigit_singleton h
  | snoc _ h ih => rw [List.all_append, ih, all_isDigit_singleton h, Bool.and_true]

theorem ofDigitChars_eq {t : Text} {n : ℕ} (h : Numeral t n) : Nat.ofDigitChars 10 t 0 = n := by
  induction h with
  | digit h => rw [Nat.ofDigitChars_cons_digitChar_of_lt_ten h, Nat.ofDigitChars_nil, Nat.mul_zero, Nat.zero_add]
  | snoc _ h ih => rw [Nat.ofDigitChars_append, ih, Nat.ofDigitChars_cons_digitChar_of_lt_ten h, Nat.ofDigitChars_nil]

/-- Digits are a numeral of the value read from them. -/
theorem of_all_isDigit {t : Text} (hne : t ≠ []) (h : t.all Char.isDigit = true) :
    Numeral t (Nat.ofDigitChars 10 t 0) := by
  induction t using List.reverseRecOn with
  | nil => exact absurd rfl hne
  | append_singleton t c ih =>
    rw [List.all_append, Bool.and_eq_true, List.all_cons, List.all_nil, Bool.and_true] at h
    obtain ⟨ht, hc⟩ := h
    obtain ⟨d, hd, rfl⟩ := exists_digitChar hc
    rw [Nat.ofDigitChars_append, Nat.ofDigitChars_cons_digitChar_of_lt_ten hd, Nat.ofDigitChars_nil]
    by_cases hempty : t = []
    · subst hempty
      rw [Nat.ofDigitChars_nil, Nat.mul_zero, Nat.zero_add]
      exact .digit hd
    · exact .snoc (ih hempty ht) hd

/-- Only digits are in what `repr` writes. -/
theorem notMem_repr {c : Char} (h : c.isDigit = false) (n : ℕ) : c ∉ n.repr.toList := by
  rw [Nat.toList_repr]
  intro hmem
  exact absurd (Nat.isDigit_of_mem_toDigits (by decide) (by decide) hmem) (Bool.eq_false_iff.1 h)

end Numeral

end Lib
