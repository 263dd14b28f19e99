import GmKms.Core.Types
import GmKms.Lib.JsonText
/-!
# The text of a uuid

The hyphenated form is read back, so that different uuids have different texts.
-/

namespace GmKms

open Lib

namespace Uuid

/-- The number that hexadecimal digits stand for. -/
def ofHexDigits (digits : Text) : Option ℕ :=
  digits.foldlM (fun x c => (JsonText.hexValue c).map (x * 16 + ·)) 0

def parse (s : String) : Option Uuid :=
  (ofHexDigits (s.toList.filter (· ≠ '-'))).map (BitVec.ofNat 128)

theorem ofHexDigits_hexDigits (x n : ℕ) : ofHexDigits (hexDigits x n) = some (x % 16 ^ n) := by
  induction n generalizing x with
  | zero => simp [ofHexDigits, hexDigits, Nat.mod_one]
  | succ n ih =>
    have hvalue : x / 16 % 16 ^ n * 16 + x % 16 = x % 16 ^ (n + 1) := by
      rw [Nat.pow_succ, Nat.mul_comm (16 ^ n), Nat.mod_mul]
      omega
    unfold ofHexDigits at ih ⊢
    rw [hexDigits, List.foldlM_append, ih]
    simp [JsonText.hexValue_digitChar (Nat.mod_lt x (by decide : 0 < 16)), hvalue]

theorem ne_hyphen_of_mem_hexDigits {x n : ℕ} {c : Char} (h : c ∈ hexDigits x n) : c ≠ '-' := by
  induction n generalizing x with
  | zero => cases h
  | succ n ih =>
    have hdigit : ∀ d < 16, Nat.digitChar d ≠ '-' := by decide
    rcases List.mem_append.1 h with h | h
    · exact ih h
    · rw [List.mem_singleton.1 h]
      exact hdigit _ (Nat.mod_lt x (by decide))

theorem take_append_groups (l : Text) :
    l.take 8 ++ ((l.drop 8).take 4 ++ ((l.drop 12).take 4 ++ ((l.drop 16).take 4 ++ l.drop 20))) = l := by
  have hgroup : ∀ n, (l.drop n).take 4 ++ l.drop (n + 4) = l.drop n := fun n => by
    rw [← List.drop_drop, List.take_append_drop]
  rw [hgroup 16, hgroup 12, hgroup 8, List.take_append_drop]

theorem filter_text (u : Uuid) : u.text.toList.filter (· ≠ '-') = hexDigits u.toNat 32 := by
  have hhyphens : u.text.toList.filter (· ≠ '-') = (hexDigits u.toNat 32).filter (· ≠ '-') := by
    conv_rhs => rw [← take_append_groups (hexDigits u.toNat 32)]
    simp [text]
  rw [hhyphens]
  exact List.filter_eq_self.2 fun c hc => decide_eq_true (ne_hyphen_of_mem_hexDigits hc)

theorem length_hexDigits (x n : ℕ) : (hexDigits x n).length = n := by
  induction n generalizing x with
  | zero => rfl
  | succ n ih => rw [hexDigits, List.length_append, ih, List.length_singleton]

theorem length_text (u : Uuid) : u.text.toList.length = 36 := by
  simp [text, length_hexDigits]

theorem parse_text (u : Uuid) : parse u.text = some u := by
  rw [parse, filter_text, ofHexDigits_hexDigits, Nat.mod_eq_of_lt (show u.toNat < 16 ^ 32 from u.isLt)]
  simp

theorem text_injective : Function.Injective text := by
  intro u v h
  have hparse := parse_text u
  rw [h, parse_text v] at hparse
  exact (Option.some.inj hparse).symm

end Uuid

end GmKms
