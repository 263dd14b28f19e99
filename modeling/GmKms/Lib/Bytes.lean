import GmKms.Lib.Sha256
/-!
# Bytes of a number

The number that bytes stand for, high first, which `Sha256.toBytes` writes.
-/

namespace Lib

open Sha256 (toBytes)

def ofBytes (bytes : List UInt8) : ℕ := bytes.foldl (fun x b => x * 256 + b.toNat) 0

theorem ofBytes_append_singleton (bytes : List UInt8) (b : UInt8) :
    ofBytes (bytes ++ [b]) = ofBytes bytes * 256 + b.toNat := by
  rw [ofBytes, List.foldl_append]
  rfl

theorem foldl_eq_ofBytes (x : ℕ) (bytes : List UInt8) :
    bytes.foldl (fun x b => x * 256 + b.toNat) x = x * 256 ^ bytes.length + ofBytes bytes := by
  induction bytes using List.reverseRecOn with
  | nil => simp [ofBytes]
  | append_singleton bytes b ih =>
    rw [List.foldl_append, List.foldl_cons, List.foldl_nil, ih, ofBytes_append_singleton, List.length_append,
      List.length_singleton, Nat.pow_succ]
    ring

/-- The first byte is the highest. -/
theorem ofBytes_cons (b : UInt8) (bytes : List UInt8) :
    ofBytes (b :: bytes) = b.toNat * 256 ^ bytes.length + ofBytes bytes := by
  rw [ofBytes, List.foldl_cons, foldl_eq_ofBytes, Nat.zero_mul, Nat.zero_add]

theorem ofBytes_lt (bytes : List UInt8) : ofBytes bytes < 256 ^ bytes.length := by
  induction bytes using List.reverseRecOn with
  | nil => decide
  | append_singleton bytes b ih =>
    have hb := b.toNat_lt
    rw [ofBytes_append_singleton, List.length_append, List.length_singleton, Nat.pow_succ]
    omega

theorem byte_cases (a b : UInt8) : a < b ∨ a = b ∨ b < a := by
  rw [← UInt8.toNat_inj, UInt8.lt_iff_toNat_lt, UInt8.lt_iff_toNat_lt]
  exact lt_trichotomy a.toNat b.toNat

/-- Bytes of one length compare as their numbers do: the first that differ decide. -/
theorem ofBytes_cons_lt_cons {a b : UInt8} {as bs : List UInt8} (h : as.length = bs.length) :
    ofBytes (a :: as) < ofBytes (b :: bs) ↔ a < b ∨ a = b ∧ ofBytes as < ofBytes bs := by
  have hmul : ∀ m n : ℕ, m < n → m * 256 ^ as.length + 256 ^ as.length ≤ n * 256 ^ as.length := by
    intro m n hmn
    rw [← Nat.succ_mul]
    exact Nat.mul_le_mul_right _ hmn
  have has := ofBytes_lt as
  have hbs := ofBytes_lt bs
  rw [ofBytes_cons, ofBytes_cons, ← h, UInt8.lt_iff_toNat_lt]
  rw [← h] at hbs
  rcases lt_trichotomy a.toNat b.toNat with hlt | heq | hgt
  · have hle := hmul _ _ hlt
    exact ⟨fun _ => .inl hlt, fun _ => by omega⟩
  · rw [← UInt8.toNat_inj, heq]
    simp
  · have hle := hmul _ _ hgt
    have hne : a ≠ b := by
      rintro rfl
      exact lt_irrefl _ hgt
    simp only [hne, false_and, or_false]
    omega

theorem toBytes_ofBytes (bytes : List UInt8) : toBytes (ofBytes bytes) bytes.length = bytes := by
  induction bytes using List.reverseRecOn with
  | nil => rfl
  | append_singleton bytes b ih =>
    have hb := b.toNat_lt
    have hhigh : (ofBytes bytes * 256 + b.toNat) / 256 = ofBytes bytes := by omega
    have hlow : UInt8.ofNat (ofBytes bytes * 256 + b.toNat) = b := by
      apply UInt8.toNat_inj.1
      rw [UInt8.toNat_ofNat']
      omega
    rw [ofBytes_append_singleton, List.length_append, List.length_singleton, toBytes, hhigh, hlow, ih]

theorem ofBytes_toBytes (x n : ℕ) : ofBytes (toBytes x n) = x % 256 ^ n := by
  induction n generalizing x with
  | zero => rw [toBytes, pow_zero, Nat.mod_one]; rfl
  | succ n ih =>
    have hsplit : x % 256 ^ (n + 1) = x % 256 + 256 * (x / 256 % 256 ^ n) := by
      rw [Nat.pow_succ', Nat.mod_mul]
    rw [toBytes, ofBytes_append_singleton, ih, UInt8.toNat_ofNat', hsplit]
    omega

theorem ofBytes_eq_zero_iff {bytes : List UInt8} : ofBytes bytes = 0 ↔ ∀ b ∈ bytes, b = 0 := by
  induction bytes with
  | nil => simp [ofBytes]
  | cons b bytes ih =>
    rw [ofBytes_cons, Nat.add_eq_zero_iff, ih, List.forall_mem_cons]
    refine and_congr_left fun _ => ?_
    rw [Nat.mul_eq_zero, or_iff_left (by positivity), ← UInt8.toNat_inj]
    rfl

end Lib
