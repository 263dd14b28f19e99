import GmKms.Keystore.ValidMaterial
/-!
# The range of an imported SM2 key

`sm2_scalar_in_range` decides the range of a private key. `validate_sm2_key` has a table of 28 bytes, which it
compares with the key from its last byte on, so it decides something else.
-/

namespace GmKms

open Lib (ofBytes ofBytes_cons_lt_cons byte_cases)

theorem sm2Order_eq : sm2Order = 0xFFFFFFFEFFFFFFFFFFFFFFFFFFFFFFFF7203DF6B21C6052B53BBF40939D54123 := by decide

namespace Keystore

/-- What the loop of `validate_sm2_key` compares with its table: the last 28 bytes, the last of them the highest. -/
def reversedTail (key : Bytes) : ℕ := ofBytes (key.reverse.take 28)

/-- `m` bytes before the end of the table. -/
theorem sm2BelowOrder_add {key : Bytes} (hkey : key.length = 32) (m : ℕ) (hm : m ≤ 28) :
    sm2BelowOrder key (m + 4) =
      if ofBytes ((key.take (m + 4)).reverse.take m) < ofBytes (sm2N.drop (28 - m)) then .ok true
      else if ofBytes (sm2N.drop (28 - m)) < ofBytes ((key.take (m + 4)).reverse.take m) then .ok false
      else .error (.panic "index out of bounds: the len is 28 but the index is 28") := by
  induction m with
  | zero => rfl
  | succ m ih =>
    have hindex : 31 - (m + 4) < sm2N.length := by
      have hlength : sm2N.length = 28 := rfl
      omega
    have hsucc : 28 - m = 28 - (m + 1) + 1 := by omega
    have htable : sm2N.drop (28 - (m + 1)) = sm2N[31 - (m + 4)] :: sm2N.drop (28 - m) := by
      rw [hsucc, ← show 31 - (m + 4) = 28 - (m + 1) by omega]
      exact List.drop_eq_getElem_cons hindex
    have hbyte : m + 4 < key.length := by omega
    have htail : (key.take (m + 1 + 4)).reverse.take (m + 1) = key[m + 4] :: (key.take (m + 4)).reverse.take m := by
      rw [show m + 1 + 4 = m + 4 + 1 by omega, List.take_succ_eq_append_getElem hbyte, List.reverse_append]
      rfl
    have hlength : ((key.take (m + 4)).reverse.take m).length = (sm2N.drop (28 - m)).length := by
      have hlength : sm2N.length = 28 := rfl
      simp only [List.length_take, List.length_reverse, List.length_drop]
      omega
    rw [show m + 1 + 4 = m + 4 + 1 by omega] at *
    rw [sm2BelowOrder, List.getElem?_eq_getElem hindex, htable, htail, List.getD_eq_getElem _ _ hbyte]
    simp only [ofBytes_cons_lt_cons hlength, ofBytes_cons_lt_cons hlength.symm]
    rcases byte_cases key[m + 4] sm2N[31 - (m + 4)] with hlt | heq | hgt
    · rw [if_neg (UInt8.lt_asymm hlt), if_pos hlt, if_pos (.inl hlt)]
    · rw [heq]
      simp only [UInt8.lt_irrefl, if_false, false_or, true_and]
      exact ih (by omega)
    · rw [if_pos hgt, if_neg, if_pos (.inl hgt)]
      rintro (hlt | ⟨heq, -⟩)
      · exact UInt8.lt_asymm hlt hgt
      · exact UInt8.ne_of_lt hgt heq.symm

/-- The check decides the range, and the sibling agrees. -/
def DecidesRange (material : Bytes) : Prop :=
  ∃ r, validateSm2Key material = .ok r ∧ (r.valid = true ↔ Sm2Scalar material) ∧
    (r.valid = true ↔ sm2ScalarInRange material = .ok ())

/-- Of the keys of 32 bytes, other than zero, the check decides the range of those whose reversed tail is on the
same side of the table as the key is of the order. -/
theorem decidesRange_iff (material : Bytes) : DecidesRange material ↔
    (material.length = 32 → ofBytes material = 0 ∨
      reversedTail material ≠ ofBytes sm2N ∧ (reversedTail material < ofBytes sm2N ↔ ofBytes material < sm2Order)) := by
  unfold DecidesRange
  simp only [sm2ScalarInRange_eq_ok_iff, and_self]
  unfold validateSm2Key Sm2Scalar
  by_cases hlength : material.length = 32
  · rw [if_neg (not_not.2 hlength)]
    by_cases hzero : ofBytes material = 0
    · rw [if_pos (all_zero_iff.2 hzero)]
      simp [hzero, KeyValidationResult.reject]
    · have hpos : 1 ≤ ofBytes material := Nat.pos_of_ne_zero hzero
      have htake : (material.take (28 + 4)).reverse.take 28 = material.reverse.take 28 := by
        rw [show 28 + 4 = List.length material by omega, List.take_length]
      rw [if_neg fun hall => hzero (all_zero_iff.1 hall), sm2BelowOrder_add hlength 28 le_rfl, htake]
      change (∃ r, (Except.bind (if reversedTail material < ofBytes sm2N then _ else
        if ofBytes sm2N < reversedTail material then _ else _) _ = _) ∧ _) ↔ _
      simp only [hlength, hpos, hzero, true_and, forall_const, false_or]
      rcases lt_trichotomy (reversedTail material) (ofBytes sm2N) with hlt | heq | hgt
      · rw [if_pos hlt]
        simp [Except.bind, KeyValidationResult.accept, hlt, hlt.ne]
      · rw [if_neg heq.not_lt, if_neg heq.not_gt]
        simp [Except.bind, heq]
      · rw [if_neg hgt.not_gt, if_pos hgt]
        simp [Except.bind, KeyValidationResult.reject, hgt.ne', hgt.not_gt]
  · rw [if_pos hlength]
    simp [hlength, KeyValidationResult.reject]

/-- A key above the order that ends with the byte 0 is accepted. -/
theorem not_decidesRange : ¬ ∀ material, DecidesRange material := by
  intro h
  obtain ⟨r, hr, hrange, -⟩ := h (List.replicate 31 0xFF ++ [0])
  have haccept : validateSm2Key (List.replicate 31 0xFF ++ [0]) =
      .ok (KeyValidationResult.accept (some "SM2") "signing/encryption") := rfl
  obtain rfl := Except.ok.inj (haccept.symm.trans hr)
  have hbelow := (hrange.1 rfl).2.2
  rw [sm2Order_eq] at hbelow
  exact absurd hbelow (by decide)

end Keystore

end GmKms
