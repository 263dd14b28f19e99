import Mathlib
/-!
# Polynomials by their coefficients and by their values

Polynomials over a field given as lists of coefficients, what their values at some
points say about the value at 0, and what they leave open.
-/

namespace Lib

open Polynomial

variable {F : Type*} [Field F]

/-! ## Coefficients -/

/-- The polynomial with these coefficients, the constant one first. -/
noncomputable def ofCoeffs : List F → F[X]
  | [] => 0
  | a :: as => C a + X * ofCoeffs as

theorem eval_ofCoeffs_zero (a : F) (as : List F) : (ofCoeffs (a :: as)).eval 0 = a := by
  simp [ofCoeffs]

theorem coeff_ofCoeffs (as : List F) (n : ℕ) : (ofCoeffs as).coeff n = as.getD n 0 := by
  induction as generalizing n with
  | nil => simp [ofCoeffs]
  | cons a as ih =>
    cases n with
    | zero => simp [ofCoeffs]
    | succ n => simp [ofCoeffs, coeff_C_succ, coeff_X_mul, ih]

theorem degree_ofCoeffs_lt (as : List F) : (ofCoeffs as).degree < as.length := by
  rw [degree_lt_iff_coeff_zero]
  intro n hn
  rw [coeff_ofCoeffs, List.getD_eq_default _ _ hn]

/-- A polynomial of bounded degree is that of its coefficients. -/
theorem ofCoeffs_map_coeff {f : F[X]} {n : ℕ} (hf : f.degree < n) : ofCoeffs ((List.range n).map f.coeff) = f := by
  ext m
  rw [coeff_ofCoeffs]
  by_cases hm : m < n
  · simp [List.getD_eq_getElem?_getD, hm]
  · rw [List.getD_eq_default _ _ (by simpa using hm), (degree_lt_iff_coeff_zero f n).1 hf m (by omega)]

theorem ofCoeffs_injective {as bs : List F} (hlen : as.length = bs.length) (h : ofCoeffs as = ofCoeffs bs) :
    as = bs := by
  refine List.ext_getElem hlen fun n ha hb => ?_
  have hcoeff := congrArg (coeff · n) h
  simpa [coeff_ofCoeffs, List.getD_eq_getElem?_getD, ha, hb] using hcoeff

/-! ## The value at 0 -/

/-- The value at 0 out of the values at enough points. -/
theorem eval_zero_eq_sum {ι : Type*} [DecidableEq ι] {s : Finset ι} {v : ι → F} (hv : Set.InjOn v s) {f : F[X]}
    (hf : f.degree < s.card) :
    f.eval 0 = ∑ i ∈ s, f.eval (v i) * ((∏ j ∈ s.erase i, v j) * (∏ j ∈ s.erase i, (v j - v i))⁻¹) := by
  conv_lhs => rw [Lagrange.eq_interpolate hv hf, Lagrange.interpolate_apply, eval_finsetSum]
  refine Finset.sum_congr rfl fun i _ => ?_
  rw [eval_mul, eval_C, Lagrange.basis, eval_prod, ← Finset.prod_inv_distrib, ← Finset.prod_mul_distrib]
  congr 1
  refine Finset.prod_congr rfl fun j _ => ?_
  rw [Lagrange.basisDivisor, eval_mul, eval_C, eval_sub, eval_X, eval_C, ← neg_sub (v j) (v i), inv_neg]
  ring

/-! ## What the values at few points leave open -/

/-- The polynomial that is 1 at 0 and 0 at the points. -/
noncomputable def mask (xs : Finset F) : F[X] := ∏ x ∈ xs, (1 - C x⁻¹ * X)

theorem eval_mask_zero (xs : Finset F) : (mask xs).eval 0 = 1 := by
  rw [mask, eval_prod]
  exact Finset.prod_eq_one fun x _ => by simp

theorem eval_mask_of_mem {xs : Finset F} {x : F} (hx : x ∈ xs) (hne : x ≠ 0) : (mask xs).eval x = 0 := by
  rw [mask, eval_prod]
  exact Finset.prod_eq_zero hx (by simp [hne])

theorem degree_mask_le (xs : Finset F) : (mask xs).degree ≤ xs.card := by
  have hfactor : ∀ x ∈ xs, (1 - C x⁻¹ * X : F[X]).natDegree ≤ 1 := fun x _ => by compute_degree
  calc (mask xs).degree ≤ (mask xs).natDegree := degree_le_natDegree
    _ ≤ (xs.card : WithBot ℕ) := by
      have hsum := (natDegree_prod_le xs fun x => (1 - C x⁻¹ * X : F[X])).trans
        (Finset.sum_le_card_nsmul xs _ 1 hfactor)
      exact_mod_cast hsum.trans (by simp)

theorem degree_add_mask_lt {xs : Finset F} {f : F[X]} (hf : f.degree < (xs.card + 1 : ℕ)) (a : F) :
    (f + C a * mask xs).degree < (xs.card + 1 : ℕ) := by
  have hmask : (C a * mask xs).degree ≤ xs.card :=
    calc (C a * mask xs).degree
      _ ≤ (C a).degree + (mask xs).degree := degree_mul_le _ _
      _ ≤ 0 + xs.card := add_le_add degree_C_le (degree_mask_le xs)
      _ = xs.card := zero_add _
  have hlt : (xs.card : WithBot ℕ) < (xs.card + 1 : ℕ) := by exact_mod_cast Nat.lt_succ_self _
  exact lt_of_le_of_lt (degree_add_le _ _) (max_lt hf (lt_of_le_of_lt hmask hlt))

theorem eval_add_mask {xs : Finset F} {x : F} (hx : x ∈ xs) (hne : x ≠ 0) (f : F[X]) (a : F) :
    (f + C a * mask xs).eval x = f.eval x := by
  rw [eval_add, eval_mul, eval_mask_of_mem hx hne, mul_zero, add_zero]

theorem eval_add_mask_zero (xs : Finset F) (f : F[X]) (a : F) : (f + C a * mask xs).eval 0 = f.eval 0 + a := by
  rw [eval_add, eval_mul, eval_C, eval_mask_zero, mul_one]

/-- Polynomials that agree at the points differ by the mask, as far as they differ at 0. -/
theorem eq_add_mask {xs : Finset F} (hxs : (0 : F) ∉ xs) {f g : F[X]} (hf : f.degree < (xs.card + 1 : ℕ))
    (hg : g.degree < (xs.card + 1 : ℕ)) (heq : ∀ x ∈ xs, g.eval x = f.eval x) :
    g = f + C (g.eval 0 - f.eval 0) * mask xs := by
  classical
  have hmask := degree_add_mask_lt hf (g.eval 0 - f.eval 0)
  rw [← Finset.card_insert_of_notMem hxs] at hg hmask
  refine eq_of_degrees_lt_of_eval_finset_eq (insert 0 xs) hg hmask fun x hx => ?_
  rcases Finset.mem_insert.1 hx with rfl | hx
  · rw [eval_add_mask_zero, add_sub_cancel]
  · rw [eval_add_mask hx (fun h => hxs (h ▸ hx)), heq x hx]

end Lib
