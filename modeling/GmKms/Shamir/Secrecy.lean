import GmKms.Shamir.Scheme
/-!
# What fewer shares than the threshold say

Of the polynomials through the shares, one has each value at 0. The sampler can return
its coefficients only if none of them is 0, and so the shares exclude some secrets.
-/

namespace GmKms.Shamir

open Polynomial ShamirSecretSharing

/-- The coefficients that the sampler can return. -/
def Producible (coefficients : List UInt64) : Prop :=
  ∀ a ∈ coefficients, ∃ random, new.randomFieldElement random = a

/-- The values of a block's shares at `xs`. -/
def shareValues (value : UInt64) (coefficients : List UInt64) (xs : List UInt32) : List UInt64 :=
  xs.map fun x => new.evaluatePolynomial (value :: coefficients) x.toUInt64

/-- The drawn coefficients under which a block value has these shares. -/
def explanations (value : UInt64) (xs : List UInt32) (ys : List UInt64) : Set (List UInt64) :=
  { coefficients | coefficients.length = xs.length ∧ Producible coefficients ∧ shareValues value coefficients xs = ys }

/-- The sampler returns every field element but 0. -/
theorem randomFieldElement_surjOn {a : UInt64} :
    (∃ random, new.randomFieldElement random = a) ↔ a < fieldPrime ∧ element a ≠ 0 := by
  have hne : ∀ {a : UInt64}, a < fieldPrime → (element a ≠ 0 ↔ a ≠ 0) := fun ha => by
    have hzero : element 0 = 0 := by simp [element]
    refine not_congr ⟨fun h => element_injOn ha (by decide) (h.trans hzero.symm), ?_⟩
    rintro rfl
    exact hzero
  constructor
  · rintro ⟨random, rfl⟩
    have hlt : random % fieldPrime < fieldPrime := by
      rw [lt_fieldPrime_iff, UInt64.toNat_mod]
      exact Nat.mod_lt _ (by decide)
    have hdef : new.randomFieldElement random = if random % fieldPrime = 0 then 1 else random % fieldPrime := rfl
    rw [hdef]
    split
    · exact ⟨by decide, (hne (by decide)).2 (by decide)⟩
    · rename_i hzero
      exact ⟨hlt, (hne hlt).2 hzero⟩
  · rintro ⟨hlt, hzero⟩
    have hmod : a % fieldPrime = a := UInt64.mod_eq_of_lt hlt
    refine ⟨a, ?_⟩
    have hdef : new.randomFieldElement a = if a % fieldPrime = 0 then 1 else a % fieldPrime := rfl
    rw [hdef, hmod, if_neg ((hne hlt).1 hzero)]

/-- The field elements at which shares are taken. -/
def points (xs : List UInt32) : Finset FieldElement := (xs.map fun x => element x.toUInt64).toFinset

/-- The polynomial of a block. -/
noncomputable def blockPolynomial (value : UInt64) (coefficients : List UInt64) : FieldElement[X] :=
  Lib.ofCoeffs ((value :: coefficients).map element)

section

variable {value value' : UInt64} {coefficients coefficients' : List UInt64} {xs : List UInt32}

theorem eval_blockPolynomial_zero : (blockPolynomial value coefficients).eval 0 = element value := by
  rw [blockPolynomial, List.map_cons, Lib.eval_ofCoeffs_zero]

theorem degree_blockPolynomial_lt (hlen : coefficients.length = xs.length) :
    (blockPolynomial value coefficients).degree < (xs.length + 1 : ℕ) := by
  have hdegree := Lib.degree_ofCoeffs_lt ((value :: coefficients).map element)
  rwa [List.length_map, List.length_cons, hlen] at hdegree

/-- Equal shares are equal values at the points. -/
theorem shareValues_eq_iff : shareValues value' coefficients' xs = shareValues value coefficients xs ↔
    ∀ x ∈ points xs, (blockPolynomial value' coefficients').eval x = (blockPolynomial value coefficients).eval x := by
  rw [shareValues, shareValues, List.map_inj_left]
  simp only [points, List.mem_toFinset, List.mem_map, forall_exists_index, and_imp, forall_apply_eq_imp_iff₂]
  refine forall₂_congr fun x _ => ?_
  rw [blockPolynomial, blockPolynomial, ← element_evaluatePolynomial, ← element_evaluatePolynomial]
  exact ⟨congrArg element, element_injOn (evaluatePolynomial_lt _ _) (evaluatePolynomial_lt _ _)⟩

/-- The polynomial with the same values at the points and the value of `value'` at 0. -/
noncomputable def shifted (value value' : UInt64) (coefficients : List UInt64) (xs : List UInt32) : FieldElement[X] :=
  blockPolynomial value coefficients + C (element value' - element value) * Lib.mask (points xs)

noncomputable def shiftedCoefficients (value value' : UInt64) (coefficients : List UInt64) (xs : List UInt32) :
    List UInt64 :=
  (List.range xs.length).map fun j => ofElement ((shifted value value' coefficients xs).coeff (j + 1))

theorem coeff_shifted {j : ℕ} (hj : j < coefficients.length) :
    (shifted value value' coefficients xs).coeff (j + 1) =
      element coefficients[j] + (element value' - element value) * (Lib.mask (points xs)).coeff (j + 1) := by
  rw [shifted, coeff_add, coeff_C_mul, blockPolynomial, Lib.coeff_ofCoeffs, List.map_cons, List.getD_cons_succ,
    List.getD_eq_getElem _ _ (by simpa using hj), List.getElem_map]

theorem card_points (hnodup : xs.Nodup) : (points xs).card = xs.length := by
  rw [points, List.toFinset_card_of_nodup (hnodup.map element_toUInt64_injective), List.length_map]

theorem zero_notMem_points (hpos : 0 ∉ xs) : (0 : FieldElement) ∉ points xs := by
  intro h
  obtain ⟨x, hx, hzero⟩ := List.mem_map.1 (List.mem_toFinset.1 h)
  have hx0 : element (UInt32.toUInt64 0) = 0 := by simp [element]
  exact hpos (element_toUInt64_injective (hzero.trans hx0.symm) ▸ hx)

variable (hnodup : xs.Nodup) (hpos : 0 ∉ xs) (hlen : coefficients.length = xs.length)
include hnodup hlen

theorem degree_shifted_lt : (shifted value value' coefficients xs).degree < (xs.length + 1 : ℕ) := by
  have hdegree : (blockPolynomial value coefficients).degree < _ := degree_blockPolynomial_lt hlen
  rw [← card_points hnodup] at hdegree ⊢
  exact Lib.degree_add_mask_lt hdegree _

/-- The shifted polynomial is that of its coefficients. -/
theorem blockPolynomial_shiftedCoefficients :
    blockPolynomial value' (shiftedCoefficients value value' coefficients xs) =
      shifted value value' coefficients xs := by
  have hzero : (shifted value value' coefficients xs).coeff 0 = element value' := by
    rw [coeff_zero_eq_eval_zero, shifted, Lib.eval_add_mask_zero, eval_blockPolynomial_zero, add_sub_cancel]
  have hmap : (value' :: shiftedCoefficients value value' coefficients xs).map element =
      (List.range (xs.length + 1)).map (shifted value value' coefficients xs).coeff := by
    rw [List.range_succ_eq_map, List.map_cons, List.map_cons, hzero, shiftedCoefficients, List.map_map, List.map_map]
    congr 1
    exact List.map_congr_left fun j _ => element_ofElement _
  rw [blockPolynomial, hmap, Lib.ofCoeffs_map_coeff (degree_shifted_lt hnodup hlen)]

include hpos

/-- No other coefficients have the shares, with that value. -/
theorem eq_shiftedCoefficients
    (hmem : coefficients' ∈ explanations value' xs (shareValues value coefficients xs)) :
    coefficients' = shiftedCoefficients value value' coefficients xs := by
  obtain ⟨hlen', hprod, hshares⟩ := hmem
  have hdegree : (blockPolynomial value coefficients).degree < _ := degree_blockPolynomial_lt hlen
  have hdegree' : (blockPolynomial value' coefficients').degree < _ := degree_blockPolynomial_lt hlen'
  rw [← card_points hnodup] at hdegree hdegree'
  have hpoly : blockPolynomial value' coefficients' =
      blockPolynomial value' (shiftedCoefficients value value' coefficients xs) := by
    rw [blockPolynomial_shiftedCoefficients hnodup hlen,
      Lib.eq_add_mask (zero_notMem_points hpos) hdegree hdegree' (shareValues_eq_iff.1 hshares),
      eval_blockPolynomial_zero, eval_blockPolynomial_zero, shifted]
  have hmap := Lib.ofCoeffs_injective (by simp [shiftedCoefficients, hlen']) hpoly
  rw [List.map_cons, List.map_cons, List.cons.injEq] at hmap
  have hback : coefficients'.map (ofElement ∘ element) = coefficients' := by
    refine (List.map_congr_left fun a ha => ?_).trans (List.map_id _)
    exact ofElement_element (randomFieldElement_surjOn.1 (hprod a ha)).1
  rw [← hback, ← List.map_map, hmap.2, shiftedCoefficients, List.map_map, List.map_map]
  exact List.map_congr_left fun j _ => ofElement_element (ofElement_lt _)

/-- They have the shares, but the sampler returns them only if none of them is 0. -/
theorem shiftedCoefficients_mem_iff :
    shiftedCoefficients value value' coefficients xs ∈ explanations value' xs (shareValues value coefficients xs) ↔
      ∀ j, (h : j < coefficients.length) →
        element coefficients[j] + (element value' - element value) * (Lib.mask (points xs)).coeff (j + 1) ≠ 0 := by
  have hshares : shareValues value' (shiftedCoefficients value value' coefficients xs) xs =
      shareValues value coefficients xs := by
    refine shareValues_eq_iff.2 fun x hx => ?_
    have hne : x ≠ 0 := fun h => zero_notMem_points hpos (h ▸ hx)
    rw [blockPolynomial_shiftedCoefficients hnodup hlen, shifted, Lib.eval_add_mask hx hne]
  constructor
  · rintro ⟨-, hprod, -⟩ j hj
    have hmem := hprod _ (List.mem_map_of_mem (List.mem_range.2 (hlen ▸ hj)))
    rw [randomFieldElement_surjOn, element_ofElement, coeff_shifted hj] at hmem
    exact hmem.2
  · intro hne
    refine ⟨by simp [shiftedCoefficients], fun a ha => ?_, hshares⟩
    obtain ⟨j, hj, rfl⟩ := List.mem_map.1 ha
    have hj' : j < coefficients.length := hlen ▸ List.mem_range.1 hj
    rw [randomFieldElement_surjOn, element_ofElement, coeff_shifted hj']
    exact ⟨ofElement_lt _, hne j hj'⟩

end

/-- The shares at one point fewer than the threshold are explained by another block
value, and as often as by the one they were made of, exactly when the coefficients that
would explain them have no 0 among them. -/
theorem secrecy_iff (value value' : UInt64) {xs : List UInt32} (hnodup : xs.Nodup) (hpos : 0 ∉ xs)
    {coefficients : List UInt64} (hlen : coefficients.length = xs.length) (hprod : Producible coefficients) :
    let ys := shareValues value coefficients xs
    ((∃ coefficients', coefficients' ∈ explanations value' xs ys) ∧
        (explanations value xs ys).ncard = (explanations value' xs ys).ncard) ↔
      ∀ j, (h : j < coefficients.length) →
        element coefficients[j] + (element value' - element value) * (Lib.mask (points xs)).coeff (j + 1) ≠ 0 := by
  rw [← shiftedCoefficients_mem_iff hnodup hpos hlen]
  constructor
  · rintro ⟨⟨coefficients', hmem⟩, -⟩
    rwa [eq_shiftedCoefficients hnodup hpos hlen hmem] at hmem
  · intro hmem
    have hsingle : ∀ {w : UInt64} {c : List UInt64}, c ∈ explanations w xs (shareValues value coefficients xs) →
        (explanations w xs (shareValues value coefficients xs)).ncard = 1 := by
      intro w c hc
      rw [Set.ncard_eq_one]
      refine ⟨c, Set.Subset.antisymm (fun c' hc' => ?_) (Set.singleton_subset_iff.2 hc)⟩
      exact (eq_shiftedCoefficients hnodup hpos hlen hc').trans (eq_shiftedCoefficients hnodup hpos hlen hc).symm
    refine ⟨⟨_, hmem⟩, ?_⟩
    rw [hsingle hmem, hsingle ⟨hlen, hprod, rfl⟩]

theorem coeff_mask_one : (Lib.mask (points [1])).coeff 1 = -1 := by
  have hpoint : points [1] = {1} := by simp [points, element]
  rw [hpoint, Lib.mask, Finset.prod_singleton, inv_one, C_1, one_mul, coeff_sub, coeff_X_one, coeff_one]
  simp

theorem producible_five : Producible [5] := by
  intro a ha
  rw [List.mem_singleton.1 ha]
  exact ⟨5, by decide⟩

theorem secrecy_zero_one :
    (∃ coefficients, coefficients ∈ explanations 1 [1] (shareValues 0 [5] [1])) ∧
      (explanations 0 [1] (shareValues 0 [5] [1])).ncard = (explanations 1 [1] (shareValues 0 [5] [1])).ncard := by
  refine (secrecy_iff 0 1 (by decide) (by decide) (by rfl) producible_five).2 fun j hj => ?_
  obtain rfl : j = 0 := by simpa using hj
  rw [coeff_mask_one]
  exact (by decide : element 5 + (element 1 - element 0) * -1 ≠ 0)

/-- The share (1, 5) of a threshold of two excludes the block value 5. -/
theorem secrecy_fails_five :
    Producible [5] ∧ ¬∃ coefficients, coefficients ∈ explanations 5 [1] (shareValues 0 [5] [1]) := by
  refine ⟨producible_five, ?_⟩
  rintro ⟨coefficients, hmem⟩
  have heq := eq_shiftedCoefficients (by decide) (by decide) (by rfl) hmem
  rw [heq, shiftedCoefficients_mem_iff (by decide) (by decide) (by rfl)] at hmem
  refine hmem 0 (by decide) ?_
  rw [coeff_mask_one]
  decide

end GmKms.Shamir
