import GmKms.Shamir.Scheme
/-!
# Reconstruction gives the secret back

Enough shares of a block interpolate to its bytes, and the padding comes off with or
without the recorded length. What fails is the count of blocks, which is kept in 32 bits.
-/

namespace GmKms.Shamir

open Lib (ofBytes)
open Lib.Sha256 (toBytes)

/-! ## Padding and blocks -/

theorem paddedLen_eq (n : ℕ) : paddedLen n = (n / 7 + 1) * 7 := by
  rw [paddedLen, blockSize]
  split <;> omega

theorem length_padded (secret : Bytes) : (padded secret).length = (secret.length / 7 + 1) * 7 := by
  have hle := Nat.div_add_mod secret.length 7
  rw [padded, List.length_append, List.length_replicate, paddedLen_eq]
  omega

theorem toNat_numBlocks (secret : Bytes) : (numBlocks secret).toNat = (secret.length / 7 + 1) % 2 ^ 32 := by
  rw [numBlocks, UInt32.toNat_ofNat', paddedLen_eq, blockSize, Nat.mul_div_cancel _ (by decide)]

theorem length_blockBytes {bytes : Bytes} {n b : ℕ} (hlen : n * 7 ≤ bytes.length) (hb : b < n) :
    (blockBytes bytes b).length = 7 := by
  rw [blockBytes, List.length_take, List.length_drop, blockSize]
  omega

/-- The blocks, one after the other, are the bytes again. -/
theorem flatMap_blockBytes (bytes : Bytes) (n : ℕ) :
    (List.range n).flatMap (blockBytes bytes) = bytes.take (n * 7) := by
  induction n with
  | zero => simp
  | succ n ih =>
    rw [List.range_succ, List.flatMap_append, ih, List.flatMap_singleton, blockBytes, blockSize, ← List.take_add,
      Nat.succ_mul]

theorem toNat_secretValue {bytes : Bytes} (hlen : bytes.length = 7) : (secretValue bytes).toNat = ofBytes bytes := by
  have hzero : ofBytes (0 :: bytes) = ofBytes bytes := rfl
  have hlt := Lib.ofBytes_lt bytes
  rw [hlen] at hlt
  rw [secretValue, hzero, UInt64.toNat_ofNat_of_lt' (hlt.trans (by decide))]

theorem secretValue_lt {bytes : Bytes} (hlen : bytes.length = 7) : secretValue bytes < fieldPrime := by
  have hlt := Lib.ofBytes_lt bytes
  rw [hlen] at hlt
  rw [lt_fieldPrime_iff, toNat_secretValue hlen]
  exact hlt.trans (by decide)

theorem valueBytes_secretValue {bytes : Bytes} (hlen : bytes.length = 7) : valueBytes (secretValue bytes) = bytes := by
  have hdrop : ∀ x : ℕ, (toBytes x 8).drop 1 = toBytes x 7 := fun x => by simp [toBytes]
  rw [valueBytes, hdrop, toNat_secretValue hlen, ← hlen, Lib.toBytes_ofBytes]

theorem removePadding_some {secret : Bytes} : removePadding (some secret.length) (padded secret) = secret := by
  rw [removePadding, if_pos (by rw [padded, List.length_append]; omega), padded, List.take_left]

/-- Too few blocks are left as they are. -/
theorem removePadding_of_lt {n : ℕ} {bytes : Bytes} (h : bytes.length < n) : removePadding (some n) bytes = bytes :=
  if_neg (by omega)

/-- The last byte tells how many bytes were added. -/
theorem removePadding_none (secret : Bytes) : removePadding none (padded secret) = secret := by
  obtain ⟨pad, hpad⟩ : ∃ pad, paddedLen secret.length - secret.length = pad + 1 :=
    ⟨6 - secret.length % 7, by rw [paddedLen_eq]; omega⟩
  have hle : pad < 7 := by
    rw [paddedLen_eq] at hpad
    omega
  have hbyte : (UInt8.ofNat (pad + 1)).toNat = pad + 1 := UInt8.toNat_ofNat_of_lt' (show pad + 1 < 256 by omega)
  have hpadded : padded secret = secret ++ List.replicate (pad + 1) (UInt8.ofNat (pad + 1)) := by
    rw [padded, hpad]
  have hlast : (padded secret).getLastD 0 = UInt8.ofNat (pad + 1) := by
    rw [hpadded, List.replicate_succ', ← List.append_assoc]
    simp
  have hstart : (padded secret).length - (pad + 1) = secret.length := by
    rw [hpadded, List.length_append, List.length_replicate]
    omega
  have hlong : pad + 1 ≤ (padded secret).length := by
    rw [hpadded, List.length_append, List.length_replicate]
    omega
  have htake : (padded secret).take secret.length = secret := by rw [padded, List.take_left]
  have hdrop : (padded secret).drop secret.length = List.replicate (pad + 1) (UInt8.ofNat (pad + 1)) := by
    rw [hpadded, List.drop_left]
  rw [removePadding, hlast, hbyte]
  simp only [hstart, htake, hdrop]
  rw [if_pos ⟨by omega, by omega, hlong⟩, if_pos (by simp)]

/-! ## Interpolation -/

/-- Where a share is taken. -/
def Share.point (share : Share) : FieldElement := element share.x.toUInt64

namespace ShamirSecretSharing

theorem element_lagrangeLoop (shares : List Share) (i : Fin shares.length) (js : List (Fin shares.length))
    (acc : UInt64 × UInt64) :
    let result := js.foldl (new.lagrangeStep shares i) acc
    element result.1 = element acc.1 * (js.map fun j => if i ≠ j then (shares.get j).point else 1).prod ∧
      element result.2 = element acc.2 * (js.map fun j => if i ≠ j then (shares.get j).point - (shares.get i).point
        else 1).prod := by
  induction js generalizing acc with
  | nil => simp
  | cons j js ih =>
    obtain ⟨hnum, hden⟩ := ih (new.lagrangeStep shares i acc j)
    rw [List.foldl_cons, List.map_cons, List.map_cons, List.prod_cons, List.prod_cons]
    by_cases hij : i = j
    · have hstep : new.lagrangeStep shares i acc j = acc := if_neg (by simpa using hij)
      rw [hstep] at hnum hden ⊢
      simpa [hij] using And.intro hnum hden
    · have hstep : new.lagrangeStep shares i acc j = (new.mulMod acc.1 shares[j].x.toUInt64,
          new.mulMod acc.2 (new.subMod shares[j].x.toUInt64 shares[i].x.toUInt64)) := if_pos hij
      rw [if_pos hij, if_pos hij]
      constructor
      · rw [hnum, hstep, element_mulMod, mul_assoc]
        rfl
      · rw [hden, hstep, element_mulMod, element_subMod (toUInt64_lt_fieldPrime _) (toUInt64_lt_fieldPrime _),
          mul_assoc]
        rfl

/-- A product over the other shares, as the loop makes it. -/
theorem prod_map_finRange {n : ℕ} (i : Fin n) (f : Fin n → FieldElement) :
    ((List.finRange n).map fun j => if i ≠ j then f j else 1).prod = ∏ j ∈ Finset.univ.erase i, f j := by
  have herase : (Finset.univ.filter fun j => i ≠ j) = Finset.univ.erase i := by
    ext j
    simp [eq_comm]
  rw [← Fin.prod_univ_def, ← Finset.prod_filter, herase]

theorem element_lagrangeCoeff (shares : List Share) (i : Fin shares.length) :
    element (new.lagrangeCoeff shares i) =
      (∏ j ∈ Finset.univ.erase i, (shares.get j).point) *
        (∏ j ∈ Finset.univ.erase i, ((shares.get j).point - (shares.get i).point))⁻¹ := by
  obtain ⟨hnum, hden⟩ := element_lagrangeLoop shares i (List.finRange shares.length) (1, 1)
  have hone : element 1 = 1 := by simp [element]
  rw [lagrangeCoeff, element_mulMod, element_invMod, hnum, hden, prod_map_finRange, prod_map_finRange, hone, one_mul,
    one_mul]

theorem reconstructLoop_spec (shares : List Share) (is : List (Fin shares.length)) {value : UInt64}
    (hvalue : value < fieldPrime) :
    is.foldl (new.reconstructStep shares) value < fieldPrime ∧
      element (is.foldl (new.reconstructStep shares) value) =
        element value + (is.map fun i => element (shares.get i).y * element (new.lagrangeCoeff shares i)).sum := by
  induction is generalizing value with
  | nil =>
    rw [List.map_nil, List.sum_nil, add_zero]
    exact ⟨hvalue, rfl⟩
  | cons i is ih =>
    obtain ⟨hlt, hsum⟩ := @ih (new.reconstructStep shares value i) (addMod_lt _ _)
    rw [List.foldl_cons]
    refine ⟨hlt, hsum.trans ?_⟩
    rw [reconstructStep, element_addMod hvalue (mulMod_lt _ _), element_mulMod, List.map_cons, List.sum_cons, add_assoc]
    rfl

/-- Shares of a polynomial, no fewer than it has coefficients, give its value at 0. -/
theorem reconstructBlock_eq {shares : List Share} {value : UInt64} {coefficients : List UInt64}
    (hvalue : value < fieldPrime) (hlen : coefficients.length < shares.length) (hdistinct : (shares.map (·.x)).Nodup)
    (hshares : ∀ s ∈ shares, s.y = new.evaluatePolynomial (value :: coefficients) s.x.toUInt64) :
    new.reconstructBlock shares = value := by
  set f := Lib.ofCoeffs ((value :: coefficients).map element) with hf
  have hzero : element 0 = 0 := by simp [element]
  obtain ⟨hlt, hsum⟩ := reconstructLoop_spec shares (List.finRange shares.length)
    (show (0 : UInt64) < fieldPrime by decide)
  apply element_injOn hlt hvalue
  have hdegree : f.degree < (Finset.univ : Finset (Fin shares.length)).card := by
    refine lt_of_lt_of_le (Lib.degree_ofCoeffs_lt _) ?_
    rw [Finset.card_univ, Fintype.card_fin]
    exact_mod_cast (by simpa using hlen)
  have hinj : Set.InjOn (fun i : Fin shares.length => shares[i].point) (Finset.univ : Finset (Fin shares.length)) := by
    intro i _ j _ hij
    have hshare := List.inj_on_of_nodup_map hdistinct (List.getElem_mem i.2) (List.getElem_mem j.2)
      (element_toUInt64_injective hij)
    exact List.nodup_iff_injective_getElem.1 hdistinct.of_map hshare
  calc element (new.reconstructBlock shares)
    _ = ∑ i : Fin shares.length, element shares[i].y * element (new.lagrangeCoeff shares i) := by
      rw [Fin.sum_univ_def, ← zero_add (List.sum _), ← hzero]
      exact hsum
    _ = ∑ i : Fin shares.length, f.eval shares[i].point * ((∏ j ∈ Finset.univ.erase i, shares[j].point) *
        (∏ j ∈ Finset.univ.erase i, (shares[j].point - shares[i].point))⁻¹) := by
      refine Finset.sum_congr rfl fun i _ => ?_
      rw [hshares shares[i] (List.getElem_mem i.2), element_evaluatePolynomial, element_lagrangeCoeff]
      rfl
    _ = f.eval 0 := (Lib.eval_zero_eq_sum hinj hdegree).symm
    _ = element value := by rw [hf, List.map_cons, Lib.eval_ofCoeffs_zero]

end ShamirSecretSharing

/-! ## The whole secret -/

/-- For each block as many of its shares, no two of them at one `x`. -/
structure Selection (shares : Shares) (m : ℕ) (picked : List (List Share)) : Prop where
  length_eq : picked.length = (shares.metadata.numBlocks.getD 1).toNat
  length_block : ∀ block ∈ picked, block.length = m
  mem_shares : ∀ b, (h : b < picked.length) → ∀ s ∈ picked[b], s ∈ shares.shares ∧ s.blockIndex = .ofNat b
  distinct : ∀ block ∈ picked, (block.map (·.x)).Nodup

/-- Reconstruction succeeded, with this secret. -/
def ReconstructionResult.Gives (result : ReconstructionResult) (secret : Bytes) : Prop :=
  result.success = true ∧ result.secret = some secret

/-- The hash lets the right secret through. -/
theorem gives_checkSecretHash {secret found : Bytes} {sharesUsed : UInt32} :
    (checkSecretHash (some (secretHash secret)) found sharesUsed).Gives secret ↔ found = secret := by
  constructor
  · rintro ⟨hsuccess, hsecret⟩
    rw [checkSecretHash] at hsuccess hsecret
    split at hsecret
    · cases hsecret
    · exact Option.some.inj hsecret
  · rintro rfl
    exact ⟨by simp [checkSecretHash], by simp [checkSecretHash]⟩

/-- Blocks of one length are found again in their concatenation. -/
theorem take_drop_flatten {picked : List (List Share)} {m b : ℕ} (hm : ∀ block ∈ picked, block.length = m)
    (hb : b < picked.length) : (picked.flatten.drop (b * m)).take m = picked[b] := by
  induction picked generalizing b with
  | nil => simp at hb
  | cons block picked ih =>
    have hblock := hm block (by simp)
    cases b with
    | zero => rw [List.flatten_cons, Nat.zero_mul, List.drop_zero, ← hblock, List.take_left, List.getElem_cons_zero]
    | succ b =>
      rw [List.flatten_cons, Nat.succ_mul, Nat.add_comm, ← List.drop_drop, List.drop_left' hblock,
        List.getElem_cons_succ]
      exact ih (fun block h => hm block (List.mem_cons_of_mem _ h)) (by simpa using hb)

theorem length_flatten_eq {picked : List (List Share)} {m : ℕ} (hm : ∀ block ∈ picked, block.length = m) :
    picked.flatten.length = picked.length * m := by
  rw [List.length_flatten, List.map_congr_left hm]
  simp

namespace ShamirSecretSharing

variable {draw : ℕ → ℕ → UInt64} {id : Uuid} {now : DateTime} {secret : Bytes} {threshold totalShares : UInt32}
  {verifiable : Bool} {m : ℕ} {picked : List (List Share)}

theorem numBlocks_mul_le (secret : Bytes) : (numBlocks secret).toNat * 7 ≤ (padded secret).length := by
  rw [length_padded, toNat_numBlocks]
  exact Nat.mul_le_mul_right 7 (Nat.mod_le _ _)

/-- Each share of a block lies on the polynomial of its block. -/
theorem eq_evaluatePolynomial {b : ℕ} (hb : b < (numBlocks secret).toNat) {s : Share}
    (hs : s ∈ (new.deal draw id now secret threshold totalShares verifiable).shares)
    (hblock : s.blockIndex = .ofNat b) :
    s.y = new.evaluatePolynomial (blockCoefficients draw secret threshold b) s.x.toUInt64 := by
  obtain ⟨b', hb', hs⟩ := List.mem_flatMap.1 hs
  obtain ⟨i, -, rfl⟩ := List.mem_map.1 hs
  have hlt := (numBlocks secret).toNat_lt
  have hb'' := List.mem_range.1 hb'
  have heq := congrArg UInt32.toNat hblock
  rw [UInt32.toNat_ofNat_of_lt' (by exact hb''.trans hlt), UInt32.toNat_ofNat_of_lt' (by exact hb.trans hlt)] at heq
  rw [heq]

theorem valueBytes_reconstructBlock
    (hsel : Selection (new.deal draw id now secret threshold totalShares verifiable) m picked)
    (hk : 2 ≤ threshold) (hm : threshold.toNat ≤ m) {b : ℕ} (hb : b < picked.length) :
    valueBytes (new.reconstructBlock picked[b]) = blockBytes (padded secret) b := by
  have hb' : b < (numBlocks secret).toNat := hsel.length_eq ▸ hb
  have hlen := length_blockBytes (numBlocks_mul_le secret) hb'
  have hk' : 2 ≤ threshold.toNat := hk
  have hmem := List.getElem_mem hb
  have hvalue : new.reconstructBlock picked[b] = secretValue (blockBytes (padded secret) b) := by
    have hshort : ((List.range (threshold.toNat - 1)).map (draw b)).length < picked[b].length := by
      rw [hsel.length_block _ hmem, List.length_map, List.length_range]
      omega
    refine reconstructBlock_eq (secretValue_lt hlen) hshort (hsel.distinct _ hmem) fun s hs => ?_
    obtain ⟨hshare, hblock⟩ := hsel.mem_shares b hb s hs
    exact eq_evaluatePolynomial hb' hshare hblock
  rw [hvalue, valueBytes_secretValue hlen]

/-- All the shares, block by block. -/
def allShares (draw : ℕ → ℕ → UInt64) (secret : Bytes) (threshold totalShares : UInt32) : List (List Share) :=
  (List.range (numBlocks secret).toNat).map fun b =>
    new.blockShares (blockCoefficients draw secret threshold b) totalShares b

theorem selection_allShares : Selection (new.deal draw id now secret threshold totalShares verifiable)
    totalShares.toNat (allShares draw secret threshold totalShares) where
  length_eq := by simp [allShares]
  length_block := by simp [allShares, blockShares]
  mem_shares b hb s hs := by
    have hb' : b < (numBlocks secret).toNat := by simpa [allShares] using hb
    simp only [allShares, List.getElem_map, List.getElem_range] at hs
    refine ⟨List.mem_flatMap.2 ⟨b, List.mem_range.2 hb', hs⟩, ?_⟩
    obtain ⟨i, -, rfl⟩ := List.mem_map.1 hs
    rfl
  distinct block hblock := by
    obtain ⟨b, -, rfl⟩ := List.mem_map.1 hblock
    rw [blockShares, List.map_map]
    refine List.Nodup.map_on (fun i hi j hj hij => ?_) List.nodup_range
    have hn := totalShares.toNat_lt
    rw [List.mem_range] at hi hj
    have heq := congrArg UInt32.toNat hij
    simp only [Function.comp, UInt32.toNat_ofNat'] at heq
    omega

theorem reconstructWithMetadata_eq
    (hsel : Selection (new.deal draw id now secret threshold totalShares verifiable) m picked)
    (hk : 2 ≤ threshold) (hm : threshold.toNat ≤ m) (hpos : 0 < (numBlocks secret).toNat) (originalLen : Option ℕ) :
    new.reconstructWithMetadata picked.flatten
        { (new.deal draw id now secret threshold totalShares verifiable).metadata with originalLen } =
      checkSecretHash (some (secretHash secret))
        (removePadding originalLen ((padded secret).take ((numBlocks secret).toNat * 7)))
        (.ofNat picked.flatten.length) := by
  have hk' : 2 ≤ threshold.toNat := hk
  have hblocks : picked.length = (numBlocks secret).toNat := hsel.length_eq
  have hlen := length_flatten_eq hsel.length_block
  rw [hblocks] at hlen
  have hle : (numBlocks secret).toNat ≤ picked.flatten.length := by
    rw [hlen]
    exact Nat.le_mul_of_pos_right _ (by omega)
  have hnonempty : picked.flatten.isEmpty = false := by
    rw [List.isEmpty_eq_false_iff_exists_mem]
    exact List.exists_mem_of_length_pos (by omega)
  have hdvd : picked.flatten.length % (numBlocks secret).toNat = 0 := by rw [hlen, Nat.mul_mod_right]
  have hdiv : picked.flatten.length / (numBlocks secret).toNat = m := by rw [hlen, Nat.mul_div_cancel_left _ hpos]
  have hbytes : ((List.range (numBlocks secret).toNat).flatMap fun b =>
      valueBytes (new.reconstructBlock ((picked.flatten.drop (b * m)).take m))) =
        (padded secret).take ((numBlocks secret).toNat * 7) := by
    rw [← flatMap_blockBytes]
    refine List.flatMap_congr fun b hb => ?_
    have hb' : b < picked.length := hblocks ▸ List.mem_range.1 hb
    rw [take_drop_flatten hsel.length_block hb', valueBytes_reconstructBlock hsel hk hm hb']
  rw [reconstructWithMetadata, hnonempty, if_neg Bool.false_ne_true]
  extract_lets _ n sharesPerBlock reconstructedBlocks
  have hn : n = (numBlocks secret).toNat := rfl
  have hfound : reconstructedBlocks = (padded secret).take ((numBlocks secret).toNat * 7) := by
    rw [← hbytes, ← hdiv]
    rfl
  rw [hn, if_neg (Nat.not_lt.2 hle), if_neg (not_not.2 hdvd), hfound]
  rfl

/-- With too many blocks for 32 bits, some are lost. -/
theorem not_gives_of_le (hlen : 7 * (2 ^ 32 - 1) ≤ secret.length)
    (hsel : Selection (new.deal draw id now secret threshold totalShares verifiable) m picked)
    (hk : 2 ≤ threshold) (hm : threshold.toNat ≤ m) :
    ¬(new.reconstructWithMetadata picked.flatten
        (new.deal draw id now secret threshold totalShares verifiable).metadata).Gives secret := by
  have hblocks := toNat_numBlocks secret
  rcases Nat.eq_zero_or_pos (numBlocks secret).toNat with hzero | hpos
  · have hempty : picked = [] := List.eq_nil_of_length_eq_zero (hsel.length_eq.trans hzero)
    rintro ⟨hsuccess, -⟩
    rw [hempty] at hsuccess
    cases hsuccess
  · have hshort : ((padded secret).take ((numBlocks secret).toNat * 7)).length < secret.length := by
      rw [List.length_take, length_padded]
      omega
    have heq := reconstructWithMetadata_eq hsel hk hm hpos (some secret.length)
    rw [removePadding_of_lt hshort] at heq
    change ¬(new.reconstructWithMetadata picked.flatten { (new.deal draw id now secret threshold totalShares
      verifiable).metadata with originalLen := some secret.length }).Gives secret
    rw [heq, gives_checkSecretHash]
    exact fun h => absurd (congrArg List.length h) (Nat.ne_of_lt hshort)

/-- Enough shares of each block give the secret back, with its recorded length or
without, exactly when the blocks can be counted in 32 bits. -/
theorem reconstruct_iff (draw : ℕ → ℕ → UInt64) (id : Uuid) (now : DateTime) (verifiable : Bool)
    (hsecret : secret ≠ []) (hk : 2 ≤ threshold) (hn : threshold ≤ totalShares) :
    ∃ shares, new.splitWith draw id now secret threshold totalShares verifiable = .ok shares ∧
      ∀ m picked, threshold.toNat ≤ m → Selection shares m picked →
        let result := new.reconstructWithMetadata picked.flatten shares.metadata
        (result.Gives secret ∧
            new.reconstructWithMetadata picked.flatten { shares.metadata with originalLen := none } = result ↔
          secret.length < 7 * (2 ^ 32 - 1)) := by
  refine ⟨_, new.splitWith_eq hk hn hsecret, fun m picked hm hsel => ?_⟩
  constructor
  · rintro ⟨hgives, -⟩
    by_contra hlen
    exact not_gives_of_le (by omega) hsel hk hm hgives
  · intro hlen
    have hblocks : (numBlocks secret).toNat = secret.length / 7 + 1 := by
      rw [toNat_numBlocks]
      omega
    have hall : (padded secret).take ((numBlocks secret).toNat * 7) = padded secret := by
      rw [hblocks, ← length_padded, List.take_length]
    have hwith := reconstructWithMetadata_eq hsel hk hm (by omega) (some secret.length)
    have hwithout := reconstructWithMetadata_eq hsel hk hm (by omega) none
    rw [hall, removePadding_some] at hwith
    rw [hall, removePadding_none] at hwithout
    refine ⟨?_, hwithout.trans hwith.symm⟩
    exact (congrArg (·.Gives secret) hwith).mpr (gives_checkSecretHash.2 rfl)

theorem reconstruct_three_bytes : ∃ shares picked,
    new.splitWith (fun b i => .ofNat (b + i + 5)) 0 0 [1, 2, 3] 2 3 true = .ok shares ∧ Selection shares 3 picked ∧
      (new.reconstructWithMetadata picked.flatten shares.metadata).Gives [1, 2, 3] := by
  obtain ⟨shares, hsplit, hall⟩ := reconstruct_iff (fun b i => .ofNat (b + i + 5)) 0 0 true
    (show ([1, 2, 3] : Bytes) ≠ [] by decide) (show (2 : UInt32) ≤ 2 by decide) (show (2 : UInt32) ≤ 3 by decide)
  obtain rfl : new.deal (fun b i => .ofNat (b + i + 5)) 0 0 [1, 2, 3] 2 3 true = shares := by
    rw [splitWith_eq _ (by decide) (by decide) (by decide)] at hsplit
    exact Except.ok.inj hsplit
  exact ⟨_, _, hsplit, selection_allShares, ((hall 3 _ (by decide) selection_allShares).2 (by decide)).1⟩

/-- 2^32 + 1 blocks after the padding. -/
def longSecret : Bytes := List.replicate (7 * 2 ^ 32) 0

theorem length_longSecret : longSecret.length = 7 * 2 ^ 32 := List.length_replicate

/-- All the shares of a secret of 28 GiB, which are those of its first block. -/
theorem reconstruct_longSecret_fails : ∃ shares picked,
    new.splitWith (fun _ _ => 1) 0 0 longSecret 2 2 false = .ok shares ∧ Selection shares 2 picked ∧
      ¬(new.reconstructWithMetadata picked.flatten shares.metadata).Gives longSecret := by
  have hlen := length_longSecret
  have hsecret : longSecret ≠ [] := List.ne_nil_of_length_pos (by rw [hlen]; decide)
  refine ⟨_, _, splitWith_eq _ (by decide) (by decide) hsecret, selection_allShares, ?_⟩
  exact not_gives_of_le (by rw [hlen]; decide) selection_allShares (by decide) (by decide)

end ShamirSecretSharing

end GmKms.Shamir
