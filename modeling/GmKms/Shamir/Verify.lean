import GmKms.Shamir.Scheme
/-!
# Checking a share

The commitments are hashes of the coefficients, which one share does not determine. What
is checked of a share is that its block has commitments and that its value is a field element.
-/

namespace GmKms.Shamir

namespace ShamirSecretSharing

theorem verifyShare_valid_iff (sss : ShamirSecretSharing) (share : Share) (commitments : List Commitment) :
    (sss.verifyShare share commitments).valid = true ↔
      (∃ c ∈ commitments, c.blockIndex = share.blockIndex) ∧ share.y < sss.prime := by
  have hempty : ((commitments.filter (·.blockIndex == share.blockIndex)).mergeSort (·.index ≤ ·.index)).isEmpty = true ↔
      ¬∃ c ∈ commitments, c.blockIndex = share.blockIndex := by
    rw [List.isEmpty_iff_length_eq_zero, List.length_mergeSort, List.length_eq_zero_iff, List.filter_eq_nil_iff]
    simp
  rw [verifyShare]
  split
  · rename_i h
    simp [hempty.1 h]
  · rename_i h
    simp [not_not.1 (mt hempty.2 h)]

theorem verifyShareAllBlocks_valid_iff (sss : ShamirSecretSharing) (sharesForX : List Share)
    (commitments : List Commitment) :
    (sss.verifyShareAllBlocks sharesForX commitments).valid = true ↔
      commitments ≠ [] ∧ ∀ share ∈ sharesForX, (sss.verifyShare share commitments).valid = true := by
  rw [verifyShareAllBlocks]
  split
  · rename_i h
    simp [List.isEmpty_iff.1 h]
  · rename_i h
    have hne : commitments ≠ [] := fun he => h (by rw [he]; rfl)
    split
    · rename_i result hfind
      have hinvalid : result.valid = false := by simpa using List.find?_some hfind
      obtain ⟨share, hshare, rfl⟩ := List.mem_map.1 (List.mem_of_find?_eq_some hfind)
      rw [hinvalid]
      constructor
      · intro h
        cases h
      · rintro ⟨-, hall⟩
        rw [hall share hshare] at hinvalid
        cases hinvalid
    · rename_i hfind
      rw [List.find?_eq_none] at hfind
      simpa [hne] using hfind

section

variable {draw : ℕ → ℕ → UInt64} {id : Uuid} {now : DateTime} {secret : Bytes} {threshold totalShares : UInt32}

/-- The commitments that are published: those of all coefficients of all blocks. -/
theorem getD_commitments_deal :
    (new.deal draw id now secret threshold totalShares true).commitments.getD [] =
      (List.range (numBlocks secret).toNat).flatMap fun b =>
        generateCommitmentsForBlock (blockCoefficients draw secret threshold b) (.ofNat b) := by
  simp only [deal, Bool.true_and, if_true]
  generalize (List.range (numBlocks secret).toNat).flatMap _ = commitments
  cases commitments <;> rfl

/-- Every block has commitments. -/
theorem exists_commitment_iff {blockIndex : UInt32} :
    (∃ c ∈ (new.deal draw id now secret threshold totalShares true).commitments.getD [], c.blockIndex = blockIndex) ↔
      blockIndex < numBlocks secret := by
  rw [getD_commitments_deal]
  constructor
  · rintro ⟨c, hc, rfl⟩
    obtain ⟨b, hb, hc⟩ := List.mem_flatMap.1 hc
    obtain ⟨a, -, rfl⟩ := List.mem_map.1 hc
    have hlt := List.mem_range.1 hb
    rw [UInt32.lt_iff_toNat_lt, UInt32.toNat_ofNat_of_lt' (hlt.trans (numBlocks secret).toNat_lt)]
    exact hlt
  · intro hlt
    refine ⟨⟨blockIndex, 0, commitmentValue blockIndex 0 (secretValue (blockBytes (padded secret) blockIndex.toNat))⟩,
      List.mem_flatMap.2 ⟨blockIndex.toNat, List.mem_range.2 hlt, ?_⟩, rfl⟩
    rw [generateCommitmentsForBlock, UInt32.ofNat_toNat, blockCoefficients, List.zipIdx_cons, List.map_cons]
    exact List.mem_cons_self

theorem verifyShare_deal_iff (share : Share) :
    (new.verifyShare share
        ((new.deal draw id now secret threshold totalShares true).commitments.getD [])).valid = true ↔
      share.blockIndex < numBlocks secret ∧ share.y < fieldPrime := by
  rw [verifyShare_valid_iff, exists_commitment_iff]
  rfl

theorem mem_shares_deal {verifiable : Bool} {share : Share}
    (h : share ∈ (new.deal draw id now secret threshold totalShares verifiable).shares) :
    share.blockIndex < numBlocks secret ∧ share.y < fieldPrime := by
  obtain ⟨b, hb, hshare⟩ := List.mem_flatMap.1 h
  obtain ⟨i, -, rfl⟩ := List.mem_map.1 hshare
  have hlt := List.mem_range.1 hb
  refine ⟨?_, evaluatePolynomial_lt _ _⟩
  rw [UInt32.lt_iff_toNat_lt, UInt32.toNat_ofNat_of_lt' (hlt.trans (numBlocks secret).toNat_lt)]
  exact hlt

end

/-- Against the commitments of a verifiable split, the shares of the split are accepted,
and with them every share of one of its blocks whose value is a field element. -/
theorem verifyShare_split (draw : ℕ → ℕ → UInt64) (id : Uuid) (now : DateTime) {secret : Bytes}
    {threshold totalShares : UInt32} (hsecret : secret ≠ []) (hk : 2 ≤ threshold) (hn : threshold ≤ totalShares) :
    ∃ shares, new.splitWith draw id now secret threshold totalShares true = .ok shares ∧
      let commitments := shares.commitments.getD []
      (∀ share ∈ shares.shares, (new.verifyShare share commitments).valid = true) ∧
        (∀ share, (new.verifyShare share commitments).valid = true ↔
          share.blockIndex < numBlocks secret ∧ share.y < fieldPrime) ∧
        ∀ sharesForX, (new.verifyShareAllBlocks sharesForX commitments).valid = true ↔
          commitments ≠ [] ∧ ∀ share ∈ sharesForX, (new.verifyShare share commitments).valid = true := by
  refine ⟨_, new.splitWith_eq hk hn hsecret, fun share h => ?_, verifyShare_deal_iff, fun sharesForX => ?_⟩
  · exact (verifyShare_deal_iff share).2 (mem_shares_deal h)
  · exact new.verifyShareAllBlocks_valid_iff sharesForX _

theorem verifyShare_split_one_byte : ∃ shares, new.splitWith (fun _ _ => 5) 0 0 [1] 2 2 true = .ok shares ∧
    ∀ share ∈ shares.shares, (new.verifyShare share (shares.commitments.getD [])).valid = true := by
  obtain ⟨shares, hsplit, hmembers, -⟩ := verifyShare_split (fun _ _ => 5) 0 0 (show ([1] : Bytes) ≠ [] by decide)
    (show (2 : UInt32) ≤ 2 by decide) (show (2 : UInt32) ≤ 2 by decide)
  exact ⟨shares, hsplit, hmembers⟩

/-- A share with a value that is not the dealer's, which is accepted nevertheless. -/
theorem verifyShare_accepts_altered : ∃ shares, new.splitWith (fun _ _ => 5) 0 0 [1] 2 2 true = .ok shares ∧
    7 ≠ new.evaluatePolynomial (blockCoefficients (fun _ _ => 5) [1] 2 0) 1 ∧
      (new.verifyShare ⟨1, 7, 0⟩ (shares.commitments.getD [])).valid = true ∧
        (new.verifyShareAllBlocks [⟨1, 7, 0⟩] (shares.commitments.getD [])).valid = true := by
  have hvalid : (new.verifyShare ⟨1, 7, 0⟩
      ((new.deal (fun _ _ => 5) 0 0 [1] 2 2 true).commitments.getD [])).valid = true :=
    (verifyShare_deal_iff _).2 ⟨by decide, by decide⟩
  refine ⟨_, splitWith_eq _ (by decide) (by decide) (by decide), by decide +kernel, hvalid, ?_⟩
  refine (verifyShareAllBlocks_valid_iff _ _ _).2 ⟨?_, by simpa using hvalid⟩
  obtain ⟨⟨c, hc, -⟩, -⟩ := (verifyShare_valid_iff _ _ _).1 hvalid
  exact List.ne_nil_of_mem hc

end ShamirSecretSharing

end GmKms.Shamir
