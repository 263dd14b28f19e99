import GmKms.Shamir.Verify
/-!
# Checking coefficients

`verify_coefficients_against_commitments` takes the commitments of a block in the order
in which it finds them, and looks the commitment of a coefficient up by its position.
Neither the order nor the number of coefficients is checked.
-/

namespace GmKms.Shamir

namespace ShamirSecretSharing

/-- The coefficients from the `i`-th one on. A panic is an error with its message. -/
def checkCoefficients (blockIndex : UInt32) (blockCommitments : List Commitment) :
    ℕ → List UInt64 → Except String ShareVerification
  | _, [] => .ok ⟨true, 0, none⟩
  | i, coeff :: coefficients =>
    let expected := commitmentValue blockIndex (.ofNat i) coeff
    match blockCommitments[i]? with
    | none => .error s!"index out of bounds: the len is {blockCommitments.length} but the index is {i}"
    | some c =>
      if expected ≠ c.value then
        .ok ⟨false, 0, some s!"Coefficient {i} verification failed for block {blockIndex}"⟩
      else checkCoefficients blockIndex blockCommitments (i + 1) coefficients

def verifyCoefficientsAgainstCommitments (coefficients : List UInt64) (commitments : List Commitment)
    (blockIndex : UInt32) : Except String ShareVerification :=
  let blockCommitments := commitments.filter (·.blockIndex == blockIndex)
  if blockCommitments.isEmpty then .ok ⟨false, 0, some "No commitments for verification"⟩
  else checkCoefficients blockIndex blockCommitments 0 coefficients

/-! ## The loop -/

section

variable {blockIndex : UInt32} {blockCommitments : List Commitment} {coefficients : List UInt64}

/-- The commitment at the place of the coefficient is its commitment. -/
def Agrees (blockIndex : UInt32) (blockCommitments : List Commitment) (i : ℕ) (coeff : UInt64) : Prop :=
  ∃ c, blockCommitments[i]? = some c ∧ commitmentValue blockIndex (.ofNat i) coeff = c.value

/-- The coefficients are accepted if each agrees with the commitment at its place. -/
theorem checkCoefficients_valid_iff (i : ℕ) :
    (∃ r, checkCoefficients blockIndex blockCommitments i coefficients = .ok r ∧ r.valid = true) ↔
      ∀ j coeff, coefficients[j]? = some coeff → Agrees blockIndex blockCommitments (i + j) coeff := by
  induction coefficients generalizing i with
  | nil => simp [checkCoefficients]
  | cons a coefficients ih =>
    have hsplit : (∀ j coeff, (a :: coefficients)[j]? = some coeff → Agrees blockIndex blockCommitments (i + j) coeff) ↔
        Agrees blockIndex blockCommitments i a ∧
          ∀ j coeff, coefficients[j]? = some coeff → Agrees blockIndex blockCommitments (i + 1 + j) coeff := by
      constructor
      · intro h
        refine ⟨h 0 a rfl, ?_⟩
        intro j coeff hj
        rw [Nat.add_assoc, Nat.add_comm 1]
        exact h (j + 1) coeff (by simpa using hj)
      · rintro ⟨hhead, htail⟩ j coeff hj
        cases j with
        | zero =>
          cases hj
          exact hhead
        | succ j =>
          have := htail j coeff (by simpa using hj)
          rwa [Nat.add_assoc, Nat.add_comm 1] at this
    rw [hsplit, checkCoefficients]
    cases hc : blockCommitments[i]? with
    | none => simp [Agrees, hc]
    | some c =>
      dsimp only
      by_cases heq : commitmentValue blockIndex (.ofNat i) a = c.value
      · rw [if_neg (not_not.2 heq), ih, and_iff_right ⟨c, hc, heq⟩]
      · rw [if_pos heq]
        simp [Agrees, hc, heq]

/-- They run out of commitments if no earlier one disagrees with its own. -/
theorem checkCoefficients_ok_iff {i : ℕ} (hi : i ≤ blockCommitments.length) :
    (∃ r, checkCoefficients blockIndex blockCommitments i coefficients = .ok r) ↔
      i + coefficients.length ≤ blockCommitments.length ∨
        ∃ j coeff, coefficients[j]? = some coeff ∧ i + j < blockCommitments.length ∧
          ¬ Agrees blockIndex blockCommitments (i + j) coeff := by
  induction coefficients generalizing i with
  | nil => simp [checkCoefficients, hi]
  | cons a coefficients ih =>
    rw [checkCoefficients]
    cases hc : blockCommitments[i]? with
    | none =>
      have hle := List.getElem?_eq_none_iff.1 hc
      constructor
      · rintro ⟨r, hr⟩
        cases hr
      · rintro (hlen | ⟨j, coeff, -, hj, -⟩)
        · rw [List.length_cons] at hlen
          omega
        · omega
    | some c =>
      have hlt : i + 1 ≤ blockCommitments.length := (List.getElem?_eq_some_iff.1 hc).1
      dsimp only
      by_cases heq : commitmentValue blockIndex (.ofNat i) a = c.value
      · rw [if_neg (not_not.2 heq), ih hlt, List.length_cons]
        refine or_congr (by omega) ?_
        constructor
        · rintro ⟨j, coeff, hj, hlen, hdiffers⟩
          rw [Nat.add_assoc, Nat.add_comm 1] at hlen hdiffers
          exact ⟨j + 1, coeff, by simpa using hj, hlen, hdiffers⟩
        · rintro ⟨j, coeff, hj, hlen, hdiffers⟩
          cases j with
          | zero =>
            cases hj
            exact absurd ⟨c, hc, heq⟩ hdiffers
          | succ j =>
            refine ⟨j, coeff, by simpa using hj, ?_, ?_⟩
            · omega
            · rwa [Nat.add_assoc, Nat.add_comm 1]
      · rw [if_pos heq]
        refine iff_of_true ⟨_, rfl⟩ (.inr ⟨0, a, rfl, hlt, ?_⟩)
        rintro ⟨c', hc', heq'⟩
        rw [Nat.add_zero, hc] at hc'
        cases hc'
        exact heq heq'

end

/-! ## The commitments of a dealer -/

theorem length_blockCoefficients {draw : ℕ → ℕ → UInt64} {secret : Bytes} {threshold : UInt32} (hk : 2 ≤ threshold)
    (block : ℕ) : (blockCoefficients draw secret threshold block).length = threshold.toNat := by
  have hk' : 2 ≤ threshold.toNat := UInt32.le_iff_toNat_le.1 hk
  rw [blockCoefficients, List.length_cons, List.length_map, List.length_range]
  omega

section

variable {coefficients : List UInt64} {blockIndex : UInt32}

theorem mem_generateCommitmentsForBlock {c : Commitment} : c ∈ generateCommitmentsForBlock coefficients blockIndex ↔
    ∃ j a, coefficients[j]? = some a ∧ c = ⟨blockIndex, .ofNat j, commitmentValue blockIndex (.ofNat j) a⟩ := by
  rw [generateCommitmentsForBlock, List.mem_map]
  constructor
  · rintro ⟨⟨a, j⟩, hmem, rfl⟩
    exact ⟨j, a, List.mem_zipIdx_iff_getElem?.1 hmem, rfl⟩
  · rintro ⟨j, a, hj, rfl⟩
    exact ⟨(a, j), List.mem_zipIdx_iff_getElem?.2 hj, rfl⟩

theorem length_generateCommitmentsForBlock :
    (generateCommitmentsForBlock coefficients blockIndex).length = coefficients.length := by
  rw [generateCommitmentsForBlock, List.length_map, List.length_zipIdx]

theorem filter_generateCommitmentsForBlock (blockIndex' : UInt32) :
    (generateCommitmentsForBlock coefficients blockIndex).filter (·.blockIndex == blockIndex') =
      if blockIndex = blockIndex' then generateCommitmentsForBlock coefficients blockIndex else [] := by
  have hindex : ∀ c ∈ generateCommitmentsForBlock coefficients blockIndex, c.blockIndex = blockIndex := by
    intro c hc
    obtain ⟨j, a, -, rfl⟩ := mem_generateCommitmentsForBlock.1 hc
    rfl
  split
  · rename_i heq
    rw [List.filter_eq_self]
    intro c hc
    rw [hindex c hc, heq, beq_self_eq_true]
  · rename_i hne
    rw [List.filter_eq_nil_iff]
    intro c hc
    rw [hindex c hc, beq_iff_eq]
    exact hne

end

/-- The commitments of a block make up the part of the published list that has its index. -/
theorem filter_flatMap_generate {n b : ℕ} (hn : n ≤ UInt32.size) (coefficients : ℕ → List UInt64) (hb : b < n) :
    ((List.range n).flatMap fun i => generateCommitmentsForBlock (coefficients i) (.ofNat i)).filter
      (·.blockIndex == UInt32.ofNat b) = generateCommitmentsForBlock (coefficients b) (.ofNat b) := by
  obtain ⟨before, after, hrange⟩ := List.append_of_mem (List.mem_range.2 hb)
  have hnodup := List.nodup_range (n := n)
  rw [hrange, List.nodup_append] at hnodup
  obtain ⟨-, hafter, hbefore⟩ := hnodup
  -- the other blocks have other indices
  have hother : ∀ i ∈ List.range n, i ≠ b →
      (generateCommitmentsForBlock (coefficients i) (.ofNat i)).filter (·.blockIndex == UInt32.ofNat b) = [] := by
    intro i hi hne
    rw [filter_generateCommitmentsForBlock, if_neg]
    intro heq
    have hnat := congrArg UInt32.toNat heq
    rw [UInt32.toNat_ofNat_of_lt' ((List.mem_range.1 hi).trans_le hn),
      UInt32.toNat_ofNat_of_lt' (hb.trans_le hn)] at hnat
    exact hne hnat
  rw [List.filter_flatMap, hrange, List.flatMap_append, List.flatMap_cons, filter_generateCommitmentsForBlock,
    if_pos rfl, List.flatMap_eq_nil_iff.2, List.flatMap_eq_nil_iff.2, List.nil_append, List.append_nil]
  · intro i hi
    refine hother i (by rw [hrange]; simp [hi]) ?_
    rintro rfl
    exact (List.nodup_cons.1 hafter).1 hi
  · intro i hi
    refine hother i (by rw [hrange]; simp [hi]) ?_
    rintro rfl
    exact hbefore _ hi _ List.mem_cons_self rfl

/-! ## Which vectors are checked rightly -/

/-- Of what is hashed here nothing collides: a given coefficient at its place has the
commitment of a dealt one at its place only if the two are the same. -/
def CollisionFree (blockIndex : UInt32) (dealt given : List UInt64) : Prop :=
  ∀ i j x a, i < dealt.length → given[i]? = some x → dealt[j]? = some a →
    commitmentValue blockIndex (.ofNat i) x = commitmentValue blockIndex (.ofNat j) a → i = j ∧ x = a

/-- The commitment that is found at place `i` is that of coefficient `i`. -/
def InPlace (blockCommitments : List Commitment) (i : ℕ) : Prop :=
  ∃ c, blockCommitments[i]? = some c ∧ c.index = .ofNat i

/-- The dealt coefficients are given and the commitments are in order, or another vector is given
which a commitment within its length tells from the dealt one. -/
def RightlyChecked (blockCommitments : List Commitment) (dealt given : List UInt64) : Prop :=
  (given = dealt → ∀ i < dealt.length, InPlace blockCommitments i) ∧
    (given.length ≠ dealt.length →
      ∃ i < min given.length dealt.length, ¬ (InPlace blockCommitments i ∧ given[i]? = dealt[i]?))

section

variable {blockIndex : UInt32} {blockCommitments : List Commitment} {dealt given : List UInt64}

theorem agrees_iff (hperm : blockCommitments.Perm (generateCommitmentsForBlock dealt blockIndex))
    (hlength : dealt.length ≤ UInt32.size) (hhash : CollisionFree blockIndex dealt given) {i : ℕ} {x : UInt64}
    (hi : i < dealt.length) (hx : given[i]? = some x) :
    Agrees blockIndex blockCommitments i x ↔ InPlace blockCommitments i ∧ given[i]? = dealt[i]? := by
  have hfound : ∀ {c}, blockCommitments[i]? = some c → ∃ j a, dealt[j]? = some a ∧
      c = ⟨blockIndex, .ofNat j, commitmentValue blockIndex (.ofNat j) a⟩ := by
    intro c hc
    exact mem_generateCommitmentsForBlock.1 (hperm.subset (List.mem_of_getElem? hc))
  constructor
  · rintro ⟨c, hc, hvalue⟩
    obtain ⟨j, a, ha, rfl⟩ := hfound hc
    obtain ⟨rfl, rfl⟩ := hhash i j x a hi hx ha hvalue
    exact ⟨⟨_, hc, rfl⟩, hx.trans ha.symm⟩
  · rintro ⟨⟨c, hc, hindex⟩, hsame⟩
    obtain ⟨j, a, ha, rfl⟩ := hfound hc
    have hj := (List.getElem?_eq_some_iff.1 ha).1
    have hij := congrArg UInt32.toNat hindex
    dsimp only at hij
    rw [UInt32.toNat_ofNat_of_lt' (hj.trans_le hlength), UInt32.toNat_ofNat_of_lt' (hi.trans_le hlength)] at hij
    subst hij
    rw [hx, ha, Option.some.injEq] at hsame
    exact ⟨_, hc, by rw [hsame]⟩

/-- What the loop answers: nothing but a vector as long as the commitments or shorter is accepted. -/
theorem checkCoefficients_dealt (hperm : blockCommitments.Perm (generateCommitmentsForBlock dealt blockIndex))
    (hlength : dealt.length ≤ UInt32.size) (hhash : CollisionFree blockIndex dealt given) :
    ((∃ r, checkCoefficients blockIndex blockCommitments 0 given = .ok r ∧ r.valid = true) ↔
      given.length ≤ dealt.length ∧ ∀ i < given.length, InPlace blockCommitments i ∧ given[i]? = dealt[i]?) ∧
    ((∃ r, checkCoefficients blockIndex blockCommitments 0 given = .ok r) ↔ given.length ≤ dealt.length ∨
      ∃ i < min given.length dealt.length, ¬ (InPlace blockCommitments i ∧ given[i]? = dealt[i]?)) := by
  have hcount : blockCommitments.length = dealt.length := by
    rw [hperm.length_eq, length_generateCommitmentsForBlock]
  have hgiven : ∀ i < given.length, ∃ x, given[i]? = some x := fun i hi => ⟨_, List.getElem?_eq_getElem hi⟩
  have hlt : ∀ {i x}, given[i]? = some x → i < given.length := fun hx => (List.getElem?_eq_some_iff.1 hx).1
  rw [checkCoefficients_valid_iff, checkCoefficients_ok_iff (Nat.zero_le _), hcount]
  simp only [Nat.zero_add]
  constructor
  · constructor
    · intro h
      have hle : given.length ≤ dealt.length := by
        by_contra hlong
        obtain ⟨x, hx⟩ := hgiven dealt.length (Nat.not_le.1 hlong)
        obtain ⟨c, hc, -⟩ := h _ _ hx
        exact absurd (List.getElem?_eq_some_iff.1 hc).1 (by omega)
      refine ⟨hle, ?_⟩
      intro i hi
      obtain ⟨x, hx⟩ := hgiven i hi
      exact (agrees_iff hperm hlength hhash (hi.trans_le hle) hx).1 (h i x hx)
    · rintro ⟨hle, h⟩ i x hx
      exact (agrees_iff hperm hlength hhash ((hlt hx).trans_le hle) hx).2 (h i (hlt hx))
  · refine or_congr_right ⟨?_, ?_⟩
    · rintro ⟨i, x, hx, hi, hdiffers⟩
      refine ⟨i, lt_min (hlt hx) hi, ?_⟩
      rwa [← agrees_iff hperm hlength hhash hi hx]
    · rintro ⟨i, hi, hdiffers⟩
      obtain ⟨hi, hi'⟩ := lt_min_iff.1 hi
      obtain ⟨x, hx⟩ := hgiven i hi
      refine ⟨i, x, hx, hi', ?_⟩
      rwa [agrees_iff hperm hlength hhash hi' hx]

/-- A check that comes back and accepts just the dealt coefficients. -/
theorem checkCoefficients_iff (hperm : blockCommitments.Perm (generateCommitmentsForBlock dealt blockIndex))
    (hlength : dealt.length ≤ UInt32.size) (hhash : CollisionFree blockIndex dealt given) :
    (∃ r, checkCoefficients blockIndex blockCommitments 0 given = .ok r ∧ (r.valid = true ↔ given = dealt)) ↔
      RightlyChecked blockCommitments dealt given := by
  obtain ⟨hvalid, hok⟩ := checkCoefficients_dealt hperm hlength hhash
  have hresult : ∀ {r}, checkCoefficients blockIndex blockCommitments 0 given = .ok r →
      (r.valid = true ↔ given.length ≤ dealt.length ∧
        ∀ i < given.length, InPlace blockCommitments i ∧ given[i]? = dealt[i]?) := by
    intro r hr
    rw [← hvalid, hr]
    simp
  constructor
  · rintro ⟨r, hr, hiff⟩
    rw [hresult hr] at hiff
    constructor
    · rintro rfl i hi
      exact ((hiff.2 rfl).2 i hi).1
    · intro hne
      rcases hok.1 ⟨r, hr⟩ with hle | hdiffers
      · -- a shorter vector is another one, so that something tells it from the dealt one
        by_contra hall
        push Not at hall
        have heq := hiff.1 ⟨hle, fun i hi => hall i (lt_min hi (hi.trans_le hle))⟩
        exact hne (congrArg List.length heq)
      · exact hdiffers
  · rintro ⟨horder, hother⟩
    by_cases hsame : given.length = dealt.length
    · obtain ⟨r, hr⟩ := hok.2 (.inl hsame.le)
      refine ⟨r, hr, ?_⟩
      rw [hresult hr]
      constructor
      · rintro ⟨-, hall⟩
        refine List.ext_getElem? fun i => ?_
        rcases Nat.lt_or_ge i given.length with hi | hi
        · exact (hall i hi).2
        · rw [List.getElem?_eq_none hi, List.getElem?_eq_none (hsame ▸ hi)]
      · rintro rfl
        exact ⟨Nat.le_refl _, fun i hi => ⟨horder rfl i hi, rfl⟩⟩
    · obtain ⟨i, hi, hdiffers⟩ := hother hsame
      obtain ⟨r, hr⟩ := hok.2 (.inr ⟨i, hi, hdiffers⟩)
      refine ⟨r, hr, ?_⟩
      rw [hresult hr]
      refine iff_of_false ?_ fun heq => hsame (congrArg List.length heq)
      rintro ⟨-, hall⟩
      exact hdiffers (hall i (lt_min_iff.1 hi).1)

end

/-! ## Against the commitments of a split -/

theorem splitWith_eq_ok {draw : ℕ → ℕ → UInt64} {id : Uuid} {now : DateTime} {secret : Bytes}
    {threshold totalShares : UInt32} {verifiable : Bool} {shares : Shares}
    (h : new.splitWith draw id now secret threshold totalShares verifiable = .ok shares) :
    2 ≤ threshold ∧ shares = new.deal draw id now secret threshold totalShares verifiable := by
  unfold splitWith at h
  split_ifs at h with hk
  cases h
  exact ⟨UInt32.not_lt.1 hk, rfl⟩

section

variable {draw : ℕ → ℕ → UInt64} {id : Uuid} {now : DateTime} {secret : Bytes} {threshold totalShares : UInt32}
  {shares : Shares} {commitments : List Commitment} {blockIndex : UInt32} {given : List UInt64}

/-- The commitments of a block that are found, in whatever order the list is. -/
theorem filter_perm_generate
    (hperm : commitments.Perm ((new.deal draw id now secret threshold totalShares true).commitments.getD []))
    (hblock : blockIndex < numBlocks secret) : (commitments.filter (·.blockIndex == blockIndex)).Perm
      (generateCommitmentsForBlock (blockCoefficients draw secret threshold blockIndex.toNat) blockIndex) := by
  have hpublished := filter_flatMap_generate (numBlocks secret).toNat_lt.le (blockCoefficients draw secret threshold)
    (UInt32.lt_iff_toNat_lt.1 hblock)
  rw [UInt32.ofNat_toNat] at hpublished
  rw [← hpublished, ← getD_commitments_deal]
  exact hperm.filter _

/-- There are some, so that the loop is what decides. -/
theorem verifyCoefficients_eq (hk : 2 ≤ threshold) (hfilter : (commitments.filter (·.blockIndex == blockIndex)).Perm
      (generateCommitmentsForBlock (blockCoefficients draw secret threshold blockIndex.toNat) blockIndex)) :
    verifyCoefficientsAgainstCommitments given commitments blockIndex =
      checkCoefficients blockIndex (commitments.filter (·.blockIndex == blockIndex)) 0 given := by
  have hne : (commitments.filter (·.blockIndex == blockIndex)).isEmpty = false := by
    rw [List.isEmpty_eq_false_iff, ← List.length_pos_iff, hfilter.length_eq, length_generateCommitmentsForBlock,
      length_blockCoefficients hk]
    exact Nat.lt_of_lt_of_le (by decide) (UInt32.le_iff_toNat_le.1 hk)
  unfold verifyCoefficientsAgainstCommitments
  simp only [hne, Bool.false_eq_true, if_false]

/-- The check comes back and accepts just the dealt coefficients exactly where `RightlyChecked` says so. -/
theorem verifyCoefficients_iff (hsplit : new.splitWith draw id now secret threshold totalShares true = .ok shares)
    (hperm : commitments.Perm (shares.commitments.getD [])) (hblock : blockIndex < numBlocks secret)
    (hhash : CollisionFree blockIndex (blockCoefficients draw secret threshold blockIndex.toNat) given) :
    (∃ r, verifyCoefficientsAgainstCommitments given commitments blockIndex = .ok r ∧
        (r.valid = true ↔ given = blockCoefficients draw secret threshold blockIndex.toNat)) ↔
      RightlyChecked (commitments.filter (·.blockIndex == blockIndex))
        (blockCoefficients draw secret threshold blockIndex.toNat) given := by
  obtain ⟨hk, rfl⟩ := splitWith_eq_ok hsplit
  have hfilter := filter_perm_generate hperm hblock
  rw [verifyCoefficients_eq hk hfilter]
  exact checkCoefficients_iff hfilter (length_blockCoefficients hk _ ▸ threshold.toNat_lt.le) hhash

/-- Only the first coefficients that were dealt are accepted; and as many of them as are given
are, if the commitments of the block are in order and no more are given than were dealt. -/
theorem verifyCoefficients_prefix (hsplit : new.splitWith draw id now secret threshold totalShares true = .ok shares)
    (hperm : commitments.Perm (shares.commitments.getD [])) (hblock : blockIndex < numBlocks secret)
    (hhash : CollisionFree blockIndex (blockCoefficients draw secret threshold blockIndex.toNat) given) :
    (∀ r, verifyCoefficientsAgainstCommitments given commitments blockIndex = .ok r → r.valid = true →
        given.length ≤ threshold.toNat ∧
          given = (blockCoefficients draw secret threshold blockIndex.toNat).take given.length) ∧
      (given.length ≤ threshold.toNat →
        (∀ i < given.length, InPlace (commitments.filter (·.blockIndex == blockIndex)) i) →
        ∃ r, verifyCoefficientsAgainstCommitments given commitments blockIndex = .ok r ∧
          (r.valid = true ↔ given = (blockCoefficients draw secret threshold blockIndex.toNat).take given.length)) := by
  obtain ⟨hk, rfl⟩ := splitWith_eq_ok hsplit
  have hfilter := filter_perm_generate hperm hblock
  have hlength : (blockCoefficients draw secret threshold blockIndex.toNat).length = threshold.toNat :=
    length_blockCoefficients hk blockIndex.toNat
  obtain ⟨hvalid, hok⟩ := checkCoefficients_dealt hfilter (hlength ▸ threshold.toNat_lt.le) hhash
  rw [verifyCoefficients_eq hk hfilter, ← hlength]
  -- entry by entry the same is the same as a prefix
  have htake : given.length ≤ (blockCoefficients draw secret threshold blockIndex.toNat).length →
      ((∀ i < given.length, given[i]? = (blockCoefficients draw secret threshold blockIndex.toNat)[i]?) ↔
        given = (blockCoefficients draw secret threshold blockIndex.toNat).take given.length) := by
    intro hle
    constructor
    · intro h
      refine List.ext_getElem? fun i => ?_
      rcases Nat.lt_or_ge i given.length with hi | hi
      · rw [List.getElem?_take_of_lt hi, h i hi]
      · rw [List.getElem?_eq_none hi, List.getElem?_eq_none ((List.length_take_le ..).trans hi)]
    · intro h i hi
      conv_lhs => rw [h]
      exact List.getElem?_take_of_lt hi
  constructor
  · intro r hr hr'
    obtain ⟨hle, hall⟩ := hvalid.1 ⟨r, hr, hr'⟩
    exact ⟨hle, (htake hle).1 fun i hi => (hall i hi).2⟩
  · intro hle horder
    obtain ⟨r, hr⟩ := hok.2 (.inl hle)
    refine ⟨r, hr, ?_⟩
    rw [← htake hle]
    constructor
    · intro hr' i hi
      exact ((hvalid.1 ⟨r, hr, hr'⟩).2 i hi).2
    · intro hall
      obtain ⟨r', hr', hvalid'⟩ := hvalid.2 ⟨hle, fun i hi => ⟨horder i hi, hall i hi⟩⟩
      rw [hr, Except.ok.injEq] at hr'
      rwa [hr']

end

/-- Both coefficients of one block. -/
theorem verifyCoefficients_prefix_one_byte : ∃ shares, new.splitWith (fun _ _ => 5) 0 0 [1] 2 2 true = .ok shares ∧
    ∃ r, verifyCoefficientsAgainstCommitments (blockCoefficients (fun _ _ => 5) [1] 2 0)
    (shares.commitments.getD []) 0 =
      .ok r ∧ r.valid = true := by
  have hsplit : new.splitWith (fun _ _ => 5) 0 0 [1] 2 2 true = .ok (new.deal (fun _ _ => 5) 0 0 [1] 2 2 true) :=
    new.splitWith_eq (by decide) (by decide) (by decide)
  have hhash : CollisionFree 0 (blockCoefficients (fun _ _ => 5) [1] 2 0)
      (blockCoefficients (fun _ _ => 5) [1] 2 0) := by
    have hdealt : blockCoefficients (fun _ _ => 5) [1] 2 0 = [288097917339142, 5] := by decide
    have hne : commitmentValue 0 0 288097917339142 ≠ commitmentValue 0 1 5 := by decide +kernel
    rw [hdealt]
    intro i j x a _ hx ha hvalue
    have hi := (List.getElem?_eq_some_iff.1 hx).1
    have hj := (List.getElem?_eq_some_iff.1 ha).1
    rw [List.length_cons, List.length_singleton] at hi hj
    interval_cases i <;> interval_cases j <;> cases hx <;> cases ha
    · exact ⟨rfl, rfl⟩
    · exact absurd hvalue hne
    · exact absurd hvalue hne.symm
    · exact ⟨rfl, rfl⟩
  have horder : ∀ i < (blockCoefficients (fun _ _ => 5) [1] 2 0).length,
      InPlace (((new.deal (fun _ _ => 5) 0 0 [1] 2 2 true).commitments.getD []).filter
        (·.blockIndex == (0 : UInt32))) i := by
    intro i hi
    have hi' : i < 2 := hi
    interval_cases i
    · exact ⟨_, rfl, rfl⟩
    · exact ⟨_, rfl, rfl⟩
  refine ⟨_, hsplit, ?_⟩
  obtain ⟨-, hchecked⟩ := verifyCoefficients_prefix hsplit (.refl _) (show (0 : UInt32) < _ by decide) hhash
  obtain ⟨r, hr, hvalid⟩ := hchecked (by decide) horder
  exact ⟨r, hr, hvalid.2 rfl⟩

/-- One coefficient of two is accepted. -/
theorem verifyCoefficients_accepts_one : ∃ shares, new.splitWith (fun _ _ => 5) 0 0 [1] 2 2 true = .ok shares ∧
    [288097917339142] ≠ blockCoefficients (fun _ _ => 5) [1] 2 0 ∧
    verifyCoefficientsAgainstCommitments [288097917339142] (shares.commitments.getD []) 0 = .ok ⟨true, 0, none⟩ := by
  refine ⟨_, new.splitWith_eq (by decide) (by decide) (by decide), by decide, ?_⟩
  decide +kernel

end ShamirSecretSharing

end GmKms.Shamir
