import GmKms.Core.Types
import GmKms.Lib.Bytes
import GmKms.Shamir.Field
/-!
# Splitting and reconstructing

What a dealer publishes for a secret, how it is put together again from shares, and how
a share is checked against the commitments.
-/

namespace GmKms.Shamir

open Lib (ofBytes)
open Lib.Sha256 (digest toBytes)

structure Share where
  x : UInt32
  y : UInt64
  blockIndex : UInt32
  deriving DecidableEq

structure Commitment where
  blockIndex : UInt32
  /-- The place of the coefficient within its block. -/
  index : UInt32
  value : UInt64
  deriving DecidableEq

structure SharesMetadata where
  id : Uuid
  version : UInt32
  createdAt : DateTime
  isVerifiable : Bool
  secretHash : Option String
  originalLen : Option ℕ
  numBlocks : Option UInt32
  deriving DecidableEq

structure Shares where
  totalShares : UInt32
  threshold : UInt32
  shares : List Share
  commitments : Option (List Commitment)
  metadata : SharesMetadata
  deriving DecidableEq

structure ShareVerification where
  valid : Bool
  x : UInt32
  error : Option String
  deriving DecidableEq

structure ReconstructionResult where
  success : Bool
  secret : Option Bytes
  secretHash : Option String
  sharesUsed : UInt32
  error : Option String
  deriving DecidableEq

def ReconstructionResult.failure (sharesUsed : UInt32) (error : String) : ReconstructionResult :=
  { success := false, secret := none, secretHash := none, sharesUsed, error := some error }

/-! ## Blocks -/

/-- Bytes in a block. -/
def blockSize : ℕ := 7

def paddedLen (originalLen : ℕ) : ℕ :=
  if originalLen % blockSize = 0 then originalLen + blockSize else (originalLen / blockSize + 1) * blockSize

def padded (secret : Bytes) : Bytes :=
  let padValue := paddedLen secret.length - secret.length
  secret ++ List.replicate padValue (UInt8.ofNat padValue)

/-- The cast to `u32` keeps the low 32 bits. -/
def numBlocks (secret : Bytes) : UInt32 := .ofNat (paddedLen secret.length / blockSize)

def blockBytes (bytes : Bytes) (block : ℕ) : Bytes := (bytes.drop (block * blockSize)).take blockSize

/-- `u64::from_be_bytes`, of a zero byte and the block. -/
def secretValue (bytes : Bytes) : UInt64 := .ofNat (ofBytes (0 :: bytes))

/-- `u64::to_be_bytes`, without the first byte. -/
def valueBytes (value : UInt64) : Bytes := (toBytes value.toNat 8).drop 1

def removePadding (originalLen : Option ℕ) (reconstructedBlocks : Bytes) : Bytes :=
  match originalLen with
  | some originalLen =>
    if originalLen ≤ reconstructedBlocks.length then reconstructedBlocks.take originalLen
    -- the blocks are too few for the length: they are returned as they are
    else reconstructedBlocks
  | none =>
    let padByte := reconstructedBlocks.getLastD 0
    let padLen := padByte.toNat
    if 0 < padLen ∧ padLen ≤ 8 ∧ padLen ≤ reconstructedBlocks.length then
      let paddingStart := reconstructedBlocks.length - padLen
      if (reconstructedBlocks.drop paddingStart).all (· == padByte) then reconstructedBlocks.take paddingStart
      else reconstructedBlocks
    else reconstructedBlocks

/-- `hex::encode` of the SHA-256 hash. -/
def secretHash (secret : Bytes) : String := hexEncode (digest secret)

/-- The end of `reconstruct_with_metadata`. -/
def checkSecretHash (expected : Option String) (secret : Bytes) (sharesUsed : UInt32) : ReconstructionResult :=
  let computed := secretHash secret
  match expected with
  | some expectedHash =>
    if computed ≠ expectedHash then
      .failure sharesUsed "Secret hash mismatch — reconstruction may be corrupt"
    else { success := true, secret := some secret, secretHash := some computed, sharesUsed, error := none }
  | none => { success := true, secret := some secret, secretHash := none, sharesUsed, error := none }

namespace ShamirSecretSharing

variable (sss : ShamirSecretSharing)

/-! ## Dealing -/

/-- The first eight bytes, low first, of the hash of the block index, the coefficient's index and the coefficient. -/
def commitmentValue (blockIndex index : UInt32) (coeff : UInt64) : UInt64 :=
  let input := (toBytes blockIndex.toNat 4).reverse ++ (toBytes index.toNat 4).reverse ++
    (toBytes coeff.toNat 8).reverse
  .ofNat (ofBytes ((digest input).take 8).reverse)

def generateCommitmentsForBlock (coefficients : List UInt64) (blockIndex : UInt32) : List Commitment :=
  coefficients.zipIdx.map fun c => ⟨blockIndex, .ofNat c.2, commitmentValue blockIndex (.ofNat c.2) c.1⟩

/-- The coefficients of a block, of which all but the first are drawn. -/
def blockCoefficients (draw : ℕ → ℕ → UInt64) (secret : Bytes) (threshold : UInt32) (block : ℕ) : List UInt64 :=
  secretValue (blockBytes (padded secret) block) :: (List.range (threshold.toNat - 1)).map (draw block)

def blockShares (coefficients : List UInt64) (totalShares : UInt32) (block : ℕ) : List Share :=
  (List.range totalShares.toNat).map fun i =>
    let x := UInt32.ofNat (i + 1)
    ⟨x, sss.evaluatePolynomial coefficients x.toUInt64, .ofNat block⟩

/-- What `split` returns, when the field elements that it draws for block `b` are `draw b 0`, `draw b 1` and so on. -/
def deal (draw : ℕ → ℕ → UInt64) (id : Uuid) (now : DateTime) (secret : Bytes) (threshold totalShares : UInt32)
    (verifiable : Bool) : Shares :=
  let blocks := List.range (numBlocks secret).toNat
  let coefficients := blockCoefficients draw secret threshold
  let allCommitments :=
    if verifiable then blocks.flatMap fun b => generateCommitmentsForBlock (coefficients b) (.ofNat b) else []
  let hasCommitments := verifiable && !allCommitments.isEmpty
  { totalShares, threshold
    shares := blocks.flatMap fun b => sss.blockShares (coefficients b) totalShares b
    commitments := if hasCommitments then some allCommitments else none
    metadata := {
      id
      version := 2
      createdAt := now
      isVerifiable := hasCommitments
      secretHash := some (secretHash secret)
      originalLen := some secret.length
      numBlocks := some (numBlocks secret)
    } }

@[simp] theorem deal_numBlocks (draw : ℕ → ℕ → UInt64) (id : Uuid) (now : DateTime) (secret : Bytes)
    (threshold totalShares : UInt32) (verifiable : Bool) :
    (sss.deal draw id now secret threshold totalShares verifiable).metadata.numBlocks = some (numBlocks secret) := rfl

/-- `split` with its field elements. -/
def splitWith (draw : ℕ → ℕ → UInt64) (id : Uuid) (now : DateTime) (secret : Bytes) (threshold totalShares : UInt32)
    (verifiable : Bool) : Except String Shares :=
  if threshold < 2 then .error "Threshold must be at least 2"
  else if totalShares < threshold then .error "Total shares must be >= threshold"
  else if threshold > totalShares then .error "Threshold cannot exceed total shares"
  else if secret.isEmpty then .error "Secret cannot be empty"
  else .ok (sss.deal draw id now secret threshold totalShares verifiable)

/-- `split` with the random bits behind its field elements. -/
def split (random : ℕ → ℕ → UInt64) : Uuid → DateTime → Bytes → UInt32 → UInt32 → Bool → Except String Shares :=
  sss.splitWith fun b i => sss.randomFieldElement (random b i)

theorem splitWith_eq {draw : ℕ → ℕ → UInt64} {id : Uuid} {now : DateTime} {secret : Bytes}
    {threshold totalShares : UInt32}
    {verifiable : Bool} (hk : 2 ≤ threshold) (hn : threshold ≤ totalShares) (hsecret : secret ≠ []) :
    sss.splitWith draw id now secret threshold totalShares verifiable =
      .ok (sss.deal draw id now secret threshold totalShares verifiable) := by
  have hn' : ¬totalShares < threshold := UInt32.not_lt.2 hn
  rw [splitWith, if_neg (UInt32.not_lt.2 hk), if_neg hn', if_neg hn', if_neg (by simpa using hsecret)]

/-! ## Reconstruction -/

/-- Share `j` in the numerator and the denominator of the Lagrange coefficient of share `i`. -/
def lagrangeStep (blockShares : List Share) (i : Fin blockShares.length) (acc : UInt64 × UInt64)
    (j : Fin blockShares.length) : UInt64 × UInt64 :=
  if i ≠ j then
    let xi := blockShares[i].x.toUInt64
    let xj := blockShares[j].x.toUInt64
    (sss.mulMod acc.1 xj, sss.mulMod acc.2 (sss.subMod xj xi))
  else acc

/-- The Lagrange coefficient at 0 of share `i`. -/
def lagrangeCoeff (blockShares : List Share) (i : Fin blockShares.length) : UInt64 :=
  let (numerator, denominator) := (List.finRange blockShares.length).foldl (sss.lagrangeStep blockShares i) (1, 1)
  sss.mulMod numerator (sss.invMod denominator)

def reconstructStep (blockShares : List Share) (value : UInt64) (i : Fin blockShares.length) : UInt64 :=
  sss.addMod value (sss.mulMod blockShares[i].y (sss.lagrangeCoeff blockShares i))

/-- The value at 0 of the polynomial through the shares of one block. -/
def reconstructBlock (blockShares : List Share) : UInt64 :=
  (List.finRange blockShares.length).foldl (sss.reconstructStep blockShares) 0

def reconstructWithMetadata (shares : List Share) (metadata : SharesMetadata) : ReconstructionResult :=
  if shares.isEmpty then .failure 0 "No shares provided"
  else
    let numBlocks := (metadata.numBlocks.getD 1).toNat
    if shares.length < numBlocks then
      .failure 0 s!"Need at least {numBlocks} shares (one per block), got {shares.length}"
    else if shares.length % numBlocks ≠ 0 then
      .failure 0 s!"Share count {shares.length} not evenly divisible by num_blocks {numBlocks}"
    else
      let sharesPerBlock := shares.length / numBlocks
      let reconstructedBlocks := (List.range numBlocks).flatMap fun b =>
        valueBytes (sss.reconstructBlock ((shares.drop (b * sharesPerBlock)).take sharesPerBlock))
      checkSecretHash metadata.secretHash (removePadding metadata.originalLen reconstructedBlocks)
        (.ofNat shares.length)

/-! ## Verification -/

def verifyShare (share : Share) (commitments : List Commitment) : ShareVerification :=
  let blockIndex := share.blockIndex
  let blockCommitments := (commitments.filter (·.blockIndex == blockIndex)).mergeSort (·.index ≤ ·.index)
  if blockCommitments.isEmpty then
    ⟨false, share.x, some s!"No commitments available for block {blockIndex} — cannot verify share"⟩
  else
    let valid := decide (share.y < sss.prime)
    ⟨valid, share.x, if valid then none else some s!"Share y value out of range for block {blockIndex}"⟩

def verifyShareAllBlocks (sharesForX : List Share) (commitments : List Commitment) : ShareVerification :=
  let x := (sharesForX.head?.map (·.x)).getD 0
  if commitments.isEmpty then ⟨false, x, some "No commitments available"⟩
  else
    match (sharesForX.map (sss.verifyShare · commitments)).find? (!·.valid) with
    | some result => result
    | none => ⟨true, x, none⟩

end ShamirSecretSharing

end GmKms.Shamir
