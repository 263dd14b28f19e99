import GmKms.Lib.Bytes
import GmKms.Lib.ExceptRel
import GmKms.Mfa.Totp
/-!
# TOTP codes without a panic

The computation of a code reads bytes by their index and calculates in fixed-width
integers. Each such step is checked here.
-/

namespace GmKms.Mfa

open Lib
open Lib.Sha256 (toBytes)

/-! ## Checked steps -/

/-- A `Result` of a call that may panic. -/
abbrev Checked := ExceptT MfaError Option

/-- `bytes[i]`. -/
def index (bytes : Bytes) (i : ℕ) : Checked UInt8 := ExceptT.mk (bytes[i]?.map .ok)

/-- A `u32` or a `u64`. An overflow panics where overflow is checked, and else wraps. -/
def uint (width : ℕ) (checks : Bool) (n : ℕ) : Checked ℕ :=
  if n < 2 ^ width then pure n else if checks then ExceptT.mk none else pure (n % 2 ^ width)

/-- A length minus one. -/
def lastIndex (n : ℕ) : Checked ℕ := if n = 0 then ExceptT.mk none else pure (n - 1)

/-- `dst[start..stop].copy_from_slice(src)`. -/
def copyFromSlice (dst : Bytes) (start stop : ℕ) (src : Bytes) : Checked Bytes :=
  if start ≤ stop ∧ stop ≤ dst.length ∧ src.length = stop - start then pure (dst.take start ++ src ++ dst.drop stop)
  else ExceptT.mk none

theorem index_of_getElem? {bytes : Bytes} {i : ℕ} {b : UInt8} (h : bytes[i]? = some b) : index bytes i = pure b := by
  rw [index, h]
  rfl

theorem uint_of_lt {width n : ℕ} (h : n < 2 ^ width) (checks : Bool) : uint width checks n = pure n := if_pos h

/-- No panic where the number fits or overflow is not checked. -/
theorem exists_uint_eq {width n : ℕ} {checks : Bool} (h : n < 2 ^ width ∨ checks = false) :
    ∃ m ≤ n, uint width checks n = pure m := by
  by_cases hlt : n < 2 ^ width
  · exact ⟨n, le_rfl, uint_of_lt hlt checks⟩
  · obtain rfl := h.resolve_left hlt
    exact ⟨n % 2 ^ width, Nat.mod_le _ _, if_neg hlt⟩

/-! ## The code -/

/-- One turn of the loop over the two paddings. -/
def xorPaddings (paddedKey : Bytes) (paddings : Bytes × Bytes) (i : ℕ) : Checked (Bytes × Bytes) := do
  let inner ← index paddings.1 i
  let k ← index paddedKey i
  let outer ← index paddings.2 i
  return (paddings.1.set i (inner ^^^ k), paddings.2.set i (outer ^^^ k))

/-- `hmac_sha1`, `hmac_sha256` and `hmac_sha512`. -/
def hmacChecked (digest : Bytes → Bytes) (blockSize : ℕ) (key message : Bytes) : Checked Bytes := do
  let key := if blockSize < key.length then digest key else key
  -- `resize`
  let paddedKey := (key ++ List.replicate (blockSize - key.length) 0).take blockSize
  let paddings := (List.replicate blockSize 0x36, List.replicate blockSize 0x5c)
  let (innerPadding, outerPadding) ← (List.range blockSize).foldlM (xorPaddings paddedKey) paddings
  return digest (outerPadding ++ digest (innerPadding ++ message))

/-- The two halves of the counter, the low one first. -/
def packCounter (counter : ℕ) : Checked Bytes := do
  let bytes := toBytes counter 8
  let counterBytes ← copyFromSlice (List.replicate 8 0) 4 8 (bytes.drop 4)
  copyFromSlice counterBytes 0 4 (bytes.take 4)

def dynamicTruncation (hmac : Bytes) : Checked ℕ := do
  let last ← index hmac (← lastIndex hmac.length)
  let offset := (last &&& 0x0f).toNat
  let b₀ ← index hmac offset
  let b₁ ← index hmac (offset + 1)
  let b₂ ← index hmac (offset + 2)
  let b₃ ← index hmac (offset + 3)
  return (b₀ &&& 0x7f).toNat <<< 24 ||| b₁.toNat <<< 16 ||| b₂.toNat <<< 8 ||| b₃.toNat

/-- `TotpCode`. -/
structure TotpCode where
  code : String
  generatedAt : ℕ
  expiresAt : ℕ
  period : ℕ

namespace TotpGenerator

variable (digests : Digests) (checks : Bool) (g : TotpGenerator)

def computeHotpChecked (counter : ℕ) : Checked String := do
  let counterBytes ← packCounter counter
  let hmac ←
    match g.config.algorithm with
    | .sha1 => hmacChecked digests.sha1 64 g.config.secret counterBytes
    | .sha256 => hmacChecked digests.sha256 64 g.config.secret counterBytes
    | .sha512 => hmacChecked digests.sha512 128 g.config.secret counterBytes
  let binary ← dynamicTruncation hmac
  let modulus ← uint 32 checks (10 ^ g.config.digits)
  let otp := Nat.toDigits 10 (binary % modulus)
  return String.ofList (List.replicate (g.config.digits - otp.length) '0' ++ otp)

def generateAtTimestampChecked (timestamp : ℕ) : Checked TotpCode := do
  let counter := timestamp / g.config.timeStep
  let code ← g.computeHotpChecked digests checks counter
  let next ← uint 64 checks (counter + 1)
  let expiresAt ← uint 64 checks (next * g.config.timeStep)
  return ⟨code, timestamp, expiresAt, g.config.timeStep⟩

/-- The loop over the window, which returns at the first code that is the one given. -/
def validateDeltas (code : String) (counter : ℕ) : List ℕ → Checked Bool
  | [] => return false
  | delta :: deltas => do
    let expected ← g.computeHotpChecked digests checks (← uint 64 checks (counter + delta))
    if expected = code then return true
    if delta ≤ counter then
      let expected ← g.computeHotpChecked digests checks (counter - delta)
      if expected = code then return true
    validateDeltas code counter deltas

def validateAtTimestampChecked (code : String) (timestamp : ℕ) : Checked Bool :=
  g.validateDeltas digests checks code (timestamp / g.config.timeStep) (List.range (g.config.window + 1))

end TotpGenerator

/-! ## No step panics -/

/-- What the crates of the digests document: 20, 32 and 64 bytes. -/
structure Digests.Sized (digests : Digests) : Prop where
  sha1 : ∀ message, (digests.sha1 message).length = 20
  sha256 : ∀ message, (digests.sha256 message).length = 32
  sha512 : ∀ message, (digests.sha512 message).length = 64

/-- A padding after `n` turns. -/
def padded (pad : UInt8) (key : Bytes) (n : ℕ) : Bytes :=
  (key.take n).map (pad ^^^ ·) ++ List.replicate (key.length - n) pad

theorem getElem?_padded (pad : UInt8) {key : Bytes} {n : ℕ} (h : n < key.length) :
    (padded pad key n)[n]? = some pad := by
  have hlength : ((key.take n).map (pad ^^^ ·)).length = n := by
    rw [List.length_map, List.length_take]
    omega
  rw [padded, List.getElem?_append_right (by omega), hlength, Nat.sub_self]
  exact List.getElem?_replicate_of_lt (by omega)

theorem set_padded (pad : UInt8) {key : Bytes} {n : ℕ} {k : UInt8} (h : key[n]? = some k) :
    (padded pad key n).set n (pad ^^^ k) = padded pad key (n + 1) := by
  obtain ⟨hlt, -⟩ := List.getElem?_eq_some_iff.1 h
  have hlength : ((key.take n).map (pad ^^^ ·)).length = n := by
    rw [List.length_map, List.length_take]
    omega
  have hreplicate : key.length - n = key.length - (n + 1) + 1 := by omega
  rw [padded, List.set_append_right _ _ (by omega), hlength, Nat.sub_self, hreplicate, List.replicate_succ,
    List.set_cons_zero,
    padded, List.take_add_one, h, Option.toList_some, List.map_append, List.append_assoc]
  rfl

theorem xorPaddings_padded {key : Bytes} {n : ℕ} (h : n < key.length) :
    xorPaddings key (padded 0x36 key n, padded 0x5c key n) n =
      pure (padded 0x36 key (n + 1), padded 0x5c key (n + 1)) := by
  have hk : key[n]? = some key[n] := List.getElem?_eq_getElem h
  rw [xorPaddings, index_of_getElem? (getElem?_padded _ h), pure_bind, index_of_getElem? hk, pure_bind,
    index_of_getElem? (getElem?_padded _ h), pure_bind, set_padded _ hk, set_padded _ hk]

theorem foldlM_xorPaddings (key : Bytes) {n : ℕ} (hn : n ≤ key.length) :
    (List.range n).foldlM (xorPaddings key) (List.replicate key.length 0x36, List.replicate key.length 0x5c) =
      pure (padded 0x36 key n, padded 0x5c key n) := by
  induction n with
  | zero => rfl
  | succ n ih =>
    rw [List.range_succ, List.foldlM_append, ih (by omega), pure_bind, List.foldlM_cons, xorPaddings_padded hn,
      pure_bind]
    rfl

theorem padded_length (pad : UInt8) (key : Bytes) : padded pad key key.length = key.map (pad ^^^ ·) := by
  rw [padded, List.take_length, Nat.sub_self, List.replicate_zero, List.append_nil]

theorem hmacChecked_eq {digest : Bytes → Bytes} {blockSize : ℕ}
    (hdigest : ∀ message, (digest message).length ≤ blockSize)
    (key message : Bytes) : hmacChecked digest blockSize key message = pure (hmac digest blockSize key message) := by
  rw [hmacChecked, hmac]
  have hkey : (if blockSize < key.length then digest key else key).length ≤ blockSize := by
    split
    · exact hdigest key
    · omega
  generalize (if blockSize < key.length then digest key else key) = key' at hkey
  have hlength : (key' ++ List.replicate (blockSize - key'.length) 0).length = blockSize := by
    rw [List.length_append, List.length_replicate]
    omega
  have hloop := foldlM_xorPaddings (key' ++ List.replicate (blockSize - key'.length) 0) le_rfl
  rw [padded_length, padded_length, hlength] at hloop
  dsimp only
  rw [List.take_of_length_le hlength.le, hloop, pure_bind]

theorem copyFromSlice_eq {dst src : Bytes} {start stop : ℕ} (hstart : start ≤ stop) (hstop : stop ≤ dst.length)
    (hsrc : src.length = stop - start) :
    copyFromSlice dst start stop src = pure (dst.take start ++ src ++ dst.drop stop) :=
  if_pos ⟨hstart, hstop, hsrc⟩

/-- The two halves are copied to where they come from. -/
theorem packCounter_eq (counter : ℕ) : packCounter counter = pure (toBytes counter 8) := by
  have hlength := Sha256.length_toBytes counter 8
  rw [packCounter]
  generalize toBytes counter 8 = bytes at hlength
  have hhigh : (bytes.drop 4).length = 8 - 4 := by rw [List.length_drop, hlength]
  have hlow : (bytes.take 4).length = 4 - 0 := by rw [List.length_take, hlength]; rfl
  rw [copyFromSlice_eq (by decide) (by decide) hhigh, pure_bind,
    copyFromSlice_eq (by decide) (by rw [List.length_append, List.length_append, hhigh]; decide) hlow]
  congr 1
  calc _ = bytes.take 4 ++ (bytes.drop 4 ++ []) := rfl
    _ = bytes := by rw [List.append_nil, List.take_append_drop]

theorem index_of_lt {bytes : Bytes} {i : ℕ} (h : i < bytes.length) : index bytes i = pure (bytes.getD i 0) := by
  refine index_of_getElem? ?_
  rw [List.getElem?_eq_getElem h, List.getD_eq_getElem _ _ h]

theorem toNat_and_low (b : UInt8) : (b &&& 0x0f).toNat = b.toNat % 16 := by
  rw [UInt8.toNat_and]
  exact Nat.and_two_pow_sub_one_eq_mod b.toNat 4

theorem toNat_and_high (b : UInt8) : (b &&& 0x7f).toNat = b.toNat % 128 := by
  rw [UInt8.toNat_and]
  exact Nat.and_two_pow_sub_one_eq_mod b.toNat 7

/-- The four bytes stand within any digest of 20 bytes or more. -/
theorem dynamicTruncation_eq {hmac : Bytes} (h : 20 ≤ hmac.length) :
    dynamicTruncation hmac =
      let offset := (hmac.getD (hmac.length - 1) 0 &&& 0x0f).toNat
      pure ((hmac.getD offset 0 &&& 0x7f).toNat <<< 24 ||| (hmac.getD (offset + 1) 0).toNat <<< 16 |||
        (hmac.getD (offset + 2) 0).toNat <<< 8 ||| (hmac.getD (offset + 3) 0).toNat) := by
  have hlast : lastIndex hmac.length = pure (hmac.length - 1) := if_neg (by omega)
  rw [dynamicTruncation, hlast, pure_bind, index_of_lt (by omega), pure_bind]
  have hoffset : (hmac.getD (hmac.length - 1) 0 &&& 0x0f).toNat < 16 := by
    rw [toNat_and_low]
    exact Nat.mod_lt _ (by decide)
  generalize (hmac.getD (hmac.length - 1) 0 &&& 0x0f).toNat = offset at hoffset
  dsimp only
  rw [index_of_lt (by omega), pure_bind, index_of_lt (by omega), pure_bind, index_of_lt (by omega), pure_bind,
    index_of_lt (by omega), pure_bind]

theorem length_hmac {digest : Bytes → Bytes} {n : ℕ} (hdigest : ∀ message, (digest message).length = n) (blockSize : ℕ)
    (key message : Bytes) : (hmac digest blockSize key message).length = n :=
  hdigest _

namespace TotpGenerator

variable {digests : Digests} (checks : Bool) (g : TotpGenerator)

theorem computeHotpChecked_eq (hdigests : digests.Sized) (counter : ℕ) :
    g.computeHotpChecked digests checks counter = pure (g.computeHotp digests counter) := by
  have hpow : 10 ^ g.config.digits < 2 ^ 32 :=
    calc 10 ^ g.config.digits ≤ 10 ^ 8 := Nat.pow_le_pow_right (by decide) g.digits_le
      _ < 2 ^ 32 := by decide
  rw [computeHotpChecked, computeHotp, packCounter_eq, pure_bind]
  cases g.config.algorithm with
  | sha1 =>
    dsimp only
    rw [hmacChecked_eq (fun m => by rw [hdigests.sha1]; decide), pure_bind,
      dynamicTruncation_eq (by rw [length_hmac hdigests.sha1]), pure_bind, uint_of_lt hpow, pure_bind]
    rfl
  | sha256 =>
    dsimp only
    rw [hmacChecked_eq (fun m => by rw [hdigests.sha256]; decide), pure_bind,
      dynamicTruncation_eq (by rw [length_hmac hdigests.sha256]; decide), pure_bind, uint_of_lt hpow, pure_bind]
    rfl
  | sha512 =>
    dsimp only
    rw [hmacChecked_eq (fun m => by rw [hdigests.sha512]; decide), pure_bind,
      dynamicTruncation_eq (by rw [length_hmac hdigests.sha512]; decide), pure_bind, uint_of_lt hpow, pure_bind]
    rfl

theorem validateDeltas_eq (hdigests : digests.Sized) (code : String) {counter : ℕ} {deltas : List ℕ}
    (h : ∀ delta ∈ deltas, counter + delta < 2 ^ 64) :
    g.validateDeltas digests checks code counter deltas = pure (deltas.any fun delta =>
      g.computeHotp digests (counter + delta) = code ||
        (delta ≤ counter && g.computeHotp digests (counter - delta) = code)) := by
  induction deltas with
  | nil => rfl
  | cons delta deltas ih =>
    obtain ⟨hdelta, hdeltas⟩ := List.forall_mem_cons.1 h
    rw [validateDeltas, uint_of_lt hdelta, pure_bind, computeHotpChecked_eq checks g hdigests, pure_bind, List.any_cons]
    by_cases hforward : g.computeHotp digests (counter + delta) = code
    · simp [hforward]
    · by_cases hle : delta ≤ counter
      · by_cases hback : g.computeHotp digests (counter - delta) = code
        · simp [hforward, hle, hback, computeHotpChecked_eq checks g hdigests]
        · simp [hforward, hle, hback, computeHotpChecked_eq checks g hdigests, ih hdeltas]
      · simp [hforward, hle, ih hdeltas]

theorem validateAtTimestampChecked_eq (hdigests : digests.Sized) (code : String) {timestamp : ℕ}
    (h : timestamp / g.config.timeStep + g.config.window < 2 ^ 64) :
    g.validateAtTimestampChecked digests checks code timestamp =
      pure (g.validateAtTimestamp digests code timestamp) := by
  refine g.validateDeltas_eq checks hdigests code ?_
  intro delta hdelta
  have hlt := List.mem_range.1 hdelta
  omega

/-- The code that is generated, also where the time at which it expires wraps. -/
theorem code_of_generateAtTimestampChecked (hdigests : digests.Sized) {timestamp : ℕ} {generated : TotpCode}
    (h : (g.generateAtTimestampChecked digests checks timestamp).run = some (.ok generated)) :
    generated.code = g.computeHotp digests (timestamp / g.config.timeStep) := by
  rw [generateAtTimestampChecked, computeHotpChecked_eq checks g hdigests, pure_bind] at h
  obtain ⟨_, -, h⟩ := Panicking.bind_eq_ok.1 h
  obtain ⟨_, -, h⟩ := Panicking.bind_eq_ok.1 h
  cases h
  rfl

/-- A code is generated where the time at which it expires fits, or overflow is not checked. -/
theorem exists_generateAtTimestampChecked (hdigests : digests.Sized) {timestamp : ℕ}
    (h : (timestamp / g.config.timeStep + 1) * g.config.timeStep < 2 ^ 64 ∨ checks = false) :
    ∃ generated, (g.generateAtTimestampChecked digests checks timestamp).run = some (.ok generated) := by
  have hstep : 0 < g.config.timeStep := g.timeStep_pos
  obtain ⟨next, hnext, huint⟩ := @exists_uint_eq 64 (timestamp / g.config.timeStep + 1) checks
    (h.imp_left fun hlt => (Nat.le_mul_of_pos_right _ hstep).trans_lt hlt)
  obtain ⟨expiresAt, -, huint'⟩ := @exists_uint_eq 64 (next * g.config.timeStep) checks
    (h.imp_left fun hlt => (Nat.mul_le_mul_right _ hnext).trans_lt hlt)
  refine ⟨⟨g.computeHotp digests (timestamp / g.config.timeStep), timestamp, expiresAt, g.config.timeStep⟩, ?_⟩
  rw [generateAtTimestampChecked, computeHotpChecked_eq checks g hdigests, pure_bind, huint, pure_bind, huint',
    pure_bind]
  rfl

end TotpGenerator

/-! ## The values of the standard -/

/-- The 31 bits that RFC 4226 takes from a message authentication code: those of the four bytes from the offset on
that the low half of its last byte gives, without the highest. -/
def truncate (mac : Bytes) : ℕ := ofBytes ((mac.drop ((mac.getLastD 0).toNat % 16)).take 4) % 2 ^ 31

/-- The decimal value of `digits` digits. -/
def hotpValue (digits : ℕ) (mac : Bytes) : String :=
  String.ofList ((Nat.toDigits 10 (truncate mac % 10 ^ digits)).leftpad digits '0')

theorem shiftLeft_or_byte (x i : ℕ) (b : UInt8) : x <<< (8 + i) ||| b.toNat <<< i = (x * 256 + b.toNat) <<< i := by
  rw [Nat.shiftLeft_add, ← Nat.shiftLeft_or_distrib, ← Nat.shiftLeft_add_eq_or_of_lt b.toNat_lt, Nat.shiftLeft_eq x 8]

theorem ofBytes_four_mod (b₀ b₁ b₂ b₃ : UInt8) :
    (b₀ &&& 0x7f).toNat <<< 24 ||| b₁.toNat <<< 16 ||| b₂.toNat <<< 8 ||| b₃.toNat =
      ofBytes [b₀, b₁, b₂, b₃] % 2 ^ 31 := by
  have h₁ := b₁.toNat_lt
  have h₂ := b₂.toNat_lt
  have h₃ := b₃.toNat_lt
  have hbytes : ofBytes [b₀, b₁, b₂, b₃] = ((b₀.toNat * 256 + b₁.toNat) * 256 + b₂.toNat) * 256 + b₃.toNat := by
    simp [ofBytes]
  have hlast := shiftLeft_or_byte ((((b₀ &&& 0x7f).toNat * 256 + b₁.toNat) * 256 + b₂.toNat)) 0 b₃
  rw [Nat.shiftLeft_zero, Nat.shiftLeft_zero] at hlast
  rw [shiftLeft_or_byte _ 16, shiftLeft_or_byte _ 8, hlast, toNat_and_high, hbytes]
  omega

theorem take_four_drop {bytes : Bytes} {n : ℕ} (h : n + 3 < bytes.length) : (bytes.drop n).take 4 =
    [bytes.getD n 0, bytes.getD (n + 1) 0, bytes.getD (n + 2) 0, bytes.getD (n + 3) 0] := by
  rw [List.getD_eq_getElem _ _ (by omega : n < bytes.length),
    List.getD_eq_getElem _ _ (by omega : n + 1 < bytes.length),
    List.getD_eq_getElem _ _ (by omega : n + 2 < bytes.length), List.getD_eq_getElem _ _ h,
    List.drop_eq_getElem_cons (by omega), List.drop_eq_getElem_cons (by omega), List.drop_eq_getElem_cons (by omega),
    List.drop_eq_getElem_cons h]
  rfl

theorem truncate_eq {mac : Bytes} (h : 20 ≤ mac.length) :
    let offset := (mac.getD (mac.length - 1) 0 &&& 0x0f).toNat
    (mac.getD offset 0 &&& 0x7f).toNat <<< 24 ||| (mac.getD (offset + 1) 0).toNat <<< 16 |||
      (mac.getD (offset + 2) 0).toNat <<< 8 ||| (mac.getD (offset + 3) 0).toNat = truncate mac := by
  have hlast : mac.getLastD 0 = mac.getD (mac.length - 1) 0 := by
    rw [List.getLastD_eq_getLast?, List.getLast?_eq_getElem?, List.getD_eq_getElem?_getD]
  have hoffset : (mac.getD (mac.length - 1) 0).toNat % 16 < 16 := Nat.mod_lt _ (by decide)
  dsimp only
  rw [ofBytes_four_mod, truncate, hlast, toNat_and_low, take_four_drop (by omega)]

namespace TotpGenerator

variable (digests : Digests) (checks : Bool) (g : TotpGenerator)

/-- The code of a keyed hash with the digest of the configuration, over a counter of eight bytes. -/
def mac (counter : ℕ) : Bytes :=
  match g.config.algorithm with
  | .sha1 => hmac digests.sha1 64 g.config.secret (toBytes counter 8)
  | .sha256 => hmac digests.sha256 64 g.config.secret (toBytes counter 8)
  | .sha512 => hmac digests.sha512 128 g.config.secret (toBytes counter 8)

/-- The value of RFC 4226 for a counter. -/
def hotp (counter : ℕ) : String := hotpValue g.config.digits (g.mac digests counter)

variable {digests}

theorem twenty_le_length_mac (hdigests : digests.Sized) (counter : ℕ) : 20 ≤ (g.mac digests counter).length := by
  rw [mac]
  split
  · rw [length_hmac hdigests.sha1]
  · rw [length_hmac hdigests.sha256]
    decide
  · rw [length_hmac hdigests.sha512]
    decide

theorem computeHotp_eq_hotp (hdigests : digests.Sized) (counter : ℕ) :
    g.computeHotp digests counter = g.hotp digests counter := by
  have htruncate := truncate_eq (g.twenty_le_length_mac hdigests counter)
  rw [hotp, hotpValue, ← htruncate]
  rfl

/-- The codes that are accepted at a time are the values of the counters around it, and nothing panics. At any time
whose step ends in 64 bits the value of its counter is generated, and what is generated at a time no more steps away
than the window is accepted. -/
theorem validateAtTimestampChecked_iff (hdigests : digests.Sized) (code : String) {timestamp : ℕ}
    (h : timestamp / g.config.timeStep + g.config.window < 2 ^ 64) :
    (∃ accepted, (g.validateAtTimestampChecked digests checks code timestamp).run = some (.ok accepted) ∧
      (accepted = true ↔ ∃ counter : ℕ, |(counter : ℤ) - (timestamp / g.config.timeStep : ℕ)| ≤ g.config.window ∧
        code = g.hotp digests counter)) ∧
    (∀ t₀, (t₀ / g.config.timeStep + 1) * g.config.timeStep < 2 ^ 64 ∨ checks = false →
      ∃ generated, (g.generateAtTimestampChecked digests checks t₀).run = some (.ok generated)) ∧
    ∀ t₀ generated, (g.generateAtTimestampChecked digests checks t₀).run = some (.ok generated) →
      generated.code = g.hotp digests (t₀ / g.config.timeStep) ∧
      (|((timestamp / g.config.timeStep : ℕ) : ℤ) - (t₀ / g.config.timeStep : ℕ)| ≤ g.config.window →
        (g.validateAtTimestampChecked digests checks generated.code timestamp).run = some (.ok true)) := by
  have hvalidate := fun code => g.validateAtTimestampChecked_eq checks hdigests code h
  refine ⟨⟨_, congrArg ExceptT.run (hvalidate code), ?_⟩, fun t₀ => ?_, fun t₀ generated hgenerated => ?_⟩
  · rw [validateAtTimestamp_iff]
    constructor
    · rintro ⟨counter, hupper, hlower, rfl⟩
      exact ⟨counter, abs_le.2 ⟨by omega, by omega⟩, g.computeHotp_eq_hotp hdigests counter⟩
    · rintro ⟨counter, hwindow, rfl⟩
      obtain ⟨hlower, hupper⟩ := abs_le.1 hwindow
      exact ⟨counter, by omega, by omega, g.computeHotp_eq_hotp hdigests counter⟩
  · exact g.exists_generateAtTimestampChecked checks hdigests
  · have hcode := g.code_of_generateAtTimestampChecked checks hdigests hgenerated
    refine ⟨hcode.trans (g.computeHotp_eq_hotp hdigests _), fun hwindow => ?_⟩
    obtain ⟨hlower, hupper⟩ := abs_le.1 hwindow
    have haccepted : g.validateAtTimestamp digests generated.code timestamp = true :=
      (g.validateAtTimestamp_iff digests).2 ⟨t₀ / g.config.timeStep, by omega, by omega, hcode.symm⟩
    rw [hvalidate generated.code, haccepted]
    rfl

end TotpGenerator

/-- Digests of which only SHA-256 is called. -/
def sha256Digests : Digests := ⟨fun _ => List.replicate 20 0, Sha256.digest, fun _ => List.replicate 64 0⟩

/-- A generator over it, of eight digits. -/
def sha256Generator : TotpGenerator :=
  ⟨{ secret := [0x31, 0x32, 0x33], digits := 8, algorithm := .sha256 }, by decide, by decide, by decide, by decide⟩

namespace TotpGenerator

theorem validateAtTimestampChecked_iff_sha256 :
    (∃ accepted, (sha256Generator.validateAtTimestampChecked sha256Digests true "46119246" 59).run =
      some (.ok accepted) ∧
      (accepted = true ↔ ∃ counter : ℕ, |(counter : ℤ) - (59 / 30 : ℕ)| ≤ (1 : ℕ) ∧
        "46119246" = sha256Generator.hotp sha256Digests counter)) ∧
    (∀ t₀ : ℕ, (t₀ / 30 + 1) * 30 < 2 ^ 64 →
      ∃ generated, (sha256Generator.generateAtTimestampChecked sha256Digests true t₀).run = some (.ok generated)) ∧
    ∀ t₀ generated, (sha256Generator.generateAtTimestampChecked sha256Digests true t₀).run = some (.ok generated) →
      generated.code = sha256Generator.hotp sha256Digests (t₀ / 30) ∧
      (|((59 / 30 : ℕ) : ℤ) - (t₀ / 30 : ℕ)| ≤ (1 : ℕ) →
        (sha256Generator.validateAtTimestampChecked sha256Digests true generated.code 59).run = some (.ok true)) := by
  have hsized : sha256Digests.Sized :=
    ⟨fun _ => List.length_replicate, Sha256.length_digest, fun _ => List.length_replicate⟩
  obtain ⟨haccepted, hgenerated, hvalid⟩ :=
    sha256Generator.validateAtTimestampChecked_iff true hsized "46119246" (by decide : 59 / 30 + 1 < 2 ^ 64)
  exact ⟨haccepted, fun t₀ ht₀ => hgenerated t₀ (.inl ht₀), hvalid⟩

end TotpGenerator

end GmKms.Mfa
