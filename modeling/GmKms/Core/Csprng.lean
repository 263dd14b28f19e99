import GmKms.Core.Types
import GmKms.Lib.Bytes
import GmKms.Lib.Machine
/-!
# The random generator

`GmRng`: an HMAC-SM3 generator in counter mode. An instance with entropy takes fresh
entropy from the operating system every 1024 outputs; one from a seed never does so by
itself.
-/

namespace GmKms.Csprng

open Lib

/-- `[u8; 32]`. -/
abbrev Block : Type := Vector UInt8 32

/-- The primitives of `gm_crypto::sm3`. -/
structure Sm3 where
  /-- `Sm3Hasher::hash`. -/
  hash (data : Bytes) : Block
  /-- `Sm3Hmac::new(key)`, then `compute`. -/
  hmac (key : Block) (data : Bytes) : Block

inductive CsprngError where
  | entropyError (reason : String)
  | generationError (reason : String)
  deriving DecidableEq

def CsprngError.text : CsprngError → String
  | entropyError reason => s!"熵源获取失败: {reason}"
  | generationError reason => s!"随机字节生成失败: {reason}"

/-- What `getrandom` fills 32 bytes with, or its error. -/
abbrev Entropy : Type := Except String Block

def osEntropy (entropy : Entropy) : Except CsprngError Block := entropy.mapError .entropyError

/-! ## The state -/

/-- The loop of `increment_counter`, over the bytes before `i`, the last of them first. -/
def incrementBelow (counter : Block) : (i : ℕ) → i ≤ 32 → Block
  | 0, _ => counter
  | i + 1, h =>
    let counter := counter.set i (counter[i] + 1)
    if counter[i] ≠ 0 then counter else incrementBelow counter i (by omega)

def incrementCounter (counter : Block) : Block := incrementBelow counter 32 le_rfl

structure State where
  key : Block
  counter : Block
  deriving DecidableEq

section

variable (sm3 : Sm3)

namespace State

/-- The key from the first fill, the counter from the second. -/
def new (first second : Entropy) : Except CsprngError State := do
  let key ← osEntropy first
  let counter ← osEntropy second
  return { key, counter }

/-- The counter holds the numbers 1 to 8, each in four bytes, low first. -/
def fromSeed (seed : Bytes) : State where
  key := sm3.hash seed
  counter := .ofFn fun j => UInt8.ofNat ((j / 4 + 1) / 256 ^ (j.val % 4))

/-- One of the two halves of `update`, which differ in a byte. -/
def mix (round : UInt8) (additionalInput : Bytes) (s : State) : State :=
  let key := sm3.hmac s.key (s.counter.toList ++ round :: additionalInput)
  { key, counter := sm3.hmac key key.toList }

def update (additionalInput : Bytes) (s : State) : State :=
  (s.mix sm3 0 additionalInput).mix sm3 1 additionalInput

/-- The loop of `generate`: `len` bytes of output, and the counter after them. -/
def outputBlocks (key : Block) (additionalInput : Bytes) (counter : Block) (len : ℕ) : Bytes × Block :=
  if len = 0 then ([], counter)
  else
    let counter := incrementCounter counter
    let temp := sm3.hmac key (counter.toList ++ additionalInput)
    let copyLen := min len 32
    let rest := outputBlocks key additionalInput (incrementCounter counter) (len - copyLen)
    (temp.toList.take copyLen ++ rest.1, rest.2)
termination_by len

/-- The state whose counter the blocks of an output are made from. -/
def prepared (additionalInput : Option Bytes) (s : State) : State :=
  match additionalInput with
  | some input => s.update sm3 input
  | none => s

def generate (len : ℕ) (additionalInput : Option Bytes) (s : State) : Bytes × State :=
  let s := s.prepared sm3 additionalInput
  let (output, counter) := outputBlocks sm3 s.key (additionalInput.getD []) s.counter len
  (output, update sm3 (additionalInput.getD []) { s with counter })

def reseed (entropy : Bytes) (s : State) : State := s.update sm3 entropy

end State

/-! ## The generator -/

structure GmRng where
  state : State
  reseedInterval : ℕ
  reseedCountdown : ℕ
  deriving DecidableEq

def defaultReseedInterval : ℕ := 1024

/-- What a method answers, the generator it leaves, and what it was given where it asked the operating system. -/
structure Step (α : Type) where
  result : Except CsprngError α
  rng : GmRng
  read : Option Entropy

namespace GmRng

def new (first second : Entropy) : Except CsprngError GmRng := do
  return ⟨← State.new first second, defaultReseedInterval, defaultReseedInterval⟩

def fromSeed (seed : Bytes) : GmRng := ⟨.fromSeed sm3 seed, 0, 0⟩

def maybePeriodicReseed (entropy : Entropy) (rng : GmRng) : Step Unit :=
  if rng.reseedInterval = 0 then ⟨.ok (), rng, none⟩
  else
    let rng := { rng with reseedCountdown := rng.reseedCountdown - 1 }
    if rng.reseedCountdown = 0 then
      match osEntropy entropy with
      | .error e => ⟨.error e, rng, some entropy⟩
      | .ok fresh =>
        ⟨.ok (), { rng with state := rng.state.reseed sm3 fresh.toList, reseedCountdown := rng.reseedInterval },
          some entropy⟩
    else ⟨.ok (), rng, none⟩

def reseed (entropy : Bytes) (rng : GmRng) : GmRng := { rng with state := rng.state.reseed sm3 entropy }

/-- The output of `generate` and the generator after it. -/
def emit (len : ℕ) (read : Option Entropy) (rng : GmRng) : Step Bytes :=
  let (output, state) := rng.state.generate sm3 len none
  ⟨.ok output, { rng with state }, read⟩

def randomBytes (len : ℕ) (entropy : Entropy) (rng : GmRng) : Step Bytes :=
  match rng.maybePeriodicReseed sm3 entropy with
  | ⟨.error e, rng, read⟩ => ⟨.error e, rng, read⟩
  | ⟨.ok (), rng, read⟩ => rng.emit sm3 len read

def randomBytesWithReseed (len : ℕ) (entropy : Entropy) (rng : GmRng) : Step Bytes :=
  match osEntropy entropy with
  | .error e => ⟨.error e, rng, some entropy⟩
  | .ok fresh =>
    emit sm3 len (some entropy)
      { rng with state := rng.state.reseed sm3 fresh.toList, reseedCountdown := rng.reseedInterval }

/-- What is written to a destination of `len` bytes. -/
def fill (len : ℕ) (entropy : Entropy) (rng : GmRng) : Step Bytes :=
  match rng.maybePeriodicReseed sm3 entropy with
  | ⟨.error e, rng, read⟩ => ⟨.error e, rng, read⟩
  | ⟨.ok (), rng, read⟩ => rng.emit sm3 len read

end GmRng

end

/-! ## The counter -/

/-- The number that the counter holds, high byte first. -/
def value (counter : Block) : ℕ := ofBytes counter.toList

theorem take_succ_toList (counter : Block) {i : ℕ} (h : i < 32) :
    counter.toList.take (i + 1) = counter.toList.take i ++ [counter[i]] := by
  rw [List.take_succ_eq_append_getElem (by rw [Vector.length_toList]; exact h), Vector.getElem_toList]

/-- The loop adds one to the number that the bytes before `i` hold, and leaves the others. -/
theorem incrementBelow_spec (counter : Block) (i : ℕ) (h : i ≤ 32) :
    ofBytes ((incrementBelow counter i h).toList.take i) = (ofBytes (counter.toList.take i) + 1) % 256 ^ i ∧
      (incrementBelow counter i h).toList.drop i = counter.toList.drop i := by
  induction i generalizing counter with
  | zero => simp [incrementBelow, ofBytes]
  | succ i ih =>
    have hset : (counter.set i (counter[i] + 1)).toList = counter.toList.set i (counter[i] + 1) := Vector.toList_set _
    have hbyte : (counter.set i (counter[i] + 1))[i] = counter[i] + 1 := Vector.getElem_set_self _
    have hbefore : (counter.set i (counter[i] + 1)).toList.take i = counter.toList.take i := by
      rw [hset, List.take_set_of_le le_rfl]
    have hafter : (counter.set i (counter[i] + 1)).toList.drop (i + 1) = counter.toList.drop (i + 1) := by
      rw [hset, List.drop_set_of_lt (by omega)]
    have hb := counter[i].toNat_lt
    have hlt := ofBytes_lt (counter.toList.take i)
    rw [List.length_take_of_le (by rw [Vector.length_toList]; omega)] at hlt
    rw [incrementBelow]
    split
    · rename_i hne
      -- no carry
      rw [hbyte] at hne
      have hadd : (counter[i] + 1).toNat = counter[i].toNat + 1 := by
        have hne' : (counter[i] + 1).toNat ≠ 0 := fun h => hne (UInt8.toNat_inj.1 h)
        rw [UInt8.toNat_add, UInt8.toNat_one] at hne' ⊢
        omega
      refine ⟨?_, hafter⟩
      rw [take_succ_toList _ (by omega), take_succ_toList _ (by omega), hbefore, hbyte, ofBytes_append_singleton,
        ofBytes_append_singleton, hadd]
      have hfits : (ofBytes (counter.toList.take i) * 256 + counter[i].toNat) + 1 < 256 ^ (i + 1) := by
        have hone : counter[i].toNat + 1 < 256 := by
          have := (counter[i] + 1).toNat_lt
          omega
        rw [Nat.pow_succ]
        omega
      rw [Nat.mod_eq_of_lt hfits, Nat.add_assoc]
    · rename_i hzero
      -- the byte was 255, and the carry goes on
      rw [hbyte, not_not] at hzero
      have hfull : counter[i].toNat = 255 := by
        have hsum := congrArg UInt8.toNat hzero
        rw [UInt8.toNat_add, UInt8.toNat_one, UInt8.toNat_zero] at hsum
        omega
      obtain ⟨hvalue, hrest⟩ := ih (counter.set i (counter[i] + 1)) (by omega)
      have hlast : (incrementBelow (counter.set i (counter[i] + 1)) i (by omega))[i] = 0 := by
        have hhead := congrArg (·[0]?) hrest
        simp only [List.getElem?_drop, Nat.add_zero, Vector.getElem?_toList] at hhead
        rw [Vector.getElem?_eq_getElem (by omega), Vector.getElem?_eq_getElem (by omega)] at hhead
        exact (Option.some.inj hhead).trans (hbyte.trans hzero)
      refine ⟨?_, ?_⟩
      · rw [take_succ_toList _ (by omega), take_succ_toList _ (by omega), ofBytes_append_singleton,
          ofBytes_append_singleton, hvalue, hbefore, hlast, hfull, UInt8.toNat_zero, Nat.add_zero, Nat.add_assoc,
          ← Nat.succ_mul, Nat.pow_succ, Nat.mul_mod_mul_right]
      · have htail := congrArg (List.drop 1) hrest
        rw [List.drop_drop, List.drop_drop] at htail
        rw [← hafter]
        exact htail

theorem value_incrementCounter (counter : Block) :
    value (incrementCounter counter) = (value counter + 1) % 256 ^ 32 := by
  have hall : ∀ b : Block, b.toList.take 32 = b.toList :=
    fun b => List.take_of_length_le (by rw [Vector.length_toList])
  have h := (incrementBelow_spec counter 32 le_rfl).1
  rwa [hall, hall] at h

theorem value_iterate (counter : Block) (k : ℕ) :
    value (incrementCounter^[k] counter) = (value counter + k) % 256 ^ 32 := by
  induction k with
  | zero => exact (Nat.mod_eq_of_lt (by simpa [value] using ofBytes_lt counter.toList)).symm
  | succ k ih => rw [Function.iterate_succ_apply', value_incrementCounter, ih, Nat.mod_add_mod, Nat.add_assoc]

/-! ## Counter mode -/

/-- How many blocks the output takes. -/
def blocks (len : ℕ) : ℕ := (len + 31) / 32

/-- What the blocks are made from: every other number after the counter. -/
def inputs (additionalInput : Bytes) (counter : Block) (count : ℕ) : List Bytes :=
  (List.range count).map fun i => (incrementCounter^[2 * i + 1] counter).toList ++ additionalInput

/-- The blocks, one after the other. -/
def stream (sm3 : Sm3) (key : Block) (additionalInput : Bytes) (counter : Block) (count : ℕ) : Bytes :=
  (inputs additionalInput counter count).flatMap fun input => (sm3.hmac key input).toList

section

variable (sm3 : Sm3) (key : Block) (additionalInput : Bytes) (counter : Block)

theorem inputs_succ (count : ℕ) : inputs additionalInput counter (count + 1) =
    ((incrementCounter counter).toList ++ additionalInput) ::
      inputs additionalInput (incrementCounter (incrementCounter counter)) count := by
  simp only [inputs, List.range_succ_eq_map, List.map_cons, List.map_map]
  rfl

theorem outputBlocks_eq (len : ℕ) : State.outputBlocks sm3 key additionalInput counter len =
    ((stream sm3 key additionalInput counter (blocks len)).take len, incrementCounter^[2 * blocks len] counter) := by
  induction len using Nat.strongRecOn generalizing counter with
  | ind len ih =>
    rw [State.outputBlocks]
    split
    · rename_i hzero
      subst hzero
      rfl
    · rename_i hpos
      have hblocks : blocks len = blocks (len - min len 32) + 1 := by
        unfold blocks
        omega
      have hlen : len - min len 32 = len - 32 := by omega
      have hstream : stream sm3 key additionalInput counter (blocks len) =
          (sm3.hmac key ((incrementCounter counter).toList ++ additionalInput)).toList ++
            stream sm3 key additionalInput (incrementCounter (incrementCounter counter))
              (blocks (len - min len 32)) := by
        rw [hblocks, stream, inputs_succ, List.flatMap_cons]
        rfl
      have hblock : ∀ b : Block, b.toList.take (min len 32) = b.toList.take len := by
        intro b
        rw [← List.take_take, List.take_of_length_le (i := 32) (by rw [Vector.length_toList])]
      dsimp only
      rw [ih (len - min len 32) (by omega), hstream, List.take_append, Vector.length_toList, hlen, hblocks,
        Nat.mul_succ]
      refine Prod.ext (congrArg (· ++ _) (hblock _)) ?_
      rw [hlen]
      rfl

/-- Up to 2^255 blocks no two are made from the same input. -/
theorem inputs_nodup {count : ℕ} (h : count ≤ 2 ^ 255) : (inputs additionalInput counter count).Nodup := by
  refine List.nodup_range.map_on fun i hi j hj heq => ?_
  have hvalue := congrArg value (Vector.toList_inj.1 (List.append_cancel_right heq))
  rw [value_iterate, value_iterate] at hvalue
  have hmod : 2 * i + 1 ≡ 2 * j + 1 [MOD 256 ^ 32] := Nat.ModEq.add_left_cancel' _ hvalue
  have hsmall : ∀ k < count, 2 * k + 1 < 256 ^ 32 := by
    intro k hk
    have hsize : (256 : ℕ) ^ 32 = 2 * 2 ^ 255 := by norm_num
    omega
  have heq := hmod.eq_of_lt_of_lt (hsmall i (List.mem_range.1 hi)) (hsmall j (List.mem_range.1 hj))
  omega

theorem length_stream (count : ℕ) : (stream sm3 key additionalInput counter count).length = 32 * count := by
  rw [stream, List.length_flatMap]
  simp [inputs, Function.comp_def, Nat.mul_comm]

/-- A shorter stream starts a longer one. -/
theorem take_stream {count count' : ℕ} (h : count ≤ count') :
    (stream sm3 key additionalInput counter count').take (32 * count) =
      stream sm3 key additionalInput counter count := by
  obtain ⟨k, rfl⟩ := Nat.exists_eq_add_of_le h
  rw [stream, inputs, List.range_add, List.map_append, List.flatMap_append, ← inputs, ← stream,
    List.take_append_of_le_length (by rw [length_stream]), List.take_of_length_le (by rw [length_stream])]

/-- An output is the start of the counter's stream under the key: of the length asked for, its blocks made from the
numbers 1, 3, 5 and so on after the counter, no block of it made like another one, and one that starts with every
shorter output. -/
theorem generate_stream (additionalInput : Option Bytes) (s : State) (len : ℕ) :
    (s.generate sm3 len additionalInput).1 =
        (stream sm3 (s.prepared sm3 additionalInput).key (additionalInput.getD [])
          (s.prepared sm3 additionalInput).counter (blocks len)).take len ∧
      (s.generate sm3 len additionalInput).1.length = len ∧
      (∀ i, value (incrementCounter^[2 * i + 1] (s.prepared sm3 additionalInput).counter) =
        (value (s.prepared sm3 additionalInput).counter + (2 * i + 1)) % 2 ^ 256) ∧
      (len ≤ 32 * 2 ^ 255 →
        (inputs (additionalInput.getD []) (s.prepared sm3 additionalInput).counter (blocks len)).Nodup) ∧
      ∀ shorter ≤ len,
        (s.generate sm3 shorter additionalInput).1 = (s.generate sm3 len additionalInput).1.take shorter := by
  have houtput : ∀ len, (s.generate sm3 len additionalInput).1 =
      (stream sm3 (s.prepared sm3 additionalInput).key (additionalInput.getD [])
        (s.prepared sm3 additionalInput).counter (blocks len)).take len := by
    intro len
    unfold State.generate
    dsimp only
    rw [outputBlocks_eq]
  have hblocks : ∀ len, len ≤ 32 * blocks len := by
    intro len
    unfold blocks
    omega
  refine ⟨houtput len, ?_, fun i => ?_, fun h => inputs_nodup _ _ ?_, fun shorter h => ?_⟩
  · rw [houtput, List.length_take_of_le (by rw [length_stream]; exact hblocks len)]
  · rw [value_iterate]
    norm_num
  · unfold blocks
    omega
  · have hle : blocks shorter ≤ blocks len := by
      unfold blocks
      omega
    rw [houtput, houtput, List.take_take, Nat.min_eq_left h, ← take_stream _ _ _ _ hle, List.take_take,
      Nat.min_eq_left (hblocks shorter)]

end

/-! ## Runs -/

inductive RngOp where
  | randomBytes (len : ℕ)
  | randomBytesWithReseed (len : ℕ)
  | fill (len : ℕ)
  | reseed (entropy : Bytes)
  deriving DecidableEq

/-- A call, and what the operating system would answer it. -/
structure RngCall where
  op : RngOp
  entropy : Entropy

structure RngReply where
  result : Except CsprngError Bytes
  read : Option Entropy

def Step.reply (s : Step Bytes) : RngReply × GmRng := (⟨s.result, s.read⟩, s.rng)

def serve (sm3 : Sm3) : Machine GmRng RngCall RngReply := fun rng c =>
  match c.op with
  | .randomBytes len => (rng.randomBytes sm3 len c.entropy).reply
  | .randomBytesWithReseed len => (rng.randomBytesWithReseed sm3 len c.entropy).reply
  | .fill len => (rng.fill sm3 len c.entropy).reply
  | .reseed entropy => (⟨.ok [], none⟩, rng.reseed sm3 entropy)

/-- The call took fresh entropy from the operating system. -/
def refreshes (e : RngCall × RngReply) : Bool := e.2.read.any (·.isOk)

/-- The call gave random bytes. -/
def produces (e : RngCall × RngReply) : Bool :=
  match e.1.op with
  | .reseed _ => false
  | _ => e.2.result.isOk

/-- What a call does to an instance with the interval `n`. -/
inductive Stepped (n : ℕ) (rng : GmRng) (e : RngCall × RngReply) (rng' : GmRng) : Prop
  | kept (hread : e.2.read = none) (hproduces : produces e = false) (hok : e.2.result.isOk)
      (hcountdown : rng'.reseedCountdown = rng.reseedCountdown)
  | counted (hread : e.2.read = none) (hproduces : produces e = true)
      (hcountdown : rng'.reseedCountdown + 1 = rng.reseedCountdown) (hpos : 0 < rng'.reseedCountdown)
  | refreshed (hrefreshes : refreshes e = true) (hproduces : produces e = true)
      (hcountdown : rng'.reseedCountdown = n)
  | refused (reason : String) (hresult : e.2.result = .error (.entropyError reason))
      (hread : e.2.read = some (.error reason)) (hstate : rng'.state = rng.state)
      (hcountdown : rng'.reseedCountdown ≤ rng.reseedCountdown)

section

variable {sm3 : Sm3} {n : ℕ} {rng : GmRng}

/-- `random_bytes` and `fill`, by what is left of the interval. -/
theorem stepped_drawing {len : ℕ} {entropy : Entropy} {op : RngOp} (hop : ∀ bytes, op ≠ .reseed bytes)
    (hinterval : rng.reseedInterval = n) (hn : 0 < n) {s : Step Bytes}
    (hs : s = match rng.maybePeriodicReseed sm3 entropy with
      | ⟨.error e, rng, read⟩ => ⟨.error e, rng, read⟩
      | ⟨.ok (), rng, read⟩ => rng.emit sm3 len read) :
    Stepped n rng (⟨op, entropy⟩, s.reply.1) s.reply.2 ∧ s.reply.2.reseedInterval = n := by
  have hproduces : ∀ r : RngReply, produces (⟨op, entropy⟩, r) = r.result.isOk := by
    intro r
    cases op with
    | reseed bytes => exact absurd rfl (hop bytes)
    | _ => rfl
  have hzero : rng.reseedInterval ≠ 0 := by omega
  subst hs
  by_cases hdue : rng.reseedCountdown - 1 = 0
  · cases entropy with
    | error reason =>
      simp only [GmRng.maybePeriodicReseed, if_neg hzero, if_pos hdue]
      exact ⟨.refused reason rfl rfl rfl (Nat.sub_le _ _), hinterval⟩
    | ok fresh =>
      simp only [GmRng.maybePeriodicReseed, if_neg hzero, if_pos hdue]
      exact ⟨.refreshed rfl (hproduces _) hinterval, hinterval⟩
  · simp only [GmRng.maybePeriodicReseed, if_neg hzero, if_neg hdue]
    refine ⟨.counted rfl (hproduces _) ?_ ?_, hinterval⟩
    · change rng.reseedCountdown - 1 + 1 = rng.reseedCountdown
      omega
    · change 0 < rng.reseedCountdown - 1
      omega

theorem stepped_serve (hinterval : rng.reseedInterval = n) (hn : 0 < n) (c : RngCall) :
    Stepped n rng (c, (serve sm3 rng c).1) (serve sm3 rng c).2 ∧ (serve sm3 rng c).2.reseedInterval = n := by
  obtain ⟨op, entropy⟩ := c
  cases op with
  | randomBytes len => exact stepped_drawing (by rintro _ ⟨⟩) hinterval hn rfl
  | fill len => exact stepped_drawing (by rintro _ ⟨⟩) hinterval hn rfl
  | randomBytesWithReseed len =>
    cases entropy with
    | error reason => exact ⟨.refused reason rfl rfl rfl le_rfl, hinterval⟩
    | ok fresh => exact ⟨.refreshed rfl rfl hinterval, hinterval⟩
  | reseed bytes => exact ⟨.kept rfl rfl rfl rfl, hinterval⟩

/-- The call failed as the operating system did. -/
def Excused (e : RngCall × RngReply) : Prop :=
  ∀ error, e.2.result = .error error → ∃ reason, error = .entropyError reason ∧ e.2.read = some (.error reason)

/-- What is left of the interval pays for the outputs since the last fresh entropy. -/
structure Paid (h : History RngCall RngReply) (rng : GmRng) : Prop where
  interval : rng.reseedInterval = defaultReseedInterval
  few : (History.since refreshes h).countP produces < defaultReseedInterval
  paid : (History.since refreshes h).countP produces + rng.reseedCountdown ≤ defaultReseedInterval
  excused : ∀ e ∈ h, Excused e

theorem Stepped.excused {e : RngCall × RngReply} {rng' : GmRng} (h : Stepped n rng e rng') : Excused e := by
  intro error herror
  cases h with
  | kept _ _ hok => simp [herror, Except.isOk, Except.toBool] at hok
  | counted _ hproduces =>
    unfold produces at hproduces
    split at hproduces <;> simp [herror, Except.isOk, Except.toBool] at hproduces
  | refreshed _ hproduces =>
    unfold produces at hproduces
    split at hproduces <;> simp [herror, Except.isOk, Except.toBool] at hproduces
  | refused reason hresult hread => exact ⟨reason, Except.error.inj (herror.symm.trans hresult), hread⟩

/-- The outputs since the last fresh entropy and what is left of the interval, after a call. -/
theorem Stepped.spent {h : History RngCall RngReply} {e : RngCall × RngReply} {rng' : GmRng}
    (hstep : Stepped n rng e rng') (hn : 0 < n) (hfew : (History.since refreshes h).countP produces < n)
    (hpaid : (History.since refreshes h).countP produces + rng.reseedCountdown ≤ n) :
    (History.since refreshes (h ++ [e])).countP produces < n ∧
      (History.since refreshes (h ++ [e])).countP produces + rng'.reseedCountdown ≤ n := by
  cases hstep with
  | kept hread hproduces _ hcountdown =>
    have hno : refreshes e = false := by simp [refreshes, hread]
    rw [History.since_append_of_neg hno, List.countP_append, List.countP_singleton, hproduces, hcountdown]
    exact ⟨hfew, hpaid⟩
  | counted hread hproduces hcountdown hpos =>
    have hno : refreshes e = false := by simp [refreshes, hread]
    rw [History.since_append_of_neg hno, List.countP_append, List.countP_singleton, hproduces, if_pos rfl]
    omega
  | refreshed hrefreshes _ hcountdown =>
    rw [History.since_append_of_pos hrefreshes, hcountdown]
    exact ⟨hn, (Nat.zero_add n).le⟩
  | refused reason hresult hread _ hcountdown =>
    have hno : refreshes e = false := by simp [refreshes, hread, Except.isOk, Except.toBool]
    have hproduces : produces e = false := by
      unfold produces
      split <;> simp [hresult, Except.isOk, Except.toBool]
    rw [History.since_append_of_neg hno, List.countP_append, List.countP_singleton, hproduces]
    exact ⟨hfew, (Nat.add_le_add_left hcountdown _).trans hpaid⟩

theorem paid_step (h : History RngCall RngReply) (rng : GmRng) (c : RngCall) (hrng : Paid h rng) :
    Paid (h ++ [(c, (serve sm3 rng c).1)]) (serve sm3 rng c).2 := by
  have hn : 0 < defaultReseedInterval := by decide
  obtain ⟨hstep, hinterval⟩ : Stepped _ rng (c, (serve sm3 rng c).1) (serve sm3 rng c).2 ∧ _ :=
    stepped_serve hrng.interval hn c
  obtain ⟨hfew, hpaid⟩ := hstep.spent hn hrng.few hrng.paid
  refine ⟨hinterval, hfew, hpaid, fun e he => ?_⟩
  rcases List.mem_append.1 he with he | he
  · exact hrng.excused e he
  · rw [List.mem_singleton.1 he]
    exact hstep.excused

theorem new_paid {first second : Entropy} (h : GmRng.new first second = .ok rng) : Paid [] rng := by
  cases first with
  | error reason => cases h
  | ok key =>
    cases second with
    | error reason => cases h
    | ok counter =>
      cases h
      exact ⟨rfl, by decide, le_rfl, by simp⟩

/-- An instance made by `new` gives fewer than 1024 outputs after the call that last took fresh entropy, which may have
given one of its own; and a call fails only where the operating system does. -/
theorem refreshed_run {first second : Entropy} (h : GmRng.new first second = .ok rng) (cs : List RngCall) :
    (History.since refreshes ((serve sm3).trace rng cs)).countP produces < defaultReseedInterval ∧
      ∀ e ∈ (serve sm3).trace rng cs, Excused e := by
  have hrun : Paid ([] ++ (serve sm3).trace rng cs) ((serve sm3).final rng cs) :=
    (serve sm3).run_inv paid_step (new_paid h) cs
  exact ⟨hrun.few, hrun.excused⟩

end

section

/-- Blocks of the first bytes of what is hashed. -/
private def copying : Sm3 where
  hash data := .ofFn fun i => data.getD i 0
  hmac key data := .ofFn fun i => key[i] + data.getD i 0

private def drawn : GmRng := ⟨⟨.replicate 32 1, .replicate 32 2⟩, defaultReseedInterval, defaultReseedInterval⟩

private theorem new_drawn : GmRng.new (.ok (.replicate 32 1)) (.ok (.replicate 32 2)) = .ok drawn := rfl

private def drawing : List RngCall :=
  [⟨.randomBytes 40, .error "no entropy"⟩, ⟨.randomBytesWithReseed 3, .error "no entropy"⟩,
    ⟨.fill 1, .ok (.replicate 32 7)⟩]

theorem refreshed_drawing :
    (History.since refreshes ((serve copying).trace drawn drawing)).countP produces < defaultReseedInterval ∧
      ∀ e ∈ (serve copying).trace drawn drawing, Excused e :=
  refreshed_run new_drawn drawing

end

end GmKms.Csprng
