import Mathlib
/-!
# SHA-256 and HMAC-SHA256

The hash function of FIPS 180-4 and the message authentication code over it, on
lists of bytes, in a form that can be run.
-/

namespace Lib.Sha256

abbrev Word := BitVec 32

structure State where
  (a b c d e f g h : Word)

def initial : State :=
  ⟨0x6a09e667, 0xbb67ae85, 0x3c6ef372, 0xa54ff53a, 0x510e527f, 0x9b05688c, 0x1f83d9ab, 0x5be0cd19⟩

def roundConstants : List Word :=
  [0x428a2f98, 0x71374491, 0xb5c0fbcf, 0xe9b5dba5, 0x3956c25b, 0x59f111f1, 0x923f82a4, 0xab1c5ed5,
   0xd807aa98, 0x12835b01, 0x243185be, 0x550c7dc3, 0x72be5d74, 0x80deb1fe, 0x9bdc06a7, 0xc19bf174,
   0xe49b69c1, 0xefbe4786, 0x0fc19dc6, 0x240ca1cc, 0x2de92c6f, 0x4a7484aa, 0x5cb0a9dc, 0x76f988da,
   0x983e5152, 0xa831c66d, 0xb00327c8, 0xbf597fc7, 0xc6e00bf3, 0xd5a79147, 0x06ca6351, 0x14292967,
   0x27b70a85, 0x2e1b2138, 0x4d2c6dfc, 0x53380d13, 0x650a7354, 0x766a0abb, 0x81c2c92e, 0x92722c85,
   0xa2bfe8a1, 0xa81a664b, 0xc24b8b70, 0xc76c51a3, 0xd192e819, 0xd6990624, 0xf40e3585, 0x106aa070,
   0x19a4c116, 0x1e376c08, 0x2748774c, 0x34b0bcb5, 0x391c0cb3, 0x4ed8aa4a, 0x5b9cca4f, 0x682e6ff3,
   0x748f82ee, 0x78a5636f, 0x84c87814, 0x8cc70208, 0x90befffa, 0xa4506ceb, 0xbef9a3f7, 0xc67178f2]

/-- The message schedule, newest word first, extended by `n` words. -/
def extend : ℕ → List Word → List Word
  | 0, ws => ws
  | n + 1, ws =>
    let w₁₅ := ws.getD 14 0
    let w₂ := ws.getD 1 0
    let σ₀ := w₁₅.rotateRight 7 ^^^ w₁₅.rotateRight 18 ^^^ (w₁₅ >>> 3)
    let σ₁ := w₂.rotateRight 17 ^^^ w₂.rotateRight 19 ^^^ (w₂ >>> 10)
    extend n ((ws.getD 15 0 + σ₀ + ws.getD 6 0 + σ₁) :: ws)

def round (s : State) (k w : Word) : State :=
  let sum₁ := s.e.rotateRight 6 ^^^ s.e.rotateRight 11 ^^^ s.e.rotateRight 25
  let choice := (s.e &&& s.f) ^^^ (~~~s.e &&& s.g)
  let t := s.h + sum₁ + choice + k + w
  let sum₀ := s.a.rotateRight 2 ^^^ s.a.rotateRight 13 ^^^ s.a.rotateRight 22
  let majority := (s.a &&& s.b) ^^^ (s.a &&& s.c) ^^^ (s.b &&& s.c)
  ⟨t + (sum₀ + majority), s.a, s.b, s.c, s.d + t, s.e, s.f, s.g⟩

def rounds : State → List Word → List Word → State
  | s, k :: ks, w :: ws => rounds (round s k w) ks ws
  | s, _, _ => s

def compress (s : State) (block : List Word) : State :=
  let s' := rounds s roundConstants (extend 48 block.reverse).reverse
  ⟨s.a + s'.a, s.b + s'.b, s.c + s'.c, s.d + s'.d, s.e + s'.e, s.f + s'.f, s.g + s'.g, s.h + s'.h⟩

/-- The `n` low bytes of `x`, high first. -/
def toBytes (x : ℕ) : ℕ → List UInt8
  | 0 => []
  | n + 1 => toBytes (x / 256) n ++ [UInt8.ofNat x]

def toWords : List UInt8 → List Word
  | a :: b :: c :: d :: bytes =>
    BitVec.ofNat 32 (((a.toNat * 256 + b.toNat) * 256 + c.toNat) * 256 + d.toNat) :: toWords bytes
  | _ => []

def pad (message : List UInt8) : List UInt8 :=
  message ++ 0x80 :: List.replicate ((119 - message.length % 64) % 64) 0 ++ toBytes (message.length * 8) 8

def compressAll : ℕ → State → List Word → State
  | 0, s, _ => s
  | n + 1, s, ws => compressAll n (compress s (ws.take 16)) (ws.drop 16)

def digest (message : List UInt8) : List UInt8 :=
  let padded := pad message
  let s := compressAll (padded.length / 64) initial (toWords padded)
  [s.a, s.b, s.c, s.d, s.e, s.f, s.g, s.h].flatMap fun w => toBytes w.toNat 4

theorem length_toBytes (x n : ℕ) : (toBytes x n).length = n := by
  induction n generalizing x with
  | zero => rfl
  | succ n ih => simp [toBytes, ih]

theorem length_digest (message : List UInt8) : (digest message).length = 32 := by
  simp [digest, length_toBytes]

example : digest [0x61, 0x62, 0x63] =
    toBytes 0xba7816bf8f01cfea414140de5dae2223b00361a396177a9cb410ff61f20015ad 32 := by decide +kernel

def hmac (key message : List UInt8) : List UInt8 :=
  let key := if 64 < key.length then digest key else key
  let key := key ++ List.replicate (64 - key.length) 0
  digest (key.map (· ^^^ 0x5c) ++ digest (key.map (· ^^^ 0x36) ++ message))

end Lib.Sha256
