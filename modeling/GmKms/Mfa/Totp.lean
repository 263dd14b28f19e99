import GmKms.Core.Types
import GmKms.Lib.Sha256
/-!
# TOTP codes

`TotpGenerator` of RFC 6238 over the digests of the crates `sha1` and `sha2`. The codes that are
accepted at a time are those of the counters around it.
-/

namespace GmKms.Mfa

open Lib

inductive TotpAlgorithm where
  | sha1 | sha256 | sha512
  deriving DecidableEq

structure TotpConfig where
  secret : Bytes
  timeStep : ℕ := 30
  digits : ℕ := 6
  algorithm : TotpAlgorithm := .sha1
  window : ℕ := 1

/-- Of `MfaError`, what a generator returns. -/
inductive MfaError where
  | invalidSecret
  | invalidConfig (reason : String)
  deriving DecidableEq

namespace MfaError

def display : MfaError → String
  | invalidSecret => "invalid secret"
  | invalidConfig reason => s!"invalid MFA configuration: {reason}"

end MfaError

structure Digests where
  sha1 : Bytes → Bytes
  sha256 : Bytes → Bytes
  sha512 : Bytes → Bytes

/-- The body that the three functions share. -/
def hmac (digest : Bytes → Bytes) (blockSize : ℕ) (key message : Bytes) : Bytes :=
  let key := if blockSize < key.length then digest key else key
  let paddedKey := key ++ List.replicate (blockSize - key.length) 0
  digest (paddedKey.map (0x5c ^^^ ·) ++ digest (paddedKey.map (0x36 ^^^ ·) ++ message))

namespace Digests

variable (digests : Digests)

def hmacSha1 : Bytes → Bytes → Bytes := hmac digests.sha1 64

def hmacSha256 : Bytes → Bytes → Bytes := hmac digests.sha256 64

def hmacSha512 : Bytes → Bytes → Bytes := hmac digests.sha512 128

end Digests

/-- A configuration that `TotpGenerator::new` has checked. -/
structure TotpGenerator where
  config : TotpConfig
  secret_ne : config.secret ≠ []
  digits_ge : 6 ≤ config.digits
  digits_le : config.digits ≤ 8
  timeStep_pos : 0 < config.timeStep

namespace TotpGenerator

def new (config : TotpConfig) : Except MfaError TotpGenerator :=
  if hsecret : config.secret = [] then .error .invalidSecret
  else if hdigits : config.digits < 6 ∨ 8 < config.digits then .error (.invalidConfig "digits must be between 6 and 8")
  else if htimeStep : config.timeStep = 0 then .error (.invalidConfig "time_step must be non-zero")
  else .ok ⟨config, hsecret, by omega, by omega, by omega⟩

def withSecret (secret : Bytes) : Except MfaError TotpGenerator := new { secret }

variable (digests : Digests) (g : TotpGenerator)

def computeHotp (counter : ℕ) : String :=
  let counterBytes := Sha256.toBytes counter 8
  let hmac :=
    match g.config.algorithm with
    | .sha1 => digests.hmacSha1 g.config.secret counterBytes
    | .sha256 => digests.hmacSha256 g.config.secret counterBytes
    | .sha512 => digests.hmacSha512 g.config.secret counterBytes
  -- dynamic truncation: where the four bytes stand is said by the last one
  let offset := (hmac.getD (hmac.length - 1) 0 &&& 0x0f).toNat
  let binary := (hmac.getD offset 0 &&& 0x7f).toNat <<< 24 ||| (hmac.getD (offset + 1) 0).toNat <<< 16 |||
    (hmac.getD (offset + 2) 0).toNat <<< 8 ||| (hmac.getD (offset + 3) 0).toNat
  let otp := Nat.toDigits 10 (binary % 10 ^ g.config.digits)
  String.ofList (List.replicate (g.config.digits - otp.length) '0' ++ otp)

def validateAtTimestamp (code : String) (timestamp : ℕ) : Bool :=
  let counter := timestamp / g.config.timeStep
  (List.range (g.config.window + 1)).any fun delta =>
    g.computeHotp digests (counter + delta) = code ||
      (delta ≤ counter && g.computeHotp digests (counter - delta) = code)

theorem withSecret_eq_ok {secret : Bytes} {g : TotpGenerator} (h : withSecret secret = .ok g) :
    g.config = { secret } := by
  unfold withSecret new at h
  split at h
  · cases h
  · cases h
    rfl

/-- What is accepted is a code of a counter in the window. -/
theorem validateAtTimestamp_iff {code : String} {timestamp : ℕ} : g.validateAtTimestamp digests code timestamp = true ↔
    ∃ counter, counter ≤ timestamp / g.config.timeStep + g.config.window ∧
      timestamp / g.config.timeStep ≤ counter + g.config.window ∧ g.computeHotp digests counter = code := by
  simp only [validateAtTimestamp, List.any_eq_true, List.mem_range, Bool.or_eq_true, Bool.and_eq_true,
    decide_eq_true_eq]
  generalize timestamp / g.config.timeStep = now
  constructor
  · rintro ⟨delta, hdelta, hcode | ⟨hle, hcode⟩⟩
    · exact ⟨now + delta, by omega, by omega, hcode⟩
    · exact ⟨now - delta, by omega, by omega, hcode⟩
  · rintro ⟨counter, hupper, hlower, hcode⟩
    by_cases hle : now ≤ counter
    · refine ⟨counter - now, by omega, .inl ?_⟩
      rwa [Nat.add_sub_cancel' hle]
    · refine ⟨now - counter, by omega, .inr ⟨by omega, ?_⟩⟩
      rwa [Nat.sub_sub_self (by omega)]

/-- No more codes are accepted at a time than the window has counters. -/
theorem length_accepted_le (timestamp : ℕ) {codes : List String} (hnodup : codes.Nodup)
    (haccepted : ∀ code ∈ codes, g.validateAtTimestamp digests code timestamp = true) :
    codes.length ≤ 2 * g.config.window + 1 := by
  let now := timestamp / g.config.timeStep
  let counters := Finset.Icc (now - g.config.window) (now + g.config.window)
  have hsub : codes.toFinset ⊆ counters.image (g.computeHotp digests) := by
    intro code hcode
    obtain ⟨counter, hupper, hlower, rfl⟩ :=
      (g.validateAtTimestamp_iff digests).1 (haccepted code (List.mem_toFinset.1 hcode))
    refine Finset.mem_image_of_mem _ (Finset.mem_Icc.2 ⟨?_, hupper⟩)
    dsimp only [now]
    omega
  calc codes.length = codes.toFinset.card := (List.toFinset_card_of_nodup hnodup).symm
    _ ≤ (counters.image (g.computeHotp digests)).card := Finset.card_le_card hsub
    _ ≤ counters.card := Finset.card_image_le
    _ ≤ 2 * g.config.window + 1 := by
      rw [Nat.card_Icc]
      omega

/-- With the settings that a request is verified with, three. -/
theorem length_accepted_withSecret_le {secret : Bytes} {g : TotpGenerator} (hg : withSecret secret = .ok g)
    (timestamp : ℕ)
    {codes : List String} (hnodup : codes.Nodup)
    (haccepted : ∀ code ∈ codes, g.validateAtTimestamp digests code timestamp = true) : codes.length ≤ 3 := by
  have hlength := g.length_accepted_le digests timestamp hnodup haccepted
  rwa [withSecret_eq_ok hg] at hlength

end TotpGenerator

end GmKms.Mfa
