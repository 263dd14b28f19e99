import GmKms.Api.CryptoService
import GmKms.Keystore.ContextBinding
/-!
# What a tag is for

`build_mac_input` puts additional data before the data with its length in four bytes,
and leaves the data alone where there is none. Nothing tells the two cases apart, so a
tag can be for two requests.
-/

namespace GmKms.Api.CryptoService

open Lib Keystore Service

/-- What a tag is asked for. -/
structure MacRequest where
  aad : Option Bytes
  data : Bytes
  deriving DecidableEq

namespace MacRequest

/-- The additional data. None is the same as the empty one. -/
def context (r : MacRequest) : Bytes := r.aad.getD []

def input (r : MacRequest) : Bytes := buildMacInput r.aad r.data

/-- The same data under the same additional data. -/
def Same (r r' : MacRequest) : Prop := r.data = r'.data ∧ r.context = r'.context

/-- The data of the first request, which has no additional data, starts with that of the second. -/
def Spells (r r' : MacRequest) : Prop :=
  r.context = [] ∧ r'.context ≠ [] ∧ r.data = beBytes r'.context.length 4 ++ (r'.context ++ r'.data)

/-- The additional data of one is longer by a multiple of 2 ^ 32, and goes on as the data of the other. -/
def Wraps (r r' : MacRequest) : Prop :=
  r.context ≠ [] ∧ r'.context ≠ [] ∧ r.context.length ≠ r'.context.length ∧
    r.context.length % 2 ^ 32 = r'.context.length % 2 ^ 32 ∧ r.context ++ r.data = r'.context ++ r'.data

def Ambiguous (r r' : MacRequest) : Prop := r.Spells r' ∨ r'.Spells r ∨ r.Wraps r'

variable {r r' : MacRequest}

theorem input_of_context_nil (h : r.context = []) : r.input = r.data := by
  obtain ⟨aad, data⟩ := r
  cases aad with
  | none => rfl
  | some a =>
    obtain rfl : a = [] := h
    rfl

theorem input_of_context_ne_nil (h : r.context ≠ []) :
    r.input = beBytes r.context.length 4 ++ (r.context ++ r.data) := by
  obtain ⟨aad, data⟩ := r
  cases aad with
  | none => exact absurd rfl h
  | some a =>
    have hne : a.isEmpty = false := List.isEmpty_eq_false_iff.2 h
    simp only [input, buildMacInput, hne, Bool.false_eq_true, if_false, context, Option.getD_some, List.append_assoc]

/-- With additional data on both sides only its length can be mistaken. -/
theorem input_eq_iff_of_ne_nil (h : r.context ≠ []) (h' : r'.context ≠ []) :
    r.input = r'.input ↔ r.Same r' ∨ r.Wraps r' := by
  rw [input_of_context_ne_nil h, input_of_context_ne_nil h']
  constructor
  · intro heq
    obtain ⟨hlength, hrest⟩ := List.append_inj heq (by rw [length_beBytes, length_beBytes])
    by_cases hsame : r.context.length = r'.context.length
    · obtain ⟨hcontext, hdata⟩ := List.append_inj hrest hsame
      exact .inl ⟨hdata, hcontext⟩
    · exact .inr ⟨h, h', hsame, beBytes_eq_iff.1 hlength, hrest⟩
  · rintro (⟨hdata, hcontext⟩ | ⟨-, -, -, hlength, hrest⟩)
    · rw [hdata, hcontext]
    · rw [beBytes_eq_iff.2 hlength, hrest]

/-- Two requests with one input are the same or ambiguous. -/
theorem input_eq_iff : r.input = r'.input ↔ r.Same r' ∨ r.Ambiguous r' := by
  unfold Ambiguous
  by_cases h : r.context = [] <;> by_cases h' : r'.context = []
  · rw [input_of_context_nil h, input_of_context_nil h']
    simp [Same, Spells, Wraps, h, h']
  · rw [input_of_context_nil h, input_of_context_ne_nil h']
    simp [Same, Spells, Wraps, h, h', Ne.symm h']
  · rw [input_of_context_ne_nil h, input_of_context_nil h']
    simp [Same, Spells, Wraps, h, h', eq_comm]
  · rw [input_eq_iff_of_ne_nil h h']
    simp [Spells, h, h']

theorem Same.not_ambiguous (h : r.Same r') : ¬ r.Ambiguous r' := by
  obtain ⟨-, hcontext⟩ := h
  rintro (⟨hnil, hne, -⟩ | ⟨hnil, hne, -⟩ | ⟨-, -, hlength, -⟩)
  · exact hne (hcontext ▸ hnil)
  · exact hne (hcontext ▸ hnil)
  · exact hlength (congrArg List.length hcontext)

end MacRequest

/-! ## Tags -/

/-- HMAC-SM3 as it is relied on: what `verify` accepts was computed, and a tag is computed for one input only. -/
structure MacUnforgeable (crypto : ServiceCrypto) : Prop where
  computed : ∀ {key data mac : Bytes}, crypto.sm3HmacVerify key data mac = .ok true → crypto.sm3Hmac key data = .ok mac
  one_input : ∀ {key key' data data' mac : Bytes}, crypto.sm3Hmac key data = .ok mac →
    crypto.sm3Hmac key' data' = .ok mac → data = data'

/-- A tag that is the input itself. -/
example : MacUnforgeable { ServiceCrypto.plain with
    sm3Hmac := fun _ data => .ok data
    sm3HmacVerify := fun _ data mac => .ok (mac = data) } where
  computed := by
    intro key data mac h
    simpa [eq_comm] using h
  one_input := by
    intro key key' data data' mac h h'
    cases h
    cases h'
    rfl

section

variable {crypto : ServiceCrypto} {env : ServiceEnv} {ks : Software.SoftwareKeystore} {keyId : Uuid} {tenantId : String}

theorem hmacVerify_eq_ok {data : Bytes} {aad : Option Bytes} {mac : Bytes} {valid : Bool}
    (h : (runOn crypto.toCrypto env.toUseEnv (hmacVerify env crypto keyId data aad mac tenantId) ks).1 = .ok valid) :
    ∃ entry, ks.keys[keyId]? = some entry ∧ entry.keyMeta.tenantId = tenantId ∧ entry.keyMeta.spec = .sm3Hmac ∧
      crypto.sm3HmacVerify entry.material (buildMacInput aad data) mac = .ok valid := by
  obtain ⟨_, _, hprepared, hchecked⟩ := runOn_bind_eq_ok h
  obtain ⟨-, entry, hentry, howned, hspec, rfl⟩ := prepareHmac_eq_ok (congrArg Prod.fst hprepared)
  dsimp only at hchecked
  split at hchecked
  · cases hchecked
  · rename_i checked hmac
    cases hchecked
    exact ⟨entry, hentry, howned, hspec, hmac⟩

end

/-- One input is for one request, and so a tag is accepted only for the request it was issued for. -/
def Separated (issued checked : MacRequest) : Prop :=
  (issued.input = checked.input → issued.Same checked) ∧
    ∀ crypto : ServiceCrypto, MacUnforgeable crypto →
      ∀ (env env' : ServiceEnv) (ks ks' : Software.SoftwareKeystore) (keyId keyId' : Uuid) (tenantId tenantId' : String)
        (mac : Bytes) (version : UInt32),
      (runOn crypto.toCrypto env.toUseEnv (hmac env crypto keyId issued.data issued.aad tenantId) ks).1 =
        .ok (mac, version) →
      (runOn crypto.toCrypto env'.toUseEnv (hmacVerify env' crypto keyId' checked.data checked.aad mac tenantId')
        ks').1 =
        .ok true →
      issued.Same checked

/-- Two requests are kept apart just if neither spells out the other and the length does not wrap. -/
theorem separated_iff (issued checked : MacRequest) : Separated issued checked ↔ ¬ issued.Ambiguous checked := by
  constructor
  · rintro ⟨hinput, -⟩ hambiguous
    exact (hinput (MacRequest.input_eq_iff.2 (.inr hambiguous))).not_ambiguous hambiguous
  · intro hclear
    have hinput (h : issued.input = checked.input) : issued.Same checked :=
      (MacRequest.input_eq_iff.1 h).resolve_right hclear
    refine ⟨hinput, ?_⟩
    intro crypto hcrypto env env' ks ks' keyId keyId' tenantId tenantId' mac version hissued haccepted
    obtain ⟨entry, -, -, -, hcomputed, -⟩ := hmac_eq_ok hissued
    obtain ⟨entry', -, -, -, hverified⟩ := hmacVerify_eq_ok haccepted
    exact hinput (hcrypto.one_input hcomputed (hcrypto.computed hverified))

/-- A message under a context, and a message that is both of them. -/
def contextRequest : MacRequest := ⟨some [99, 116, 120], [109, 115, 103]⟩

def bareRequest : MacRequest := ⟨none, [0, 0, 0, 3, 99, 116, 120, 109, 115, 103]⟩

/-- A keystore with one HMAC key. -/
def macKeystore : Software.SoftwareKeystore :=
  (Software.SoftwareKeystore.perform .plain (sampleServiceEnv 7).toUseEnv (.generateKey .sm3Hmac "mac" "tenant-1")
    .new).2

/-- They have one input, and the tag of the first is accepted for the second. -/
theorem not_separated_contextRequest :
    ¬ Separated contextRequest bareRequest ∧ ∃ mac version,
      (runOn Crypto.plain (sampleServiceEnv 7).toUseEnv (hmac (sampleServiceEnv 7) .plain 1 contextRequest.data
        contextRequest.aad "tenant-1") macKeystore).1 = .ok (mac, version) ∧
      (runOn Crypto.plain (sampleServiceEnv 7).toUseEnv (hmacVerify (sampleServiceEnv 7) .plain 1 bareRequest.data
        bareRequest.aad mac "tenant-1") macKeystore).1 = .ok true := by
  constructor
  · rintro ⟨hinput, -⟩
    obtain ⟨hdata, -⟩ := hinput rfl
    cases hdata
  · exact ⟨_, _, rfl, rfl⟩

end GmKms.Api.CryptoService
