import GmKms.Lib.Base32
import GmKms.Lib.Text
import GmKms.Lib.Uri
import GmKms.Mfa.Totp
/-!
# Provisioning

`get_provisioning_uri`, and what an authenticator reads from it: the label up to the first question mark, its two parts
around the first colon, and the parameters, of which the issuer is percent-decoded like the label.
-/

namespace GmKms.Mfa

open Lib Lib.Uri

namespace TotpGenerator

/-- `get_provisioning_uri`. -/
def getProvisioningUri (g : TotpGenerator) (accountName issuer : String) : String :=
  let label := issuer ++ ":" ++ accountName
  let secretB32 := String.ofList (Base32.encode g.config.secret)
  let params := [("secret", secretB32), ("issuer", issuer), ("algorithm", "SHA1"), ("digits", g.config.digits.repr),
    ("period", g.config.timeStep.repr)]
  let query := "&".intercalate (params.map fun p => p.1 ++ "=" ++ p.2)
  "otpauth://totp/" ++ label ++ "?" ++ query

/-- The code at a time, in seconds. -/
def codeAt (digests : Digests) (g : TotpGenerator) (timestamp : ℕ) : String :=
  g.computeHotp digests (timestamp / g.config.timeStep)

end TotpGenerator

/-! ## An authenticator -/

/-- What a URI sets up; names are in UTF-8. -/
structure Provisioned where
  labelIssuer : List UInt8
  account : List UInt8
  secret : Bytes
  issuer : List UInt8
  algorithm : TotpAlgorithm
  digits : ℕ
  period : ℕ

def algorithmOf? (t : Text) : Option TotpAlgorithm :=
  if t = "SHA1".toList then some .sha1
  else if t = "SHA256".toList then some .sha256
  else if t = "SHA512".toList then some .sha512
  else none

def number? (t : Text) : Option ℕ := (String.ofList t).toNat?

/-- The two parts of the label and the query. -/
def partsOf (uri : Text) : Option (Text × Text × Text) := do
  let rest ← uri.dropPrefix? "otpauth://totp/".toList
  let (label, query) ← cut? '?' (withoutFragment rest)
  let (labelIssuer, account) ← cut? ':' label
  return (labelIssuer, account, query)

def provision (uri : Text) : Option Provisioned := do
  let (labelIssuer, account, query) ← partsOf uri
  let secret ← (param query "secret").bind Base32.decode
  let issuer ← param query "issuer"
  let algorithm ← (param query "algorithm").bind algorithmOf?
  let digits ← (param query "digits").bind number?
  let period ← (param query "period").bind number?
  return {
    labelIssuer := percentDecode labelIssuer
    account := percentDecode account
    secret
    issuer := percentDecode issuer
    algorithm
    digits
    period }

/-- The generator that the authenticator runs. -/
def Provisioned.generator (p : Provisioned) : Except MfaError TotpGenerator :=
  TotpGenerator.new { secret := p.secret, timeStep := p.period, digits := p.digits, algorithm := p.algorithm }

/-- The authenticator has what the URI was made from, and shows the same codes. -/
structure Recovers (g : TotpGenerator) (accountName issuer : String) (p : Provisioned) : Prop where
  labelIssuer : p.labelIssuer = utf8 issuer.toList
  account : p.account = utf8 accountName.toList
  secret : p.secret = g.config.secret
  issuer : p.issuer = utf8 issuer.toList
  algorithm : p.algorithm = g.config.algorithm
  digits : p.digits = g.config.digits
  period : p.period = g.config.timeStep
  codes : ∃ g', p.generator = .ok g' ∧ ∀ digests timestamp, g'.codeAt digests timestamp = g.codeAt digests timestamp

/-- The text has none of the characters, and nothing that reads as an escape. -/
def Plain (reserved : List Char) (t : String) : Prop := (∀ c ∈ reserved, c ∉ t.toList) ∧ hasEscape t.toList = false

/-! ## The parts of the URI -/

section

variable (g : TotpGenerator) (accountName issuer : String)

def pair (name : String) (value : Text) : Text := name.toList ++ '=' :: value

/-- The parameters after the issuer. -/
def afterIssuer : Text :=
  pair "algorithm" "SHA1".toList ++ '&' :: (pair "digits" g.config.digits.repr.toList ++
    '&' :: pair "period" g.config.timeStep.repr.toList)

def query : Text :=
  pair "secret" (Base32.encode g.config.secret) ++ '&' :: (pair "issuer" issuer.toList ++ '&' :: afterIssuer g)

theorem toList_getProvisioningUri : (g.getProvisioningUri accountName issuer).toList =
    "otpauth://totp/".toList ++ (issuer.toList ++ ':' :: (accountName.toList ++ '?' :: query g issuer)) := by
  have hsep : "&".toList = ['&'] := rfl
  have hcolon : ":".toList = [':'] := rfl
  have hmark : "?".toList = ['?'] := rfl
  have hequals : "=".toList = ['='] := rfl
  have huri : g.getProvisioningUri accountName issuer = "otpauth://totp/" ++ (issuer ++ ":" ++ accountName) ++ "?" ++
      "&".intercalate ["secret" ++ "=" ++ String.ofList (Base32.encode g.config.secret), "issuer" ++ "=" ++ issuer,
        "algorithm" ++ "=" ++ "SHA1", "digits" ++ "=" ++ g.config.digits.repr,
        "period" ++ "=" ++ g.config.timeStep.repr] := rfl
  rw [huri]
  simp only [query, afterIssuer, pair, String.toList_append, String.toList_intercalate, String.toList_ofList,
    List.map_cons,
    List.map_nil, hsep, hcolon, hmark, hequals, List.intercalate_cons_cons, List.intercalate_singleton]
  -- what the names are does not matter
  generalize "otpauth://totp/".toList = start, "secret".toList = secret, "issuer".toList = name,
    "algorithm".toList = algorithm, "SHA1".toList = sha1, "digits".toList = digits, "period".toList = period
  simp only [List.append_assoc, List.cons_append, List.nil_append]

variable {g accountName issuer}

theorem notMem_encode {c : Char} (h : c ∉ Base32.alphabet) (bytes : Bytes) : c ∉ Base32.encode bytes :=
  fun hmem => h (Base32.mem_alphabet hmem)

theorem notMem_pair {c : Char} {name : String} {value : Text} (hname : c ∉ name.toList) (hequals : c ≠ '=')
    (hvalue : c ∉ value) : c ∉ pair name value := by
  simp [pair, hname, hequals, hvalue]

theorem hash_notMem_query (h : '#' ∉ issuer.toList) : '#' ∉ query g issuer := by
  have hencode : '#' ∉ Base32.encode g.config.secret := notMem_encode (by decide) _
  have hdigits : '#' ∉ g.config.digits.repr.toList := Numeral.notMem_repr (by decide) _
  have hperiod : '#' ∉ g.config.timeStep.repr.toList := Numeral.notMem_repr (by decide) _
  simp only [query, afterIssuer, List.mem_append, List.mem_cons, not_or]
  exact ⟨notMem_pair (by decide) (by decide) hencode, by decide, notMem_pair (by decide) (by decide) h, by decide,
    notMem_pair (by decide) (by decide) (by decide), by decide, notMem_pair (by decide) (by decide) hdigits, by decide,
    notMem_pair (by decide) (by decide) hperiod⟩

/-- The parts come out whole where nothing cuts them short. -/
theorem partsOf_uri (hissuer : ∀ c ∈ [':', '?', '#'], c ∉ issuer.toList)
    (haccount : ∀ c ∈ ['?', '#'], c ∉ accountName.toList) :
    partsOf (g.getProvisioningUri accountName issuer).toList = some (issuer.toList, accountName.toList,
      query g issuer) := by
  simp only [List.forall_mem_cons, List.not_mem_nil, false_implies, implies_true, and_true] at hissuer haccount
  have hquery := hash_notMem_query (g := g) hissuer.2.2
  have hhash : '#' ∉ issuer.toList ++ ':' :: (accountName.toList ++ '?' :: query g issuer) := by
    simp [hissuer, haccount, hquery]
  have hlabel : cut? '?' (issuer.toList ++ ':' :: (accountName.toList ++ '?' :: query g issuer)) =
      some (issuer.toList ++ ':' :: accountName.toList, query g issuer) :=
    cut?_eq_some_iff.2 ⟨by simp, by simp [hissuer, haccount]⟩
  rw [partsOf, toList_getProvisioningUri, List.dropPrefix?_append_of_beq _ (by simp)]
  simp only [Option.bind_eq_bind, Option.bind_some, withoutFragment_of_notMem hhash, hlabel,
    cut?_eq_some_iff.2 ⟨rfl, hissuer.1⟩]
  rfl

/-- What comes out of the label is never more than was put in. -/
theorem parts_of_partsOf {labelIssuer account q : Text}
    (h : partsOf (g.getProvisioningUri accountName issuer).toList = some (labelIssuer, account, q)) :
    (labelIssuer <+: issuer.toList ∧ ∀ c ∈ [':', '?', '#'], c ∉ labelIssuer) ∧
      (labelIssuer = issuer.toList → account <+: accountName.toList ∧ ∀ c ∈ ['?', '#'], c ∉ account) := by
  rw [partsOf, toList_getProvisioningUri, List.dropPrefix?_append_of_beq _ (by simp)] at h
  simp only [Option.bind_eq_bind, Option.bind_some] at h
  obtain ⟨⟨label, q'⟩, hlabel, h⟩ := Option.bind_eq_some_iff.1 h
  obtain ⟨⟨labelIssuer', account'⟩, hparts, h⟩ := Option.bind_eq_some_iff.1 h
  cases h
  obtain ⟨fragment, hbody, hhash⟩ := exists_withoutFragment
    (issuer.toList ++ ':' :: (accountName.toList ++ '?' :: query g issuer))
  obtain ⟨hquery, hmark⟩ := cut?_eq_some_iff.1 hlabel
  obtain ⟨hcut, hcolon⟩ := cut?_eq_some_iff.1 hparts
  dsimp only at hcut
  rw [hquery] at hbody hhash
  rw [hcut] at hbody hhash hmark
  simp only [List.append_assoc, List.cons_append] at hbody
  simp only [List.mem_append, List.mem_cons, not_or] at hhash hmark
  refine ⟨⟨prefix_of_append_cons_eq hbody.symm hcolon, ?_⟩, ?_⟩
  · simp [hcolon, hmark, hhash]
  · rintro rfl
    have hrest := (List.cons.inj (List.append_cancel_left hbody)).2
    refine ⟨prefix_of_append_cons_eq hrest.symm hmark.2.2, ?_⟩
    simp [hmark, hhash]

/-! ## The parameters -/

theorem valueOf_pair {key : String} (h : '=' ∉ key.toList) (value : Text) (name : String) :
    valueOf name (pair key value) = if key = name then some value else none := valueOf_append h value name

theorem param_secret : param (query g issuer) "secret" = some (Base32.encode g.config.secret) := by
  have hencode : '&' ∉ Base32.encode g.config.secret := notMem_encode (by decide) _
  rw [query, param_append (notMem_pair (by decide) (by decide) hencode), valueOf_pair (by decide), if_pos rfl,
    Option.some_or]

theorem param_query (name : String) (h : "secret" ≠ name) :
    param (query g issuer) name = param (pair "issuer" issuer.toList ++ '&' :: afterIssuer g) name := by
  have hencode : '&' ∉ Base32.encode g.config.secret := notMem_encode (by decide) _
  rw [query, param_append (notMem_pair (by decide) (by decide) hencode), valueOf_pair (by decide), if_neg h,
    Option.none_or]

/-- The issuer is read up to its first ampersand. -/
theorem param_issuer : param (query g issuer) "issuer" = some (issuer.toList.takeWhile (· ≠ '&')) := by
  have hnot : '&' ∉ issuer.toList.takeWhile (· ≠ '&') := by
    intro h
    have hne := List.mem_takeWhile_imp (p := fun c => decide (c ≠ '&')) h
    exact of_decide_eq_true hne rfl
  obtain ⟨rest, hrest⟩ : ∃ rest, pair "issuer" issuer.toList ++ '&' :: afterIssuer g =
      pair "issuer" (issuer.toList.takeWhile (· ≠ '&')) ++ '&' :: rest := by
    have hsplit := (List.takeWhile_append_dropWhile (p := fun c => decide (c ≠ '&')) (l := issuer.toList)).symm
    cases hdrop : issuer.toList.dropWhile (· ≠ '&') with
    | nil =>
      rw [hdrop, List.append_nil] at hsplit
      exact ⟨afterIssuer g, by rw [← hsplit]⟩
    | cons c rest =>
      have hc : c = '&' := by
        have := List.head?_dropWhile_not (fun c => decide (c ≠ '&')) issuer.toList
        rw [hdrop] at this
        simpa using this
      rw [hdrop, hc] at hsplit
      refine ⟨rest ++ '&' :: afterIssuer g, ?_⟩
      conv_lhs => rw [hsplit]
      simp [pair]
  rw [param_query _ (by decide), hrest, param_append (notMem_pair (by decide) (by decide) hnot),
    valueOf_pair (by decide),
    if_pos rfl, Option.some_or]

theorem param_afterIssuer (h : '&' ∉ issuer.toList) {name : String} (hsecret : "secret" ≠ name)
    (hissuer : "issuer" ≠ name) :
    param (query g issuer) name = param (afterIssuer g) name := by
  rw [param_query name hsecret, param_append (notMem_pair (by decide) (by decide) h), valueOf_pair (by decide),
    if_neg hissuer, Option.none_or]

theorem param_algorithm (h : '&' ∉ issuer.toList) : param (query g issuer) "algorithm" = some "SHA1".toList := by
  rw [param_afterIssuer h (by decide) (by decide), afterIssuer,
    param_append (notMem_pair (by decide) (by decide) (by decide)),
    valueOf_pair (by decide), if_pos rfl, Option.some_or]

theorem param_digits (h : '&' ∉ issuer.toList) :
    param (query g issuer) "digits" = some g.config.digits.repr.toList := by
  have hdigits : '&' ∉ g.config.digits.repr.toList := Numeral.notMem_repr (by decide) _
  rw [param_afterIssuer h (by decide) (by decide), afterIssuer,
    param_append (notMem_pair (by decide) (by decide) (by decide)),
    valueOf_pair (by decide), if_neg (by decide), Option.none_or,
    param_append (notMem_pair (by decide) (by decide) hdigits),
    valueOf_pair (by decide), if_pos rfl, Option.some_or]

theorem param_period (h : '&' ∉ issuer.toList) :
    param (query g issuer) "period" = some g.config.timeStep.repr.toList := by
  have hdigits : '&' ∉ g.config.digits.repr.toList := Numeral.notMem_repr (by decide) _
  have hperiod : '&' ∉ g.config.timeStep.repr.toList := Numeral.notMem_repr (by decide) _
  rw [param_afterIssuer h (by decide) (by decide), afterIssuer,
    param_append (notMem_pair (by decide) (by decide) (by decide)),
    valueOf_pair (by decide), if_neg (by decide), Option.none_or,
    param_append (notMem_pair (by decide) (by decide) hdigits),
    valueOf_pair (by decide), if_neg (by decide), Option.none_or,
    param_of_notMem (notMem_pair (by decide) (by decide) hperiod), valueOf_pair (by decide), if_pos rfl]

theorem number?_repr (n : ℕ) : number? n.repr.toList = some n := by
  rw [number?, String.ofList_toList]
  exact Nat.toNat?_repr n

/-- The generator of the fields that were put in is the one that made the URI, up to its window. -/
theorem generator_of_config (g : TotpGenerator) {p : Provisioned} (hsecret : p.secret = g.config.secret)
    (halgorithm : p.algorithm = g.config.algorithm) (hdigits : p.digits = g.config.digits)
    (hperiod : p.period = g.config.timeStep) :
    ∃ g', p.generator = .ok g' ∧ ∀ digests timestamp, g'.codeAt digests timestamp = g.codeAt digests timestamp := by
  have hge := g.digits_ge
  have hle := g.digits_le
  have hpos := g.timeStep_pos
  rw [Provisioned.generator, hsecret, halgorithm, hdigits, hperiod, TotpGenerator.new, dif_neg g.secret_ne,
    dif_neg (by dsimp only; omega), dif_neg (by dsimp only; omega)]
  exact ⟨_, rfl, fun _ _ => rfl⟩

/-- The URI says SHA1 whatever the algorithm, and escapes nothing: it can be read back exactly where that does not
matter. -/
theorem recovers_iff (g : TotpGenerator) (accountName issuer : String) :
    (∃ p, provision (g.getProvisioningUri accountName issuer).toList = some p ∧ Recovers g accountName issuer p) ↔
      g.config.algorithm = .sha1 ∧ Plain [':', '?', '#', '&'] issuer ∧ Plain ['?', '#'] accountName := by
  constructor
  · rintro ⟨p, hp, hrecovers⟩
    unfold provision at hp
    obtain ⟨⟨labelIssuer, account, q⟩, hparts, hp⟩ := Option.bind_eq_some_iff.1 hp
    obtain ⟨secret, -, hp⟩ := Option.bind_eq_some_iff.1 hp
    obtain ⟨issuer', hissuer, hp⟩ := Option.bind_eq_some_iff.1 hp
    obtain ⟨algorithm, halgorithm, hp⟩ := Option.bind_eq_some_iff.1 hp
    obtain ⟨digits, -, hp⟩ := Option.bind_eq_some_iff.1 hp
    obtain ⟨period, -, hp⟩ := Option.bind_eq_some_iff.1 hp
    cases hp
    obtain ⟨⟨hstarts, hcuts⟩, haccount⟩ := parts_of_partsOf hparts
    obtain ⟨rfl, hescape⟩ := eq_of_percentDecode_eq hstarts hrecovers.labelIssuer
    obtain ⟨haccountPrefix, haccountCuts⟩ := haccount rfl
    obtain ⟨rfl, haccountEscape⟩ := eq_of_percentDecode_eq haccountPrefix hrecovers.account
    rw [partsOf_uri hcuts haccountCuts] at hparts
    obtain rfl : query g issuer = q := (Prod.mk.inj (Prod.mk.inj (Option.some.inj hparts)).2).2
    rw [param_issuer] at hissuer
    obtain rfl := Option.some.inj hissuer
    have hwhole := (eq_of_percentDecode_eq (List.takeWhile_prefix _) hrecovers.issuer).1
    have hampersand : '&' ∉ issuer.toList := by
      intro h
      have hne := List.takeWhile_eq_self_iff.1 hwhole '&' h
      exact of_decide_eq_true hne rfl
    rw [param_algorithm hampersand] at halgorithm
    refine ⟨?_, ⟨?_, hescape⟩, haccountCuts, haccountEscape⟩
    · rw [← hrecovers.algorithm]
      exact (Option.some.inj halgorithm).symm
    · simp only [List.forall_mem_cons, List.not_mem_nil, false_implies, implies_true, and_true] at hcuts ⊢
      exact ⟨hcuts.1, hcuts.2.1, hcuts.2.2, hampersand⟩
  · rintro ⟨halgorithm, ⟨hcuts, hescape⟩, haccountCuts, haccountEscape⟩
    simp only [List.forall_mem_cons, List.not_mem_nil, false_implies, implies_true, and_true] at hcuts
    have hwhole : issuer.toList.takeWhile (· ≠ '&') = issuer.toList :=
      List.takeWhile_eq_self_iff.2 fun c hc => decide_eq_true fun heq => hcuts.2.2.2 (heq ▸ hc)
    have hparts : partsOf (g.getProvisioningUri accountName issuer).toList =
        some (issuer.toList, accountName.toList, query g issuer) := partsOf_uri (by simp [hcuts]) haccountCuts
    refine ⟨⟨utf8 issuer.toList, utf8 accountName.toList, g.config.secret, utf8 issuer.toList, .sha1, g.config.digits,
      g.config.timeStep⟩, ?_, ⟨rfl, rfl, rfl, rfl, halgorithm.symm, rfl, rfl,
      generator_of_config g rfl halgorithm.symm rfl rfl⟩⟩
    simp only [provision, hparts, param_secret, param_issuer, param_algorithm hcuts.2.2.2, param_digits hcuts.2.2.2,
      param_period hcuts.2.2.2, hwhole, Base32.decode_encode, number?_repr, percentDecode_of_not_hasEscape hescape,
      percentDecode_of_not_hasEscape haccountEscape, Option.bind_eq_bind, Option.bind_some]
    rfl

end

/-- Eight digits of SHA-256. -/
def sampleGenerator : TotpGenerator :=
  ⟨{ secret := [1, 2, 3], digits := 8, algorithm := .sha256 }, by decide, by decide, by decide, by decide⟩

theorem not_recovers_sha256 :
    ¬ ∀ (g : TotpGenerator) (accountName issuer : String),
      ∃ p, provision (g.getProvisioningUri accountName issuer).toList = some p ∧ Recovers g accountName issuer p := by
  intro h
  have halgorithm := ((recovers_iff sampleGenerator "user" "gm-kms").1 (h _ _ _)).1
  cases halgorithm

end GmKms.Mfa
