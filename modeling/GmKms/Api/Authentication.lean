import GmKms.Api.ApiKeys
/-!
# Who a request is from

The REST middleware and the gRPC interceptor attach a role, an id and a tenant to a
request. They find them by separate searches of the configured keys, some for the
first key with the presented secret, some for the first such key that is usable.
-/

namespace GmKms.Api

open Lib

/-- What of a request authentication reads. `required` is empty where any key will do. -/
inductive AuthRequest where
  | rest (required : List Permission) (apiKey : Option String)
  | grpc (xApiKey authorization : Option String)

inductive AuthRefusal where
  | unauthorized | forbidden
  | unauthenticated (message : String)
  deriving DecidableEq, Repr

/-- `strip_prefix("Bearer ")`. -/
def stripBearer (value : String) : Option String :=
  if "Bearer ".toList <+: value.toList then some (String.ofList (value.toList.drop 7)) else none

/-- The secret the request presents. -/
def AuthRequest.secret : AuthRequest → Option String
  | rest _ apiKey => apiKey
  | grpc xApiKey authorization => xApiKey.or (authorization.bind stripBearer)

/-- The reading of the clock at which the request is admitted. -/
def AuthRequest.admittedAt (clock : Clock) : AuthRequest → DateTime
  | rest .. => clock 1
  | grpc .. => clock 0

/-- What is attached to a request of this key. -/
def ApiKey.caller (k : ApiKey) : Caller := ⟨k.permission, k.keyId, k.tenantId⟩

namespace ApiKeyConfig

/-- `auth_middleware_with_permission`. The role is looked up before the permission is checked. -/
def authMiddleware (c : ApiKeyConfig) (clock : Clock) (required : List Permission) (apiKey : Option String) :
    Except AuthRefusal Caller :=
  match apiKey with
  | none => .error .unauthorized
  | some key =>
    let keyId := c.lookupKeyId key
    let boundTenant := c.lookupTenant key
    let permission := (c.validate (clock 0) key).getD .readOnly
    if c.hasPermission (clock 1) key required then .ok ⟨permission, keyId.getD "unknown", boundTenant⟩
    else .error .forbidden

/-- `GrpcAuthInterceptor::call`. -/
def grpcInterceptor (c : ApiKeyConfig) (clock : Clock) (apiKey : Option String) : Except AuthRefusal Caller :=
  match apiKey with
  | none => .error (.unauthenticated "API key required: set x-api-key metadata header")
  | some key =>
    match c.validateWithIdentity (clock 0) key with
    | none => .error (.unauthenticated "invalid API key")
    | some (permission, keyId) => .ok ⟨permission, keyId, c.lookupTenant key⟩

def authenticate (c : ApiKeyConfig) (clock : Clock) (r : AuthRequest) : Except AuthRefusal Caller :=
  match r with
  | .rest required _ => c.authMiddleware clock required r.secret
  | .grpc .. => c.grpcInterceptor clock r.secret

/-- A configured key with the secret, valid and not locked. -/
structure Usable (c : ApiKeyConfig) (now : DateTime) (secret : String) (k : ApiKey) : Prop where
  mem : k ∈ c.validKeys
  secret : k.secret = secret
  valid : k.isValid now = true
  unlocked : k.isLocked now = false

/-- If the request is admitted, then as one usable key with its secret. -/
def OfOneKey (c : ApiKeyConfig) (clock : Clock) (r : AuthRequest) : Prop :=
  ∀ caller, c.authenticate clock r = .ok caller →
    ∃ secret k, r.secret = some secret ∧ c.Usable (r.admittedAt clock) secret k ∧ caller = k.caller

/-- Where a usable key with the secret lets the request in, one of them has the id and the tenant of the first
configured key with the secret, and the role that is looked up. On gRPC the id is that of the first usable key. -/
def Unshadowed (c : ApiKeyConfig) (clock : Clock) (r : AuthRequest) : Prop :=
  ∀ secret v f, r.secret = some secret → c.usableKey (r.admittedAt clock) secret = some v → c.firstKey secret = some f →
    match r with
    | .rest required _ => (required.isEmpty || required.all v.permission.satisfies) = true →
      ∃ k, c.Usable (clock 1) secret k ∧ k.permission = (c.validate (clock 0) secret).getD .readOnly ∧
        k.keyId = f.keyId ∧ k.tenantId = f.tenantId
    | .grpc .. => ∃ k, c.Usable (clock 0) secret k ∧ k.permission = v.permission ∧ k.keyId = v.keyId ∧
        k.tenantId = f.tenantId

variable {c : ApiKeyConfig} {clock : Clock} {now : DateTime} {secret : String} {v : ApiKey}

theorem usable_of_usableKey (h : c.usableKey now secret = some v) : c.Usable now secret v := by
  have hv := List.find?_some h
  simp only [Bool.and_eq_true, beq_iff_eq, Bool.not_eq_true'] at hv
  exact ⟨List.mem_of_find?_eq_some h, hv.1.1, hv.1.2, hv.2⟩

theorem exists_firstKey (h : c.usableKey now secret = some v) : ∃ f, c.firstKey secret = some f := by
  have husable := usable_of_usableKey h
  have hsome : (c.firstKey secret).isSome := by
    rw [firstKey, List.find?_isSome]
    exact ⟨v, husable.mem, beq_iff_eq.2 husable.secret⟩
  exact Option.isSome_iff_exists.1 hsome

theorem hasPermission_iff {required : List Permission} : c.hasPermission now secret required = true ↔
    ∃ v, c.usableKey now secret = some v ∧ (required.isEmpty || required.all v.permission.satisfies) = true := by
  rw [hasPermission, validate]
  cases c.usableKey now secret <;> simp

/-- What the middleware attaches, by the two searches behind it. -/
theorem authMiddleware_ok_iff {required : List Permission} {apiKey : Option String} {caller : Caller} :
    c.authMiddleware clock required apiKey = .ok caller ↔
      ∃ secret v f, apiKey = some secret ∧ c.usableKey (clock 1) secret = some v ∧ c.firstKey secret = some f ∧
        (required.isEmpty || required.all v.permission.satisfies) = true ∧
        caller = ⟨(c.validate (clock 0) secret).getD .readOnly, f.keyId, f.tenantId⟩ := by
  constructor
  · intro h
    unfold authMiddleware at h
    split at h
    · cases h
    · rename_i secret
      split at h
      · rename_i hpermission
        obtain ⟨v, hv, hpass⟩ := hasPermission_iff.1 hpermission
        obtain ⟨f, hf⟩ := exists_firstKey hv
        refine ⟨secret, v, f, rfl, hv, hf, hpass, ?_⟩
        rw [lookupKeyId, lookupTenant, hf] at h
        exact (Except.ok.inj h).symm
      · cases h
  · rintro ⟨secret, v, f, rfl, hv, hf, hpass, rfl⟩
    have hpermission : c.hasPermission (clock 1) secret required = true := hasPermission_iff.2 ⟨v, hv, hpass⟩
    simp [authMiddleware, hpermission, lookupKeyId, lookupTenant, hf]

theorem grpcInterceptor_ok_iff {apiKey : Option String} {caller : Caller} :
    c.grpcInterceptor clock apiKey = .ok caller ↔
      ∃ secret v f, apiKey = some secret ∧ c.usableKey (clock 0) secret = some v ∧ c.firstKey secret = some f ∧
        caller = ⟨v.permission, v.keyId, f.tenantId⟩ := by
  constructor
  · intro h
    unfold grpcInterceptor at h
    split at h
    · cases h
    · rename_i secret
      rw [validateWithIdentity] at h
      cases hv : c.usableKey (clock 0) secret with
      | none =>
        rw [hv] at h
        cases h
      | some v =>
        obtain ⟨f, hf⟩ := exists_firstKey hv
        refine ⟨secret, v, f, rfl, hv, hf, ?_⟩
        rw [hv, lookupTenant, hf] at h
        exact (Except.ok.inj h).symm
  · rintro ⟨secret, v, f, rfl, hv, hf, rfl⟩
    simp [grpcInterceptor, validateWithIdentity, hv, lookupTenant, hf]

theorem ofOneKey_iff_unshadowed (r : AuthRequest) : c.OfOneKey clock r ↔ c.Unshadowed clock r := by
  cases r with
  | rest required apiKey =>
    constructor
    · intro h secret v f hsecret hv hf hpass
      obtain ⟨secret', k, hsecret', husable, hk⟩ :=
        h _ (authMiddleware_ok_iff.2 ⟨secret, v, f, hsecret, hv, hf, hpass, rfl⟩)
      obtain rfl : secret = secret' := Option.some.inj (hsecret.symm.trans hsecret')
      obtain ⟨hrole, hid, htenant⟩ := Caller.mk.inj hk
      exact ⟨k, husable, hrole.symm, hid.symm, htenant.symm⟩
    · intro h caller hcaller
      obtain ⟨secret, v, f, hsecret, hv, hf, hpass, rfl⟩ := authMiddleware_ok_iff.1 hcaller
      obtain ⟨k, husable, hrole, hid, htenant⟩ := h secret v f hsecret hv hf hpass
      refine ⟨secret, k, hsecret, husable, ?_⟩
      rw [ApiKey.caller, hrole, hid, htenant]
  | grpc xApiKey authorization =>
    constructor
    · intro h secret v f hsecret hv hf
      obtain ⟨secret', k, hsecret', husable, hk⟩ := h _ (grpcInterceptor_ok_iff.2 ⟨secret, v, f, hsecret, hv, hf, rfl⟩)
      obtain rfl : secret = secret' := Option.some.inj (hsecret.symm.trans hsecret')
      obtain ⟨hrole, hid, htenant⟩ := Caller.mk.inj hk
      exact ⟨k, husable, hrole.symm, hid.symm, htenant.symm⟩
    · intro h caller hcaller
      obtain ⟨secret, v, f, hsecret, hv, hf, rfl⟩ := grpcInterceptor_ok_iff.1 hcaller
      obtain ⟨k, husable, hrole, hid, htenant⟩ := h secret v f hsecret hv hf
      refine ⟨secret, k, hsecret, husable, ?_⟩
      rw [ApiKey.caller, hrole, hid, htenant]

/-- Where no two keys have one secret, none shadows another, if the two searches read the clock alike. -/
theorem unshadowed_of_nodup_secret (hdistinct : (c.validKeys.map (·.secret)).Nodup) (hclock : clock 0 = clock 1)
    (r : AuthRequest) : c.Unshadowed clock r := by
  intro secret v f hsecret hv hf
  have husable := usable_of_usableKey hv
  have hsame : f = v := by
    have hfirst : f.secret = secret := by simpa using List.find?_some hf
    exact List.inj_on_of_nodup_map hdistinct (List.mem_of_find?_eq_some hf) husable.mem
      (hfirst.trans husable.secret.symm)
  subst hsame
  cases r with
  | rest required apiKey =>
    intro hpass
    refine ⟨f, husable, ?_, rfl, rfl⟩
    have hlooked : c.usableKey (clock 0) secret = some f := hclock ▸ hv
    rw [validate, hlooked]
    rfl
  | grpc xApiKey authorization => exact ⟨f, husable, rfl, rfl, rfl⟩

/-! ## Runs -/

/-- An administration call, or a request. -/
inductive Input where
  | call (i : TimedCall)
  | request (clock : Clock) (r : AuthRequest)

/-- Calls and requests in any order. A request is answered with what is attached to it. -/
def serve : Machine ApiKeyConfig Input (Option (Except AuthRefusal Caller)) := fun c i =>
  match i with
  | .call i => (none, (step c i).2)
  | .request clock r => (some (c.authenticate clock r), c)

/-- The requests of a run are admitted as one key each exactly if no key in front of the usable one shadows it. -/
theorem ofOneKey_of_run_iff (keys : List ApiKey) (is : List Input) :
    serve.Along (fun _ c i => ∀ clock r, i = .request clock r → c.OfOneKey clock r) [] (withKeys keys) is ↔
      serve.Along (fun _ c i => ∀ clock r, i = .request clock r → c.Unshadowed clock r) [] (withKeys keys) is := by
  refine Machine.along_congr fun _ c i => forall_congr' fun clock => forall_congr' fun r => ?_
  exact imp_congr_right fun _ => ofOneKey_iff_unshadowed r

/-- Two keys with one secret, the first without a tenant. -/
def unboundKey : ApiKey := (ApiKey.new 0 1 "secret" .operator).withKeyId "key-1"

def boundKey : ApiKey := ((ApiKey.new 0 2 "secret" .operator).withKeyId "key-2").withTenant "tenant-a"

/-- After the first is revoked, the second is let in under the id of the first, and without its tenant. -/
theorem not_ofOneKey_revoked : ¬ (step.final (withKeys [unboundKey, boundKey]) [⟨10, .revokeKey "key-1"⟩]).OfOneKey
    (fun _ => 20) (.rest [.encrypt] (some "secret")) := by
  intro h
  obtain ⟨secret, k, -, husable, hk⟩ := h ⟨.operator, "key-1", none⟩ rfl
  have hkeys : (step.final (withKeys [unboundKey, boundKey]) [⟨10, .revokeKey "key-1"⟩]).validKeys =
      [{ unboundKey with revoked := true }, boundKey] := rfl
  have hmem := husable.mem
  rw [hkeys, List.mem_cons, List.mem_singleton] at hmem
  rcases hmem with rfl | rfl
  · exact absurd husable.valid (by decide)
  · exact absurd (Caller.mk.inj hk).2.1 (by decide)

end ApiKeyConfig

end GmKms.Api
