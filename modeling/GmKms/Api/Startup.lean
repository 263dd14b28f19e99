import GmKms.Api.Authentication
/-!
# From the configured keys to the callers

The keys a server starts with: one from the environment and those that the configuration file declares. No handler
adds, rotates or revokes a key. Where a second factor fails too often, the handler locks the key of its caller.
-/

namespace GmKms.Api

open Lib

/-! ## Startup -/

/-- `std::env::var(..).ok()`. -/
abbrev EnvVars : Type := String → Option String

inductive AuthError where
  | apiKeyNotConfigured (envVar : String)
  | configuration (reason : String)

def AuthError.text : AuthError → String
  | apiKeyNotConfigured envVar => s!"API key not configured: environment variable {envVar} is not set"
  | configuration reason => s!"configuration error: {reason}"

/-- What `ApiKey::new` reads and draws. -/
structure Draw where
  now : DateTime
  uuid : Uuid

structure ApiKeyEntry where
  keyId : String
  role : String
  tenant : Option String
  secretEnv : String

/-- The id of the key, with the default for an entry that gives none. -/
def ApiKeyEntry.id (e : ApiKeyEntry) : String := if e.keyId.isEmpty then e.secretEnv else e.keyId

namespace ApiKeyConfig

def withRole (draw : Draw) (headerName apiKey : String) (role : ApiKeyPermission) : ApiKeyConfig :=
  { withKeys [ApiKey.new draw.now draw.uuid apiKey role] with headerName }

/-- The role of the key from the environment where no role is requested. -/
def defaultRole (apiKey : String) : ApiKeyPermission := if apiKey = "dev-api-key" then .keyAdmin else .operator

def fromEnv (env : EnvVars) (draw : Draw) (headerName envVar : String) : Except AuthError ApiKeyConfig :=
  match env envVar with
  | none => .error (.apiKeyNotConfigured envVar)
  | some apiKey =>
    if apiKey.isEmpty then .error (.configuration "API key cannot be empty")
    else if apiKey = "dev-api-key" ∧ env "KMS_DEV_MODE" ≠ some "1" then
      .error (.configuration ("Insecure default 'dev-api-key' rejected. Set KMS_API_KEY to a secure value, or set " ++
        "KMS_DEV_MODE=1 for development."))
    else
      match env "KMS_API_KEY_ROLE" with
      | none => .ok (withRole draw headerName apiKey (defaultRole apiKey))
      | some requested =>
        match ApiKeyPermission.fromRoleName requested with
        | none =>
          .error (.configuration (s!"unknown KMS_API_KEY_ROLE '{requested}' (expected read-only, operator, " ++
            "key-admin, security-officer, audit-admin or tenant-admin)"))
        | some role => .ok (withRole draw headerName apiKey role)

def listValidKeys (c : ApiKeyConfig) (now : DateTime) : List ApiKey := c.validKeys.filter (·.isValid now)

/-- A round of the loop of `build_api_key_config`: the key of the entry. -/
def declaredKey (env : EnvVars) (entry : ApiKeyEntry) (draw : Draw) (seenSecrets seenKeyIds : List String) :
    Except String ApiKey :=
  let name := entry.keyId
  let secretEnv := entry.secretEnv
  match env entry.secretEnv with
  | none => .error s!"api key '{name}' references environment variable '{secretEnv}' which is not set"
  | some secret =>
    if Text.isBlank secret.toList then
      .error s!"api key '{name}' has an empty secret: environment variable '{secretEnv}' is set but empty"
    else
      match ApiKeyPermission.fromRoleName entry.role with
      | none =>
        let role := entry.role
        .error (s!"api key '{name}' has an unknown role '{role}' (expected read-only, operator, " ++
          "key-admin, security-officer, audit-admin or tenant-admin)")
      | some permission =>
        let keyId := entry.id
        if keyId ∈ seenKeyIds then .error s!"api key '{keyId}' is declared more than once: key ids must be unique"
        else if secret ∈ seenSecrets then
          .error s!"api key '{keyId}' reuses the secret of another key: secrets must be unique"
        else
          let key := (ApiKey.new draw.now draw.uuid secret permission).withKeyId keyId
          .ok (entry.tenant.elim key key.withTenant)

def declareKeys (env : EnvVars) : List (ApiKeyEntry × Draw) → List String → List String → ApiKeyConfig →
    Except String ApiKeyConfig
  | [], _, _, c => .ok c
  | (entry, draw) :: entries, seenSecrets, seenKeyIds, c =>
    match declaredKey env entry draw seenSecrets seenKeyIds with
    | .error e => .error e
    | .ok key => declareKeys env entries (seenSecrets ++ [key.secret]) (seenKeyIds ++ [key.keyId]) (c.addKey key)

/-- `build_api_key_config`, with what is drawn for each entry. -/
def build (now : DateTime) (env : EnvVars) (entries : List (ApiKeyEntry × Draw)) (base : ApiKeyConfig) :
    Except String ApiKeyConfig :=
  declareKeys env entries ((base.listValidKeys now).map (·.secret)) ((base.listValidKeys now).map (·.keyId)) base

/-- The part of `run` that loads the keys. -/
def startup (now : DateTime) (env : EnvVars) (draw : Draw) (entries : List (ApiKeyEntry × Draw)) :
    Except String ApiKeyConfig :=
  match fromEnv env draw "X-API-Key" "KMS_API_KEY" with
  | .error e => .error e.text
  | .ok base => build now env entries base

end ApiKeyConfig

/-! ## The keys of a server -/

/-- Neither used nor limited since it was made. -/
structure ApiKey.Unused (k : ApiKey) (draw : Draw) : Prop where
  created : k.createdAt = draw.now
  unlimited : k.expiresAt = none
  kept : k.revoked = false
  clean : k.failedAttempts = 0
  unlocked : k.lockedUntil = none

theorem ApiKey.Unused.eq {k k' : ApiKey} {draw : Draw} (h : k.Unused draw) (h' : k'.Unused draw)
    (hsecret : k.secret = k'.secret) (hpermission : k.permission = k'.permission) (hid : k.keyId = k'.keyId)
    (htenant : k.tenantId = k'.tenantId) : k = k' := by
  obtain ⟨hcreated, hunlimited, hkept, hclean, hunlocked⟩ := h
  obtain ⟨hcreated', hunlimited', hkept', hclean', hunlocked'⟩ := h'
  cases k
  cases k'
  simp_all

/-- The key that the environment gives. -/
structure EnvKey (env : EnvVars) (draw : Draw) (k : ApiKey) : Prop where
  secret : env "KMS_API_KEY" = some k.secret
  nonempty : k.secret ≠ ""
  notDefault : k.secret = "dev-api-key" → env "KMS_DEV_MODE" = some "1"
  permission : (env "KMS_API_KEY_ROLE").elim (some (ApiKeyConfig.defaultRole k.secret)) ApiKeyPermission.fromRoleName =
    some k.permission
  keyId : k.keyId = draw.uuid.text
  tenant : k.tenantId = none
  unused : k.Unused draw

/-- The key that an entry declares. -/
structure ApiKeyEntry.Declares (env : EnvVars) (e : ApiKeyEntry) (draw : Draw) (k : ApiKey) : Prop where
  secret : env e.secretEnv = some k.secret
  notBlank : Text.isBlank k.secret.toList = false
  permission : ApiKeyPermission.fromRoleName e.role = some k.permission
  keyId : k.keyId = e.id
  tenant : k.tenantId = e.tenant
  unused : k.Unused draw

namespace ApiKeyConfig

variable {env : EnvVars} {draw : Draw} {entries : List (ApiKeyEntry × Draw)} {c c' : ApiKeyConfig}

theorem fromEnv_ok_iff {headerName : String} : fromEnv env draw headerName "KMS_API_KEY" = .ok c ↔
    ∃ k, EnvKey env draw k ∧ c = { withKeys [k] with headerName } := by
  constructor
  · intro h
    unfold fromEnv at h
    split at h
    · cases h
    · rename_i apiKey hkey
      split at h
      · cases h
      · rename_i hempty
        split at h
        · cases h
        · rename_i hdefault
          have hmade : ∀ role, (env "KMS_API_KEY_ROLE").elim (some (defaultRole apiKey)) ApiKeyPermission.fromRoleName =
              some role → EnvKey env draw (ApiKey.new draw.now draw.uuid apiKey role) := fun role hrole =>
            ⟨hkey, by simpa [ApiKey.new] using hempty, fun hdev => by_contra fun hmode => hdefault ⟨hdev, hmode⟩, hrole,
              rfl, rfl, ⟨rfl, rfl, rfl, rfl, rfl⟩⟩
          split at h
          · rename_i hnone
            exact ⟨_, hmade _ (by rw [hnone]; rfl), (Except.ok.inj h).symm⟩
          · rename_i requested hrequested
            split at h
            · cases h
            · rename_i role hrole
              exact ⟨_, hmade role (by rw [hrequested]; exact hrole), (Except.ok.inj h).symm⟩
  · rintro ⟨k, hk, rfl⟩
    have hnew : ApiKey.new draw.now draw.uuid k.secret k.permission = k :=
      ApiKey.Unused.eq ⟨rfl, rfl, rfl, rfl, rfl⟩ hk.unused rfl rfl hk.keyId.symm hk.tenant.symm
    have hdefault : ¬ (k.secret = "dev-api-key" ∧ env "KMS_DEV_MODE" ≠ some "1") :=
      fun h => h.2 (hk.notDefault h.1)
    unfold fromEnv
    rw [hk.secret]
    dsimp only
    rw [if_neg (by simpa using hk.nonempty), if_neg hdefault]
    have hrole := hk.permission
    cases hrequested : env "KMS_API_KEY_ROLE" with
    | none =>
      rw [hrequested] at hrole
      rw [← Option.some.inj hrole] at hnew
      dsimp only
      rw [withRole, hnew]
    | some requested =>
      rw [hrequested] at hrole
      dsimp only
      rw [show ApiKeyPermission.fromRoleName requested = some k.permission from hrole]
      dsimp only
      rw [withRole, hnew]

theorem declaredKey_ok_iff {e : ApiKeyEntry} {seenSecrets seenKeyIds : List String} {k : ApiKey} :
    declaredKey env e draw seenSecrets seenKeyIds = .ok k ↔
      e.Declares env draw k ∧ k.keyId ∉ seenKeyIds ∧ k.secret ∉ seenSecrets := by
  have hmade : ∀ secret permission, (e.tenant.elim ((ApiKey.new draw.now draw.uuid secret permission).withKeyId e.id)
      ((ApiKey.new draw.now draw.uuid secret permission).withKeyId e.id).withTenant) =
        ⟨secret, permission, draw.now, none, false, e.id, e.tenant, 0, none⟩ := by
    intro secret permission
    cases e.tenant <;> rfl
  constructor
  · intro h
    unfold declaredKey at h
    dsimp only at h
    split at h
    · cases h
    · rename_i secret hsecret
      split at h
      · cases h
      · rename_i hblank
        split at h
        · cases h
        · rename_i permission hpermission
          split at h
          · cases h
          · rename_i hid
            split at h
            · cases h
            · rename_i hnew
              rw [hmade] at h
              cases h
              exact ⟨⟨hsecret, by simpa using hblank, hpermission, rfl, rfl, ⟨rfl, rfl, rfl, rfl, rfl⟩⟩, hid, hnew⟩
  · rintro ⟨hk, hid, hnew⟩
    unfold declaredKey
    rw [hk.secret]
    dsimp only
    rw [if_neg (by simp [hk.notBlank]), hk.permission]
    dsimp only
    rw [if_neg (by rwa [← hk.keyId]), if_neg hnew, hmade]
    exact congrArg Except.ok
      (ApiKey.Unused.eq ⟨rfl, rfl, rfl, rfl, rfl⟩ hk.unused rfl rfl hk.keyId.symm hk.tenant.symm)

/-- The loop goes through exactly if each entry has a key and no id and no secret is met twice. -/
theorem declareKeys_ok_iff {seenSecrets seenKeyIds : List String} (hsecrets : seenSecrets.Nodup)
    (hids : seenKeyIds.Nodup) : declareKeys env entries seenSecrets seenKeyIds c = .ok c' ↔
      ∃ keys, List.Forall₂ (fun e k => e.1.Declares env e.2 k) entries keys ∧
        (seenSecrets ++ keys.map (·.secret)).Nodup ∧ (seenKeyIds ++ keys.map (·.keyId)).Nodup ∧
        c' = { c with validKeys := c.validKeys ++ keys } := by
  induction entries generalizing seenSecrets seenKeyIds c with
  | nil =>
    constructor
    · intro h
      refine ⟨[], .nil, by simpa using hsecrets, by simpa using hids, ?_⟩
      rw [List.append_nil]
      exact (Except.ok.inj h).symm
    · rintro ⟨keys, hkeys, -, -, rfl⟩
      cases hkeys
      rw [declareKeys, List.append_nil]
  | cons entry entries ih =>
    obtain ⟨e, draw⟩ := entry
    have hadd : ∀ {seen : List String} {x : String}, seen.Nodup → x ∉ seen → (seen ++ [x]).Nodup := by
      intro seen x hseen hx
      exact List.nodup_append.2 ⟨hseen, by simp, by simpa using fun y hy => ne_of_mem_of_not_mem hy hx⟩
    constructor
    · intro h
      rw [declareKeys] at h
      split at h
      · cases h
      · rename_i k hk
        obtain ⟨hdeclares, hid, hsecret⟩ := declaredKey_ok_iff.1 hk
        obtain ⟨keys, hkeys, hs, hi, rfl⟩ := (ih (hadd hsecrets hsecret) (hadd hids hid)).1 h
        refine ⟨k :: keys, .cons hdeclares hkeys, ?_, ?_, ?_⟩
        · simpa using hs
        · simpa using hi
        · simp [addKey]
    · rintro ⟨keys, hkeys, hs, hi, rfl⟩
      cases hkeys with
      | @cons _ k _ keys hdeclares hkeys =>
        have hs' : (seenSecrets ++ [k.secret] ++ keys.map (·.secret)).Nodup := by simpa using hs
        have hi' : (seenKeyIds ++ [k.keyId] ++ keys.map (·.keyId)).Nodup := by simpa using hi
        have hfresh : ∀ {seen : List String} {x : String}, (seen ++ [x]).Nodup → x ∉ seen :=
          fun h hx => (List.nodup_append.1 h).2.2 _ hx _ (List.mem_singleton_self _) rfl
        have hsec := hfresh hs'.of_append_left
        have hid := hfresh hi'.of_append_left
        rw [declareKeys, declaredKey_ok_iff.2 ⟨hdeclares, hid, hsec⟩]
        dsimp only
        refine (ih (hadd hsecrets hsec) (hadd hids hid)).2 ⟨keys, hkeys, hs', hi', ?_⟩
        simp [addKey]

/-- A server starts exactly if the environment gives a key, each entry declares one, and no two have an id or a secret
in common. It has these keys. -/
theorem startup_ok_iff {now : DateTime} : startup now env draw entries = .ok c ↔
    ∃ first keys, EnvKey env draw first ∧ List.Forall₂ (fun e k => e.1.Declares env e.2 k) entries keys ∧
      ((first :: keys).map (·.secret)).Nodup ∧ ((first :: keys).map (·.keyId)).Nodup ∧
      c = { withKeys (first :: keys) with headerName := "X-API-Key" } := by
  have hbuild : ∀ k : ApiKey, k.Unused draw → ∀ c',
      build now env entries { withKeys [k] with headerName := "X-API-Key" } = .ok c' ↔
        ∃ keys, List.Forall₂ (fun e k => e.1.Declares env e.2 k) entries keys ∧
          ((k :: keys).map (·.secret)).Nodup ∧ ((k :: keys).map (·.keyId)).Nodup ∧
          c' = { withKeys (k :: keys) with headerName := "X-API-Key" } := by
    intro k hk c'
    have hvalid : listValidKeys { withKeys [k] with headerName := "X-API-Key" } now = [k] := by
      simp [listValidKeys, withKeys, ApiKey.isValid, hk.kept, hk.unlimited]
    rw [build, hvalid]
    exact declareKeys_ok_iff (by simp) (by simp)
  constructor
  · intro h
    unfold startup at h
    split at h
    · cases h
    · rename_i base hbase
      obtain ⟨first, hfirst, rfl⟩ := fromEnv_ok_iff.1 hbase
      obtain ⟨keys, hkeys⟩ := (hbuild first hfirst.unused c).1 h
      exact ⟨first, keys, hfirst, hkeys⟩
  · rintro ⟨first, keys, hfirst, hkeys⟩
    rw [startup, fromEnv_ok_iff.2 ⟨first, hfirst, rfl⟩]
    exact (hbuild first hfirst.unused c).2 ⟨keys, hkeys⟩

end ApiKeyConfig

/-- The key is one of those the environment and the entries give. -/
def Deployed (env : EnvVars) (draw : Draw) (entries : List (ApiKeyEntry × Draw)) (k : ApiKey) : Prop :=
  EnvKey env draw k ∨ ∃ e ∈ entries, e.1.Declares env e.2 k

section

variable {env : EnvVars} {draw : Draw} {k k' : ApiKey}

theorem EnvKey.unique (h : EnvKey env draw k) (h' : EnvKey env draw k') : k = k' := by
  have hsecret : k.secret = k'.secret := Option.some.inj (h.secret.symm.trans h'.secret)
  have hpermission := h.permission
  rw [hsecret, h'.permission] at hpermission
  exact h.unused.eq h'.unused hsecret (Option.some.inj hpermission).symm (h.keyId.trans h'.keyId.symm)
    (h.tenant.trans h'.tenant.symm)

theorem ApiKeyEntry.Declares.unique {e : ApiKeyEntry} (h : e.Declares env draw k) (h' : e.Declares env draw k') :
    k = k' :=
  h.unused.eq h'.unused (Option.some.inj (h.secret.symm.trans h'.secret))
    (Option.some.inj (h.permission.symm.trans h'.permission)) (h.keyId.trans h'.keyId.symm)
    (h.tenant.trans h'.tenant.symm)

end

namespace ApiKeyConfig

variable {env : EnvVars} {draw : Draw} {entries : List (ApiKeyEntry × Draw)} {c : ApiKeyConfig}

/-- The keys a server starts with. -/
structure Started (env : EnvVars) (draw : Draw) (entries : List (ApiKeyEntry × Draw)) (c : ApiKeyConfig) : Prop where
  mem : ∀ k, k ∈ c.validKeys ↔ Deployed env draw entries k
  secrets : (c.validKeys.map (·.secret)).Nodup
  ids : (c.validKeys.map (·.keyId)).Nodup
  unlimited : ∀ k ∈ c.validKeys, k.expiresAt = none
  kept : ∀ k ∈ c.validKeys, k.revoked = false
  unlocked : ∀ k ∈ c.validKeys, k.lockedUntil = none
  lockout : c.lockoutDuration = DateTime.minutes 15

theorem started_of_startup {now : DateTime} (h : startup now env draw entries = .ok c) :
    Started env draw entries c := by
  obtain ⟨first, keys, hfirst, hkeys, hsecrets, hids, rfl⟩ := startup_ok_iff.1 h
  have hmem : ∀ k, k ∈ keys ↔ ∃ e ∈ entries, e.1.Declares env e.2 k := by
    intro k
    clear hsecrets hids h
    induction hkeys with
    | nil => simp
    | @cons e k' entries keys hdeclares _ ih =>
      rw [List.mem_cons, List.exists_mem_cons_iff, ih]
      exact or_congr_left ⟨fun h => h ▸ hdeclares, fun h => h.unique hdeclares⟩
  have hdeployed : ∀ k, k ∈ first :: keys ↔ Deployed env draw entries k := by
    intro k
    rw [List.mem_cons, hmem, Deployed]
    exact or_congr_left ⟨fun h => h ▸ hfirst, fun h => h.unique hfirst⟩
  have hunused : ∀ k ∈ first :: keys, ∃ draw, k.Unused draw := by
    intro k hk
    rcases (hdeployed k).1 hk with hk | ⟨e, -, hk⟩
    · exact ⟨_, hk.unused⟩
    · exact ⟨_, hk.unused⟩
  exact ⟨hdeployed, hsecrets, hids, fun k hk => (hunused k hk).elim fun _ h => h.unlimited,
    fun k hk => (hunused k hk).elim fun _ h => h.kept, fun k hk => (hunused k hk).elim fun _ h => h.unlocked, rfl⟩

end ApiKeyConfig

/-! ## Requests to a running server -/

/-- What reaches the keys of a running server: a request, or the lock that `mfa_verify` and `mfa_verify_backup` put on
the key of their caller. -/
inductive ServerInput where
  | request (clock : Clock) (r : AuthRequest)
  | lockout (now : DateTime) (keyId : String)

namespace ServerInput

def lockTime (keyId : String) : ServerInput → Option DateTime
  | request .. => none
  | lockout now id => if id = keyId then some now else none

/-- Until when the last lock of the run lasts. -/
def lockedUntil (is : List ServerInput) (keyId : String) : Option DateTime :=
  (is.filterMap (·.lockTime keyId)).getLast?.map (· + DateTime.minutes 15)

def locked (is : List ServerInput) (keyId : String) (t : DateTime) : Bool :=
  (lockedUntil is keyId).any fun u => decide (t < u)

end ServerInput

/-- The request may pass as the key. The middleware looks the role up before it asks whether the key is usable. -/
def ApiKey.Admits (k : ApiKey) (locked : DateTime → Bool) (clock : Clock) (caller : Caller) : AuthRequest → Prop
  | .rest required _ => locked (clock 1) = false ∧ (required.isEmpty || required.all k.permission.satisfies) = true ∧
      caller = { k.caller with role := if locked (clock 0) then .readOnly else k.permission }
  | .grpc .. => locked (clock 0) = false ∧ caller = k.caller

namespace ApiKeyConfig

def runServer : Machine ApiKeyConfig ServerInput (Option (Except AuthRefusal Caller)) := fun c i =>
  match i with
  | .request clock r => (some (c.authenticate clock r), c)
  | .lockout now keyId => (none, c.lockKeyById now keyId)

section

variable {α : Type} {p : α → Bool} {f : α → α} {l : List α} {a : α}

theorem modifyFirst_eq_map (h : l.Pairwise fun a b => ¬ (p a = true ∧ p b = true)) :
    modifyFirst p f l = l.map fun a => if p a then f a else a := by
  induction l with
  | nil => rfl
  | cons b l ih =>
    obtain ⟨hb, hl⟩ := List.pairwise_cons.1 h
    rw [modifyFirst, List.map_cons]
    by_cases hpb : p b = true
    · have hrest : (l.map fun a => if p a then f a else a) = l.map id :=
        List.map_congr_left fun a ha => if_neg fun hpa => hb a ha ⟨hpb, hpa⟩
      rw [if_pos hpb, if_pos hpb, hrest, List.map_id]
    · rw [if_neg hpb, if_neg hpb, ih hl]

theorem find?_eq_some_iff_of_pairwise (h : l.Pairwise fun a b => ¬ (p a = true ∧ p b = true)) :
    l.find? p = some a ↔ a ∈ l ∧ p a = true := by
  constructor
  · intro hfind
    exact ⟨List.mem_of_find?_eq_some hfind, List.find?_some hfind⟩
  · rintro ⟨ha, hpa⟩
    induction l with
    | nil => cases ha
    | cons b l ih =>
      obtain ⟨hb, hl⟩ := List.pairwise_cons.1 h
      rcases List.mem_cons.1 ha with rfl | ha
      · exact List.find?_cons_of_pos hpa
      · rw [List.find?_cons_of_neg fun hpb => hb a ha ⟨hpb, hpa⟩]
        exact ih hl ha

end

section

variable {env : EnvVars} {draw : Draw} {entries : List (ApiKeyEntry × Draw)} {c : ApiKeyConfig}

/-- The key as the locks of the run leave it. -/
def afterLocks (is : List ServerInput) (k : ApiKey) : ApiKey :=
  { k with lockedUntil := ServerInput.lockedUntil is k.keyId }

theorem afterLocks_request (is : List ServerInput) (clock : Clock) (r : AuthRequest) :
    afterLocks (is ++ [.request clock r]) = afterLocks is := by
  funext k
  simp [afterLocks, ServerInput.lockedUntil, ServerInput.lockTime]

theorem afterLocks_lockout (is : List ServerInput) (now : DateTime) (keyId : String) (k : ApiKey) :
    afterLocks (is ++ [.lockout now keyId]) k =
      if (afterLocks is k).keyId == keyId then (afterLocks is k).lock now (DateTime.minutes 15)
      else afterLocks is k := by
  by_cases h : k.keyId = keyId
  · simp [afterLocks, ServerInput.lockedUntil, ServerInput.lockTime, ApiKey.lock, h]
  · simp [afterLocks, ServerInput.lockedUntil, ServerInput.lockTime, h, Ne.symm h]

theorem pairwise_of_nodup_map {β : Type} {g : ApiKey → β} {keys : List ApiKey} (h : (keys.map g).Nodup)
    {p : ApiKey → Bool} {b : β} (hp : ∀ k, p k = true → g k = b) :
    keys.Pairwise fun k k' => ¬ (p k = true ∧ p k' = true) :=
  (List.pairwise_map.1 h).imp fun hne hboth => hne ((hp _ hboth.1).trans (hp _ hboth.2).symm)

/-- A run changes nothing of a server's keys but until when they are locked. -/
theorem final_runServer (hc : Started env draw entries c) (is : List ServerInput) :
    runServer.final c is = { c with validKeys := c.validKeys.map (afterLocks is) } := by
  induction is using List.reverseRecOn with
  | nil =>
    have hkeys : c.validKeys.map (afterLocks []) = c.validKeys := by
      refine (List.map_congr_left fun k hk => ?_).trans (List.map_id _)
      exact congrArg (fun u => { k with lockedUntil := u }) (hc.unlocked k hk).symm
    rw [hkeys]
    rfl
  | append_singleton is i ih =>
    rw [Machine.final_append, ih]
    cases i with
    | request clock r => rw [afterLocks_request]; rfl
    | lockout now keyId =>
      have hids : ((c.validKeys.map (afterLocks is)).map (·.keyId)).Nodup := by
        rw [List.map_map]
        exact hc.ids
      have hmap : modifyFirst (fun k => k.keyId == keyId) (fun k => k.lock now c.lockoutDuration)
          (c.validKeys.map (afterLocks is)) = c.validKeys.map (afterLocks (is ++ [.lockout now keyId])) := by
        rw [modifyFirst_eq_map (pairwise_of_nodup_map hids fun k => beq_iff_eq.1), List.map_map, hc.lockout]
        exact List.map_congr_left fun k _ => (afterLocks_lockout is now keyId k).symm
      exact congrArg (fun keys => { c with validKeys := keys }) hmap

variable {is : List ServerInput} {t : DateTime} {secret : String} {v : ApiKey}

/-- No two keys have a secret in common after the locks either. -/
theorem pairwise_secret (hc : Started env draw entries c) {p : ApiKey → Bool}
    (hp : ∀ k, p k = true → k.secret = secret) :
    (c.validKeys.map (afterLocks is)).Pairwise fun k k' => ¬ (p k = true ∧ p k' = true) := by
  have hsecrets : ((c.validKeys.map (afterLocks is)).map (·.secret)).Nodup := by
    rw [List.map_map]
    exact hc.secrets
  exact pairwise_of_nodup_map hsecrets hp

theorem firstKey_final (hc : Started env draw entries c) : (runServer.final c is).firstKey secret = some v ↔
    ∃ k ∈ c.validKeys, k.secret = secret ∧ v = afterLocks is k := by
  rw [final_runServer hc, firstKey, find?_eq_some_iff_of_pairwise (pairwise_secret hc fun k => beq_iff_eq.1),
    List.mem_map, beq_iff_eq]
  constructor
  · rintro ⟨⟨k, hk, rfl⟩, hsecret⟩
    exact ⟨k, hk, hsecret, rfl⟩
  · rintro ⟨k, hk, hsecret, rfl⟩
    exact ⟨⟨k, hk, rfl⟩, hsecret⟩

theorem usableKey_final (hc : Started env draw entries c) : (runServer.final c is).usableKey t secret = some v ↔
    ∃ k ∈ c.validKeys, k.secret = secret ∧ ServerInput.locked is k.keyId t = false ∧ v = afterLocks is k := by
  have hvalid : ∀ k ∈ c.validKeys, (afterLocks is k).isValid t = true := by
    intro k hk
    rw [ApiKey.isValid, afterLocks, hc.kept k hk, hc.unlimited k hk]
    rfl
  rw [final_runServer hc, usableKey, find?_eq_some_iff_of_pairwise (pairwise_secret hc fun k hk =>
    beq_iff_eq.1 (Bool.and_eq_true_iff.1 (Bool.and_eq_true_iff.1 hk).1).1), List.mem_map]
  simp only [Bool.and_eq_true, beq_iff_eq, Bool.not_eq_true']
  constructor
  · rintro ⟨⟨k, hk, rfl⟩, ⟨hsecret, -⟩, hlocked⟩
    exact ⟨k, hk, hsecret, hlocked, rfl⟩
  · rintro ⟨k, hk, hsecret, hlocked, rfl⟩
    exact ⟨⟨k, hk, rfl⟩, ⟨hsecret, hvalid k hk⟩, hlocked⟩

/-- The two searches find the same key. -/
theorem searches_final (hc : Started env draw entries c) {f : ApiKey} :
    (runServer.final c is).usableKey t secret = some v ∧ (runServer.final c is).firstKey secret = some f ↔
      ∃ k ∈ c.validKeys, k.secret = secret ∧ ServerInput.locked is k.keyId t = false ∧ v = afterLocks is k ∧
        f = afterLocks is k := by
  rw [usableKey_final hc, firstKey_final hc]
  constructor
  · rintro ⟨⟨k, hk, hsecret, hlocked, rfl⟩, k', hk', hsecret', rfl⟩
    obtain rfl : k' = k := List.inj_on_of_nodup_map hc.secrets hk' hk (hsecret'.trans hsecret.symm)
    exact ⟨k', hk, hsecret, hlocked, rfl, rfl⟩
  · rintro ⟨k, hk, hsecret, hlocked, rfl, rfl⟩
    exact ⟨⟨k, hk, hsecret, hlocked, rfl⟩, k, hk, hsecret, rfl⟩

/-- The role that the middleware looks up. -/
theorem validate_final (hc : Started env draw entries c) {k : ApiKey} (hk : k ∈ c.validKeys) :
    ((runServer.final c is).validate t k.secret).getD .readOnly =
      if ServerInput.locked is k.keyId t then .readOnly else k.permission := by
  cases hlocked : ServerInput.locked is k.keyId t with
  | false =>
    rw [validate, (usableKey_final hc).2 ⟨k, hk, rfl, hlocked, rfl⟩]
    rfl
  | true =>
    have hnone : (runServer.final c is).usableKey t k.secret = none := by
      refine Option.eq_none_iff_forall_ne_some.2 fun v hv => ?_
      obtain ⟨k', hk', hsecret, hunlocked, -⟩ := (usableKey_final hc).1 hv
      rw [List.inj_on_of_nodup_map hc.secrets hk' hk hsecret, hlocked] at hunlocked
      cases hunlocked
    rw [validate, hnone]
    rfl

/-- However the server runs, a request passes exactly if it presents the secret of a key that the environment or an
entry gives, which the last lock leaves usable. It passes with the id and the tenant of this key. -/
theorem authenticate_run {now : DateTime} (h : startup now env draw entries = .ok c) (is : List ServerInput)
    (clock : Clock) (r : AuthRequest) (caller : Caller) :
    (runServer.final c is).authenticate clock r = .ok caller ↔
      ∃ k, Deployed env draw entries k ∧
        (∀ k', Deployed env draw entries k' → k'.secret = k.secret ∨ k'.keyId = k.keyId → k' = k) ∧
        r.secret = some k.secret ∧ k.Admits (ServerInput.locked is k.keyId) clock caller r := by
  have hc := started_of_startup h
  have hunique : ∀ k ∈ c.validKeys, ∀ k', Deployed env draw entries k' →
      k'.secret = k.secret ∨ k'.keyId = k.keyId → k' = k := by
    intro k hk k' hk' heq
    rcases heq with heq | heq
    · exact List.inj_on_of_nodup_map hc.secrets ((hc.mem k').2 hk') hk heq
    · exact List.inj_on_of_nodup_map hc.ids ((hc.mem k').2 hk') hk heq
  cases r with
  | rest required apiKey =>
    rw [authenticate, authMiddleware_ok_iff]
    constructor
    · rintro ⟨secret, v, f, hsecret, hv, hf, hpass, rfl⟩
      obtain ⟨k, hk, rfl, hlocked, rfl, rfl⟩ := (searches_final hc).1 ⟨hv, hf⟩
      refine ⟨k, (hc.mem k).1 hk, hunique k hk, hsecret, hlocked, hpass, ?_⟩
      rw [validate_final hc hk]
      rfl
    · rintro ⟨k, hdeployed, -, hsecret, hlocked, hpass, rfl⟩
      have hk := (hc.mem k).2 hdeployed
      obtain ⟨hv, hf⟩ := (searches_final hc).2 ⟨k, hk, rfl, hlocked, rfl, rfl⟩
      refine ⟨k.secret, afterLocks is k, afterLocks is k, hsecret, hv, hf, hpass, ?_⟩
      rw [validate_final hc hk]
      rfl
  | grpc xApiKey authorization =>
    rw [authenticate, grpcInterceptor_ok_iff]
    constructor
    · rintro ⟨secret, v, f, hsecret, hv, hf, rfl⟩
      obtain ⟨k, hk, rfl, hlocked, rfl, rfl⟩ := (searches_final hc).1 ⟨hv, hf⟩
      exact ⟨k, (hc.mem k).1 hk, hunique k hk, hsecret, hlocked, rfl⟩
    · rintro ⟨k, hdeployed, -, hsecret, hlocked, rfl⟩
      obtain ⟨hv, hf⟩ := (searches_final hc).2 ⟨k, (hc.mem k).2 hdeployed, rfl, hlocked, rfl, rfl⟩
      exact ⟨k.secret, afterLocks is k, afterLocks is k, hsecret, hv, hf, rfl⟩

end

/-- A key from the environment and one that is declared. -/
private def declaring : EnvVars := fun name =>
  if name = "KMS_API_KEY" then some "first-secret" else if name = "APP_KEY" then some "app-secret" else none

private def appEntry : ApiKeyEntry × Draw := (⟨"app", "Key_Admin", some "tenant-a", "APP_KEY"⟩, ⟨0, 2⟩)

private def appKey : ApiKey := ((ApiKey.new 0 2 "app-secret" .keyAdmin).withKeyId "app").withTenant "tenant-a"

private def declared : ApiKeyConfig :=
  { withKeys [ApiKey.new 0 1 "first-secret" .operator, appKey] with headerName := "X-API-Key" }

private theorem startup_declaring : startup 0 declaring ⟨0, 1⟩ [appEntry] = .ok declared :=
  startup_ok_iff.2 ⟨ApiKey.new 0 1 "first-secret" .operator, [appKey],
    ⟨rfl, by decide, by decide, rfl, rfl, rfl, ⟨rfl, rfl, rfl, rfl, rfl⟩⟩,
    .cons ⟨rfl, by decide +kernel, by decide +kernel, by decide +kernel, rfl, ⟨rfl, rfl, rfl, rfl, rfl⟩⟩ .nil,
    by decide +kernel, by decide +kernel, rfl⟩

theorem authenticate_declaring :
    (runServer.final declared [.lockout 0 "app"]).authenticate (fun _ => DateTime.minutes 20)
        (.grpc (some "app-secret") none) = .ok appKey.caller ↔
      ∃ k, Deployed declaring ⟨0, 1⟩ [appEntry] k ∧
        (∀ k', Deployed declaring ⟨0, 1⟩ [appEntry] k' → k'.secret = k.secret ∨ k'.keyId = k.keyId → k' = k) ∧
        AuthRequest.secret (.grpc (some "app-secret") none) = some k.secret ∧
        k.Admits (ServerInput.locked [.lockout 0 "app"] k.keyId) (fun _ => DateTime.minutes 20) appKey.caller
          (.grpc (some "app-secret") none) :=
  authenticate_run startup_declaring _ _ _ _

end ApiKeyConfig

end GmKms.Api
