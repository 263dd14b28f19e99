import GmKms.Api.ApiKeys
import GmKms.Api.Rest
/-!
# What revocation and rotation take away

Over every sequence of calls: which keys stay invalid once they have been revoked
or have expired, and whose tenant a rotated key has.
-/

namespace GmKms.Api

open Lib

/-- Whatever was invalid before stays so. -/
structure ApiKey.Tightened (k k' : ApiKey) : Prop where
  revoked : k.revoked = true → k'.revoked = true
  expiry : ∀ exp, k.expiresAt = some exp → ∃ exp', k'.expiresAt = some exp' ∧ exp' ≤ exp

namespace ApiKey.Tightened

variable {k k' k'' : ApiKey}

theorem rfl' : k.Tightened k := ⟨id, fun exp h => ⟨exp, h, le_rfl⟩⟩

theorem of_eq (hrevoked : k'.revoked = k.revoked) (hexpiry : k'.expiresAt = k.expiresAt) : k.Tightened k' :=
  ⟨fun h => hrevoked.trans h, fun exp h => ⟨exp, hexpiry.trans h, le_rfl⟩⟩

theorem trans (h : k.Tightened k') (h' : k'.Tightened k'') : k.Tightened k'' := by
  refine ⟨fun hrevoked => h'.revoked (h.revoked hrevoked), fun exp hexp => ?_⟩
  obtain ⟨exp', hexp', hle⟩ := h.expiry exp hexp
  obtain ⟨exp'', hexp'', hle'⟩ := h'.expiry exp' hexp'
  exact ⟨exp'', hexp'', hle'.trans hle⟩

theorem invalid {t : DateTime} (h : k.Tightened k') (hk : k.isValid t = false) : k'.isValid t = false := by
  rw [ApiKey.isValid_eq_false_iff] at hk ⊢
  rcases hk with hk | ⟨exp, hexp, hle⟩
  · exact .inl (h.revoked hk)
  · obtain ⟨exp', hexp', hle'⟩ := h.expiry exp hexp
    exact .inr ⟨exp', hexp', hle'.trans hle⟩

end ApiKey.Tightened

namespace ApiKeyConfig

/-- What a rotation does to the keys there are, and whose tenant the new key has. -/
structure RotationTakesAway (before after : ApiKeyConfig) (now : DateTime) (oldKeyId : String) (newKey : ApiKey) :
    Prop where
  stays : ∀ (j : ℕ) k k', before.validKeys[j]? = some k → after.validKeys[j]? = some k' → k.isValid now = false →
    ∀ t, now ≤ t → k'.isValid t = false
  sooner : ∀ (j : ℕ) k k', before.validKeys[j]? = some k → after.validKeys[j]? = some k' →
    ∀ exp, k.expiresAt = some exp → ∃ exp', k'.expiresAt = some exp' ∧ exp' ≤ exp
  tenant : ∀ old, (before.validKeys.find? fun k => k.keyId == oldKeyId) = some old → newKey.tenantId = old.tenantId
  bound : ∀ old b, (before.validKeys.find? fun k => k.keyId == oldKeyId) = some old → old.tenantId = some b →
    ∀ selfReported, Rest.resolveTenant newKey.tenantId selfReported = b

/-- Over a run, revocation and rotation only take rights away. A key is known by its place in the list. -/
structure OnlyTakesAway (c : ApiKeyConfig) (is : List TimedCall) : Prop where
  revoked : ∀ is₁ now keyId is₂ is₃, is = is₁ ++ ⟨now, .revokeKey keyId⟩ :: (is₂ ++ is₃) →
    ((step.final c is₁).revokeKey keyId).1 = true →
    ∀ (j : ℕ) k k', (step.final c is₁).validKeys[j]? = some k → k.keyId = keyId →
      (step.final c (is₁ ++ ⟨now, .revokeKey keyId⟩ :: is₂)).validKeys[j]? = some k' →
      ∀ t, now ≤ t → k'.isValid t = false
  rotated : ∀ is₁ now uuid oldKeyId newSecret newPermission gracePeriod is₂,
    is = is₁ ++ ⟨now, .rotateKey uuid oldKeyId newSecret newPermission gracePeriod⟩ :: is₂ →
    ∀ newKey c', (step.final c is₁).rotateKey now uuid oldKeyId newSecret newPermission gracePeriod =
    (some newKey, c') →
      RotationTakesAway (step.final c is₁) c' now oldKeyId newKey

/-- What has to hold of a revocation, that no other key of the id is valid; and of a rotation, that the key has no
tenant and does not expire before its grace period ends. -/
def Guarded (c : ApiKeyConfig) (i : TimedCall) : Prop :=
  match i.call with
  | .revokeKey keyId => ∀ k ∈ (c.validKeys.filter fun k => k.keyId == keyId).tail, k.isValid i.now = false
  | .rotateKey _ oldKeyId _ _ gracePeriod => ∀ old, (c.validKeys.find? fun k => k.keyId == oldKeyId) = some old →
    old.tenantId = none ∧ ∀ exp, old.expiresAt = some exp → i.now + gracePeriod ≤ exp
  | _ => True

variable {c c' : ApiKeyConfig} {i : TimedCall} {j : ℕ} {k : ApiKey}

theorem tightened_modifyFirst {p : ApiKey → Bool} {f : ApiKey → ApiKey} {l : List ApiKey} (hk : l[j]? = some k)
    (hf : l.find? p = some k → k.Tightened (f k)) : ∃ k', (modifyFirst p f l)[j]? = some k' ∧ k.Tightened k' := by
  rcases modifyFirst_cases (p := p) (f := f) hk with h | ⟨hfind, h⟩
  · exact ⟨k, h, .rfl'⟩
  · exact ⟨f k, h, hf hfind⟩

theorem getElem?_append_left {l l' : List ApiKey} (h : l[j]? = some k) : (l ++ l')[j]? = some k := by
  rw [List.getElem?_append_left (List.getElem?_eq_some_iff.1 h).1, h]

/-- No key becomes valid again by a guarded step. -/
theorem exists_tightened_step (hg : c.Guarded i) (hk : c.validKeys[j]? = some k) :
    ∃ k', (step c i).2.validKeys[j]? = some k' ∧ k.Tightened k' := by
  obtain ⟨now, call⟩ := i
  cases call with
  | addKey key => exact ⟨k, getElem?_append_left hk, .rfl'⟩
  | rotateKey uuid oldKeyId newSecret newPermission gracePeriod =>
    simp only [step, rotateKey]
    split
    · exact ⟨k, hk, .rfl'⟩
    · obtain ⟨k', hk', htight⟩ := tightened_modifyFirst (p := fun k => k.keyId == oldKeyId)
        (f := fun k => { k with expiresAt := some (now + gracePeriod) }) hk fun hfind =>
          ⟨id, fun exp hexp => ⟨_, rfl, (hg k hfind).2 exp hexp⟩⟩
      exact ⟨k', getElem?_append_left hk', htight⟩
  | revokeKey keyId =>
    simp only [step, revokeKey]
    split
    · exact tightened_modifyFirst hk fun _ => ⟨fun _ => rfl, fun exp hexp => ⟨exp, hexp, le_rfl⟩⟩
    · exact ⟨k, hk, .rfl'⟩
  | lockKeyById keyId => exact tightened_modifyFirst hk fun _ => .of_eq rfl rfl
  | recordFailedAttempt key =>
    simp only [step, recordFailedAttempt]
    split
    · exact ⟨k, hk, .rfl'⟩
    · split
      · refine tightened_modifyFirst hk fun _ => ?_
        split
        · exact .of_eq rfl rfl
        · exact .of_eq rfl rfl
      · exact ⟨k, hk, .rfl'⟩
  | recordSuccessfulLogin key => exact tightened_modifyFirst hk fun _ => .of_eq rfl rfl

theorem exists_tightened_final {is : List TimedCall} {h : History TimedCall ApiKeyAnswer}
    (ha : step.Along (fun _ c i => c.Guarded i) h c is) (hk : c.validKeys[j]? = some k) :
    ∃ k', (step.final c is).validKeys[j]? = some k' ∧ k.Tightened k' :=
  ha.exists_rel (f := fun c => c.validKeys[j]?) (R := ApiKey.Tightened) (fun _ => .rfl') (fun _ _ _ => .trans)
  (fun _ _ _ _ => exists_tightened_step) hk

theorem revokeKey_true_iff {keyId : String} :
    (c.revokeKey keyId).1 = true ↔ (c.validKeys.any fun k => k.keyId == keyId) = true := by
  unfold revokeKey
  split
  · rename_i hany
    exact ⟨fun _ => hany, fun _ => rfl⟩
  · rename_i hany
    exact ⟨fun h => (by cases h), fun h => absurd h hany⟩

theorem validKeys_revokeKey {keyId : String} (h : (c.revokeKey keyId).1 = true) :
    (c.revokeKey keyId).2.validKeys =
      modifyFirst (fun k => k.keyId == keyId) (fun k => { k with revoked := true }) c.validKeys := by
  rw [revokeKey, if_pos (revokeKey_true_iff.1 h)]

/-- A guarded revocation leaves no valid key under the id. -/
theorem invalid_of_revokeKey {now : DateTime} {keyId : String} {k' : ApiKey}
    (hg : c.Guarded ⟨now, .revokeKey keyId⟩) (h : (c.revokeKey keyId).1 = true) (hk : c.validKeys[j]? = some k)
    (hid : k.keyId = keyId) (hk' : (c.revokeKey keyId).2.validKeys[j]? = some k') : k'.isValid now = false := by
  rw [validKeys_revokeKey h] at hk'
  have hp : (k.keyId == keyId) = true := beq_iff_eq.2 hid
  rcases modifyFirst_of_pos (p := fun k => k.keyId == keyId) hk hp with hfirst | ⟨htail, hsame⟩
  · rw [hfirst] at hk'
    obtain rfl := Option.some.inj hk'
    exact ApiKey.isValid_eq_false_iff.2 (.inl rfl)
  · rw [hsame] at hk'
    obtain rfl := Option.some.inj hk'
    exact hg k htail

theorem guarded_of_revoked {now : DateTime} {keyId : String}
    (h : (c.revokeKey keyId).1 = true → ∀ (j : ℕ) k k', c.validKeys[j]? = some k → k.keyId = keyId →
      (c.revokeKey keyId).2.validKeys[j]? = some k' → ∀ t, now ≤ t → k'.isValid t = false) :
    c.Guarded ⟨now, .revokeKey keyId⟩ := by
  intro k hk
  obtain ⟨hmem, hid⟩ := List.mem_filter.1 (List.mem_of_mem_tail hk)
  have hfound : (c.revokeKey keyId).1 = true := revokeKey_true_iff.2 (List.any_eq_true.2 ⟨k, hmem, hid⟩)
  obtain ⟨j, hj, hj'⟩ := exists_of_mem_tail (f := fun k : ApiKey => { k with revoked := true }) hk
  exact h hfound j k k hj (beq_iff_eq.1 hid) (by rw [validKeys_revokeKey hfound, hj']) now le_rfl

theorem rotateKey_of_find (now : DateTime) (uuid : Uuid) {oldKeyId : String} (newSecret : String)
    (newPermission : ApiKeyPermission) (gracePeriod : ℤ) {old : ApiKey}
    (h : (c.validKeys.find? fun k => k.keyId == oldKeyId) = some old) :
    ∃ newKey c', c.rotateKey now uuid oldKeyId newSecret newPermission gracePeriod = (some newKey, c') ∧
      newKey.tenantId = none ∧ c'.validKeys = modifyFirst (fun k => k.keyId == oldKeyId)
        (fun k => { k with expiresAt := some (now + gracePeriod) }) c.validKeys ++ [newKey] := by
  rw [rotateKey, h]
  exact ⟨_, _, rfl, rfl, rfl⟩

theorem guarded_of_rotated {now : DateTime} {uuid : Uuid} {oldKeyId newSecret : String}
    {newPermission : ApiKeyPermission}
    {gracePeriod : ℤ} (h : ∀ newKey c', c.rotateKey now uuid oldKeyId newSecret newPermission gracePeriod =
      (some newKey, c') → RotationTakesAway c c' now oldKeyId newKey) :
    c.Guarded ⟨now, .rotateKey uuid oldKeyId newSecret newPermission gracePeriod⟩ := by
  intro old hold
  obtain ⟨newKey, c', hrotate, htenant, hkeys⟩ := rotateKey_of_find now uuid newSecret newPermission gracePeriod hold
  have haway := h newKey c' hrotate
  refine ⟨by rw [← haway.tenant old hold, htenant], fun exp hexp => ?_⟩
  obtain ⟨j, hj, hj'⟩ := exists_modifyFirst (f := fun k : ApiKey => { k with expiresAt := some (now + gracePeriod) })
    hold
  have hafter : c'.validKeys[j]? = some { old with expiresAt := some (now + gracePeriod) } := by
    rw [hkeys]
    exact getElem?_append_left hj'
  obtain ⟨exp', hexp', hle⟩ := haway.sooner j old _ hj hafter exp hexp
  obtain rfl := Option.some.inj hexp'
  exact hle

/-- Revocation and rotation take rights away in exactly the runs that revoke an id only where no other key of it is
valid, and rotate only keys without a tenant that do not expire before the grace period ends. -/
theorem onlyTakesAway_iff (keys : List ApiKey) (is : List TimedCall) :
    (withKeys keys).OnlyTakesAway is ↔ step.Along (fun _ c i => c.Guarded i) [] (withKeys keys) is := by
  constructor
  · intro h
    refine Machine.along_iff_forall.2 fun is₁ i is₂ heq => ?_
    obtain ⟨now, call⟩ := i
    cases call with
    | revokeKey keyId =>
      refine guarded_of_revoked fun hfound j k k' hk hid hk' => ?_
      refine h.revoked is₁ now keyId [] is₂ heq hfound j k k' hk hid ?_
      rw [Machine.final_append]
      exact hk'
    | rotateKey uuid oldKeyId newSecret newPermission gracePeriod =>
      exact guarded_of_rotated (h.rotated is₁ now uuid oldKeyId newSecret newPermission gracePeriod is₂ heq)
    | addKey => trivial
    | lockKeyById => trivial
    | recordFailedAttempt => trivial
    | recordSuccessfulLogin => trivial
  · intro ha
    constructor
    · rintro is₁ now keyId is₂ is₃ rfl hfound j k k' hk hid hk' t ht
      obtain ⟨-, hg, hrest⟩ := Machine.along_append.1 ha
      rw [Machine.final_append] at hk'
      -- the key right after the revocation, and then after the rest of the run
      obtain ⟨k₁, hk₁, -⟩ := exists_tightened_step hg hk
      have hinvalid : k₁.isValid now = false := invalid_of_revokeKey hg hfound hk hid hk₁
      obtain ⟨k₂, hk₂, htight⟩ := exists_tightened_final (Machine.along_append.1 hrest).1 hk₁
      obtain rfl : k₂ = k' := Option.some.inj (hk₂.symm.trans hk')
      exact htight.invalid (ApiKey.isValid_of_le hinvalid ht)
    · rintro is₁ now uuid oldKeyId newSecret newPermission gracePeriod is₂ rfl newKey c' hrotate
      have hg := (Machine.along_append.1 ha).2.1
      have hstep : (step (step.final (withKeys keys) is₁)
          ⟨now, .rotateKey uuid oldKeyId newSecret newPermission gracePeriod⟩).2 = c' := congrArg Prod.snd hrotate
      have htight : ∀ (j : ℕ) k k', (step.final (withKeys keys) is₁).validKeys[j]? = some k →
          c'.validKeys[j]? = some k' → k.Tightened k' := by
        intro j k k' hk hk'
        obtain ⟨k₁, hk₁, htight⟩ := exists_tightened_step hg hk
        rw [hstep, hk'] at hk₁
        obtain rfl := Option.some.inj hk₁
        exact htight
      have htenant : ∀ old, ((step.final (withKeys keys) is₁).validKeys.find? fun k => k.keyId == oldKeyId) = some old →
          newKey.tenantId = none ∧ old.tenantId = none := by
        intro old hold
        obtain ⟨newKey', c'', hrotate', hnone, -⟩ := rotateKey_of_find now uuid newSecret newPermission
          gracePeriod hold
        rw [hrotate] at hrotate'
        cases hrotate'
        exact ⟨hnone, (hg old hold).1⟩
      refine ⟨fun j k k' hk hk' hinvalid t ht => ?_, fun j k k' hk hk' => (htight j k k' hk hk').expiry, ?_, ?_⟩
      · exact (htight j k k' hk hk').invalid (ApiKey.isValid_of_le hinvalid ht)
      · intro old hold
        rw [(htenant old hold).1, (htenant old hold).2]
      · intro old b hold hb
        rw [(htenant old hold).2] at hb
        cases hb

/-- A key bound to a tenant that has expired. -/
def expiredKey : ApiKey := (((ApiKey.new 0 1 "old-secret" .operator).withKeyId "key-1").withExpiration 10).withTenant
  "tenant-a"

/-- Its rotation makes it valid again. -/
theorem not_onlyTakesAway_expired : ¬ (withKeys [expiredKey]).OnlyTakesAway
    [⟨20, .rotateKey 2 "key-1" "new-secret" .operator 100⟩] := by
  intro h
  have haway := h.rotated [] 20 2 "key-1" "new-secret" .operator 100 [] rfl _ _ rfl
  have hstays := haway.stays 0 expiredKey { expiredKey with expiresAt := some 120 } rfl rfl (by decide) 20 le_rfl
  revert hstays
  decide

end ApiKeyConfig

end GmKms.Api
