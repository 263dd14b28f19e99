import GmKms.Sm9.RotationAdapter
/-!
# The registry and the rotation managers

The version the registry reports for an id is the one under which the id's latest key is
stored. A manager has one current key of each type, and takes a first one of a type only once, so
that no two ids share it.
-/

namespace GmKms.Sm9

open Lib

namespace Sm9RotationAdapter

variable {MasterKey : Sm9KeyType → Type} {Manager : Type}

/-! ## Managers are maps from versions to keys -/

section

variable (sm9 : Sm9Crate MasterKey Manager)

/-- The key is stored under a fresh version and current, and nothing else has changed. -/
structure Stores (t : Sm9KeyType) (key : MasterKey t) (version : UInt32) (m m' : Manager) : Prop where
  fresh : sm9.get t m version = none
  stored : sm9.get t m' version = some key
  kept : ∀ v, v ≠ version → sm9.get t m' v = sm9.get t m v
  current : sm9.current t m' = some key
  other : ∀ t', t' ≠ t → sm9.get t' m' = sm9.get t' m ∧ sm9.current t' m' = sm9.current t' m

/-- What is known of `KeyRotationManager`. -/
structure VersionMap : Prop where
  new : ∀ t version, sm9.get t sm9.new version = none
  new_current : ∀ t, sm9.current t sm9.new = none
  register : ∀ t m key version, (sm9.register t m key).1 = .ok version →
    Stores sm9 t key version m (sm9.register t m key).2
  rotate : ∀ t m key grace rotation, (sm9.rotate t m key grace).1 = .ok rotation →
    Stores sm9 t key rotation.toVersion m (sm9.rotate t m key grace).2

/-- A manager that has a key of the type takes another one by a rotation alone. -/
def RefusesSecond : Prop :=
  ∀ t m key, (sm9.current t m).isSome → ∃ e, (sm9.register t m key).1 = .error e

end

/-! ## The latest key of an id -/

/-- The id a call succeeded for, with the key it registered or rotated to. -/
def keyed : Call MasterKey × Reply → Option (Uuid × (t : Sm9KeyType) × MasterKey t)
  | (.registerSignKey _ _ key, .registered (.ok (id, _))) => some (id, ⟨.signing, key⟩)
  | (.registerEncKey _ _ key, .registered (.ok (id, _))) => some (id, ⟨.encryption, key⟩)
  | (.rotateSignKey env id _, .rotated (.ok _)) =>
    env.generated .signing |>.toOption.map fun key => (id, ⟨.signing, key⟩)
  | (.rotateEncKey env id _, .rotated (.ok _)) =>
    env.generated .encryption |>.toOption.map fun key => (id, ⟨.encryption, key⟩)
  | _ => none

/-- The id a call registered, with its tenant. -/
def tenanted : Call MasterKey × Reply → Option (Uuid × String)
  | (.registerSignKey _ tenantId _, .registered (.ok (id, _))) => some (id, tenantId)
  | (.registerEncKey _ tenantId _, .registered (.ok (id, _))) => some (id, tenantId)
  | _ => none

/-- What the last event marked with the id is marked with. -/
def lastUnder {α : Type} (mark : Call MasterKey × Reply → Option (Uuid × α)) (h : History (Call MasterKey) Reply)
    (id : Uuid) : Option α :=
  (h.filterMap mark).reverse.lookup id

def Succeeds : Reply → Prop
  | .registered r => ∃ v, r = .ok v
  | .rotated r => ∃ v, r = .ok v

section

variable (sm9 : Sm9Crate MasterKey Manager)

/-- The version that `key_meta` reports for a registered id is the one under which the key most
recently registered or rotated under the id is stored in its tenant's manager. -/
def ReportsStored (h : History (Call MasterKey) Reply) (s : Sm9RotationAdapter Manager) : Prop :=
  ∀ (now : Clock) (id : Uuid) (t : Sm9KeyType) (key : MasterKey t), lastUnder keyed h id = some ⟨t, key⟩ →
    ∃ tenantId reported, lastUnder tenanted h id = some tenantId ∧ s.keyMeta now id = .ok reported ∧
      reported.spec = t.spec ∧ keyVersion sm9 t s tenantId reported.version = some key

/-- The current key an id stands for. -/
def currentKeyOf (s : Sm9RotationAdapter Manager) (id : Uuid) : Option ((t : Sm9KeyType) × MasterKey t) :=
  s.keyRegistry[id]?.bind fun entry => (currentKey sm9 entry.keyType s entry.tenantId).map (⟨_, ·⟩)

/-- Nothing has changed for any other id. -/
structure Isolated (id : Uuid) (s s' : Sm9RotationAdapter Manager) : Prop where
  reported : ∀ (now : Clock) (other : Uuid), other ≠ id → s'.keyMeta now other = s.keyMeta now other
  current : ∀ other : Uuid, other ≠ id → currentKeyOf sm9 s' other = currentKeyOf sm9 s other

end

def SameTenantAndType (entry otherEntry : Sm9KeyEntry) : Prop :=
  otherEntry.tenantId = entry.tenantId ∧ otherEntry.keyType = entry.keyType

def rotatedId : Call MasterKey → Option Uuid
  | .rotateSignKey _ id _ | .rotateEncKey _ id _ => some id
  | _ => none

/-! ## What a call that succeeds does -/

section

variable {sm9 : Sm9Crate MasterKey Manager}

/-- A key of a tenant is stored in its manager, and an id made to stand for it. -/
structure Puts (sm9 : Sm9Crate MasterKey Manager) (entry : Sm9KeyEntry) (id : Uuid) (key : MasterKey entry.keyType)
    (s s' : Sm9RotationAdapter Manager) (m' : Manager) : Prop where
  stores : Stores sm9 entry.keyType key entry.version (s.managers[entry.tenantId]?.getD sm9.new) m'
  managers : s'.managers = s.managers.insert entry.tenantId m'
  registry : s'.keyRegistry = s.keyRegistry.insert id entry

theorem puts_of_registerKey (hmap : VersionMap sm9) {t : Sm9KeyType} {s : Sm9RotationAdapter Manager}
    {env : Sm9Env MasterKey} {tenantId : String} {key : MasterKey t} {r : Uuid × UInt32}
    (h : (registerKey sm9 t s env tenantId key).1 = .ok r) :
    r.1 = env.uuid ∧ (sm9.register t (s.managers[tenantId]?.getD sm9.new) key).1 = .ok r.2 ∧
      ∃ m', Puts sm9 ⟨tenantId, t, r.2, env.uuid⟩ env.uuid key s (registerKey sm9 t s env tenantId key).2 m' := by
  unfold registerKey at h ⊢
  have hstores := hmap.register t (s.managers[tenantId]?.getD sm9.new) key
  dsimp only at h ⊢
  cases hregistered : (sm9.register t (s.managers[tenantId]?.getD sm9.new) key).1 with
  | error e =>
    rw [hregistered] at h
    cases h
  | ok version =>
    rw [hregistered] at h hstores
    dsimp only at h ⊢
    cases hpersist : persist sm9 env t key with
    | error e =>
      rw [hpersist] at h
      cases h
    | ok _ =>
      rw [hpersist] at h
      cases h
      exact ⟨rfl, rfl, _, hstores version rfl, rfl, rfl⟩

theorem puts_of_rotateKey (hmap : VersionMap sm9) {t : Sm9KeyType} {article : String} {s : Sm9RotationAdapter Manager}
    {env : Sm9Env MasterKey} {id : Uuid} {grace : UInt64} {r : Sm9RotationResult}
    (h : (rotateKey sm9 t article s env id grace).1 = .ok r) :
    ∃ entry key m', s.keyRegistry[id]? = some entry ∧ entry.keyType = t ∧ env.generated t = .ok key ∧
      Puts sm9 ⟨entry.tenantId, t, r.newVersion, entry.kmsKeyId⟩ id key s (rotateKey sm9 t article s env id grace).2
        m' := by
  unfold rotateKey getEntry at h ⊢
  cases hentry : s.keyRegistry[id]? with
  | none =>
    rw [hentry] at h
    cases h
  | some entry =>
    rw [hentry] at h
    dsimp only at h ⊢
    by_cases htype : entry.keyType = t
    swap
    · rw [if_pos htype] at h
      cases h
    subst htype
    rw [if_neg (not_not.2 rfl)] at h ⊢
    cases hgenerated : env.generated entry.keyType with
    | error e =>
      rw [hgenerated] at h
      cases h
    | ok key =>
      rw [hgenerated] at h
      dsimp only at h ⊢
      cases hmanager : s.managers[entry.tenantId]? with
      | none =>
        rw [hmanager] at h
        cases h
      | some m =>
        rw [hmanager] at h
        dsimp only at h ⊢
        have hstores := hmap.rotate entry.keyType m key grace
        cases hrotated : (sm9.rotate entry.keyType m key grace).1 with
        | error e =>
          rw [hrotated] at h
          cases h
        | ok rotation =>
          rw [hrotated] at h hstores
          dsimp only at h ⊢
          cases hpersist : persist sm9 env entry.keyType key with
          | error e =>
            rw [hpersist] at h
            cases h
          | ok _ =>
            rw [hpersist] at h
            unfold updateRegistryVersion at h ⊢
            simp only [hentry] at h ⊢
            cases h
            refine ⟨entry, key, _, rfl, rfl, rfl, ?_, rfl, rfl⟩
            rw [hmanager]
            exact hstores rotation rfl

/-- Every call that succeeds puts a key under an id: one that the tenant's manager has registered, or a rotation of a
key of the same tenant and type. -/
theorem puts_of_succeeds (hmap : VersionMap sm9) {s : Sm9RotationAdapter Manager} {c : Call MasterKey}
    (h : Succeeds (call sm9 s c).1) :
    ∃ entry id key m', Puts sm9 entry id key s (call sm9 s c).2 m' ∧
      keyed (c, (call sm9 s c).1) = some (id, ⟨entry.keyType, key⟩) ∧
      (rotatedId c = none ∧ tenanted (c, (call sm9 s c).1) = some (id, entry.tenantId) ∧
          (∃ version, (sm9.register entry.keyType (s.managers[entry.tenantId]?.getD sm9.new) key).1 = .ok version) ∨
        rotatedId c = some id ∧ tenanted (c, (call sm9 s c).1) = none ∧
          ∃ old, s.keyRegistry[id]? = some old ∧ old.tenantId = entry.tenantId ∧ old.keyType = entry.keyType) := by
  cases c with
  | registerSignKey env tenantId key =>
    obtain ⟨⟨id, version⟩, hreply⟩ : ∃ r, (registerKey sm9 .signing s env tenantId key).1 = .ok r := h
    obtain ⟨hid, htaken, m', hputs⟩ := puts_of_registerKey hmap hreply
    have hreply : (call sm9 s (.registerSignKey env tenantId key)).1 = .registered (.ok (id, version)) :=
      congrArg Reply.registered hreply
    cases hid
    rw [hreply]
    exact ⟨⟨tenantId, .signing, version, env.uuid⟩, env.uuid, key, m', hputs, rfl, .inl ⟨rfl, rfl, version, htaken⟩⟩
  | registerEncKey env tenantId key =>
    obtain ⟨⟨id, version⟩, hreply⟩ : ∃ r, (registerKey sm9 .encryption s env tenantId key).1 = .ok r := h
    obtain ⟨hid, htaken, m', hputs⟩ := puts_of_registerKey hmap hreply
    have hreply : (call sm9 s (.registerEncKey env tenantId key)).1 = .registered (.ok (id, version)) :=
      congrArg Reply.registered hreply
    cases hid
    rw [hreply]
    exact ⟨⟨tenantId, .encryption, version, env.uuid⟩, env.uuid, key, m', hputs, rfl, .inl ⟨rfl, rfl, version, htaken⟩⟩
  | rotateSignKey env id grace =>
    obtain ⟨r, hreply⟩ : ∃ r, (rotateKey sm9 .signing "a signing" s env id grace).1 = .ok r := h
    obtain ⟨entry, key, m', hentry, htype, hgenerated, hputs⟩ := puts_of_rotateKey hmap hreply
    have hreply : (call sm9 s (.rotateSignKey env id grace)).1 = .rotated (.ok r) := congrArg Reply.rotated hreply
    rw [hreply]
    refine ⟨⟨entry.tenantId, .signing, r.newVersion, entry.kmsKeyId⟩, id, key, m', hputs, ?_,
      .inr ⟨rfl, rfl, entry, hentry, rfl, htype⟩⟩
    rw [keyed, hgenerated]
    rfl
  | rotateEncKey env id grace =>
    obtain ⟨r, hreply⟩ : ∃ r, (rotateKey sm9 .encryption "an encryption" s env id grace).1 = .ok r := h
    obtain ⟨entry, key, m', hentry, htype, hgenerated, hputs⟩ := puts_of_rotateKey hmap hreply
    have hreply : (call sm9 s (.rotateEncKey env id grace)).1 = .rotated (.ok r) := congrArg Reply.rotated hreply
    rw [hreply]
    refine ⟨⟨entry.tenantId, .encryption, r.newVersion, entry.kmsKeyId⟩, id, key, m', hputs, ?_,
      .inr ⟨rfl, rfl, entry, hentry, rfl, htype⟩⟩
    rw [keyed, hgenerated]
    rfl

/-! ## What is stored after it -/

theorem keyVersion_eq (hmap : VersionMap sm9) (t : Sm9KeyType) (s : Sm9RotationAdapter Manager) (tenantId : String)
    (version : UInt32) :
    keyVersion sm9 t s tenantId version = sm9.get t (s.managers[tenantId]?.getD sm9.new) version := by
  unfold keyVersion
  cases s.managers[tenantId]? with
  | none => exact (hmap.new t version).symm
  | some m => rfl

variable {s s' : Sm9RotationAdapter Manager} {entry : Sm9KeyEntry} {id : Uuid} {key : MasterKey entry.keyType}
  {m' : Manager}

theorem Puts.keyVersion_self (h : Puts sm9 entry id key s s' m') :
    keyVersion sm9 entry.keyType s' entry.tenantId entry.version = some key := by
  rw [keyVersion, h.managers, HashMap.getElem?_insert, if_pos rfl]
  exact h.stores.stored

/-- A key that was stored stays where it is. -/
theorem Puts.keyVersion_of_some (hmap : VersionMap sm9) (h : Puts sm9 entry id key s s' m') {t : Sm9KeyType}
    {tenantId : String} {version : UInt32} {other : MasterKey t}
    (hother : keyVersion sm9 t s tenantId version = some other) :
    keyVersion sm9 t s' tenantId version = some other := by
  by_cases htenant : tenantId = entry.tenantId
  · subst htenant
    rw [keyVersion_eq hmap] at hother
    rw [keyVersion, h.managers, HashMap.getElem?_insert, if_pos rfl, Option.bind_some, ← hother]
    by_cases htype : t = entry.keyType
    · subst htype
      refine h.stores.kept version ?_
      -- the new key's version was free
      rintro rfl
      rw [h.stores.fresh] at hother
      cases hother
    · exact congrFun (h.stores.other t htype).1 version
  · rw [keyVersion, h.managers, HashMap.getElem?_insert, if_neg htenant]
    exact hother

theorem Puts.keyMeta_of_ne (h : Puts sm9 entry id key s s' m') (now : Clock) {other : Uuid} (hother : other ≠ id) :
    s'.keyMeta now other = s.keyMeta now other := by
  rw [keyMeta, keyMeta, getEntry, getEntry, h.registry, HashMap.getElem?_insert, if_neg hother]

theorem currentKey_eq (hmap : VersionMap sm9) (t : Sm9KeyType) (s : Sm9RotationAdapter Manager) (tenantId : String) :
    currentKey sm9 t s tenantId = sm9.current t (s.managers[tenantId]?.getD sm9.new) := by
  unfold currentKey
  cases s.managers[tenantId]? with
  | none => exact (hmap.new_current t).symm
  | some m => rfl

theorem Puts.currentKey_of_not (hmap : VersionMap sm9) (h : Puts sm9 entry id key s s' m') {otherEntry : Sm9KeyEntry}
    (hnot : ¬ SameTenantAndType entry otherEntry) :
    currentKey sm9 otherEntry.keyType s' otherEntry.tenantId = currentKey sm9 otherEntry.keyType s
      otherEntry.tenantId := by
  rw [currentKey_eq hmap, currentKey_eq hmap, h.managers, HashMap.getElem?_insert]
  by_cases htenant : otherEntry.tenantId = entry.tenantId
  · rw [if_pos htenant, htenant]
    exact (h.stores.other _ fun htype => hnot ⟨htenant, htype⟩).2
  · rw [if_neg htenant]

/-! ## Runs -/

theorem lastUnder_snoc {α : Type} (mark : Call MasterKey × Reply → Option (Uuid × α))
    (h : History (Call MasterKey) Reply)
    (e : Call MasterKey × Reply) (id : Uuid) :
    lastUnder mark (h ++ [e]) id =
      match mark e with
      | none => lastUnder mark h id
      | some (id', a) => if id = id' then some a else lastUnder mark h id := by
  unfold lastUnder
  rw [List.filterMap_append]
  cases hmark : mark e with
  | none => simp [hmark]
  | some marked =>
    obtain ⟨id', a⟩ := marked
    by_cases hid : id = id'
    · simp [hmark, hid]
    · have hbeq : (id == id') = false := beq_eq_false_iff_ne.2 hid
      simp [hmark, List.lookup_cons, hid, hbeq]

/-- The entry of an id is about its latest key, which is stored under the entry's version. -/
structure Tracked (sm9 : Sm9Crate MasterKey Manager) (h : History (Call MasterKey) Reply)
    (s : Sm9RotationAdapter Manager) : Prop where
  latest : ∀ (id : Uuid) (t : Sm9KeyType) (key : MasterKey t), lastUnder keyed h id = some ⟨t, key⟩ →
    ∃ entry, s.keyRegistry[id]? = some entry ∧ entry.keyType = t ∧ lastUnder tenanted h id = some entry.tenantId ∧
      keyVersion sm9 t s entry.tenantId entry.version = some key
  entries : ∀ (id : Uuid) (entry : Sm9KeyEntry), s.keyRegistry[id]? = some entry →
    ∃ key, lastUnder keyed h id = some ⟨entry.keyType, key⟩

theorem tracked_new : Tracked sm9 [] (new : Sm9RotationAdapter Manager) := by
  refine ⟨?_, ?_⟩
  · intro id t key h
    cases h
  · intro id entry h
    simp [new] at h

theorem tracked_call (hmap : VersionMap sm9) {h : History (Call MasterKey) Reply} {s : Sm9RotationAdapter Manager}
    {c : Call MasterKey} (hs : Tracked sm9 h s) (hsuccess : Succeeds (call sm9 s c).1) :
    Tracked sm9 (h ++ [(c, (call sm9 s c).1)]) (call sm9 s c).2 := by
  obtain ⟨entry, id, key, m', hputs, hkeyed, htenanted⟩ := puts_of_succeeds hmap hsuccess
  generalize (call sm9 s c).1 = reply at hkeyed htenanted ⊢
  generalize (call sm9 s c).2 = s' at hputs ⊢
  have hkey : ∀ other, lastUnder keyed (h ++ [(c, reply)]) other =
      if other = id then some ⟨entry.keyType, key⟩ else lastUnder keyed h other := by
    intro other
    rw [lastUnder_snoc, hkeyed]
  have htenant : ∀ other, lastUnder tenanted (h ++ [(c, reply)]) other =
      if other = id then some entry.tenantId else lastUnder tenanted h other := by
    intro other
    rw [lastUnder_snoc]
    rcases htenanted with ⟨-, hmarked, -⟩ | ⟨-, hmarked, old, hold, hsame, -⟩
    · rw [hmarked]
    · -- a rotated id has the tenant it was registered for
      rw [hmarked]
      by_cases heq : other = id
      · obtain ⟨oldKey, hlast⟩ := hs.entries id old hold
        obtain ⟨old', hold', -, hregistered, -⟩ := hs.latest id _ _ hlast
        rw [hold] at hold'
        cases hold'
        rw [if_pos heq, heq, ← hsame]
        exact hregistered
      · rw [if_neg heq]
  refine ⟨?_, ?_⟩
  · intro other t otherKey hlast
    rw [hkey] at hlast
    rw [htenant, hputs.registry, HashMap.getElem?_insert]
    split at hlast
    · rename_i heq
      cases hlast
      rw [if_pos heq, if_pos heq]
      exact ⟨entry, rfl, rfl, rfl, hputs.keyVersion_self⟩
    · rename_i hne
      rw [if_neg hne, if_neg hne]
      obtain ⟨otherEntry, hentry, htype, hregistered, hstored⟩ := hs.latest other t otherKey hlast
      exact ⟨otherEntry, hentry, htype, hregistered, hputs.keyVersion_of_some hmap hstored⟩
  · intro other otherEntry hentry
    rw [hputs.registry, HashMap.getElem?_insert] at hentry
    rw [hkey]
    split at hentry
    · rename_i heq
      cases hentry
      rw [if_pos heq]
      exact ⟨key, rfl⟩
    · rename_i hne
      rw [if_neg hne]
      exact hs.entries other otherEntry hentry

theorem reportsStored_of_tracked {h : History (Call MasterKey) Reply} {s : Sm9RotationAdapter Manager}
    (hs : Tracked sm9 h s) : ReportsStored sm9 h s := by
  intro now id t key hlast
  obtain ⟨entry, hentry, htype, hregistered, hstored⟩ := hs.latest id t key hlast
  unfold keyMeta getEntry
  rw [hentry]
  exact ⟨entry.tenantId, _, hregistered, rfl, by rw [htype], hstored⟩

/-! ## No two ids share a key -/

/-- Ids of one tenant and type are one, for which there is a current key. -/
structure Distinct (sm9 : Sm9Crate MasterKey Manager) (s : Sm9RotationAdapter Manager) : Prop where
  current : ∀ (id : Uuid) (entry : Sm9KeyEntry), s.keyRegistry[id]? = some entry →
    (currentKey sm9 entry.keyType s entry.tenantId).isSome
  unique : ∀ (id other : Uuid) (entry otherEntry : Sm9KeyEntry), s.keyRegistry[id]? = some entry →
    s.keyRegistry[other]? = some otherEntry → SameTenantAndType entry otherEntry → other = id

theorem distinct_new : Distinct sm9 (new : Sm9RotationAdapter Manager) := by
  refine ⟨?_, ?_⟩
  · intro id entry h
    simp [new] at h
  · intro id other entry otherEntry h
    simp [new] at h

theorem Puts.currentKey_self (h : Puts sm9 entry id key s s' m') :
    currentKey sm9 entry.keyType s' entry.tenantId = some key := by
  rw [currentKey, h.managers, HashMap.getElem?_insert, if_pos rfl]
  exact h.stores.current

/-- A key that was current of another tenant or type stays so. -/
theorem Puts.isSome_currentKey (hmap : VersionMap sm9) (h : Puts sm9 entry id key s s' m') {otherEntry : Sm9KeyEntry}
    (hsome : (currentKey sm9 otherEntry.keyType s otherEntry.tenantId).isSome) :
    (currentKey sm9 otherEntry.keyType s' otherEntry.tenantId).isSome := by
  by_cases hshares : SameTenantAndType entry otherEntry
  · rw [hshares.1, hshares.2, h.currentKey_self]
    rfl
  · rw [h.currentKey_of_not hmap hshares]
    exact hsome

/-- The id a call puts a key under is the only one of its tenant and type. -/
theorem eq_of_sameTenantAndType (hmap : VersionMap sm9) (hrefuses : RefusesSecond sm9) (hs : Distinct sm9 s)
    (h : (∃ version, (sm9.register entry.keyType (s.managers[entry.tenantId]?.getD sm9.new) key).1 = .ok version) ∨
      ∃ old, s.keyRegistry[id]? = some old ∧ old.tenantId = entry.tenantId ∧ old.keyType = entry.keyType)
    {other : Uuid} {otherEntry : Sm9KeyEntry} (hother : s.keyRegistry[other]? = some otherEntry)
    (hshares : SameTenantAndType entry otherEntry) : other = id := by
  rcases h with ⟨version, htaken⟩ | ⟨old, hold, htenant, htype⟩
  · -- the manager has a current key already, and would have refused
    have hcurrent := hs.current other otherEntry hother
    rw [hshares.1, hshares.2, currentKey_eq hmap] at hcurrent
    obtain ⟨e, he⟩ := hrefuses entry.keyType _ key hcurrent
    rw [he] at htaken
    cases htaken
  · exact hs.unique id other old otherEntry hold hother ⟨hshares.1.trans htenant.symm, hshares.2.trans htype.symm⟩

theorem distinct_call (hmap : VersionMap sm9) (hrefuses : RefusesSecond sm9) {c : Call MasterKey}
    (hs : Distinct sm9 s) (hsuccess : Succeeds (call sm9 s c).1) : Distinct sm9 (call sm9 s c).2 := by
  obtain ⟨entry, id, key, m', hputs, -, horigin⟩ := puts_of_succeeds hmap hsuccess
  generalize (call sm9 s c).2 = s' at hputs ⊢
  have honly : ∀ (other : Uuid) (otherEntry : Sm9KeyEntry), s.keyRegistry[other]? = some otherEntry →
      SameTenantAndType entry otherEntry → other = id := fun other otherEntry =>
    eq_of_sameTenantAndType hmap hrefuses hs (horigin.imp (·.2.2) (·.2.2))
  refine ⟨?_, ?_⟩
  · intro other otherEntry hother
    rw [hputs.registry, HashMap.getElem?_insert] at hother
    split at hother
    · cases hother
      rw [hputs.currentKey_self]
      rfl
    · exact hputs.isSome_currentKey hmap (hs.current other otherEntry hother)
  · intro first second firstEntry secondEntry hfirst hsecond hshares
    rw [hputs.registry, HashMap.getElem?_insert] at hfirst hsecond
    split at hfirst <;> split at hsecond
    · rename_i heq heq'
      rw [heq, heq']
    · rename_i heq hne
      cases hfirst
      exact absurd (honly second secondEntry hsecond hshares) hne
    · rename_i hne heq
      cases hsecond
      exact absurd (honly first firstEntry hfirst ⟨hshares.1.symm, hshares.2.symm⟩) hne
    · exact hs.unique first second firstEntry secondEntry hfirst hsecond hshares

theorem isolated_of_succeeds (hmap : VersionMap sm9) (hrefuses : RefusesSecond sm9) {c : Call MasterKey}
    (hs : Distinct sm9 s) (hsuccess : Succeeds (call sm9 s c).1) {id : Uuid} (hid : rotatedId c = some id) :
    Isolated sm9 id s (call sm9 s c).2 := by
  obtain ⟨entry, rotated, key, m', hputs, -, horigin⟩ := puts_of_succeeds hmap hsuccess
  generalize (call sm9 s c).2 = s' at hputs ⊢
  have hsame : rotated = id := by
    rcases horigin with ⟨hnone, -⟩ | ⟨hsome, -⟩
    · rw [hid] at hnone
      cases hnone
    · rw [hid] at hsome
      exact (Option.some.inj hsome).symm
  subst hsame
  refine ⟨fun now other hother => hputs.keyMeta_of_ne now hother, fun other hother => ?_⟩
  unfold currentKeyOf
  rw [hputs.registry, HashMap.getElem?_insert, if_neg hother]
  cases hentry : s.keyRegistry[other]? with
  | none => rfl
  | some otherEntry =>
    rw [Option.bind_some, Option.bind_some, hputs.currentKey_of_not hmap fun hshares => hother ?_]
    exact eq_of_sameTenantAndType hmap hrefuses hs (horigin.imp (·.2.2) (·.2.2)) hentry hshares

/-- In every run of calls that succeed, the versions reported are those of the stored keys, and a
rotation leaves every other id's version and current key. -/
theorem registry_matches (hmap : VersionMap sm9) (hrefuses : RefusesSecond sm9) (calls : List (Call MasterKey))
    (hsuccess : (call sm9).Along (fun _ s c => Succeeds (call sm9 s c).1) [] new calls) :
    (call sm9).Throughout (ReportsStored sm9) [] new calls ∧
      (call sm9).Along (fun _ s c => ∀ id, rotatedId c = some id → Isolated sm9 id s (call sm9 s c).2)
      [] new calls := by
  constructor
  · have htracked := hsuccess.throughout (fun _ _ _ => tracked_call hmap) tracked_new
    exact htracked.mono fun _ _ => reportsStored_of_tracked
  · exact hsuccess.mono_of_inv (I := fun _ s => Distinct sm9 s) (fun _ _ c hs hc => distinct_call hmap hrefuses hs hc)
      (fun _ _ c hs hc id hid => isolated_of_succeeds hmap hrefuses hs hc hid) distinct_new

end

/-! ## A manager that counts its versions -/

/-- A key of bytes; the keys of a type by version, from version 1 on. The first one is registered, the others are
rotated to. -/
def countingCrate : Sm9Crate (fun _ => Bytes) (Sm9KeyType → List Bytes) where
  scalarBytes _ key := key
  toAffine _ _ := some ([], [])
  new _ := []
  register t m key :=
    if m t = [] then (.ok 1, Function.update m t [key]) else (.error "a key is registered", m)
  rotate t m key _ :=
    if (m t).length + 1 < 2 ^ 32 then
      (.ok ⟨.ofNat (m t).length, .ofNat ((m t).length + 1)⟩, Function.update m t (m t ++ [key]))
    else (.error "too many versions", m)
  get t m version := if version = 0 then none else (m t)[version.toNat - 1]?
  currentVersion t m := .ofNat (m t).length
  current t m := (m t).getLast?

theorem stores_countingCrate {t : Sm9KeyType} {m : Sm9KeyType → List Bytes} {key : Bytes}
    (h : (m t).length + 1 < 2 ^ 32) :
    Stores countingCrate t key (.ofNat ((m t).length + 1)) m (Function.update m t (m t ++ [key])) := by
  have hnat : (UInt32.ofNat ((m t).length + 1)).toNat = (m t).length + 1 := by
    rw [UInt32.toNat_ofNat', Nat.mod_eq_of_lt h]
  have hne : UInt32.ofNat ((m t).length + 1) ≠ 0 := by
    intro hzero
    rw [hzero] at hnat
    cases hnat
  refine ⟨?_, ?_, ?_, ?_, ?_⟩
  · simp only [countingCrate, if_neg hne, hnat]
    exact List.getElem?_eq_none (by omega)
  · simp only [countingCrate, if_neg hne, hnat, Function.update_self]
    simp
  · intro v hv
    simp only [countingCrate, Function.update_self]
    split
    · rfl
    · rename_i hv0
      have hindex : v.toNat - 1 ≠ (m t).length := by
        intro heq
        have hpos : v.toNat ≠ 0 := fun hzero => hv0 (UInt32.toNat_inj.1 hzero)
        exact hv (UInt32.toNat_inj.1 (by omega))
      rw [List.getElem?_append]
      split
      · rfl
      · rw [List.getElem?_eq_none (by simp; omega), List.getElem?_eq_none (by omega)]
  · simp [countingCrate]
  · intro t' ht'
    simp [countingCrate, Function.update_of_ne ht']

theorem versionMap_countingCrate : VersionMap countingCrate where
  new t version := by simp [countingCrate]
  new_current t := rfl
  register t m key version h := by
    by_cases hnone : m t = []
    · have hstores := @stores_countingCrate t m key (by simp [hnone])
      rw [hnone] at hstores
      simp only [countingCrate, if_pos hnone, Except.ok.injEq] at h ⊢
      exact h ▸ hstores
    · simp only [countingCrate, if_neg hnone, reduceCtorEq] at h
  rotate t m key grace rotation h := by
    by_cases hfits : (m t).length + 1 < 2 ^ 32
    · simp only [countingCrate, if_pos hfits, Except.ok.injEq] at h ⊢
      exact h ▸ stores_countingCrate hfits
    · simp only [countingCrate, if_neg hfits, reduceCtorEq] at h

/-- A call that gets the id `id` and generates the key `key`, whose KEK store answers. -/
def sampleEnv (id : Uuid) (key : UInt8) : Sm9Env fun _ => Bytes where
  now _ := 0
  uuid := id
  generated _ := .ok [key]
  kekEncrypt _ := .ok ()

theorem refusesSecond_countingCrate : RefusesSecond countingCrate := by
  intro t m key hsome
  have hne : m t ≠ [] := by
    rintro hnone
    simp [countingCrate, hnone] at hsome
  exact ⟨_, congrArg Prod.fst (if_neg hne)⟩

/-- A tenant has a key of each type and another tenant a third key; two of them are rotated in turn. -/
def threeKeys : List (Call fun _ => Bytes) :=
  [.registerSignKey (sampleEnv 1 0) "tenant-1" [1], .registerEncKey (sampleEnv 2 0) "tenant-1" [2],
    .registerSignKey (sampleEnv 3 0) "tenant-2" [3], .rotateSignKey (sampleEnv 0 4) 1 3600,
    .rotateEncKey (sampleEnv 0 5) 2 3600, .rotateSignKey (sampleEnv 0 6) 1 3600]

theorem matches_threeKeys :
    (call countingCrate).Throughout (ReportsStored countingCrate) [] new threeKeys ∧
      (call countingCrate).Along (fun _ s c => ∀ id, rotatedId c = some id →
        Isolated countingCrate id s (call countingCrate s c).2) [] new threeKeys :=
  registry_matches versionMap_countingCrate refusesSecond_countingCrate threeKeys
    ⟨⟨_, rfl⟩, ⟨_, rfl⟩, ⟨_, rfl⟩, ⟨_, rfl⟩, ⟨_, rfl⟩, ⟨_, rfl⟩, trivial⟩

end Sm9RotationAdapter

end GmKms.Sm9
