import GmKms.Keystore.Reload
/-!
# The cache is not seen

Operation by operation, a keystore with a bounded cache answers like one with an
unbounded cache, and so along every run in which no operation meets a cached key
of which its row says something else.
-/

namespace GmKms.Keystore.Postgres

open Lib Lib.Effect

/-- The program answers alike in both keystores and leaves them alike. -/
abbrev Same {α : Type} (crypto : Crypto) (x y : M α) (s t : Store) : Prop :=
  Sim x y (fun a b s' t' => a = b ∧ Alike crypto s' t') (Alike crypto) s t

section

variable {crypto : Crypto} {env : Env} {s t : Store}

/-! ## Steps without the cache -/

theorem sim_lift_bind {α β : Type} {r : Except Abort α} {f g : α → M β} {Q : β → β → Store → Store → Prop}
    (h : Alike crypto s t) (hok : ∀ a, r = .ok a → Sim (f a) (g a) Q (Alike crypto) s t) :
    Sim (lift r >>= f) (lift r >>= g) Q (Alike crypto) s t := by
  cases r with
  | error e => exact .of_error (outcome_bind_error rfl) (outcome_bind_error rfl) h
  | ok a => exact hok a rfl

theorem sim_kekOf_bind {β : Type} {f g : Bytes → M β} {Q : β → β → Store → Store → Prop}
    (h : Alike crypto s t) (hok : Sim (f t.kek) (g t.kek) Q (Alike crypto) s t) :
    Sim (kekOf >>= f) (kekOf >>= g) Q (Alike crypto) s t := by
  change Sim (f s.kek) (g t.kek) Q (Alike crypto) s t
  rwa [h.kek]

theorem same_read {α : Type} {x : M α} (hdb : DbOnly x) (hread : ReadOnly x) (h : Alike crypto s t) :
    Same crypto x x s t := by
  refine (sim_read hdb hread h).mono fun a b s' t' h' => ?_
  obtain ⟨-, rfl, rfl, rfl⟩ := h'
  exact ⟨rfl, h⟩

theorem same_lift {α : Type} {r : Except Abort α} (h : Alike crypto s t) : Same crypto (lift r) (lift r) s t :=
  same_read dbOnly_lift readOnly_lift h

theorem same_fail {α : Type} {e : Error} (h : Alike crypto s t) : Same crypto (fail e : M α) (fail e) s t := .throw h

theorem Same.map {α β : Type} {x y : M α} {f : α → β} (h : Same crypto x y s t) :
    Same crypto (x >>= fun a => pure (f a)) (y >>= fun a => pure (f a)) s t :=
  .bind h fun _ _ _ _ h' => .pure ⟨congrArg f h'.1, h'.2⟩

theorem dbOnly_materialForVersion {id : Uuid} {version : UInt32} :
    DbOnly (materialForVersion crypto env id version) := by
  refine dbOnly_bind (dbOnly_mapInternal dbOnly_repo) fun found => ?_
  cases found with
  | none => exact dbOnly_throw
  | some row =>
    dsimp only
    cases row.encryptedDek with
    | none => exact dbOnly_throw
    | some encrypted => exact dbOnly_bind dbOnly_kekOf fun _ => dbOnly_lift

theorem readOnly_materialForVersion {id : Uuid} {version : UInt32} :
    ReadOnly (materialForVersion crypto env id version) := by
  refine readOnly_bind (readOnly_mapInternal (readOnly_repo (f := fun db => .ok (db.getVersion id version))))
    fun found => ?_
  cases found with
  | none => exact readOnly_throw
  | some row =>
    dsimp only
    cases row.encryptedDek with
    | none => exact readOnly_throw
    | some encrypted => exact readOnly_bind readOnly_kekOf fun _ => readOnly_lift

/-! ## Using keys -/

/-- The tenant's cached key has a row. -/
def RowOf (t : Store) (id : Uuid) (tenantId : String) : Prop :=
  ∀ e, t.keys.map[id]? = some e → e.keyMeta.tenantId = tenantId → (t.db.live id).isSome

/-- The repository knows the specification of the tenant's cached key. -/
def SpecOf (t : Store) (id : Uuid) (tenantId : String) : Prop :=
  ∀ e, t.keys.map[id]? = some e → e.keyMeta.tenantId = tenantId →
    specOfText e.keyMeta.spec.debug = some e.keyMeta.spec

variable {id : Uuid} {tenantId : String}

theorem encrypt_same (hfault : ∀ c, env.fault c = none) (h : Alike crypto s t) (hrow : RowOf t id tenantId)
    (hspec : SpecOf t id tenantId) (plaintext : Bytes) :
    Same crypto (encrypt crypto env id plaintext tenantId) (encrypt crypto env id plaintext tenantId) s t := by
  refine (entryFor_sim hfault h hrow).bind fun e e' s' t' hr => ?_
  rw [hr.status, hr.material, hr.spec hspec, hr.version]
  split
  · exact same_fail hr.alike
  · exact same_lift hr.alike

theorem decrypt_same (hfault : ∀ c, env.fault c = none) (h : Alike crypto s t) (hrow : RowOf t id tenantId)
    (hspec : SpecOf t id tenantId) (ciphertext : Ciphertext) :
    Same crypto (decrypt crypto env id ciphertext tenantId) (decrypt crypto env id ciphertext tenantId) s t := by
  refine (entryFor_sim hfault h hrow).bind fun e e' s' t' hr => ?_
  rw [hr.status, hr.material, hr.spec hspec, hr.version, hr.tenantId_eq]
  split
  · exact same_fail hr.alike
  · refine same_read (dbOnly_bind ?_ fun _ => dbOnly_lift) (readOnly_bind ?_ fun _ => readOnly_lift) hr.alike
    · split
      · exact dbOnly_pure
      · exact dbOnly_materialForVersion
    · split
      · exact readOnly_pure
      · exact readOnly_materialForVersion

theorem sign_same (hfault : ∀ c, env.fault c = none) (h : Alike crypto s t) (hrow : RowOf t id tenantId)
    (hspec : SpecOf t id tenantId) (data : Bytes) :
    Same crypto (sign crypto env id data tenantId) (sign crypto env id data tenantId) s t := by
  refine (entryFor_sim hfault h hrow).bind fun e e' s' t' hr => ?_
  rw [hr.status, hr.material, hr.spec hspec, hr.version]
  split
  · exact same_fail hr.alike
  · exact same_lift hr.alike

theorem verify_same (hfault : ∀ c, env.fault c = none) (h : Alike crypto s t) (hrow : RowOf t id tenantId)
    (hspec : SpecOf t id tenantId) (data : Bytes) (sig : Signature) :
    Same crypto (verify crypto env id data sig tenantId) (verify crypto env id data sig tenantId) s t := by
  refine (entryFor_sim hfault h hrow).bind fun e e' s' t' hr => ?_
  rw [hr.material, hr.spec hspec]
  exact same_lift hr.alike

theorem exportKeyMaterial_same (hfault : ∀ c, env.fault c = none) (h : Alike crypto s t) (hrow : RowOf t id tenantId) :
    Same crypto (exportKeyMaterial crypto env id tenantId) (exportKeyMaterial crypto env id tenantId) s t := by
  refine (entryFor_sim hfault h hrow).bind fun e e' s' t' hr => ?_
  rw [hr.status, hr.material]
  split
  · exact same_fail hr.alike
  · exact .pure ⟨rfl, hr.alike⟩

theorem getKeyMaterial_same (hfault : ∀ c, env.fault c = none) (h : Alike crypto s t) (hrow : RowOf t id tenantId) :
    Same crypto (getKeyMaterial crypto env id tenantId) (getKeyMaterial crypto env id tenantId) s t :=
  (entryFor_sim hfault h hrow).bind fun _ _ _ _ hr => .pure ⟨hr.material, hr.alike⟩

theorem getKeyMaterialVersion_same (hfault : ∀ c, env.fault c = none) (h : Alike crypto s t)
    (hrow : RowOf t id tenantId) (version : UInt32) :
    Same crypto (getKeyMaterialVersion crypto env id version tenantId)
      (getKeyMaterialVersion crypto env id version tenantId) s t := by
  refine (entryFor_sim hfault h hrow).bind fun e e' s' t' hr => ?_
  rw [hr.material, hr.version]
  split
  · exact .pure ⟨rfl, hr.alike⟩
  · exact same_read dbOnly_materialForVersion readOnly_materialForVersion hr.alike

theorem deriveSharedSecret_same (hfault : ∀ c, env.fault c = none) (h : Alike crypto s t) (hrow : RowOf t id tenantId)
    (peerPublicKey : Bytes) (algorithm : DhAlgorithm) :
    Same crypto (deriveSharedSecret crypto env id peerPublicKey algorithm tenantId)
      (deriveSharedSecret crypto env id peerPublicKey algorithm tenantId) s t := by
  refine (entryFor_sim hfault h hrow).bind fun e e' s' t' hr => ?_
  rw [hr.material]
  exact sim_lift_bind hr.alike fun _ _ => .pure ⟨rfl, hr.alike⟩

/-! ## Creating keys -/

theorem storeNew_same (hfault : ∀ c, env.fault c = none) (h : Alike crypto s t) {m : KeyMeta}
    {material encrypted : Bytes} (hmetadata : m.metadata = .default) (hfresh : m.id ∉ t.db.keys)
    (hdecrypt : decryptMaterial crypto t.kek m.id encrypted = .ok material) :
    Same crypto (storeNew env m material encrypted) (storeNew env m material encrypted) s t := by
  let entry : KeyEntry := { keyMeta := m, material }
  refine .bind (Q := fun _ _ s' t' => s' = { s with keys := s.keys.insertWithEviction m.id entry } ∧
    t' = { t with keys := t.keys.insertWithEviction m.id entry }) (.of_ok rfl rfl ⟨rfl, rfl⟩) ?_
  rintro _ _ s₁ t₁ ⟨hs₁, ht₁⟩
  have hdb : s₁.db = t₁.db := by rw [hs₁, ht₁, h.db]
  have hkek : s₁.kek = t₁.kek := by rw [hs₁, ht₁, h.kek]
  have hinv : DbInv t₁.db := by rw [ht₁]; exact h.inv
  refine .bind (sim_write (Q := fun _ => KeyAdded t₁ m encrypted) dbOnly_persistKey hdb hkek
    ((persistKey_spec hfault hinv hmetadata).mono ?_)) ?_
  · rintro (e | a) t' ht'
    · -- the entry is cached all the same
      obtain rfl : t' = t₁ := ht'
      subst hs₁ ht₁
      refine h.cached h.inv (fun _ _ => rfl) fun row hlive => ?_
      obtain ⟨hrow, -⟩ := Db.live_eq_some_iff.1 hlive
      exact absurd (Std.ExtTreeMap.mem_iff_isSome_getElem?.2 (by simp [hrow])) hfresh
    · exact ht'
  · rintro _ _ _ t' ⟨-, rfl, hadded⟩
    obtain ⟨db, rfl⟩ : ∃ db, t' = { t₁ with db } := ⟨_, hadded.store⟩
    subst hs₁ ht₁
    refine .pure ⟨rfl, h.cached hadded.inv (fun k hk => ?_) fun row hlive => ?_⟩
    · exact (hadded.live k).trans (if_neg hk)
    · cases hlive.symm.trans ((hadded.live m.id).trans (if_pos rfl))
      exact fits_newRow hmetadata hdecrypt

theorem generateKey_same (hcrypto : crypto.Lawful) (hfault : ∀ c, env.fault c = none) (h : Alike crypto s t)
    (hfresh : env.uuid 0 ∉ t.db.keys) (spec : KeySpec) (name tenantId : String) :
    Same crypto (generateKey crypto env spec name tenantId) (generateKey crypto env spec name tenantId) s t := by
  refine sim_lift_bind h fun material _ => sim_kekOf_bind h ?_
  refine sim_lift_bind h fun encrypted hencrypted => ?_
  exact storeNew_same hfault h rfl hfresh (decrypt_encryptMaterial hcrypto hencrypted)

theorem importKeyMaterial_same (hcrypto : crypto.Lawful) (hfault : ∀ c, env.fault c = none) (h : Alike crypto s t)
    (hfresh : env.uuid 0 ∉ t.db.keys) (spec : KeySpec) (name tenantId : String) (material : Bytes) :
    Same crypto (importKeyMaterial crypto env spec name tenantId material)
      (importKeyMaterial crypto env spec name tenantId material) s t := by
  refine sim_lift_bind h fun _ _ => sim_kekOf_bind h ?_
  refine sim_lift_bind h fun encrypted hencrypted => ?_
  exact storeNew_same hfault h rfl hfresh (decrypt_encryptMaterial hcrypto hencrypted)

/-! ## Changing keys -/

/-- A rotation that went through, with its changes to the cache. -/
theorem Alike.rotated (h : Alike crypto s t) {db : Db} {row : KeyRow} {m : KeyMeta} {encrypted material : Bytes}
    (hlive : t.db.live id = some row) (hrotated : Rotated t id row m encrypted { t with db })
    (hmetadata : m.metadata = .default) (hdecrypt : decryptMaterial crypto t.kek m.id encrypted = .ok material) :
    Alike crypto
      { s with
        keys := (s.keys.mutate id (·.withStatus .obsolete)).insertWithEviction m.id { keyMeta := m, material }
        db }
      { t with
        keys := (t.keys.mutate id (·.withStatus .obsolete)).insertWithEviction m.id { keyMeta := m, material }
        db } := by
  -- first the old key becomes obsolete, then the new one is added
  have hold : Alike crypto { s with keys := _, db := t.db.updateStatus id .obsolete } _ :=
    h.setStatus id .obsolete (h.inv.updateLive (fun _ => rfl) fun _ _ => rfl)
      (fun k hk => by rw [Db.updateStatus, Db.live_updateLive, if_neg hk]) fun row' hrow' => by
        rw [Db.updateStatus, Db.live_updateLive, if_pos rfl, hlive] at hrow'
        obtain ⟨hmap, -⟩ := Option.filter_eq_some_iff.1 hrow'
        exact ⟨row, hlive, (Option.some.inj hmap).symm⟩
  refine hold.cached hrotated.inv (fun k hk => ?_) fun row' hrow' => ?_
  · dsimp only
    rw [Db.updateStatus, Db.live_updateLive]
    split
    · rename_i heq
      subst heq
      have hundeleted := (Db.live_eq_some_iff.1 hlive).2
      have hrow := hrotated.old
      dsimp only at hrow
      rw [hrow, hlive]
      simp only [Option.map_some, Option.filter_some, hundeleted, Option.isNone_none, if_true]
    · rename_i hother
      exact hrotated.others k hk hother
  · have hrow := hrotated.new
    dsimp only at hrow
    rw [hrow] at hrow'
    cases hrow'
    exact fits_newRow hmetadata hdecrypt

theorem rotateKey_same (hcrypto : crypto.Lawful) (hfault : ∀ c, env.fault c = none)
    (hrandom : ∀ n, env.random n ≠ none) (h : Alike crypto s t) (hrow : RowOf t id tenantId)
    (hstorable : ∀ e, t.keys.map[id]? = some e → e.keyMeta.tenantId = tenantId → Storable e.keyMeta)
    (hfresh : env.uuid 0 ∉ t.db.keys) (huncached : t.keys.map[env.uuid 0]? = none)
    (hversion : ∀ v ∈ t.db.keyVersions, v.id ≠ env.uuid 1) :
    Same crypto (rotateKey crypto env id tenantId) (rotateKey crypto env id tenantId) s t := by
  refine (entryFor_sim hfault h hrow).bind fun e e' s' t' hr => ?_
  obtain rfl := hr.eq hstorable
  obtain ⟨row, hlive⟩ := hr.row
  have hid := hr.id_eq
  rw [← hr.db] at hfresh hversion
  have hne : env.uuid 0 ≠ id := by
    rintro rfl
    obtain ⟨hrow, -⟩ := Db.live_eq_some_iff.1 hlive
    exact hfresh (Std.ExtTreeMap.mem_iff_isSome_getElem?.2 (by simp [hrow]))
  rw [← hr.others _ hne.symm] at huncached
  have halike := hr.alike
  have hmetadata : (rotatedMeta env e.keyMeta).metadata = .default := hr.metadata
  clear hr
  split
  · exact same_fail halike
  refine sim_lift_bind halike fun material _ => sim_kekOf_bind halike ?_
  refine sim_lift_bind halike fun encrypted hencrypted => ?_
  have hlive' : t'.db.live e.keyMeta.id = some row := by rw [hid, hlive]
  have hne' : (rotatedMeta env e.keyMeta).id ≠ e.keyMeta.id := by rwa [hid]
  refine .bind (sim_write (Q := fun _ => Rotated t' e.keyMeta.id row (rotatedMeta env e.keyMeta) encrypted)
    dbOnly_persistRotation halike.db halike.kek ((persistRotation_spec hcrypto hfault hrandom halike.inv hmetadata
      hlive' hne' hversion hencrypted).mono ?_)) ?_
  · rintro (a | a) t₁ ht₁
    · obtain ⟨hinv, hstore, hothers⟩ := ht₁
      obtain ⟨db, rfl⟩ : ∃ db, t₁ = { t' with db } := ⟨_, hstore⟩
      refine halike.withDb hinv fun k cached hk => hothers k ?_
      rintro rfl
      cases huncached.symm.trans hk
    · exact ht₁
  · rintro _ _ _ t₁ ⟨-, rfl, hrotated⟩
    obtain ⟨db, rfl⟩ : ∃ db, t₁ = { t' with db } := ⟨_, hrotated.store⟩
    rw [hid] at hrotated
    exact .of_ok rfl rfl
      ⟨rfl, halike.rotated hlive hrotated hmetadata (decrypt_encryptMaterial hcrypto hencrypted)⟩

theorem deleteKey_same (hfault : ∀ c, env.fault c = none) (h : Alike crypto s t) (hrow : RowOf t id tenantId) :
    Same crypto (deleteKey crypto env id tenantId) (deleteKey crypto env id tenantId) s t := by
  refine (entryFor_sim hfault h hrow).bind fun e e' s' t' hr => ?_
  refine .bind (sim_write (Q := fun _ t₁ => t₁ = { t' with db := t'.db.softDelete id env.dbNow "kms-system" })
    (dbOnly_mapInternal dbOnly_repo) hr.alike.db hr.alike.kek ((spec_write hfault).mono ?_)) ?_
  · rintro _ t₁ ⟨rfl, rfl⟩
    rfl
  · rintro _ _ _ _ ⟨-, rfl, rfl⟩
    refine .of_ok rfl rfl ⟨rfl, hr.alike.setStatus id .pendingDeletion ?_ (fun k hk => ?_) fun row' hrow' => ?_⟩
    · exact hr.alike.inv.updateLive (fun _ => rfl) fun _ h => h
    · rw [Db.softDelete, Db.live_updateLive, if_neg hk]
    · -- the row is no longer live
      rw [Db.softDelete, Db.live_updateLive, if_pos rfl] at hrow'
      obtain ⟨hmap, hundeleted⟩ := Option.filter_eq_some_iff.1 hrow'
      obtain ⟨row, -, rfl⟩ := Option.map_eq_some_iff.1 hmap
      cases hundeleted

theorem removeKey_sim (h : Alike crypto s t) (hnone : t.keys.map[id]? = none)
    {Q : KeyEntry → KeyEntry → Store → Store → Prop} : Sim (removeKey id) (removeKey id) Q (Alike crypto) s t := by
  have hfails : ∀ {s : Store}, s.keys.map[id]? = none →
      outcome (removeKey id) s = (.error (.error (.keyNotFound id.text)), s) := by
    intro s hs
    unfold removeKey
    rw [outcome_bind_ok (outcome_get s)]
    simp only [BoundedKeyCache.remove, hs]
    rfl
  exact .of_error (hfails (h.uncached hnone)) (hfails hnone) h

/-! ## Metadata and listings -/

theorem outcome_getKeyMetadata (id : Uuid) (hfault : ∀ c, env.fault c = none) (s : Store) :
    outcome (getKeyMetadata env id) s = (match s.keys.map[id]?, s.db.live id with
      | some e, _ => .ok e.keyMeta
      | none, some row => .ok (row.toMeta id)
      | none, none => .error (.error (.keyNotFound id.text)), s) := by
  unfold getKeyMetadata
  rw [outcome_bind_ok (outcome_get s)]
  cases hcached : s.keys.map[id]? with
  | some e =>
    simp only [BoundedKeyCache.getCloned, hcached]
    rfl
  | none =>
    simp only [BoundedKeyCache.getCloned, hcached]
    unfold Repo.findById
    rw [outcome_bind, outcome_repo hfault]
    cases hlive : s.db.live id with
    | none =>
      simp only [Db.findById, hlive, Option.map_none]
      rfl
    | some row =>
      simp only [Db.findById, hlive, Option.map_some]
      rfl

theorem getKeyMetadata_same (hfault : ∀ c, env.fault c = none) (h : Alike crypto s t)
    (hdescribed : ∀ e, t.keys.map[id]? = some e → (t.db.live id).isSome ∧ Storable e.keyMeta) :
    Same crypto (getKeyMetadata env id) (getKeyMetadata env id) s t := by
  have hos := outcome_getKeyMetadata id hfault s
  have hot := outcome_getKeyMetadata id hfault t
  rw [h.db] at hos
  cases ht : t.keys.map[id]? with
  | none =>
    rw [h.uncached ht] at hos
    rw [ht] at hot
    cases hlive : t.db.live id with
    | none =>
      rw [hlive] at hos hot
      exact .of_error hos hot h
    | some row =>
      rw [hlive] at hos hot
      exact .of_ok hos hot ⟨rfl, h⟩
  | some e' =>
    obtain ⟨hlive, hstorable⟩ := hdescribed e' ht
    obtain ⟨row, hlive⟩ := Option.isSome_iff_exists.1 hlive
    have hfits := h.agree.right id e' row ht hlive
    have hstored := stored_eq_self hstorable hfits.metadata
    rw [ht] at hot
    rw [hlive] at hos
    cases hs : s.keys.map[id]? with
    | some e =>
      rw [hs] at hos
      refine .of_ok hos hot ⟨?_, h⟩
      rcases h.agree.like hs ht hlive with rfl | ⟨-, hmeta⟩
      · rfl
      · rw [hmeta, hstored]
    | none =>
      rw [hs] at hos
      refine .of_ok hos hot ⟨?_, h⟩
      rcases hfits.keyMeta with hmeta | hmeta
      · exact hmeta
      · rw [hmeta, hstored]

theorem listKeys_same (h : Alike crypto s t) (filter : KeyFilter) :
    Same crypto (listKeys env filter) (listKeys env filter) s t := by
  unfold listKeys
  cases filter.tenantId with
  | none => exact same_fail h
  | some tenantId =>
    exact same_read (dbOnly_mapInternal dbOnly_repo) (readOnly_mapInternal (readOnly_repo (f := fun db =>
      db.list env.rank tenantId (filter.limit.map Db.asI64) (filter.offset.map Db.asI64)))) h

/-! ## Startup -/

/-- The metadata is that of a live row. -/
def RowMeta (db : Db) (m : KeyMeta) : Prop := ∃ row, db.live m.id = some row ∧ row.toMeta m.id = m

theorem rowMeta_of_listAllTenants {db : Db} {rank : Uuid → ℕ} {limit offset : Option ℤ} {metas : List KeyMeta}
    (h : db.listAllTenants rank limit offset = .ok metas) : ∀ m ∈ metas, RowMeta db m := by
  intro m hm
  unfold Db.listAllTenants at h
  simp only [bind, Except.bind, pure, Except.pure] at h
  split at h
  · cases h
  · rename_i rows hpage
    cases h
    obtain ⟨r, hr, rfl⟩ := List.mem_map.1 hm
    have hlisted := Db.mem_of_page hpage hr
    rw [Db.newestFirst, List.mem_mergeSort, List.mem_filter] at hlisted
    have hrow := Std.ExtTreeMap.mem_toList_iff_getElem?_eq_some.1 hlisted.1
    exact ⟨r.2, Db.live_eq_some_iff.2 ⟨hrow, Option.isNone_iff_eq_none.1 hlisted.2⟩, rfl⟩

theorem loadOneIntoCache_sim (hfault : ∀ c, env.fault c = none) (h : Alike crypto s t) {m : KeyMeta}
    (hm : RowMeta t.db m) :
    Sim (loadOneIntoCache crypto env m) (loadOneIntoCache crypto env m)
      (fun a b s' t' => a = b ∧ Alike crypto s' t' ∧ t'.db = t.db) (fun s' t' => Alike crypto s' t' ∧ t'.db = t.db)
      s t := by
  obtain ⟨row, hlive, hmeta⟩ := hm
  have hfound : t.db.findEncryptedMaterial m.id = row.encryptedMaterial := by simp [Db.findEncryptedMaterial, hlive]
  refine .bind (Q := fun a b s' t' => a = row.encryptedMaterial ∧ b = a ∧ s = s' ∧ t = t') ?_ ?_
  · exact .of_ok (outcome_repo hfault _ _ s) (outcome_repo hfault _ _ t) ⟨by rw [h.db, hfound], by rw [h.db], rfl, rfl⟩
  rintro _ _ _ _ ⟨rfl, rfl, rfl, rfl⟩
  cases hencrypted : row.encryptedMaterial with
  | none => exact .pure ⟨rfl, h, rfl⟩
  | some encrypted =>
    dsimp only
    refine .bind (Q := fun a b s' t' => a = t.kek ∧ b = a ∧ s = s' ∧ t = t') ?_ ?_
    · exact .of_ok (outcome_kekOf s) (outcome_kekOf t) ⟨h.kek, h.kek.symm, rfl, rfl⟩
    rintro _ _ _ _ ⟨rfl, rfl, rfl, rfl⟩
    split
    · exact .throw ⟨h, rfl⟩
    · exact .throw ⟨h, rfl⟩
    · rename_i material hdecrypt
      refine .of_ok rfl rfl ⟨rfl, h.cache hlive ⟨.inl hmeta, ?_, encrypted, hencrypted, hdecrypt⟩, rfl⟩
      rw [← hmeta]
      exact h.inv.metadata_toMeta hlive

/-- A key that cannot be loaded is skipped. -/
theorem outcome_preload (crypto : Crypto) (env : Env) (m : KeyMeta) (metas : List KeyMeta) (s : Store) :
    outcome (preload crypto env (m :: metas)) s = match outcome (loadOneIntoCache crypto env m) s with
      | (.ok true, s') => outcome (do return (← preload crypto env metas) + 1 : M ℕ) s'
      | (.ok false, s') => outcome (preload crypto env metas) s'
      | (.error (.error _), s') => outcome (preload crypto env metas) s'
      | (.error (.panic message), s') => (.error (.panic message), s') := by
  simp only [outcome, preload]
  rcases hload : loadOneIntoCache crypto env m s with ⟨_ | _, s'⟩ | ⟨_ | _, s'⟩ <;> rfl

theorem preload_same (hfault : ∀ c, env.fault c = none) (h : Alike crypto s t) {metas : List KeyMeta}
    (hmetas : ∀ m ∈ metas, RowMeta t.db m) : Same crypto (preload crypto env metas) (preload crypto env metas) s t := by
  induction metas generalizing s t with
  | nil => exact .pure ⟨rfl, h⟩
  | cons m metas ih =>
    have hload := loadOneIntoCache_sim hfault h (hmetas m (List.mem_cons_self ..))
    have hrest : ∀ {s' t'}, Alike crypto s' t' → t'.db = t.db →
        Same crypto (preload crypto env metas) (preload crypto env metas) s' t' := fun h' hdb =>
      ih h' fun m hm => hdb ▸ hmetas m (List.mem_cons_of_mem _ hm)
    unfold Same Sim at *
    rw [outcome_preload, outcome_preload]
    revert hload
    rcases outcome (loadOneIntoCache crypto env m) s with ⟨e | a, s'⟩ <;>
      rcases outcome (loadOneIntoCache crypto env m) t with ⟨e' | b, t'⟩ <;> intro hload
    · obtain ⟨rfl, h', hdb⟩ := hload
      cases e with
      | error _ => exact hrest h' hdb
      | panic _ => exact ⟨rfl, h'⟩
    · exact hload.elim
    · exact hload.elim
    · obtain ⟨rfl, h', hdb⟩ := hload
      cases a with
      | false => exact hrest h' hdb
      | true =>
        exact (Same.map (hrest h' hdb) : Same crypto (preload crypto env metas >>= fun n => pure (n + 1)) _ s' t')

theorem spawnLoadKeys_same (hfault : ∀ c, env.fault c = none) (h : Alike crypto s t) :
    Same crypto (spawnLoadKeys crypto env) (spawnLoadKeys crypto env) s t := by
  refine .bind (sim_read dbOnly_repo (readOnly_repo (f := fun db => db.listAllTenants env.rank none none)) h) ?_
  rintro metas _ s' t' ⟨hlisted, rfl, hs, ht⟩
  subst s' t'
  rw [outcome_repo hfault] at hlisted
  have hmetas : ∀ m ∈ metas, RowMeta t.db m := by
    cases hlist : t.db.listAllTenants env.rank none none with
    | error e =>
      rw [hlist] at hlisted
      cases hlisted
    | ok metas' =>
      rw [hlist] at hlisted
      cases hlisted
      exact rowMeta_of_listAllTenants hlist
  refine .bind (preload_same hfault h hmetas) ?_
  rintro n _ s' t' ⟨rfl, h'⟩
  refine .of_ok rfl rfl ⟨rfl, ?_⟩
  exact { h' with keysReady := rfl }

theorem health_same (hfault : ∀ c, env.fault c = none) (h : Alike crypto s t) :
    Same crypto (health env) (health env) s t := by
  have houtcome : ∀ s : Store, outcome (health env) s =
      (.ok (match s.db.listAllTenants env.rank (some 1) none with
        | .ok _ => if s.keysReady then .healthy else .unknown
        | .error _ => .degraded), s) := by
    intro s
    simp only [outcome, health, Repo.listAllTenants, repo, hfault]
    cases s.db.listAllTenants env.rank (some 1) none <;> rfl
  refine .of_ok (houtcome s) (houtcome t) ⟨?_, h⟩
  rw [h.db, h.keysReady]

theorem restart_same (h : Alike crypto s t) (kek : Bytes) : Same crypto (restart kek) (restart kek) s t :=
  .of_ok rfl rfl ⟨rfl,
    { db := h.db
      kek := rfl
      keysReady := rfl
      unbounded := h.unbounded
      inv := h.inv
      agree := by simpa only [BoundedKeyCache.getElem?_new] using agree_empty }⟩

end

/-! ## Runs -/

namespace Op

/-- The operation creates a key. -/
def creates : Op → Bool
  | generateKey .. | importKeyMaterial .. | rotateKey .. => true
  | _ => false

/-- The operation uses the specification of the key that it resolves. -/
def usesSpec : Op → Bool
  | rotateKey .. | encrypt .. | decrypt .. | sign .. | verify .. => true
  | _ => false

/-- The operation hands on the times in the metadata of this tenant's key. -/
def tellsTimes (id : Uuid) (tenantId : String) : Op → Prop
  | rotateKey keyId tenantId' => keyId = id ∧ tenantId' = tenantId
  | getKeyMetadata keyId => keyId = id
  | _ => False

end Op

/-- What a call asks of the unbounded keystore `t`. -/
structure Unseen (t : Store) (c : Call) : Prop where
  /-- The database and the random generator answer. -/
  answered : (∀ r, c.env.fault r = none) ∧ ∀ n, c.env.random n ≠ none
  /-- A new id is not that of any key or version. -/
  fresh : c.op.creates → c.env.uuid 0 ∉ t.db.keys ∧ t.keys.map[c.env.uuid 0]? = none ∧
    ∀ v ∈ t.db.keyVersions, v.id ≠ c.env.uuid 1
  /-- The cached key of the tenant that calls is not deleted from the database. -/
  row : ∀ id tenantId, c.op.tenantKey? = some (id, tenantId) → RowOf t id tenantId
  /-- Its specification is one that the repository can read back, where the call uses it. -/
  spec : c.op.usesSpec → ∀ id tenantId, c.op.tenantKey? = some (id, tenantId) → SpecOf t id tenantId
  /-- Its metadata is as its row has it, where the call hands it on. -/
  described : ∀ id e, t.keys.map[id]? = some e → c.op.tellsTimes id e.keyMeta.tenantId →
    (t.db.live id).isSome ∧ Storable e.keyMeta
  /-- A key that is destroyed is not cached. -/
  destroyed : ∀ id, c.op.destroys? = some id → t.keys.map[id]? = none

theorem call_same {crypto : Crypto} (hcrypto : crypto.Lawful) {s t : Store} (h : Alike crypto s t) {c : Call}
    (hc : Unseen t c) : (call crypto s c).1 = (call crypto t c).1 ∧
      Alike crypto (call crypto s c).2 (call crypto t c).2 := by
  obtain ⟨⟨hfault, hrandom⟩, hfresh, hrow, hspec, hdescribed, hdestroyed⟩ := hc
  obtain ⟨env, op⟩ := c
  suffices hrun : Same crypto (op.run crypto env) (op.run crypto env) s t from hrun.answer_eq
  cases op with
  | generateKey spec name tenantId => exact (generateKey_same hcrypto hfault h (hfresh rfl).1 spec name tenantId).map
  | importKeyMaterial spec name tenantId material =>
    exact (importKeyMaterial_same hcrypto hfault h (hfresh rfl).1 spec name tenantId material).map
  | rotateKey keyId tenantId =>
    obtain ⟨hkey, hcached, hversion⟩ := hfresh rfl
    refine (rotateKey_same hcrypto hfault hrandom h (hrow _ _ rfl) ?_ hkey hcached hversion).map
    exact fun e he htenant => (hdescribed keyId e he ⟨rfl, htenant.symm⟩).2
  | deleteKey keyId tenantId => exact (deleteKey_same hfault h (hrow _ _ rfl)).map
  | destroyKey keyId =>
    have hremove := removeKey_sim (Q := fun _ _ => Alike crypto) h (hdestroyed _ rfl)
    refine Same.map (Sim.bind hremove ?_)
    exact fun _ _ _ _ h' => .pure ⟨rfl, h'⟩
  | destroyKeyWithProof keyId =>
    have hremove := removeKey_sim (Q := fun e e' s' t' => e = e' ∧ Alike crypto s' t') h (hdestroyed _ rfl)
    refine Same.map (Sim.bind hremove ?_)
    rintro e _ _ _ ⟨rfl, h'⟩
    exact .pure ⟨rfl, h'⟩
  | getKeyMetadata keyId => exact (getKeyMetadata_same hfault h fun e he => hdescribed keyId e he rfl).map
  | encrypt keyId plaintext tenantId =>
    exact (encrypt_same hfault h (hrow _ _ rfl) (hspec rfl _ _ rfl) plaintext).map
  | decrypt keyId ciphertext tenantId =>
    exact (decrypt_same hfault h (hrow _ _ rfl) (hspec rfl _ _ rfl) ciphertext).map
  | sign keyId data tenantId => exact (sign_same hfault h (hrow _ _ rfl) (hspec rfl _ _ rfl) data).map
  | verify keyId data sig tenantId => exact (verify_same hfault h (hrow _ _ rfl) (hspec rfl _ _ rfl) data sig).map
  | exportKeyMaterial keyId tenantId => exact (exportKeyMaterial_same hfault h (hrow _ _ rfl)).map
  | getKeyMaterial keyId tenantId => exact (getKeyMaterial_same hfault h (hrow _ _ rfl)).map
  | getKeyMaterialVersion keyId version tenantId =>
    exact (getKeyMaterialVersion_same hfault h (hrow _ _ rfl) version).map
  | deriveSharedSecret keyId peerPublicKey algorithm tenantId =>
    exact (deriveSharedSecret_same hfault h (hrow _ _ rfl) peerPublicKey algorithm).map
  | listKeys filter => exact (listKeys_same h filter).map
  | health => exact (health_same hfault h).map
  | loadKeys =>
    refine Same.map (Sim.bind (spawnLoadKeys_same hfault h) ?_)
    rintro _ _ _ _ ⟨-, h'⟩
    exact .pure ⟨rfl, h'⟩
  | spawnLoadKeys => exact (spawnLoadKeys_same hfault h).map
  | restart kek => exact (restart_same h kek).map

theorem alike_start (crypto : Crypto) (capacity : Option ℕ) (kek : Bytes) :
    Alike crypto (.start capacity kek) (.start none kek) where
  db := rfl
  kek := rfl
  keysReady := rfl
  unbounded := rfl
  inv := dbInv_empty
  agree := by simpa only [Store.start, BoundedKeyCache.getElem?_new] using agree_empty

/-- Over a run whose calls the cache cannot be seen by, a keystore of any capacity
answers as one of unbounded capacity does. -/
theorem cache_transparent {crypto : Crypto} (hcrypto : crypto.Lawful) (capacity : Option ℕ) (kek : Bytes)
    (calls : List Call)
    (h : (call crypto).Along (fun _ => Unseen) [] (.start none kek) calls) :
    (call crypto).trace (.start capacity kek) calls = (call crypto).trace (.start none kek) calls := by
  refine (Machine.Along.trace_eq (N := call crypto) (R := fun t s => Alike crypto s t) ?_ h
    (alike_start crypto capacity kek)).symm
  intro _ t s c hst hc
  obtain ⟨hanswer, hst'⟩ := call_same hcrypto hst hc
  exact ⟨hanswer.symm, hst'⟩

/-! ## Two runs -/

/-- A key is generated, used by its tenant, and described. -/
def generatedAndUsed : List Call :=
  [⟨sampleEnv 1, .generateKey .aes256Gcm "key" "tenant-1"⟩, ⟨sampleEnv 2, .encrypt 1 [1, 2, 3] "tenant-1"⟩,
   ⟨sampleEnv 2, .getKeyMetadata 1⟩]

theorem cache_transparent_generatedAndUsed :
    (call .plain).trace (.start (some 0) (List.replicate 32 1)) generatedAndUsed =
      (call .plain).trace (.start none (List.replicate 32 1)) generatedAndUsed := by
  refine cache_transparent Crypto.plain_lawful (some 0) (List.replicate 32 1) generatedAndUsed ?_
  have hanswered : ∀ uuid, (∀ r, (sampleEnv uuid).fault r = none) ∧ ∀ n, (sampleEnv uuid).random n ≠ none :=
    fun _ => ⟨fun _ => rfl, fun _ => by simp [sampleEnv]⟩
  let entry : KeyEntry :=
    { keyMeta := newMeta (sampleEnv 1) .aes256Gcm "key" "tenant-1" none, material := List.replicate 32 7 }
  have hstorable : Storable entry.keyMeta := ⟨by decide, by decide, rfl⟩
  refine ⟨⟨hanswered 1, fun _ => ⟨?_, ?_, ?_⟩, ?_, ?_, ?_, ?_⟩, ⟨hanswered 2, ?_, ?_, ?_, ?_, ?_⟩,
    ⟨hanswered 2, ?_, ?_, ?_, ?_, ?_⟩, trivial⟩
  -- the key is generated over empty tables
  · decide +kernel
  · decide +kernel
  · rintro v ⟨⟩
  · rintro _ _ ⟨⟩
  · rintro ⟨⟩
  · rintro _ _ _ ⟨⟩
  · rintro _ ⟨⟩
  -- its tenant encrypts with it
  · rintro ⟨⟩
  · rintro _ _ ⟨⟩ _ _ _
    decide +kernel
  · rintro - _ _ ⟨⟩ e he -
    cases he.symm.trans (show _ = some entry by decide +kernel)
    exact hstorable.spec
  · rintro _ _ _ ⟨⟩
  · rintro _ ⟨⟩
  -- its metadata is asked for
  · rintro ⟨⟩
  · rintro _ _ ⟨⟩
  · rintro ⟨⟩
  · rintro _ e he rfl
    cases he.symm.trans (show _ = some entry by decide +kernel)
    exact ⟨by decide +kernel, hstorable⟩
  · rintro _ ⟨⟩

/-- A key of a specification that the repository cannot read back is generated and used. -/
def generatedEd448 : List Call :=
  [⟨sampleEnv 1, .generateKey .ed448 "key" "tenant-1"⟩, ⟨sampleEnv 2, .encrypt 1 [1, 2, 3] "tenant-1"⟩]

/-- Without a cache the key is an AES key, which encrypts. -/
theorem not_transparent_generatedEd448 :
    (call .plain).trace (.start (some 0) (List.replicate 32 1)) generatedEd448 ≠
      (call .plain).trace (.start none (List.replicate 32 1)) generatedEd448 := by
  intro h
  have hanswers := congrArg (fun tr => tr.map (·.2)) h
  revert hanswers
  decide +kernel

end GmKms.Keystore.Postgres
