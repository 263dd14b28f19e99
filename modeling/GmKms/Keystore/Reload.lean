import GmKms.Keystore.Coherence
/-!
# Resident and reloaded entries

A keystore with a bounded cache beside one with an unbounded cache over the same
database: how programs that leave the cache alone run in both, and what both
resolve a key to when only one has it resident.
-/

namespace GmKms.Keystore.Postgres

open Lib Lib.Effect

/-- A bounded keystore `s` beside an unbounded one `t`. -/
structure Alike (crypto : Crypto) (s t : Store) : Prop where
  db : s.db = t.db
  kek : s.kek = t.kek
  keysReady : s.keysReady = t.keysReady
  unbounded : t.keys.capacity = none
  inv : DbInv t.db
  agree : Agree crypto t.db t.kek (fun k => s.keys.map[k]?) (fun k => t.keys.map[k]?)

namespace Alike

variable {crypto : Crypto} {s t : Store} {db : Db} {id : Uuid}

theorem uncached (h : Alike crypto s t) (ht : t.keys.map[id]? = none) : s.keys.map[id]? = none := by
  cases hs : s.keys.map[id]? with
  | none => rfl
  | some e =>
    obtain ⟨e', ht', -⟩ := h.agree.resident id e hs
    rw [ht] at ht'
    cases ht'

/-- The tables change where no cached key is concerned. -/
theorem withDb (h : Alike crypto s t) (hinv : DbInv db)
    (hlive : ∀ k e, t.keys.map[k]? = some e → db.live k = t.db.live k) : Alike crypto { s with db } { t with db } where
  db := rfl
  kek := h.kek
  keysReady := h.keysReady
  unbounded := h.unbounded
  inv := hinv
  agree := h.agree.of_live_eq hlive

/-- An entry is cached, and no other key's row changes. -/
theorem cached (h : Alike crypto s t) {entry : KeyEntry} (hinv : DbInv db)
    (hother : ∀ k, id ≠ k → db.live k = t.db.live k)
    (hfits : ∀ row, db.live id = some row → Fits crypto t.kek id row entry) :
    Alike crypto { s with keys := s.keys.insertWithEviction id entry, db }
      { t with keys := t.keys.insertWithEviction id entry, db } where
  db := rfl
  kek := h.kek
  keysReady := h.keysReady
  unbounded := by rw [BoundedKeyCache.capacity_insertWithEviction, h.unbounded]
  inv := hinv
  agree := h.agree.insert (fun _ _ => BoundedKeyCache.of_getElem?_insertWithEviction)
    (fun k => BoundedKeyCache.getElem?_insertWithEviction_of_unbounded h.unbounded id k entry) hother hfits

/-- An entry that fits its row is cached. -/
theorem cache (h : Alike crypto s t) {entry : KeyEntry} {row : KeyRow} (hlive : t.db.live id = some row)
    (hfits : Fits crypto t.kek id row entry) :
    Alike crypto { s with keys := s.keys.insertWithEviction id entry }
      { t with keys := t.keys.insertWithEviction id entry } := by
  have hcached := h.cached h.inv (fun _ _ => rfl) fun row' hlive' => by
    rw [hlive] at hlive'
    cases hlive'
    exact hfits
  simpa only [← h.db] using hcached

/-- A key's status changes in the cache, and in its row unless that is gone. -/
theorem setStatus (h : Alike crypto s t) (id : Uuid) (status : KeyStatus) (hinv : DbInv db)
    (hother : ∀ k, id ≠ k → db.live k = t.db.live k)
    (hrow : ∀ row', db.live id = some row' →
      ∃ row, t.db.live id = some row ∧ row' = { row with status := status.debug }) :
    Alike crypto { s with keys := s.keys.mutate id (·.withStatus status), db }
      { t with keys := t.keys.mutate id (·.withStatus status), db } where
  db := rfl
  kek := h.kek
  keysReady := h.keysReady
  unbounded := by rw [BoundedKeyCache.capacity_mutate, h.unbounded]
  inv := hinv
  agree := h.agree.setStatus (fun k => BoundedKeyCache.getElem?_mutate _ _ _ _)
    (fun k => BoundedKeyCache.getElem?_mutate _ _ _ _) hother hrow

end Alike

/-! ## Programs that do not look at the cache -/

/-- The program answers by the database and the key encryption key, and changes the
database only. -/
def DbOnly {α : Type} (x : M α) : Prop :=
  ∀ s t : Store, s.db = t.db → s.kek = t.kek →
    (outcome x s).1 = (outcome x t).1 ∧ (outcome x s).2 = { s with db := (outcome x t).2.db }

/-- The program changes nothing. -/
def ReadOnly {α : Type} (x : M α) : Prop := ∀ s, (outcome x s).2 = s

section

variable {α β : Type} {env : Env}

theorem dbOnly_repo {c : RepoCall} {f : Db → Except String (α × Db)} : DbOnly (repo env c f) := by
  intro s t hdb hkek
  simp only [outcome, repo, hdb]
  cases env.fault c with
  | some e => exact ⟨rfl, by simp [← hdb]⟩
  | none =>
    cases f t.db with
    | error e => exact ⟨rfl, by simp [← hdb]⟩
    | ok out => exact ⟨rfl, rfl⟩

theorem dbOnly_lift {r : Except Abort α} : DbOnly (lift r) := by
  intro s t hdb hkek
  cases r <;> exact ⟨rfl, by simp [outcome, lift, ← hdb]⟩

theorem dbOnly_pure {a : α} : DbOnly (pure a) := fun s t hdb _ => ⟨rfl, by simp [← hdb]⟩

theorem dbOnly_throw {e : Abort} : DbOnly (throw e : M α) := fun s t hdb _ => ⟨rfl, by simp [← hdb]⟩

theorem dbOnly_kekOf : DbOnly kekOf := fun s t hdb hkek =>
  ⟨by simp only [outcome, kekOf, hkek], by simp [outcome, kekOf, ← hdb]⟩

theorem dbOnly_mapInternal {x : M α} (h : DbOnly x) : DbOnly (mapInternal x) := by
  intro s t hdb hkek
  obtain ⟨ha, hs⟩ := h s t hdb hkek
  rw [outcome_mapInternal, outcome_mapInternal]
  rcases hx : outcome x s with ⟨⟨⟨⟩⟩ | a, s'⟩ <;> rcases hy : outcome x t with ⟨⟨⟨⟩⟩ | b, t'⟩ <;>
    rw [hx, hy] at ha hs <;> cases ha <;> exact ⟨rfl, hs⟩

theorem dbOnly_bind {x : M α} {f : α → M β} (hx : DbOnly x) (hf : ∀ a, DbOnly (f a)) : DbOnly (x >>= f) := by
  intro s t hdb hkek
  obtain ⟨ha, hs⟩ := hx s t hdb hkek
  obtain ⟨-, ht⟩ := hx t t rfl rfl
  rcases hxs : outcome x s with ⟨e | a, s'⟩ <;> rcases hxt : outcome x t with ⟨e' | b, t'⟩ <;>
    rw [hxs, hxt] at ha hs <;> cases ha
  · rw [outcome_bind_error hxs, outcome_bind_error hxt]
    exact ⟨rfl, hs⟩
  · rw [outcome_bind_ok hxs, outcome_bind_ok hxt]
    rw [hxt] at ht
    dsimp only at hs ht
    obtain ⟨ha', hs'⟩ := hf a s' t' (by rw [hs]) (by rw [hs, ht]; exact hkek)
    refine ⟨ha', ?_⟩
    rw [hs', hs]

theorem readOnly_bind {x : M α} {f : α → M β} (hx : ReadOnly x) (hf : ∀ a, ReadOnly (f a)) : ReadOnly (x >>= f) := by
  intro s
  have hs := hx s
  rcases hxs : outcome x s with ⟨e | a, s'⟩ <;> rw [hxs] at hs <;> dsimp only at hs <;> subst hs
  · rw [outcome_bind_error hxs]
  · rw [outcome_bind_ok hxs, hf]

theorem readOnly_mapInternal {x : M α} (h : ReadOnly x) : ReadOnly (mapInternal x) := by
  intro s
  have hs := h s
  rw [outcome_mapInternal]
  rcases hxs : outcome x s with ⟨⟨⟨⟩⟩ | a, s'⟩ <;> rw [hxs] at hs <;> exact hs

theorem readOnly_repo {c : RepoCall} {f : Db → Except String α} :
    ReadOnly (repo env c fun db => (f db).map (·, db)) := by
  intro s
  simp only [outcome, repo]
  cases env.fault c with
  | some e => rfl
  | none => cases h : f s.db <;> simp [Except.map]

theorem readOnly_lift {r : Except Abort α} : ReadOnly (lift r) := fun s => by cases r <;> rfl

theorem readOnly_pure {a : α} : ReadOnly (pure a) := fun _ => rfl

theorem readOnly_throw {e : Abort} : ReadOnly (throw e : M α) := fun _ => rfl

theorem readOnly_kekOf : ReadOnly kekOf := fun _ => rfl

/-- A program that only reads the database answers alike in both keystores. -/
theorem sim_read {crypto : Crypto} {x : M α} (hdb : DbOnly x) (hread : ReadOnly x) {s t : Store}
    (h : Alike crypto s t) : Sim x x (fun a b s' t' => (outcome x t).1 = .ok a ∧ a = b ∧ s' = s ∧ t' = t)
    (Alike crypto) s t := by
  have ha := (hdb s t h.db h.kek).1
  have hs := hread s
  have ht := hread t
  rcases hx : outcome x s with ⟨e | a, s'⟩ <;> rcases hy : outcome x t with ⟨e' | b, t'⟩ <;>
    rw [hx] at ha hs <;> rw [hy] at ha ht <;> cases ha <;> subst hs <;> subst ht
  · exact .of_error hx hy h
  · exact .of_ok hx hy ⟨rfl, rfl, rfl, rfl⟩

/-- A program that changes the database only changes both keystores' alike. -/
theorem sim_write {x : M α} (hdb : DbOnly x) {s t : Store} (h : s.db = t.db) (hkek : s.kek = t.kek)
    {Q : α → Store → Prop} {E : Store → Store → Prop}
    (hspec : Spec x t fun r t' => match r with
      | .ok a => Q a t'
      | .error _ => E { s with db := t'.db } t') :
    Sim x x (fun a b s' t' => a = b ∧ s' = { s with db := t'.db } ∧ Q a t') E s t := by
  obtain ⟨ha, hs⟩ := hdb s t h hkek
  unfold Spec at hspec
  rcases hx : outcome x s with ⟨e | a, s'⟩ <;> rcases hy : outcome x t with ⟨e' | b, t'⟩ <;>
    rw [hx, hy] at ha hs <;> rw [hy] at hspec <;> cases ha <;> subst hs
  · exact .of_error hx hy hspec
  · exact .of_ok hx hy ⟨rfl, rfl, hspec⟩

end

/-! ## Resolving a key -/

section

variable {crypto : Crypto} {env : Env}

/-- The database answers. -/
theorem outcome_repo (hfault : ∀ c, env.fault c = none) {α : Type} (c : RepoCall) (f : Db → Except String (α × Db))
    (s : Store) : outcome (repo env c f) s = match f s.db with
      | .error e => (.error (.error (.internal e)), s)
      | .ok (a, db) => (.ok a, { s with db }) := by
  simp only [outcome, repo, hfault]
  rcases f s.db with e | ⟨a, db⟩ <;> rfl

theorem dbOnly_loadEntryFromDb {id : Uuid} : DbOnly (loadEntryFromDb crypto env id) := by
  refine dbOnly_bind dbOnly_repo fun found => ?_
  cases found with
  | none => exact dbOnly_throw
  | some keyMeta =>
    refine dbOnly_bind dbOnly_repo fun material => ?_
    cases material with
    | none => exact dbOnly_throw
    | some encrypted =>
      refine dbOnly_bind dbOnly_kekOf fun kek => ?_
      split
      · exact dbOnly_throw
      · exact dbOnly_throw
      · exact dbOnly_pure

theorem readOnly_loadEntryFromDb {id : Uuid} : ReadOnly (loadEntryFromDb crypto env id) := by
  refine readOnly_bind (readOnly_repo (f := fun db => .ok (db.findById id))) fun found => ?_
  cases found with
  | none => exact readOnly_throw
  | some keyMeta =>
    refine readOnly_bind (readOnly_repo (f := fun db => .ok (db.findEncryptedMaterial id))) fun material => ?_
    cases material with
    | none => exact readOnly_throw
    | some encrypted =>
      refine readOnly_bind readOnly_kekOf fun kek => ?_
      split
      · exact readOnly_throw
      · exact readOnly_throw
      · exact readOnly_pure

theorem loadEntryFromDb_of_none (hfault : ∀ c, env.fault c = none) {id : Uuid} {s : Store}
    (h : s.db.live id = none) :
    outcome (loadEntryFromDb crypto env id) s = (.error (.error (.keyNotFound id.text)), s) := by
  unfold loadEntryFromDb Repo.findById
  rw [outcome_bind, outcome_repo hfault]
  simp only [Db.findById, h, Option.map_none]
  rfl

/-- A live row is loaded with the material that its own opens to. -/
theorem loadEntryFromDb_of_live (hfault : ∀ c, env.fault c = none) {id : Uuid} {s : Store} {row : KeyRow}
    {encrypted material : Bytes} (h : s.db.live id = some row) (hencrypted : row.encryptedMaterial = some encrypted)
    (hdecrypt : decryptMaterial crypto s.kek id encrypted = .ok material) :
    outcome (loadEntryFromDb crypto env id) s = (.ok { keyMeta := row.toMeta id, material }, s) := by
  unfold loadEntryFromDb Repo.findById Repo.findEncryptedMaterial
  rw [outcome_bind, outcome_repo hfault]
  simp only [Db.findById, h, Option.map_some]
  rw [outcome_bind, outcome_repo hfault]
  simp only [Db.findEncryptedMaterial, h, Option.bind_some, hencrypted]
  rw [outcome_bind]
  simp only [outcome, kekOf, hdecrypt]
  rfl

/-- A row that fits an entry is loaded as its own metadata with the entry's material. -/
theorem loadEntryFromDb_of_fits (hfault : ∀ c, env.fault c = none) {id : Uuid} {s : Store} {row : KeyRow}
    {entry : KeyEntry} (h : s.db.live id = some row) (hfits : Fits crypto s.kek id row entry) :
    outcome (loadEntryFromDb crypto env id) s =
      (.ok { keyMeta := row.toMeta id, material := entry.material }, s) := by
  obtain ⟨encrypted, hencrypted, hdecrypt⟩ := hfits.material
  exact loadEntryFromDb_of_live hfault h hencrypted hdecrypt

/-- What is loaded comes from a row that fits it. -/
theorem fits_of_loadEntryFromDb (hfault : ∀ c, env.fault c = none) {id : Uuid} {s : Store} (hinv : DbInv s.db)
    {entry : KeyEntry} (h : (outcome (loadEntryFromDb crypto env id) s).1 = .ok entry) :
    ∃ row, s.db.live id = some row ∧ Fits crypto s.kek id row entry ∧ row.toMeta id = entry.keyMeta := by
  cases hlive : s.db.live id with
  | none =>
    rw [loadEntryFromDb_of_none hfault hlive] at h
    cases h
  | some row =>
    refine ⟨row, rfl, ?_⟩
    unfold loadEntryFromDb Repo.findById Repo.findEncryptedMaterial at h
    rw [outcome_bind, outcome_repo hfault] at h
    simp only [Db.findById, hlive, Option.map_some] at h
    rw [outcome_bind, outcome_repo hfault] at h
    simp only [Db.findEncryptedMaterial, hlive, Option.bind_some] at h
    cases hencrypted : row.encryptedMaterial with
    | none =>
      rw [hencrypted] at h
      cases h
    | some encrypted =>
      rw [hencrypted] at h
      dsimp only at h
      rw [outcome_bind] at h
      simp only [outcome, kekOf] at h
      cases hdecrypt : decryptMaterial crypto s.kek id encrypted with
      | error a =>
        rw [hdecrypt] at h
        cases a <;> cases h
      | ok material =>
        rw [hdecrypt] at h
        cases h
        exact ⟨⟨.inl rfl, hinv.metadata_toMeta hlive, encrypted, hencrypted, hdecrypt⟩, rfl⟩

theorem outcome_entryFor_hit (crypto : Crypto) (env : Env) (id : Uuid) (tenantId : String) {s : Store} {e : KeyEntry}
    (h : s.keys.map[id]? = some e) :
    outcome (entryFor crypto env id tenantId) s =
      if e.keyMeta.tenantId ≠ tenantId then (.error (.error (.keyNotFound id.text)), s) else (.ok e, s) := by
  unfold entryFor
  rw [outcome_bind_ok (outcome_get s)]
  simp only [BoundedKeyCache.getCloned, h]
  split <;> rfl

theorem outcome_entryFor_miss (crypto : Crypto) (env : Env) (id : Uuid) (tenantId : String) {s : Store}
    (h : s.keys.map[id]? = none) :
    outcome (entryFor crypto env id tenantId) s = match (outcome (loadEntryFromDb crypto env id) s).1 with
      | .error a => (.error a, s)
      | .ok e =>
        if e.keyMeta.tenantId ≠ tenantId then (.error (.error (.keyNotFound id.text)), s)
        else (.ok e, { s with keys := s.keys.insertWithEviction id e }) := by
  have hread : (outcome (loadEntryFromDb crypto env id) s).2 = s := readOnly_loadEntryFromDb s
  unfold entryFor
  rw [outcome_bind_ok (outcome_get s)]
  simp only [BoundedKeyCache.getCloned, h]
  rcases hload : outcome (loadEntryFromDb crypto env id) s with ⟨a | e, s'⟩ <;> rw [hload] at hread <;>
    dsimp only at hread <;> subst hread
  · rw [outcome_bind_error hload]
  · rw [outcome_bind_ok hload]
    dsimp only
    split <;> rfl

/-- The entries `e` and `e'` that a bounded and an unbounded keystore have resolved. -/
structure Resolved (crypto : Crypto) (id : Uuid) (tenantId : String) (t₀ : Store) (e e' : KeyEntry) (s t : Store) :
    Prop where
  alike : Alike crypto s t
  like : Like e e'
  id_eq : e'.keyMeta.id = id
  metadata : e'.keyMeta.metadata = .default
  tenantId : e'.keyMeta.tenantId = tenantId
  row : ∃ row, t.db.live id = some row
  db : t.db = t₀.db
  others : ∀ k, id ≠ k → t.keys.map[k]? = t₀.keys.map[k]?
  cached : t₀.keys.map[id]? = some e' ∨ e = e'

namespace Resolved

variable {id : Uuid} {tenantId : String} {t₀ : Store} {e e' : KeyEntry} {s t : Store}

theorem material (h : Resolved crypto id tenantId t₀ e e' s t) : e.material = e'.material := by
  rcases h.like with rfl | ⟨hmaterial, -⟩
  · rfl
  · exact hmaterial

theorem status (h : Resolved crypto id tenantId t₀ e e' s t) : e.keyMeta.status = e'.keyMeta.status := by
  rcases h.like with rfl | ⟨-, hmeta⟩
  · rfl
  · rw [hmeta, status_stored]

theorem version (h : Resolved crypto id tenantId t₀ e e' s t) : e.keyMeta.version = e'.keyMeta.version := by
  rcases h.like with rfl | ⟨-, hmeta⟩
  · rfl
  · rw [hmeta, version_stored]

theorem tenantId_eq (h : Resolved crypto id tenantId t₀ e e' s t) : e.keyMeta.tenantId = e'.keyMeta.tenantId := by
  rcases h.like with rfl | ⟨-, hmeta⟩
  · rfl
  · rw [hmeta, tenantId_stored]

theorem spec (h : Resolved crypto id tenantId t₀ e e' s t)
    (hknown : ∀ e, t₀.keys.map[id]? = some e → e.keyMeta.tenantId = tenantId →
      specOfText e.keyMeta.spec.debug = some e.keyMeta.spec) : e.keyMeta.spec = e'.keyMeta.spec := by
  rcases h.like with rfl | ⟨-, hmeta⟩
  · rfl
  · rcases h.cached with hcached | rfl
    · rw [hmeta, spec_stored _ (hknown e' hcached h.tenantId)]
    · rfl

theorem eq (h : Resolved crypto id tenantId t₀ e e' s t)
    (hstorable : ∀ e, t₀.keys.map[id]? = some e → e.keyMeta.tenantId = tenantId → Storable e.keyMeta) : e = e' := by
  rcases h.like with rfl | ⟨hmaterial, hmeta⟩
  · rfl
  · rcases h.cached with hcached | rfl
    · rw [stored_eq_self (hstorable e' hcached h.tenantId) h.metadata] at hmeta
      cases e
      cases e'
      simp_all
    · rfl

end Resolved

theorem entryFor_sim (hfault : ∀ c, env.fault c = none) {id : Uuid} {tenantId : String} {s t : Store}
    (h : Alike crypto s t)
    (hrow : ∀ e, t.keys.map[id]? = some e → e.keyMeta.tenantId = tenantId → (t.db.live id).isSome) :
    Sim (entryFor crypto env id tenantId) (entryFor crypto env id tenantId) (Resolved crypto id tenantId t)
      (Alike crypto) s t := by
  have hload : (outcome (loadEntryFromDb crypto env id) s).1 = (outcome (loadEntryFromDb crypto env id) t).1 :=
    (dbOnly_loadEntryFromDb s t h.db h.kek).1
  cases ht : t.keys.map[id]? with
  | none =>
    have hos := outcome_entryFor_miss crypto env id tenantId (h.uncached ht)
    have hot := outcome_entryFor_miss crypto env id tenantId ht
    rw [hload] at hos
    cases hentry : (outcome (loadEntryFromDb crypto env id) t).1 with
    | error a =>
      rw [hentry] at hos hot
      exact .of_error hos hot h
    | ok e =>
      rw [hentry] at hos hot
      dsimp only at hos hot
      obtain ⟨row, hlive, hfits, hmeta⟩ := fits_of_loadEntryFromDb hfault h.inv hentry
      split at hos
      · rename_i hother
        rw [if_pos hother] at hot
        exact .of_error hos hot h
      · rename_i hown
        rw [if_neg hown] at hot
        have hlook := fun k => BoundedKeyCache.getElem?_insertWithEviction_of_unbounded h.unbounded id k e
        exact .of_ok hos hot ⟨h.cache hlive hfits, .inl rfl, hfits.id_eq, hfits.metadata, not_not.1 hown, ⟨row, hlive⟩,
          rfl, fun k hk => (hlook k).trans (if_neg hk), .inr rfl⟩
  | some e' =>
    have hot := outcome_entryFor_hit crypto env id tenantId ht
    by_cases hown : e'.keyMeta.tenantId = tenantId
    · obtain ⟨row, hlive⟩ := Option.isSome_iff_exists.1 (hrow e' ht hown)
      have hfits := h.agree.right id e' row ht hlive
      rw [if_neg (not_not.2 hown)] at hot
      cases hs : s.keys.map[id]? with
      | some e =>
        obtain ⟨e'', ht'', htenant, -⟩ := h.agree.resident id e hs
        rw [ht] at ht''
        cases ht''
        have hos := outcome_entryFor_hit crypto env id tenantId hs
        rw [if_neg (not_not.2 (htenant.trans hown))] at hos
        exact .of_ok hos hot
          ⟨h, h.agree.like hs ht hlive, hfits.id_eq, hfits.metadata, hown, ⟨row, hlive⟩, rfl, fun _ _ => rfl, .inl ht⟩
      | none =>
        -- only the bounded keystore reloads
        have hos := outcome_entryFor_miss crypto env id tenantId hs
        rw [hload, loadEntryFromDb_of_fits hfault hlive hfits] at hos
        dsimp only at hos
        rw [if_neg (not_not.2 (hfits.tenantId.trans hown))] at hos
        have hfits' : Fits crypto t.kek id row { keyMeta := row.toMeta id, material := e'.material } :=
          ⟨.inl rfl, h.inv.metadata_toMeta hlive, hfits.material⟩
        refine .of_ok hos hot ⟨{ h with agree := ?_ }, hfits'.like hfits rfl, hfits.id_eq, hfits.metadata, hown,
          ⟨row, hlive⟩, rfl, fun _ _ => rfl, .inl ht⟩
        exact h.agree.reload (fun k e => BoundedKeyCache.of_getElem?_insertWithEviction) ht hlive hfits' rfl
    · rw [if_pos hown] at hot
      have hos : outcome (entryFor crypto env id tenantId) s = (.error (.error (.keyNotFound id.text)), s) := by
        cases hs : s.keys.map[id]? with
        | some e =>
          obtain ⟨e'', ht'', htenant, -⟩ := h.agree.resident id e hs
          rw [ht] at ht''
          cases ht''
          rw [outcome_entryFor_hit crypto env id tenantId hs, if_pos (by rwa [htenant])]
        | none =>
          rw [outcome_entryFor_miss crypto env id tenantId hs, hload]
          cases hlive : t.db.live id with
          | none => rw [loadEntryFromDb_of_none hfault hlive]
          | some row =>
            have hfits := h.agree.right id e' row ht hlive
            rw [loadEntryFromDb_of_fits hfault hlive hfits]
            dsimp only
            rw [if_pos (by rwa [hfits.tenantId])]
      exact .of_error hos hot h

/-! ## Writing keys -/

theorem dbOnly_persistKey {keyMeta : KeyMeta} {encrypted : Bytes} : DbOnly (persistKey env keyMeta encrypted) :=
  dbOnly_bind (dbOnly_mapInternal dbOnly_repo) fun _ => dbOnly_mapInternal dbOnly_repo

theorem dbOnly_persistRotation {oldMeta newMeta : KeyMeta} {oldMaterial encryptedNew : Bytes} :
    DbOnly (persistRotation crypto env oldMeta oldMaterial newMeta encryptedNew) := by
  refine dbOnly_bind dbOnly_persistKey fun _ => ?_
  refine dbOnly_bind (dbOnly_mapInternal dbOnly_repo) fun _ => ?_
  refine dbOnly_bind dbOnly_kekOf fun _ => ?_
  refine dbOnly_bind dbOnly_lift fun _ => ?_
  exact dbOnly_bind (dbOnly_mapInternal dbOnly_repo) fun _ => dbOnly_mapInternal dbOnly_repo

/-- The row of a key with the material it was created with. -/
def newRow (m : KeyMeta) (encrypted : Bytes) : KeyRow :=
  { KeyRow.ofMeta m with encryptedMaterial := some encrypted }

theorem fits_newRow {kek : Bytes} {m : KeyMeta} {material encrypted : Bytes} (hmetadata : m.metadata = .default)
    (hdecrypt : decryptMaterial crypto kek m.id encrypted = .ok material) :
    Fits crypto kek m.id (newRow m encrypted) { keyMeta := m, material } :=
  ⟨.inr rfl, hmetadata, encrypted, rfl, hdecrypt⟩

/-- A statement that the database cannot refuse. -/
theorem spec_write (hfault : ∀ c, env.fault c = none) {c : RepoCall} {f : Db → Db} {t : Store} :
    Spec (mapInternal (repo env c fun db => .ok ((), f db))) t fun r t' => r = .ok () ∧
    t' = { t with db := f t.db } := by
  unfold Spec
  rw [outcome_mapInternal, outcome_repo hfault]
  exact ⟨rfl, rfl⟩

/-- A statement that the database may refuse. -/
theorem spec_tryWrite (hfault : ∀ c, env.fault c = none) {c : RepoCall} {f : Db → Except String Db} {t : Store} :
    Spec (mapInternal (repo env c fun db => (f db).map fun db => ((), db))) t fun r t' => match r with
      | .ok _ => f t.db = .ok t'.db ∧ t' = { t with db := t'.db }
      | .error _ => (∃ e, f t.db = .error e) ∧ t' = t := by
  unfold Spec
  rw [outcome_mapInternal, outcome_repo hfault]
  cases h : f t.db with
  | error e => exact ⟨⟨e, rfl⟩, rfl⟩
  | ok db => exact ⟨rfl, rfl⟩

/-- The tables after a new key's row was added to those of `t`. -/
structure KeyAdded (t : Store) (m : KeyMeta) (encrypted : Bytes) (t' : Store) : Prop where
  inv : DbInv t'.db
  store : t' = { t with db := t'.db }
  live : ∀ k, t'.db.live k = if m.id = k then some (newRow m encrypted) else t.db.live k
  keyVersions : t'.db.keyVersions = t.db.keyVersions
  keys : ∀ k ∈ t.db.keys, k ∈ t'.db.keys

theorem insert_fields {db db' : Db} {m : KeyMeta} (h : db.insert m = .ok db') :
    db'.keyVersions = db.keyVersions ∧ ∀ k ∈ db.keys, k ∈ db'.keys := by
  unfold Db.insert at h
  split_ifs at h
  cases h
  exact ⟨rfl, fun k hk => by simp [hk]⟩

/-- Persisting a new key either does nothing or adds its row. -/
theorem persistKey_spec (hfault : ∀ c, env.fault c = none) {m : KeyMeta} {encrypted : Bytes} {t : Store}
    (hinv : DbInv t.db) (hmetadata : m.metadata = .default) :
    Spec (persistKey env m encrypted) t fun r t' => match r with
      | .ok _ => KeyAdded t m encrypted t'
      | .error _ => t' = t := by
  refine .bind (spec_tryWrite hfault) (fun _ t₁ h₁ => ?_) fun _ _ h => h.2
  obtain ⟨hinsert, ht₁⟩ := h₁
  refine (spec_write hfault).mono fun r t₂ h₂ => ?_
  obtain ⟨rfl, rfl⟩ := h₂
  obtain ⟨hversions, hkeys⟩ := insert_fields hinsert
  refine ⟨(hinv.insert hinsert hmetadata).updateLive (fun _ => rfl) fun _ h => h, by rw [ht₁], fun k => ?_, ?_,
    fun k hk => mem_keys_updateLive.2 (hkeys k hk)⟩
  · rw [Db.updateEncryptedMaterial, Db.live_updateLive, Db.live_insert hinsert, Db.live_insert hinsert]
    split
    · rw [if_pos rfl]
      rfl
    · rfl
  · rw [Db.updateEncryptedMaterial, Db.keyVersions_updateLive, hversions]

/-- The tables after a rotation. -/
structure Rotated (t : Store) (oldId : Uuid) (row : KeyRow) (newMeta : KeyMeta) (encryptedNew : Bytes) (t' : Store) :
    Prop where
  inv : DbInv t'.db
  store : t' = { t with db := t'.db }
  others : ∀ k, newMeta.id ≠ k → oldId ≠ k → t'.db.live k = t.db.live k
  old : t'.db.live oldId = some { row with status := KeyStatus.debug .obsolete }
  new : t'.db.live newMeta.id = some (newRow newMeta encryptedNew)

theorem Rotated.of_live {t t₁ t₂ : Store} {oldId : Uuid} {row : KeyRow} {newMeta : KeyMeta} {encryptedNew : Bytes}
    (h : Rotated t oldId row newMeta encryptedNew t₁) (hinv : DbInv t₂.db) (hstore : t₂ = { t₁ with db := t₂.db })
    (hlive : ∀ k, t₂.db.live k = t₁.db.live k) : Rotated t oldId row newMeta encryptedNew t₂ where
  inv := hinv
  store := by rw [hstore, h.store]
  others k h₁ h₂ := by rw [hlive, h.others k h₁ h₂]
  old := by rw [hlive, h.old]
  new := by rw [hlive, h.new]

/-- Persisting a rotation adds the new key's row and makes the old one obsolete; where
it fails, the old key's row is as before. -/
theorem persistRotation_spec (hcrypto : crypto.Lawful) (hfault : ∀ c, env.fault c = none)
    (hrandom : ∀ n, env.random n ≠ none) {oldMeta newMeta : KeyMeta} {oldMaterial newMaterial encryptedNew : Bytes}
    {t : Store} (hinv : DbInv t.db) (hmetadata : newMeta.metadata = .default) {row : KeyRow}
    (hlive : t.db.live oldMeta.id = some row) (hne : newMeta.id ≠ oldMeta.id)
    (hversion : ∀ v ∈ t.db.keyVersions, v.id ≠ env.uuid 1)
    (hencrypted : encryptMaterial crypto env 1 t.kek newMeta.id newMaterial = .ok encryptedNew) :
    Spec (persistRotation crypto env oldMeta oldMaterial newMeta encryptedNew) t fun r t' => match r with
      | .ok _ => Rotated t oldMeta.id row newMeta encryptedNew t'
      | .error _ => DbInv t'.db ∧ t' = { t with db := t'.db } ∧ ∀ k, newMeta.id ≠ k → t'.db.live k = t.db.live k := by
  obtain ⟨hrow, hundeleted⟩ := Db.live_eq_some_iff.1 hlive
  have hkey : oldMeta.id ∈ t.db.keys := Std.ExtTreeMap.mem_iff_isSome_getElem?.2 (by simp [hrow])
  refine .bind (persistKey_spec hfault hinv hmetadata) (fun _ t₁ h₁ => ?_) fun _ t₁ h₁ => ?_
  swap
  · obtain rfl : t₁ = t := h₁
    exact ⟨hinv, rfl, fun _ _ => rfl⟩
  have h₁ : KeyAdded t newMeta encryptedNew t₁ := h₁
  refine .bind (spec_write hfault) (fun _ t₂ h₂ => ?_) fun _ _ h => by cases h.1
  have h₂' : Rotated t oldMeta.id row newMeta encryptedNew t₂ := by
    obtain ⟨-, rfl⟩ := h₂
    refine ⟨h₁.inv.updateLive (fun _ => rfl) fun _ _ => rfl, by rw [h₁.store], fun k hk₁ hk₂ => ?_, ?_, ?_⟩
    · rw [Db.updateStatus, Db.live_updateLive, if_neg hk₂, h₁.live, if_neg hk₁]
    · rw [Db.updateStatus, Db.live_updateLive, if_pos rfl, h₁.live, if_neg hne, hlive]
      simp [hundeleted]
    · rw [Db.updateStatus, Db.live_updateLive, if_neg hne.symm, h₁.live, if_pos rfl]
  have hversions₂ : t₂.db.keyVersions = t.db.keyVersions := by
    obtain ⟨-, rfl⟩ := h₂
    rw [Db.updateStatus, Db.keyVersions_updateLive, h₁.keyVersions]
  have hkey₂ : oldMeta.id ∈ t₂.db.keys := by
    obtain ⟨-, rfl⟩ := h₂
    exact mem_keys_updateLive.2 (h₁.keys _ hkey)
  have hkek₂ : t₂.kek = t.kek := by rw [h₂'.store]
  -- the material of the old key is sealed as that of the new one was
  refine .bind (Q := fun r t' => r = .ok t.kek ∧ t' = t₂) ⟨by rw [outcome_kekOf, hkek₂], rfl⟩
    (fun kek t₃ h₃ => ?_) fun _ _ h => by cases h.1
  obtain ⟨hkek, rfl⟩ := h₃
  cases hkek
  obtain ⟨encryptedDek, hdek⟩ := encryptMaterial_again hcrypto hrandom hencrypted 2 oldMeta.id oldMaterial
  rw [hdek]
  refine .bind (Q := fun r t' => r = .ok encryptedDek ∧ t' = t₃) ⟨rfl, rfl⟩ (fun _ t₄ h₄ => ?_) fun _ _ h => by cases
    h.1
  obtain ⟨hdek', rfl⟩ := h₄
  cases hdek'
  refine .bind (spec_tryWrite hfault) (fun _ t₅ h₅ => ?_) fun _ t₅ h₅ => ?_
  · obtain ⟨hinsert, ht₅⟩ := h₅
    obtain ⟨hinv₅, hlive₅⟩ := h₂'.inv.insertVersion hinsert fun row' hrow' => by
      rw [h₂'.old] at hrow'
      cases hrow'
      rfl
    refine (spec_write hfault).mono fun r t₆ h₆ => ?_
    obtain ⟨rfl, rfl⟩ := h₆
    exact h₂'.of_live (hinv₅.updateVersionRotatedAt _ _ _) (by rw [ht₅]) hlive₅
  · -- a version was there already, so the old row had this status before
    obtain ⟨⟨e, hinsert⟩, rfl⟩ := h₅
    refine ⟨h₂'.inv, h₂'.store, fun k hk => ?_⟩
    by_cases hold : oldMeta.id = k
    · subst hold
      rw [h₂'.old, hlive]
      obtain ⟨v, hv, hvkey⟩ := exists_version_of_insertVersion_error hinsert (by rwa [hversions₂]) hkey₂
      rw [hversions₂] at hv
      have hobsolete := hinv.version_obsolete v hv row (by rw [hvkey, hlive])
      rw [← hobsolete]
    · exact h₂'.others k hk hold

end

end GmKms.Keystore.Postgres
