import GmKms.Keystore.CacheSettling
import GmKms.Keystore.PostgresCalls
/-!
# Runs of tasks over the cache

One lemma for each stage of a task, and from them the cache at the end of every run.
-/

namespace GmKms.Keystore.Postgres

open Lib Lib.Effect

/-- What a statement does that succeeds or changes nothing. -/
def Executes {α : Type} (f : Db → Except String (α × Db)) (s : Store) (r : Except Abort α) (s' : Store) : Prop :=
  match r with
  | .ok a => f s.db = .ok (a, s'.db) ∧ s' = { s with db := s'.db }
  | .error _ => s' = s

theorem executes_repo {α : Type} (env : Env) (c : RepoCall) (f : Db → Except String (α × Db)) (s : Store) :
    Spec (repo env c f) s (Executes f s) :=
  spec_repo c f

theorem executes_mapInternal {α : Type} (env : Env) (c : RepoCall) (f : Db → Except String (α × Db)) (s : Store) :
    Spec (mapInternal (repo env c f)) s (Executes f s) :=
  spec_mapInternal (executes_repo env c f s) fun _ _ _ h => h

theorem outcome_of_faultless {α : Type} {env : Env} {c : RepoCall} {f : Db → Except String (α × Db)} {s : Store} {a : α}
    {db : Db} (hfault : env.fault c = none) (hf : f s.db = .ok (a, db)) :
    outcome (mapInternal (repo env c f)) s = (.ok a, { s with db }) := by
  have hrepo : outcome (repo env c f) s = (.ok a, { s with db }) := by simp [outcome, repo, hfault, hf]
  rw [outcome_mapInternal, hrepo]

theorem ok_of_map {x : Except String Db} {a : Unit} {db : Db} (h : (x.map fun db => ((), db)) = .ok (a, db)) :
    x = .ok db := by
  cases x <;> cases h
  rfl

theorem holds_of_findEncryptedMaterial {crypto : Crypto} {s : Store} {id : Uuid} {encrypted material : Bytes}
    (hfound : s.db.findEncryptedMaterial id = some encrypted)
    (hopens : decryptMaterial crypto s.kek id encrypted = .ok material) : Holds crypto s id material := by
  obtain ⟨row, hlive, hencrypted⟩ := Option.bind_eq_some_iff.1 hfound
  exact ⟨row, encrypted, (Db.live_eq_some_iff.1 hlive).1, hencrypted, hopens⟩

theorem loadedEntry_ok {crypto : Crypto} {kek : Bytes} {keyId : Uuid} {keyMeta : KeyMeta} {found : Option Bytes}
    {entry : KeyEntry} (h : loadedEntry crypto kek keyId keyMeta found = .ok entry) : entry.keyMeta = keyMeta ∧
      ∃ encrypted, found = some encrypted ∧ decryptMaterial crypto kek keyId encrypted = .ok entry.material := by
  unfold loadedEntry at h
  cases found with
  | none => cases h
  | some encrypted =>
    dsimp only at h
    split at h <;> cases h
    exact ⟨rfl, encrypted, rfl, ‹_›⟩

namespace TaskRun

variable {crypto : Crypto} {h : History TaskInput TaskReply} {s : TaskRun} {n : ℕ} {env : Env} {stage : Stage}

/-! ## Resolving a key -/

/-- A resolved key's entry is enough for what the key was resolved for. -/
theorem resolvedFor_ok (hc : crypto.Lawful) {goal : Goal} {keyId : Uuid} {entry : KeyEntry} {s : Store} {next : Stage}
    (hid : entry.keyMeta.id = keyId) (hholds : Holds crypto s keyId entry.material)
    (hnext : (resolvedFor crypto env s.kek goal keyId entry).stage? = some next) :
    next.Ok crypto env s ∧ next.written env = none := by
  cases goal with
  | use => cases hnext
  | delete =>
    cases hnext
    exact ⟨⟨entry.material, hholds⟩, rfl⟩
  | rotate =>
    simp only [resolvedFor, startRotation] at hnext
    split at hnext
    · cases hnext
    · rename_i r hstart
      cases hnext
      split at hstart
      · cases hstart
      · split at hstart
        · cases hstart
        · split at hstart <;> cases hstart
          rename_i encryptedNew hencrypted
          exact ⟨⟨hid, hholds, decrypt_encryptMaterial hc hencrypted⟩, rfl⟩

theorem resolvedFor_ne_destroyed {kek : Bytes} {goal : Goal} {keyId id : Uuid} {entry : KeyEntry} :
    resolvedFor crypto env kek goal keyId entry ≠ .done (.ok (.destroyed id)) := by
  cases goal with
  | use => rintro ⟨⟩
  | delete => rintro ⟨⟩
  | rotate =>
    unfold resolvedFor
    dsimp only
    split <;> rintro ⟨⟩

/-- The obligations of a step of the task at a stage. -/
def StageMoves (crypto : Crypto) (h : History TaskInput TaskReply) (s : TaskRun) (n : ℕ) (env : Env)
    (stage : Stage) : Prop :=
  Moves crypto h s n ⟨env, stage⟩ (Postgres.advance crypto env stage s.store).1
  (Postgres.advance crypto env stage s.store).2

theorem Inv.moves_access {α : Type} {x : M α} {f : Db → Except String (α × Db)} {next : α → Progress} {t : Task}
    (hi : Inv crypto h s) (ht : s.tasks n = some t) (hx : Spec x s.store (Executes f s.store))
    (hfail : ∀ e, (outcome x s.store).1 = .error e → ∀ (id : Uuid) (entry : KeyEntry) (status : KeyStatus),
      s.store.keys.map[id]? = some entry → t.stage.Refreshes id status → s.CurrentWithout n id entry)
    (hok : ∀ a db, f s.store.db = .ok (a, db) → Moves crypto h s n t (next a) { s.store with db }) :
    Moves crypto h s n t (accessThen x next s.store).1 (accessThen x next s.store).2 := by
  unfold Spec at hx
  unfold accessThen
  rcases houtcome : outcome x s.store with ⟨e | a, s'⟩ <;> rw [houtcome] at hx
  · obtain rfl : s' = s.store := hx
    refine hi.moves_idle ht rfl rfl rfl (fun stage hp => ?_) (fun id hp => ?_)
      fun id entry status hentry hown => .inr (hfail e (by rw [houtcome]) id entry status hentry hown)
    · cases hp
    · cases hp
  · obtain ⟨hdb, hs'⟩ := hx
    rw [hs']
    exact hok a s'.db hdb

/-- A statement that only reads. -/
theorem Inv.moves_query {α : Type} {x : M α} {f : Db → α} {next : α → Progress} {t : Task}
    (hi : Inv crypto h s) (ht : s.tasks n = some t) (hx : Spec x s.store (Executes (fun db => .ok (f db, db)) s.store))
    (hrefreshes : ∀ id status, ¬ t.stage.Refreshes id status)
    (hstage : ∀ stage, (next (f s.store.db)).stage? = some stage →
      stage.Ok crypto t.env s.store ∧ stage.written t.env = none)
    (hdone : ∀ id, next (f s.store.db) ≠ .done (.ok (.destroyed id))) :
    Moves crypto h s n t (accessThen x next s.store).1 (accessThen x next s.store).2 := by
  refine hi.moves_access ht hx (fun _ _ _ _ _ _ hown => absurd hown (hrefreshes _ _)) fun a db hf => ?_
  obtain ⟨rfl, rfl⟩ := Prod.mk.inj (Except.ok.inj hf)
  exact hi.moves_read ht hstage hdone hrefreshes

theorem Inv.moves_getCloned (hi : Inv crypto h s) (hc : crypto.Lawful) {goal : Goal} {keyId : Uuid} {tenantId : String}
    (ht : s.tasks n = some ⟨env, .getCloned goal keyId tenantId⟩) :
    StageMoves crypto h s n env (.getCloned goal keyId tenantId) := by
  unfold StageMoves
  simp only [Postgres.advance, BoundedKeyCache.getCloned]
  split
  · rename_i entry hentry
    have hres := hi.resident keyId entry hentry
    split
    · exact hi.moves_read ht (by rintro _ ⟨⟩) (by rintro _ ⟨⟩) fun _ _ => id
    · exact hi.moves_read ht (fun _ => resolvedFor_ok hc hres.id_eq hres.holds)
        (fun _ => resolvedFor_ne_destroyed) fun _ _ => id
  · refine hi.moves_read ht ?_ (by rintro _ ⟨⟩) fun _ _ => id
    rintro _ ⟨⟩
    exact ⟨trivial, rfl⟩

theorem Inv.moves_findById (hi : Inv crypto h s) {goal : Goal} {keyId : Uuid} {tenantId : String}
    (ht : s.tasks n = some ⟨env, .findById goal keyId tenantId⟩) :
    StageMoves crypto h s n env (.findById goal keyId tenantId) := by
  apply hi.moves_query ht (executes_repo env _ _ _) fun _ _ => id
  · intro stage hnext
    cases hfound : s.store.db.findById keyId with
    | none =>
      rw [hfound] at hnext
      cases hnext
    | some keyMeta =>
      rw [hfound] at hnext
      cases hnext
      obtain ⟨row, -, rfl⟩ := Option.map_eq_some_iff.1 hfound
      exact ⟨rfl, rfl⟩
  · intro id
    cases s.store.db.findById keyId <;> rintro ⟨⟩

theorem Inv.moves_findEncryptedMaterial (hi : Inv crypto h s) {goal : Goal} {keyId : Uuid} {tenantId : String}
    {keyMeta : KeyMeta} (ht : s.tasks n = some ⟨env, .findEncryptedMaterial goal keyId tenantId keyMeta⟩) :
    StageMoves crypto h s n env (.findEncryptedMaterial goal keyId tenantId keyMeta) := by
  apply hi.moves_query ht (executes_repo env _ _ _) fun _ _ => id
  · intro stage hnext
    split at hnext
    · cases hnext
    · rename_i entry hloaded
      split at hnext <;> cases hnext
      obtain ⟨hmeta, encrypted, hfound, hopens⟩ := loadedEntry_ok hloaded
      refine ⟨⟨?_, holds_of_findEncryptedMaterial hfound hopens⟩, rfl⟩
      rw [hmeta]
      exact hi.stage n _ ht
  · intro id
    split
    · rintro ⟨⟩
    · split <;> rintro ⟨⟩

theorem Inv.moves_writeBack (hi : Inv crypto h s) (hc : crypto.Lawful) {goal : Goal} {keyId : Uuid} {entry : KeyEntry}
    (ht : s.tasks n = some ⟨env, .writeBack goal keyId entry⟩) (hfills : s.FillsCurrent h n keyId entry) :
    StageMoves crypto h s n env (.writeBack goal keyId entry) := by
  obtain ⟨hid, hholds⟩ := hi.stage n _ ht
  exact hi.moves_fill ht hid hholds hfills (fun _ => resolvedFor_ok hc hid hholds) (fun _ => resolvedFor_ne_destroyed)
    fun _ _ => id

/-! ## Rotation -/

theorem Inv.moves_rows {p : Progress} {t : Task} {db : Db} (hi : Inv crypto h s) (ht : s.tasks n = some t)
    (hgrows : Grows (t.stage.written t.env) s.store.db db)
    (hstage : ∀ stage, p.stage? = some stage → stage.Ok crypto t.env { s.store with db })
    (hfresh : ∀ stage id, p.stage? = some stage → stage.written t.env = some id → s.store.db.keys[id]? = none)
    (hdone : ∀ id, p ≠ .done (.ok (.destroyed id)))
    (hstatus : ∀ (id : Uuid) (row row' : KeyRow), s.store.db.keys[id]? = some row → db.keys[id]? = some row' →
      currentStatus row' = currentStatus row ∨ ∃ stage, p.stage? = some stage ∧ stage.Refreshes id (currentStatus row'))
    (hrefreshes : ∀ id status, ¬ t.stage.Refreshes id status) : Moves crypto h s n t p { s.store with db } := by
  refine ⟨rfl, hgrows, hstage, hfresh, fun id entry hentry => ?_⟩
  refine hi.keep ht hgrows (by rfl) hentry (hdone id) (fun row row' hrow hrow' => ?_)
    fun _ hown => absurd hown (hrefreshes _ _)
  rcases hstatus id row row' hrow hrow' with hsame | ⟨stage, hp, hnext⟩
  · exact .inl hsame
  · exact .inr (covered_of_next hp hnext)

theorem Inv.moves_insert (hi : Inv crypto h s) {r : Rotation} (ht : s.tasks n = some ⟨env, .insert r⟩) :
    StageMoves crypto h s n env (.insert r) := by
  have hr : RotationOk crypto env s.store r := hi.stage n _ ht
  apply hi.moves_access ht (executes_mapInternal env _ _ _) fun _ _ _ _ _ _ => False.elim
  intro a db hinsert
  have hinsert := ok_of_map hinsert
  have hgrows := grows_insert none hinsert
  obtain ⟨hnone, -, hkeys⟩ := keys_of_insert hinsert
  refine hi.moves_rows ht hgrows ?_ ?_ (by rintro _ ⟨⟩) (fun id row row' hrow hrow' => ?_) fun _ _ => id
  · rintro _ ⟨⟩
    exact ⟨hr.grows hgrows rfl, _, (hkeys _).trans (if_pos rfl), rfl, rfl⟩
  · rintro _ id ⟨⟩ ⟨⟩
    exact hnone
  · rw [hkeys] at hrow'
    split at hrow'
    · rename_i hid
      rw [hid, hrow] at hnone
      cases hnone
    · rw [hrow] at hrow'
      cases hrow'
      exact .inl rfl

/-- The status of a row whose other columns an update changes. -/
theorem currentStatus_updateLive {db : Db} {id k : Uuid} {f : KeyRow → KeyRow} {row row' : KeyRow}
    (hf : ∀ row, row.deletedAt = none → currentStatus (f row) = currentStatus row) (hrow : db.keys[k]? = some row)
    (hrow' : (db.updateLive id f).keys[k]? = some row') : currentStatus row' = currentStatus row := by
  rw [Db.keys_updateLive_of_some hrow] at hrow'
  cases hrow'
  split
  · rename_i hid
    exact hf row hid.2
  · rfl

/-- A row's update that gives all live rows the status. -/
theorem currentStatus_cases {db : Db} {id k : Uuid} {f : KeyRow → KeyRow} {status : KeyStatus} {row row' : KeyRow}
    (hf : ∀ row, row.deletedAt = none → currentStatus (f row) = status) (hrow : db.keys[k]? = some row)
    (hrow' : (db.updateLive id f).keys[k]? = some row') :
    currentStatus row' = currentStatus row ∨ k = id ∧ currentStatus row' = status := by
  rw [Db.keys_updateLive_of_some hrow] at hrow'
  cases hrow'
  split
  · rename_i hid
    exact .inr ⟨hid.1.symm, hf row hid.2⟩
  · exact .inl rfl

theorem Inv.moves_updateEncryptedMaterial (hi : Inv crypto h s) {r : Rotation}
    (ht : s.tasks n = some ⟨env, .updateEncryptedMaterial r⟩) :
    StageMoves crypto h s n env (.updateEncryptedMaterial r) := by
  obtain ⟨hr, row, hrow, hlive, hnone⟩ := hi.stage n _ ht
  apply hi.moves_access ht (executes_mapInternal env _ _ _) fun _ _ _ _ _ _ => False.elim
  rintro _ _ ⟨⟩
  have hgrows : Grows (some (env.uuid 0)) s.store.db
      (s.store.db.updateEncryptedMaterial (env.uuid 0) r.encryptedNew) := by
    refine grows_updateEncryptedMaterial _ fun row' hrow' => ?_
    rw [hrow] at hrow'
    cases hrow'
    exact hnone
  refine hi.moves_rows ht hgrows ?_ (by rintro _ _ ⟨⟩ ⟨⟩) (by rintro _ ⟨⟩) (fun id row row' hrow hrow' => ?_) fun _ _ =>
    id
  · rintro _ ⟨⟩
    refine ⟨hr.grows hgrows rfl, _, _, Db.keys_updateLive_of_some hrow, ?_, hr.opens⟩
    rw [if_pos ⟨rfl, hlive⟩]
  · exact .inl (currentStatus_updateLive (by intro row hlive; rfl) hrow hrow')

theorem Inv.moves_updateStatus (hi : Inv crypto h s) {r : Rotation}
    (ht : s.tasks n = some ⟨env, .updateStatus r⟩) : StageMoves crypto h s n env (.updateStatus r) := by
  obtain ⟨hr, hnew⟩ := hi.stage n _ ht
  obtain ⟨row, encrypted, hrow, hencrypted, -⟩ := hr.old
  apply hi.moves_access ht (executes_mapInternal env _ _ _) fun _ _ _ _ _ _ => False.elim
  rintro _ _ ⟨⟩
  have hgrows : Grows none s.store.db (s.store.db.updateStatus r.old.keyMeta.id .obsolete) := by
    refine grows_updateLive none (fun row => ⟨id, fun _ => rfl, fun _ => id⟩) fun row' hrow' => ?_
    rw [hr.old_id, hrow] at hrow'
    cases hrow'
    simp [hencrypted]
  refine hi.moves_rows ht hgrows ?_ (by rintro _ _ ⟨⟩ ⟨⟩) (by rintro _ ⟨⟩) (fun id row row' hrow hrow' => ?_) fun _ _ =>
    id
  · rintro _ ⟨⟩
    refine ⟨hr.grows hgrows rfl, hnew.grows hgrows rfl, _, Db.keys_updateLive_of_some hrow, ?_⟩
    cases hdeleted : row.deletedAt with
    | none => exact .inr (by rw [if_pos ⟨hr.old_id, rfl⟩])
    | some t => exact .inl (by simp [hdeleted])
  · have hobsolete : ∀ row : KeyRow, row.deletedAt = none →
        currentStatus { row with status := KeyStatus.obsolete.debug } = .obsolete := by
      intro row hlive
      simp [currentStatus, hlive, statusOfText_debug]
    rcases currentStatus_cases hobsolete hrow hrow' with hsame | ⟨rfl, hnow⟩
    · exact .inl hsame
    · exact .inr ⟨_, rfl, hr.old_id, hnow⟩

theorem keys_of_insertVersion {db db' : Db} {id keyId : Uuid} {now : DateTime} {version : UInt32}
    {encryptedDek : Option Bytes} {status : String}
    (h : db.insertVersion id now keyId version encryptedDek status = .ok db') :
    db'.keys = db.keys := by
  unfold Db.insertVersion at h
  split_ifs at h
  cases h
  rfl

theorem Inv.moves_insertVersion (hi : Inv crypto h s) {r : Rotation} (ht : s.tasks n = some ⟨env, .insertVersion r⟩)
    (hkeeps : VersionInsertable crypto env s.store r ∨
      ∀ entry : KeyEntry, s.store.keys.map[r.keyId]? = some entry → s.CurrentWithout n r.keyId entry) :
    StageMoves crypto h s n env (.insertVersion r) := by
  obtain ⟨hr, hnew, hold⟩ := hi.stage n _ ht
  unfold StageMoves
  dsimp only [Postgres.advance]
  split
  · rename_i e hencrypt
    refine hi.moves_idle ht rfl rfl rfl (by rintro _ ⟨⟩) (by rintro _ ⟨⟩) ?_
    rintro _ entry _ hentry ⟨rfl, rfl⟩
    rcases hkeeps with ⟨-, encryptedDek, db, hencrypted, -⟩ | hcurrent
    · rw [hencrypt] at hencrypted
      cases hencrypted
    · exact .inr (hcurrent entry hentry)
  · rename_i encryptedDek hencrypt
    apply hi.moves_access ht (executes_mapInternal env _ _ _)
    · rintro e herror _ entry _ hentry ⟨rfl, rfl⟩
      rcases hkeeps with ⟨hfault, encryptedDek', db, hencrypted, hinsert⟩ | hcurrent
      · rw [hencrypt] at hencrypted
        cases hencrypted
        rw [outcome_of_faultless hfault (by rw [hinsert]; rfl)] at herror
        cases herror
      · exact hcurrent entry hentry
    · intro _ db hinsert
      have hrows := keys_of_insertVersion (ok_of_map hinsert)
      refine hi.moves_idle ht rfl hrows rfl ?_ (by rintro _ ⟨⟩) ?_
      · rintro _ ⟨⟩
        have hgrows : Grows none s.store.db db := grows_of_keys none fun _ _ hrow => by rw [hrows]; exact hrow
        exact ⟨⟨hr.grows hgrows rfl, hnew.grows hgrows rfl, hold.grows hgrows⟩, rfl⟩
      · exact fun id entry status _ hown => .inl ⟨_, rfl, hown⟩

theorem Inv.moves_updateVersionRotatedAt (hi : Inv crypto h s) {r : Rotation}
    (ht : s.tasks n = some ⟨env, .updateVersionRotatedAt r⟩)
    (hkeeps : env.fault (.updateVersionRotatedAt r.old.keyMeta.id) = none ∨
      ∀ entry : KeyEntry, s.store.keys.map[r.keyId]? = some entry → s.CurrentWithout n r.keyId entry) :
    StageMoves crypto h s n env (.updateVersionRotatedAt r) := by
  obtain ⟨hr, hnew, hold⟩ := hi.stage n _ ht
  apply hi.moves_access ht (executes_mapInternal env _ _ _)
  · rintro e herror _ entry _ hentry ⟨rfl, rfl⟩
    rcases hkeeps with hfault | hcurrent
    · rw [outcome_of_faultless hfault rfl] at herror
      cases herror
    · exact hcurrent entry hentry
  · rintro _ _ ⟨⟩
    refine hi.moves_idle ht rfl rfl rfl ?_ (by rintro _ ⟨⟩) fun id entry status _ hown => .inl ⟨_, rfl, hown⟩
    rintro _ ⟨⟩
    have hgrows : Grows none s.store.db (s.store.db.updateVersionRotatedAt (env.now 2) r.old.keyMeta.id
        r.old.keyMeta.version) := grows_of_keys none fun _ _ hrow => hrow
    exact ⟨⟨hr.grows hgrows rfl, hnew.grows hgrows rfl, hold.grows hgrows⟩, rfl⟩

theorem Inv.moves_markObsolete (hi : Inv crypto h s) {r : Rotation} (ht : s.tasks n = some ⟨env, .markObsolete r⟩)
    (hkeeps : ∀ (entry : KeyEntry) (row : KeyRow), s.store.keys.map[r.keyId]? = some entry →
      s.store.db.keys[r.keyId]? = some row → row.deletedAt.isSome → s.Refreshing n r.keyId .pendingDeletion) :
    StageMoves crypto h s n env (.markObsolete r) := by
  obtain ⟨-, hnew, row, hrow, hold⟩ := hi.stage n _ ht
  refine hi.moves_withStatus ht (fun entry row' hentry hrow' => ?_) ?_ (by rintro _ ⟨⟩) fun _ _ hown => hown.1
  · obtain rfl := Option.some.inj (hrow'.symm.trans hrow)
    by_cases hdeleted : row'.deletedAt.isSome
    · rw [currentStatus, if_pos hdeleted]
      exact .inr (hkeeps entry row' hentry hrow hdeleted)
    · have hobsolete := hold.resolve_left hdeleted
      rw [currentStatus, if_neg hdeleted, hobsolete, statusOfText_debug]
      exact .inl rfl
  · rintro _ ⟨⟩
    exact ⟨hnew, rfl⟩

theorem Inv.moves_insertNew (hi : Inv crypto h s) {r : Rotation} (ht : s.tasks n = some ⟨env, .insertNew r⟩)
    (hfills : s.FillsCurrent h n (env.uuid 0) (r.newEntry env)) : StageMoves crypto h s n env (.insertNew r) :=
  hi.moves_fill ht rfl (hi.stage n _ ht) hfills (by rintro _ ⟨⟩) (by rintro _ ⟨⟩) fun _ _ => id

/-! ## Deletion and destruction -/

theorem Inv.moves_softDelete (hi : Inv crypto h s) {keyId : Uuid} (ht : s.tasks n = some ⟨env, .softDelete keyId⟩) :
    StageMoves crypto h s n env (.softDelete keyId) := by
  obtain ⟨material, row, encrypted, hrow, hencrypted, -⟩ := hi.stage n _ ht
  apply hi.moves_access ht (executes_mapInternal env _ _ _) fun _ _ _ _ _ _ => False.elim
  rintro _ _ ⟨⟩
  have hgrows : Grows none s.store.db (s.store.db.softDelete keyId env.dbNow "kms-system") := by
    refine grows_updateLive none (fun row => ⟨fun _ => rfl, id, fun _ => id⟩) fun row' hrow' => ?_
    rw [hrow] at hrow'
    cases hrow'
    simp [hencrypted]
  refine hi.moves_rows ht hgrows ?_ (by rintro _ _ ⟨⟩ ⟨⟩) (by rintro _ ⟨⟩) (fun id row row' hrow hrow' => ?_) fun _ _ =>
    id
  · rintro _ ⟨⟩
    refine ⟨_, Db.keys_updateLive_of_some hrow, ?_⟩
    cases hdeleted : row.deletedAt with
    | none => rw [if_pos ⟨rfl, rfl⟩]; rfl
    | some t => simp [hdeleted]
  · have hpending : ∀ row : KeyRow, row.deletedAt = none → currentStatus { row with
        deletedAt := some (pgTimestamp env.dbNow), deletedBy := some "kms-system" } = .pendingDeletion := fun _ _ => rfl
    rcases currentStatus_cases hpending hrow hrow' with hsame | ⟨rfl, hnow⟩
    · exact .inl hsame
    · exact .inr ⟨_, rfl, rfl, hnow⟩

theorem Inv.moves_markPendingDeletion (hi : Inv crypto h s) {keyId : Uuid}
    (ht : s.tasks n = some ⟨env, .markPendingDeletion keyId⟩) :
    StageMoves crypto h s n env (.markPendingDeletion keyId) := by
  obtain ⟨row, hrow, hdeleted⟩ := hi.stage n _ ht
  refine hi.moves_withStatus ht (fun entry row' _ hrow' => ?_) (by rintro _ ⟨⟩) (by rintro _ ⟨⟩) fun _ _ hown => hown.1
  obtain rfl := Option.some.inj (hrow'.symm.trans hrow)
  rw [currentStatus, if_pos hdeleted]
  exact .inl rfl

theorem outcome_destroyKey (keyId : Uuid) (s : Store) : outcome (destroyKey keyId) s = match s.keys.map[keyId]? with
    | none => (.error (.error (.keyNotFound keyId.text)), s)
    | some _ => (.ok (), { s with keys := (s.keys.remove keyId).2 }) := by
  unfold destroyKey removeKey BoundedKeyCache.remove
  simp only [bind_assoc, outcome_bind, outcome_get]
  cases s.keys.map[keyId]? <;> rfl

theorem Inv.moves_remove (hi : Inv crypto h s) {keyId : Uuid} (ht : s.tasks n = some ⟨env, .remove keyId⟩) :
    StageMoves crypto h s n env (.remove keyId) := by
  unfold StageMoves
  dsimp only [Postgres.advance, accessThen]
  rw [outcome_destroyKey]
  cases hcached : s.store.keys.map[keyId]? with
  | none => exact hi.moves_read ht (by rintro _ ⟨⟩) (by rintro _ ⟨⟩) fun _ _ => id
  | some entry =>
    refine ⟨rfl, grows_of_keys _ fun _ _ hrow => hrow, (by rintro _ ⟨⟩), (by rintro _ _ ⟨⟩), fun id entry hentry => ?_⟩
    rw [BoundedKeyCache.getElem?_remove] at hentry
    split at hentry
    · cases hentry
    · rename_i hne
      refine hi.keep_rows ht (by rfl) (by rfl) hentry ?_ fun _ => False.elim
      rintro ⟨⟩
      exact hne rfl

/-! ## The preload -/

theorem Inv.moves_listAllTenants (hi : Inv crypto h s) (ht : s.tasks n = some ⟨env, .listAllTenants⟩) :
    StageMoves crypto h s n env .listAllTenants := by
  apply hi.moves_access ht (executes_repo env _ _ _) fun _ _ _ _ _ _ => False.elim
  intro metas db hlist
  obtain rfl : db = s.store.db := by
    cases hpage : s.store.db.listAllTenants env.rank none none with
    | error e =>
      rw [hpage] at hlist
      cases hlist
    | ok found =>
      rw [hpage] at hlist
      cases hlist
      rfl
  refine hi.moves_read ht ?_ (by rintro _ ⟨⟩) fun _ _ => id
  rintro _ ⟨⟩
  exact ⟨trivial, rfl⟩

theorem Inv.moves_preload (hi : Inv crypto h s) {metas : List KeyMeta} {loaded : ℕ}
    (ht : s.tasks n = some ⟨env, .preload metas loaded⟩) : StageMoves crypto h s n env (.preload metas loaded) := by
  unfold StageMoves
  cases metas with
  | nil => exact hi.moves_idle ht rfl rfl rfl (by rintro _ ⟨⟩) (by rintro _ ⟨⟩) fun _ _ _ _ => False.elim
  | cons keyMeta metas =>
    have hread : Spec (Repo.findEncryptedMaterial env keyMeta.id) s.store _ := spec_read _ _
    unfold Spec at hread
    dsimp only [Postgres.advance]
    rcases houtcome : outcome (Repo.findEncryptedMaterial env keyMeta.id) s.store with ⟨e | found, s'⟩ <;>
      rw [houtcome] at hread <;> obtain ⟨rfl, hfound⟩ := hread
    · refine hi.moves_read ht ?_ (by rintro _ ⟨⟩) fun _ _ => id
      rintro _ ⟨⟩
      exact ⟨trivial, rfl⟩
    · cases found with
      | none =>
        refine hi.moves_read ht ?_ (by rintro _ ⟨⟩) fun _ _ => id
        rintro _ ⟨⟩
        exact ⟨trivial, rfl⟩
      | some encrypted =>
        dsimp only
        split
        · rename_i material hopens
          refine hi.moves_read ht ?_ (by rintro _ ⟨⟩) fun _ _ => id
          rintro _ ⟨⟩
          exact ⟨holds_of_findEncryptedMaterial (hfound _ rfl).symm hopens, rfl⟩
        · refine hi.moves_read ht ?_ (by rintro _ ⟨⟩) fun _ _ => id
          rintro _ ⟨⟩
          exact ⟨trivial, rfl⟩

theorem Inv.moves_preloadInsert (hi : Inv crypto h s) {entry : KeyEntry} {metas : List KeyMeta} {loaded : ℕ}
    (ht : s.tasks n = some ⟨env, .preloadInsert entry metas loaded⟩)
    (hfills : s.FillsCurrent h n entry.keyMeta.id entry) :
    StageMoves crypto h s n env (.preloadInsert entry metas loaded) := by
  refine hi.moves_fill ht rfl (hi.stage n _ ht) hfills ?_ (by rintro _ ⟨⟩) fun _ _ => id
  rintro _ ⟨⟩
  exact ⟨trivial, rfl⟩

/-! ## Runs -/

theorem inv_start (db : Db) (capacity : Option ℕ) (kek : Bytes) : Inv crypto [] (.start db capacity kek) where
  resident id entry hentry := by
    have hnone : (start db capacity kek).store.keys.map[id]? = none := BoundedKeyCache.getElem?_new capacity id
    rw [hnone] at hentry
    cases hentry
  stage n t ht := by cases ht
  distinct n n' t t' id ht := by cases ht

theorem ok_of_call (c : TaskCall) (s : Store) : c.stage.Ok crypto env s := by
  cases c <;> exact trivial

theorem Inv.started (hi : Inv crypto h s) {c : TaskCall} (hfree : s.tasks n = none) :
    Inv crypto (h ++ [(.start n env c, .pending)])
    { s with tasks := Function.update s.tasks n (some ⟨env, c.stage⟩) } := by
  have hothers : ∀ n' t, s.tasks n' = some t → n' ≠ n := by
    rintro n' t ht rfl
    rw [hfree] at ht
    cases ht
  have hunwritten : ∀ id, c.stage.written env ≠ some id := by
    intro id
    cases c <;> rintro ⟨⟩
  refine ⟨fun id entry hentry => ?_, fun n' t ht => ?_, fun n₁ n₂ t₁ t₂ id ht₁ ht₂ hw₁ hw₂ => ?_⟩
  · obtain ⟨hid, hholds, hcurrent, halive⟩ := hi.resident id entry hentry
    refine ⟨hid, hholds, fun row hrow => (hcurrent row hrow).imp_right ?_, fun hdestroyed => ?_⟩
    · rintro ⟨n', t, ht, hrefreshes⟩
      exact ⟨n', t, (Function.update_of_ne (hothers n' t ht) ..).trans ht, hrefreshes⟩
    · exact (destroyed_append.1 hdestroyed).elim halive (by rintro ⟨⟩)
  · dsimp only at ht
    rw [Function.update_apply] at ht
    split at ht
    · cases ht
      exact ok_of_call c s.store
    · exact hi.stage n' t ht
  · dsimp only at ht₁ ht₂
    rw [Function.update_apply] at ht₁ ht₂
    split at ht₁
    · cases ht₁
      exact absurd hw₁ (hunwritten id)
    · split at ht₂
      · cases ht₂
        exact absurd hw₂ (hunwritten id)
      · exact hi.distinct n₁ n₂ t₁ t₂ id ht₁ ht₂ hw₁ hw₂

/-- A step that finds nothing to do. -/
theorem Inv.idled (hi : Inv crypto h s) (i : TaskInput) : Inv crypto (h ++ [(i, .idle)]) s := by
  refine ⟨fun id entry hentry => ?_, hi.stage, hi.distinct⟩
  obtain ⟨hid, hholds, hcurrent, halive⟩ := hi.resident id entry hentry
  refine ⟨hid, hholds, hcurrent, fun hdestroyed => ?_⟩
  exact (destroyed_append.1 hdestroyed).elim halive (by rintro ⟨⟩)

theorem Inv.moves (hi : Inv crypto h s) (hc : crypto.Lawful) (ht : s.tasks n = some ⟨env, stage⟩)
    (hkeeps : KeepsUp crypto h s (.advance n)) : StageMoves crypto h s n env stage := by
  have hkeeps := hkeeps _ ht
  cases stage with
  | getCloned => exact hi.moves_getCloned hc ht
  | findById => exact hi.moves_findById ht
  | findEncryptedMaterial => exact hi.moves_findEncryptedMaterial ht
  | writeBack => exact hi.moves_writeBack hc ht hkeeps
  | insert => exact hi.moves_insert ht
  | updateEncryptedMaterial => exact hi.moves_updateEncryptedMaterial ht
  | updateStatus => exact hi.moves_updateStatus ht
  | insertVersion => exact hi.moves_insertVersion ht hkeeps
  | updateVersionRotatedAt => exact hi.moves_updateVersionRotatedAt ht hkeeps
  | markObsolete => exact hi.moves_markObsolete ht hkeeps
  | insertNew => exact hi.moves_insertNew ht hkeeps
  | softDelete => exact hi.moves_softDelete ht
  | markPendingDeletion => exact hi.moves_markPendingDeletion ht
  | remove => exact hi.moves_remove ht
  | listAllTenants => exact hi.moves_listAllTenants ht
  | preload => exact hi.moves_preload ht
  | preloadInsert => exact hi.moves_preloadInsert ht hkeeps

theorem inv_step (hc : crypto.Lawful) (hi : Inv crypto h s) (i : TaskInput) (hkeeps : KeepsUp crypto h s i) :
    Inv crypto (h ++ [(i, (step crypto s i).1)]) (step crypto s i).2 := by
  cases i with
  | start n env c =>
    cases hslot : s.tasks n with
    | none => simpa only [step, hslot] using hi.started hslot
    | some t => simpa only [step, hslot] using hi.idled _
  | advance n =>
    cases hslot : s.tasks n with
    | none => simpa only [step, hslot] using hi.idled _
    | some t =>
      rw [step_advance hslot rfl]
      exact hi.of_moves hslot (hi.moves hc hslot hkeeps)

theorem Inv.settledAtEnd (hi : Inv crypto h s) : SettledAtEnd crypto h s := by
  intro hended
  have uncovered : ∀ id status, ¬ s.Covered id status := by
    rintro id status ⟨n, t, ht, -⟩
    rw [hended n] at ht
    cases ht
  refine ⟨fun id entry hentry => ?_, fun id entry hentry => (hi.resident id entry hentry).holds, fun id hdestroyed =>
    ?_⟩
  · have hres := hi.resident id entry hentry
    obtain ⟨row, -, hrow, -⟩ := hres.holds
    exact ⟨row, hrow, (hres.current row hrow).resolve_right (uncovered id _)⟩
  · cases hentry : s.store.keys.map[id]? with
    | none => rfl
    | some entry => exact absurd hdestroyed (hi.resident id entry hentry).alive

theorem settledAtEnd_of_along (hc : crypto.Lawful) (db : Db) (capacity : Option ℕ) (kek : Bytes)
    (inputs : List TaskInput)
    (hkeeps : (step crypto).Along (KeepsUp crypto) [] (.start db capacity kek) inputs) :
    (step crypto).Throughout (SettledAtEnd crypto) [] (.start db capacity kek) inputs :=
  (hkeeps.throughout (fun _ _ i hi hkeep => inv_step hc hi i hkeep) (inv_start db capacity kek)).mono fun _ _ =>
    Inv.settledAtEnd

/-! ## Runs over one key -/

def sampleKek : Bytes := List.replicate 32 1

/-- The tables of a keystore that has made one key. -/
def sampleDb : Db :=
  (call .plain (.start none sampleKek) ⟨sampleEnv 1, .generateKey .aes256Gcm "key" "tenant-1"⟩).2.db

/-- A load and a deletion that read the key and fill the cache by turns. -/
def loadWhileDeleting : List TaskInput :=
  [.start 0 (sampleEnv 2) (.entryFor 1 "tenant-1"), .advance 0, .start 1 (sampleEnv 2) (.deleteKey 1 "tenant-1"),
    .advance 1, .advance 0, .advance 1, .advance 0, .advance 1, .advance 0, .advance 1, .advance 1, .advance 1]

theorem not_destroyed_of_forall {id : Uuid} {h : History TaskInput TaskReply}
    (hnone : ∀ e ∈ h, ¬ e.2 matches .returned (.ok (.destroyed _))) : ¬ Destroyed id h := by
  rintro ⟨e, he, hreply⟩
  have hdestroys := hnone e he
  rw [hreply] at hdestroys
  exact hdestroys rfl

theorem settledAtEnd_loadWhileDeleting :
    (step .plain).Throughout (SettledAtEnd .plain) [] (.start sampleDb none sampleKek) loadWhileDeleting := by
  refine settledAtEnd_of_along Crypto.plain_lawful sampleDb none sampleKek loadWhileDeleting ?_
  refine ⟨trivial, ?_, trivial, ?_, ?_, ?_, ?_, ?_, ?_, ?_, ?_, ?_, trivial⟩ <;> rintro t ⟨⟩ <;> try trivial
  -- both fill in the row that is still as it was read
  · refine fun _ => ⟨not_destroyed_of_forall (by decide +kernel), ?_⟩
    rintro row ⟨⟩
    exact .inl rfl
  · refine fun _ => ⟨not_destroyed_of_forall (by decide +kernel), ?_⟩
    rintro row ⟨⟩
    exact .inl rfl

/-- A step leaves the other tasks as they are. -/
theorem task_step_of_ne {i : TaskInput} (hi : i.task ≠ n) : (step crypto s i).2.tasks n = s.tasks n := by
  cases i with
  | start m env c =>
    simp only [step]
    split
    · rfl
    · exact Function.update_of_ne (Ne.symm hi) ..
  | advance m =>
    simp only [step]
    split
    · rfl
    · split
      · exact Function.update_of_ne (Ne.symm hi) ..
      · exact Function.update_of_ne (Ne.symm hi) ..

theorem task_final_of_ne {is : List TaskInput} {s : TaskRun} (hi : ∀ i ∈ is, i.task ≠ n) :
    ((step crypto).final s is).tasks n = s.tasks n := by
  induction is generalizing s with
  | nil => rfl
  | cons i is ih =>
    rw [Machine.final, ih fun j hj => hi j (List.mem_cons_of_mem _ hj), task_step_of_ne (hi i (List.mem_cons_self ..))]

/-- A load has read the row and its material when a rotation of the key starts, and fills the cache when the rotation
has ended. -/
def slowLoad : List TaskInput :=
  [.start 0 (sampleEnv 2) (.entryFor 1 "tenant-1"), .advance 0, .advance 0, .advance 0,
    .start 1 (sampleEnv 2) (.rotateKey 1 "tenant-1")] ++ List.replicate 11 (.advance 1) ++ [.advance 0]

theorem not_settledAtEnd_slowLoad :
    ¬ ∀ crypto : Crypto, crypto.Lawful → ∀ (db : Db) (capacity : Option ℕ) (kek : Bytes) (inputs : List TaskInput),
      (step crypto).Throughout (SettledAtEnd crypto) [] (.start db capacity kek) inputs := by
  intro hsettled
  have hend := (hsettled .plain Crypto.plain_lawful sampleDb none sampleKek slowLoad).final
  have hended : ∀ n, ((step .plain).final (.start sampleDb none sampleKek) slowLoad).tasks n = none := by
    intro n
    by_cases hn : n = 0 ∨ n = 1
    · rcases hn with rfl | rfl <;> decide +kernel
    · have hnames : ∀ i ∈ slowLoad, i.task = 0 ∨ i.task = 1 := by decide
      have hothers : ∀ i ∈ slowLoad, i.task ≠ n := by
        rintro i hi rfl
        exact hn (hnames i hi)
      rw [task_final_of_ne hothers]
      rfl
  -- the key is resident as an active one, and obsolete in the database
  have hresident : (((step .plain).final (.start sampleDb none sampleKek) slowLoad).store.keys.map[(1 : Uuid)]?).map
      (·.keyMeta.status) = some .active := by decide +kernel
  have hrow : (((step .plain).final (.start sampleDb none sampleKek) slowLoad).store.db.keys[(1 : Uuid)]?).map
      currentStatus = some .obsolete := by decide +kernel
  obtain ⟨entry, hentry, hactive⟩ := Option.map_eq_some_iff.1 hresident
  obtain ⟨row, hrow', hstatus⟩ := (hend hended).status 1 entry hentry
  rw [hrow', Option.map_some, Option.some.injEq, ← hstatus, hactive] at hrow
  cases hrow

end TaskRun

end GmKms.Keystore.Postgres
