import GmKms.Keystore.CacheFreshness
/-!
# The cache when all tasks have ended

What a task has established on its way, and what holds of the resident entries while tasks run.
-/

namespace GmKms.Keystore.Postgres

open Lib Lib.Effect

/-! ## What a stage has established -/

section

variable (crypto : Crypto) (env : Env)

/-- A rotation under way: the old entry is its row's, and the new material is under the key encryption key. -/
structure RotationOk (s : Store) (r : Rotation) : Prop where
  old_id : r.old.keyMeta.id = r.keyId
  old : Holds crypto s r.keyId r.old.material
  opens : decryptMaterial crypto s.kek (env.uuid 0) r.encryptedNew = .ok r.newMaterial

/-- The row is soft-deleted, or obsolete. -/
def Outdated (s : Store) (id : Uuid) : Prop :=
  ∃ row, s.db.keys[id]? = some row ∧ (row.deletedAt.isSome ∨ row.status = KeyStatus.debug .obsolete)

namespace Stage

/-- The row that the task is to give its material. -/
def written : Stage → Option Uuid
  | updateEncryptedMaterial _ => some (env.uuid 0)
  | _ => none

def Ok (s : Store) : Stage → Prop
  | findEncryptedMaterial _ keyId _ keyMeta => keyMeta.id = keyId
  | writeBack _ keyId entry => entry.keyMeta.id = keyId ∧ Holds crypto s keyId entry.material
  | insert r => RotationOk crypto env s r
  | updateEncryptedMaterial r => RotationOk crypto env s r ∧
      ∃ row, s.db.keys[env.uuid 0]? = some row ∧ row.deletedAt = none ∧ row.encryptedMaterial = none
  | updateStatus r => RotationOk crypto env s r ∧ Holds crypto s (env.uuid 0) r.newMaterial
  | insertVersion r | updateVersionRotatedAt r | markObsolete r =>
      RotationOk crypto env s r ∧ Holds crypto s (env.uuid 0) r.newMaterial ∧ Outdated s r.keyId
  | insertNew r => Holds crypto s (env.uuid 0) r.newMaterial
  | softDelete keyId => ∃ material, Holds crypto s keyId material
  | markPendingDeletion keyId => ∃ row, s.db.keys[keyId]? = some row ∧ row.deletedAt.isSome
  | preloadInsert entry _ _ => Holds crypto s entry.keyMeta.id entry.material
  | _ => True

end Stage

variable {crypto env} {s s' : Store} {written : Option Uuid}

theorem Holds.grows {id : Uuid} {material : Bytes} (h : Holds crypto s id material) (hgrows : Grows written s.db s'.db)
    (hkek : s'.kek = s.kek) : Holds crypto s' id material := by
  obtain ⟨row, encrypted, hrow, hencrypted, hopens⟩ := h
  obtain ⟨row', hrow', hages, -⟩ := hgrows id row hrow
  refine ⟨row', encrypted, hrow', hages.material encrypted hencrypted, ?_⟩
  rw [hkek]
  exact hopens

theorem RotationOk.grows {r : Rotation} (h : RotationOk crypto env s r) (hgrows : Grows written s.db s'.db)
    (hkek : s'.kek = s.kek) : RotationOk crypto env s' r :=
  ⟨h.old_id, h.old.grows hgrows hkek, by rw [hkek]; exact h.opens⟩

/-- What holds of a row holds of it later, if it ages with it. -/
theorem exists_row_of_grows {id : Uuid} {P : KeyRow → Prop} (hP : ∀ row row', Ages row row' → P row → P row')
    (h : ∃ row, s.db.keys[id]? = some row ∧ P row) (hgrows : Grows written s.db s'.db) :
    ∃ row', s'.db.keys[id]? = some row' ∧ P row' := by
  obtain ⟨row, hrow, hp⟩ := h
  obtain ⟨row', hrow', hages, -⟩ := hgrows id row hrow
  exact ⟨row', hrow', hP row row' hages hp⟩

theorem Outdated.grows {id : Uuid} (h : Outdated s id) (hgrows : Grows written s.db s'.db) : Outdated s' id :=
  exists_row_of_grows (fun _ _ hages => Or.imp hages.deleted hages.obsolete) h hgrows

/-- What a task has established stays so, as long as no other writes the material of its row. -/
theorem Stage.Ok.grows {stage : Stage} (h : stage.Ok crypto env s) (hgrows : Grows written s.db s'.db)
    (hkek : s'.kek = s.kek) (hwritten : ∀ id, stage.written env = some id → written ≠ some id) :
    stage.Ok crypto env s' := by
  cases stage with
  | findEncryptedMaterial goal keyId tenantId keyMeta => exact h
  | writeBack goal keyId entry => exact ⟨h.1, h.2.grows hgrows hkek⟩
  | insert r => exact RotationOk.grows h hgrows hkek
  | updateEncryptedMaterial r =>
    obtain ⟨hr, row, hrow, hlive, hnone⟩ := h
    obtain ⟨row', hrow', -, hsame⟩ := hgrows _ row hrow
    obtain rfl := hsame hnone (hwritten _ rfl)
    exact ⟨hr.grows hgrows hkek, row', hrow', hlive, hnone⟩
  | updateStatus r => exact ⟨h.1.grows hgrows hkek, h.2.grows hgrows hkek⟩
  | insertVersion r | updateVersionRotatedAt r | markObsolete r =>
    exact ⟨h.1.grows hgrows hkek, h.2.1.grows hgrows hkek, h.2.2.grows hgrows⟩
  | insertNew r => exact Holds.grows h hgrows hkek
  | softDelete keyId =>
    obtain ⟨material, hholds⟩ := h
    exact ⟨material, hholds.grows hgrows hkek⟩
  | markPendingDeletion keyId => exact exists_row_of_grows (fun _ _ hages => hages.deleted) h hgrows
  | preloadInsert entry metas loaded => exact Holds.grows h hgrows hkek
  | getCloned | findById | remove | listAllTenants | preload => trivial

end

/-! ## The invariant -/

/-- What a task does next, if it goes on. -/
def Progress.stage? : Progress → Option Stage
  | next stage => some stage
  | done _ => none

def Progress.reply : Progress → TaskReply
  | next _ => .pending
  | done r => .returned r

namespace TaskRun

/-- The run after a step of a task. -/
def moved (s : TaskRun) (n : ℕ) (t : Task) (p : Progress) (store : Store) : TaskRun :=
  ⟨store, Function.update s.tasks n (p.stage?.map fun stage => { t with stage })⟩

/-- Some task is to give the cached entry the status. -/
def Covered (s : TaskRun) (id : Uuid) (status : KeyStatus) : Prop :=
  ∃ n t, s.tasks n = some t ∧ t.stage.Refreshes id status

structure Resident (crypto : Crypto) (h : History TaskInput TaskReply) (s : TaskRun) (id : Uuid) (entry : KeyEntry) :
    Prop where
  id_eq : entry.keyMeta.id = id
  holds : Holds crypto s.store id entry.material
  current : ∀ row, s.store.db.keys[id]? = some row →
    entry.keyMeta.status = currentStatus row ∨ s.Covered id (currentStatus row)
  alive : ¬ Destroyed id h

structure Inv (crypto : Crypto) (h : History TaskInput TaskReply) (s : TaskRun) : Prop where
  resident : ∀ (id : Uuid) (entry : KeyEntry), s.store.keys.map[id]? = some entry → Resident crypto h s id entry
  stage : ∀ n t, s.tasks n = some t → t.stage.Ok crypto t.env s.store
  distinct : ∀ n n' t t' id, s.tasks n = some t → s.tasks n' = some t' → t.stage.written t.env = some id →
    t'.stage.written t'.env = some id → n = n'

/-- What a step of a task establishes. -/
structure Moves (crypto : Crypto) (h : History TaskInput TaskReply) (s : TaskRun) (n : ℕ) (t : Task) (p : Progress)
    (store : Store) : Prop where
  kek : store.kek = s.store.kek
  grows : Grows (t.stage.written t.env) s.store.db store.db
  stage : ∀ stage, p.stage? = some stage → stage.Ok crypto t.env store
  fresh : ∀ stage id, p.stage? = some stage → stage.written t.env = some id → s.store.db.keys[id]? = none
  resident : ∀ (id : Uuid) (entry : KeyEntry), store.keys.map[id]? = some entry →
    Resident crypto (h ++ [(.advance n, p.reply)]) (s.moved n t p store) id entry

variable {crypto : Crypto} {h : History TaskInput TaskReply} {s : TaskRun} {n : ℕ} {t : Task} {p : Progress}
  {store : Store}

theorem step_advance (ht : s.tasks n = some t) (hadvance : Postgres.advance crypto t.env t.stage s.store = (p, store)) :
    step crypto s (.advance n) = (p.reply, s.moved n t p store) := by
  simp only [step, ht, hadvance]
  cases p <;> rfl

theorem tasks_moved (n' : ℕ) : (s.moved n t p store).tasks n' =
    if n' = n then p.stage?.map fun stage => { t with stage } else s.tasks n' :=
  Function.update_apply ..

theorem Inv.of_moves (hi : Inv crypto h s) (ht : s.tasks n = some t) (hmoves : Moves crypto h s n t p store) :
    Inv crypto (h ++ [(.advance n, p.reply)]) (s.moved n t p store) := by
  -- the rows that the others are to write are there and have no material, unlike that of the task
  have hother : ∀ n' t' id, n' ≠ n → s.tasks n' = some t' → t'.stage.written t'.env = some id →
      t.stage.written t.env ≠ some id := fun n' t' id hne ht' hwritten' hwritten =>
    hne (hi.distinct n' n t' t id ht' ht hwritten' hwritten)
  have hfresh : ∀ n' t' stage id, n' ≠ n → s.tasks n' = some t' → p.stage? = some stage →
      stage.written t.env = some id → t'.stage.written t'.env ≠ some id := by
    intro n' t' stage id hne ht' hp hwritten hwritten'
    have hnone := hmoves.fresh stage id hp hwritten
    have hok := hi.stage n' t' ht'
    cases hstage : t'.stage <;> rw [hstage] at hok hwritten' <;> try cases hwritten'
    obtain ⟨-, row, hrow, -⟩ := hok
    rw [hrow] at hnone
    cases hnone
  refine ⟨hmoves.resident, fun n' t' ht' => ?_, fun n₁ n₂ t₁ t₂ id ht₁ ht₂ hw₁ hw₂ => ?_⟩
  · rw [tasks_moved] at ht'
    split at ht'
    · obtain ⟨stage, hp, rfl⟩ := Option.map_eq_some_iff.1 ht'
      exact hmoves.stage stage hp
    · rename_i hne
      exact (hi.stage n' t' ht').grows hmoves.grows hmoves.kek fun id => hother n' t' id hne ht'
  · rw [tasks_moved] at ht₁ ht₂
    split at ht₁ <;> split at ht₂
    · simp_all
    · obtain ⟨stage, hp, rfl⟩ := Option.map_eq_some_iff.1 ht₁
      rename_i hne
      exact absurd hw₂ (hfresh n₂ t₂ stage id hne ht₂ hp hw₁)
    · obtain ⟨stage, hp, rfl⟩ := Option.map_eq_some_iff.1 ht₂
      rename_i hne _
      exact absurd hw₁ (hfresh n₁ t₁ stage id hne ht₁ hp hw₂)
    · exact hi.distinct n₁ n₂ t₁ t₂ id ht₁ ht₂ hw₁ hw₂

/-! ## Entries that stay and entries that come -/

theorem destroyed_append {id : Uuid} {i : TaskInput} {r : TaskReply} : Destroyed id (h ++ [(i, r)]) ↔
    Destroyed id h ∨ r = .returned (.ok (.destroyed id)) := by
  simp only [Destroyed, List.mem_append, List.mem_singleton, or_and_right, exists_or, exists_eq_left]

/-- A step that destroys no key. -/
theorem alive_append {id : Uuid} (halive : ¬ Destroyed id h) (hp : p ≠ .done (.ok (.destroyed id))) :
    ¬ Destroyed id (h ++ [(.advance n, p.reply)]) := by
  rw [destroyed_append]
  rintro (hbefore | hnow)
  · exact halive hbefore
  · cases p with
    | next => cases hnow
    | done r =>
      cases hnow
      exact hp rfl

theorem covered_of_next {stage : Stage} {id : Uuid} {status : KeyStatus} (hp : p.stage? = some stage)
    (hrefreshes : stage.Refreshes id status) : (s.moved n t p store).Covered id status :=
  ⟨n, { t with stage }, by rw [tasks_moved, if_pos rfl, hp]; rfl, hrefreshes⟩

theorem covered_of_refreshing {id : Uuid} {status : KeyStatus} (hrefreshing : s.Refreshing n id status) :
    (s.moved n t p store).Covered id status := by
  obtain ⟨n', t', hne, ht', hrefreshes⟩ := hrefreshing
  exact ⟨n', t', by rw [tasks_moved, if_neg hne]; exact ht', hrefreshes⟩

theorem Covered.cases {id : Uuid} {status : KeyStatus} (ht : s.tasks n = some t) (hcovered : s.Covered id status) :
    t.stage.Refreshes id status ∨ s.Refreshing n id status := by
  obtain ⟨n', t', ht', hrefreshes⟩ := hcovered
  by_cases hn : n' = n
  · subst hn
    obtain rfl := Option.some.inj (ht'.symm.trans ht)
    exact .inl hrefreshes
  · exact .inr ⟨n', t', hn, ht', hrefreshes⟩

/-- An entry stays current when its row's status only changes under a task that is to refresh it. -/
theorem Inv.keep (hi : Inv crypto h s) (ht : s.tasks n = some t) {written : Option Uuid}
    (hgrows : Grows written s.store.db store.db) (hkek : store.kek = s.store.kek) {id : Uuid} {entry : KeyEntry}
    (hentry : s.store.keys.map[id]? = some entry) (halive : p ≠ .done (.ok (.destroyed id)))
    (hstatus : ∀ row row', s.store.db.keys[id]? = some row → store.db.keys[id]? = some row' →
      currentStatus row' = currentStatus row ∨ (s.moved n t p store).Covered id (currentStatus row'))
    (hrefreshes : ∀ status, t.stage.Refreshes id status →
      (∃ stage, p.stage? = some stage ∧ stage.Refreshes id status) ∨ s.CurrentWithout n id entry) :
    Resident crypto (h ++ [(.advance n, p.reply)]) (s.moved n t p store) id entry := by
  have hres := hi.resident id entry hentry
  obtain ⟨row, -, hrow, -⟩ := hres.holds
  refine ⟨hres.id_eq, hres.holds.grows hgrows hkek, fun row' hrow' => ?_, alive_append hres.alive halive⟩
  rcases hstatus row row' hrow hrow' with hsame | hcovered
  · rw [hsame]
    rcases hres.current row hrow with hcurrent | hcovered
    · exact .inl hcurrent
    · rcases hcovered.cases ht with hown | hother
      · rcases hrefreshes _ hown with ⟨stage, hp, hnext⟩ | hwithout
        · exact .inr (covered_of_next hp hnext)
        · exact (hwithout row hrow).imp_right covered_of_refreshing
      · exact .inr (covered_of_refreshing hother)
  · exact .inr hcovered

/-- A step that leaves the rows as they are. -/
theorem Inv.keep_rows (hi : Inv crypto h s) (ht : s.tasks n = some t) (hrows : store.db.keys = s.store.db.keys)
    (hkek : store.kek = s.store.kek) {id : Uuid} {entry : KeyEntry} (hentry : s.store.keys.map[id]? = some entry)
    (halive : p ≠ .done (.ok (.destroyed id)))
    (hrefreshes : ∀ status, t.stage.Refreshes id status →
      (∃ stage, p.stage? = some stage ∧ stage.Refreshes id status) ∨ s.CurrentWithout n id entry) :
    Resident crypto (h ++ [(.advance n, p.reply)]) (s.moved n t p store) id entry := by
  have hgrows : Grows none s.store.db store.db := grows_of_keys none fun k row hrow => by rw [hrows]; exact hrow
  refine hi.keep ht hgrows hkek hentry halive (fun row row' hrow hrow' => ?_) hrefreshes
  rw [hrows, hrow] at hrow'
  cases hrow'
  exact .inl rfl

theorem Inv.moves_idle (hi : Inv crypto h s) (ht : s.tasks n = some t) (hkeys : store.keys = s.store.keys)
    (hrows : store.db.keys = s.store.db.keys) (hkek : store.kek = s.store.kek)
    (hstage : ∀ stage, p.stage? = some stage → stage.Ok crypto t.env store ∧ stage.written t.env = none)
    (hdone : ∀ id, p ≠ .done (.ok (.destroyed id)))
    (hrefreshes : ∀ (id : Uuid) (entry : KeyEntry) (status : KeyStatus), s.store.keys.map[id]? = some entry →
      t.stage.Refreshes id status →
      (∃ stage, p.stage? = some stage ∧ stage.Refreshes id status) ∨ s.CurrentWithout n id entry) :
    Moves crypto h s n t p store := by
  have hgrows : ∀ written, Grows written s.store.db store.db := fun written =>
    grows_of_keys written fun id row hrow => by rw [hrows]; exact hrow
  refine ⟨hkek, hgrows _, fun stage hp => (hstage stage hp).1, fun stage id hp hwritten => ?_, fun id entry hentry =>
    ?_⟩
  · rw [(hstage stage hp).2] at hwritten
    cases hwritten
  · rw [hkeys] at hentry
    exact hi.keep_rows ht hrows hkek hentry (hdone id) fun status => hrefreshes id entry status hentry

/-- A step that reads, or that fails. -/
theorem Inv.moves_read (hi : Inv crypto h s) (ht : s.tasks n = some t)
    (hstage : ∀ stage, p.stage? = some stage → stage.Ok crypto t.env s.store ∧ stage.written t.env = none)
    (hdone : ∀ id, p ≠ .done (.ok (.destroyed id))) (hrefreshes : ∀ id status, ¬ t.stage.Refreshes id status) :
    Moves crypto h s n t p s.store :=
  hi.moves_idle ht rfl rfl rfl hstage hdone fun _ _ _ _ hown => absurd hown (hrefreshes _ _)

/-- A step that leaves the database as it is moves on if every entry it leaves is right. -/
theorem moves_of_entries {keys : BoundedKeyCache}
    (hstage : ∀ stage, p.stage? = some stage → stage.Ok crypto t.env s.store ∧ stage.written t.env = none)
    (hentries : ∀ (id : Uuid) (entry : KeyEntry), keys.map[id]? = some entry →
      Resident crypto (h ++ [(.advance n, p.reply)]) (s.moved n t p { s.store with keys }) id entry) :
    Moves crypto h s n t p { s.store with keys } := by
  have hgrows : ∀ written, Grows written s.store.db s.store.db := fun written => grows_of_keys written fun _ _ hrow =>
    hrow
  refine ⟨rfl, hgrows _, fun stage hp => ?_, fun stage id hp hwritten => ?_, hentries⟩
  · refine (hstage stage hp).1.grows (hgrows none) rfl fun _ hwritten => ?_
    rw [(hstage stage hp).2] at hwritten
    cases hwritten
  · rw [(hstage stage hp).2] at hwritten
    cases hwritten

theorem Inv.moves_fill (hi : Inv crypto h s) (ht : s.tasks n = some t) {id : Uuid} {entry : KeyEntry}
    (hid : entry.keyMeta.id = id) (hholds : Holds crypto s.store id entry.material)
    (hfills : s.FillsCurrent h n id entry)
    (hstage : ∀ stage, p.stage? = some stage → stage.Ok crypto t.env s.store ∧ stage.written t.env = none)
    (hdone : ∀ id, p ≠ .done (.ok (.destroyed id))) (hrefreshes : ∀ id status, ¬ t.stage.Refreshes id status) :
    Moves crypto h s n t p { s.store with keys := s.store.keys.insertWithEviction id entry } := by
  refine moves_of_entries hstage fun k entry' hentry => ?_
  have hinserted := BoundedKeyCache.of_getElem?_insertWithEviction hentry
  split at hinserted
  · rename_i hk
    subst hk
    cases hinserted
    obtain ⟨halive, hcurrent⟩ := hfills hentry
    exact ⟨hid, hholds, fun row hrow => (hcurrent row hrow).imp_right covered_of_refreshing,
      alive_append halive (hdone id)⟩
  · refine hi.keep_rows ht ?_ ?_ hinserted (hdone k) fun status hown => absurd hown (hrefreshes k status)
    · rfl
    · rfl

/-- The cached entry gets the status of its row, or another task is to give it that. -/
theorem Inv.moves_withStatus (hi : Inv crypto h s) (ht : s.tasks n = some t) {id : Uuid} {status : KeyStatus}
    (hstatus : ∀ (entry : KeyEntry) (row : KeyRow), s.store.keys.map[id]? = some entry →
      s.store.db.keys[id]? = some row → status = currentStatus row ∨ s.Refreshing n id (currentStatus row))
    (hstage : ∀ stage, p.stage? = some stage → stage.Ok crypto t.env s.store ∧ stage.written t.env = none)
    (hdone : ∀ id, p ≠ .done (.ok (.destroyed id))) (hrefreshes : ∀ k status', t.stage.Refreshes k status' → k = id) :
    Moves crypto h s n t p { s.store with keys := s.store.keys.mutate id (·.withStatus status) } := by
  refine moves_of_entries hstage fun k entry' hentry => ?_
  rw [BoundedKeyCache.getElem?_mutate] at hentry
  split at hentry
  · rename_i hk
    subst hk
    obtain ⟨entry, hcached, rfl⟩ := Option.map_eq_some_iff.1 hentry
    have hres := hi.resident id entry hcached
    exact ⟨hres.id_eq, hres.holds, fun row hrow => (hstatus entry row hcached hrow).imp_right covered_of_refreshing,
      alive_append hres.alive (hdone id)⟩
  · rename_i hk
    refine hi.keep_rows ht ?_ ?_ hentry (hdone k) fun status' hown => absurd (hrefreshes k status' hown) (Ne.symm hk)
    · rfl
    · rfl

end TaskRun

end GmKms.Keystore.Postgres
