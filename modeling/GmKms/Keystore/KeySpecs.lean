import GmKms.Keystore.Backend
import GmKms.Keystore.Destruction
import GmKms.Keystore.PostgresValid
import GmKms.Keystore.SoftwareSteps
/-!
# Keystores hold no SM9 keys

An SM9 key can neither be generated nor imported, and the repository reads no row as one. So no key of either
keystore is one, in any run.
-/

namespace GmKms

open Lib Lib.Effect

def KeySpec.isSm9 : KeySpec → Bool
  | sm9Signing | sm9Encryption => true
  | _ => false

namespace Keystore

theorem isSm9_of_checkImport {spec : KeySpec} {material : Bytes} (h : checkImport spec material = .ok ()) :
    spec.isSm9 = false := by
  cases spec
  case sm9Signing => cases h
  case sm9Encryption => cases h
  all_goals rfl

theorem isSm9_toMeta (row : KeyRow) (id : Uuid) : (row.toMeta id).spec.isSm9 = false := by
  change ((specOfText row.spec).getD .aes256Gcm).isSm9 = false
  unfold specOfText
  split <;> rfl

theorem isSm9_findById {db : Db} {id : Uuid} {keyMeta : KeyMeta} (h : db.findById id = some keyMeta) :
    keyMeta.spec.isSm9 = false := by
  obtain ⟨row, -, rfl⟩ := Option.map_eq_some_iff.1 h
  exact isSm9_toMeta row id

/-! ## The software keystore -/

namespace Software

def SoftwareKeystore.NoSm9 (ks : SoftwareKeystore) : Prop :=
  ∀ (id : Uuid) (entry : KeyEntry), ks.keys[id]? = some entry → entry.keyMeta.spec.isSm9 = false

theorem isSm9_of_generatedMaterial {spec : KeySpec} {env : Env} {material : Bytes}
    (h : SoftwareKeystore.generatedMaterial spec env = .ok material) : spec.isSm9 = false := by
  cases spec
  case sm9Signing => cases h
  case sm9Encryption => cases h
  all_goals rfl

theorem EntryStep.isSm9 {env : UseEnv} {id : Uuid} {op : BackendOp} {before after : Option KeyEntry}
    (h : EntryStep env id op before after) (hbefore : ∀ entry, before = some entry → entry.keyMeta.spec.isSm9 = false) :
    ∀ entry, after = some entry → entry.keyMeta.spec.isSm9 = false := by
  intro entry hentry
  cases h with
  | kept => exact hbefore entry hentry
  | generated _ _ made =>
    cases hentry
    exact isSm9_of_generatedMaterial made
  | imported _ _ accepted =>
    cases hentry
    exact isSm9_of_checkImport accepted
  | @rotated old =>
    cases hentry
    exact hbefore old rfl
  | @emptied old =>
    cases hentry
    exact hbefore old rfl
  | @deleted old =>
    cases hentry
    exact hbefore old rfl
  | destroyed => cases hentry

theorem SoftwareKeystore.noSm9_perform (crypto : Crypto) (env : UseEnv) (op : BackendOp) {ks : SoftwareKeystore}
    (h : ks.NoSm9) : (perform crypto env op ks).2.NoSm9 := fun id =>
  (perform_entry crypto env op ks id).isSm9 (h id)

/-- A rotation returns the metadata of a key that it keeps. -/
theorem SoftwareKeystore.isSm9_of_rotateKey {ks : SoftwareKeystore} (h : ks.NoSm9) {env : UseEnv} {keyId : Uuid}
    {tenantId : String} {keyMeta : KeyMeta} (hok : (ks.rotateKey env.toEnv keyId tenantId).1 = .ok keyMeta) :
    keyMeta.spec.isSm9 = false := by
  by_cases hkey : ∃ entry, ks.keys[keyId]? = some entry ∧ entry.keyMeta.tenantId = tenantId ∧
      entry.keyMeta.status.canRotate = true
  · obtain ⟨entry, hentry, howned, hstatus⟩ := hkey
    rw [rotateKey_of_owned hentry howned hstatus] at hok
    cases hmade : rotationMaterial entry.keyMeta.spec env.toEnv with
    | error e =>
      rw [hmade] at hok
      cases hok
    | ok material =>
      rw [hmade] at hok
      cases hok
      exact h keyId entry hentry
  · obtain ⟨-, e, he⟩ : (ks.rotateKey env.toEnv keyId tenantId).2 = ks ∧
        ∃ e, (ks.rotateKey env.toEnv keyId tenantId).1 = .error e := by
      refine rotateKey_refused fun entry hentry howned => ?_
      by_contra hstatus
      exact hkey ⟨entry, hentry, howned, by simpa using hstatus⟩
    rw [he] at hok
    cases hok

theorem SoftwareKeystore.noSm9_run (crypto : Crypto) (calls : List UseCall) :
    ((use crypto).final new calls).NoSm9 := by
  have hnew : (new : SoftwareKeystore).NoSm9 := by
    intro id entry h
    simp [new] at h
  exact Machine.run_inv (M := use crypto) (I := fun _ ks => ks.NoSm9)
    (fun _ _ c h => noSm9_perform crypto c.env c.op h) (h := []) hnew calls

end Software

/-! ## The PostgreSQL keystore -/

namespace Postgres

/-- The rows need no condition: none is read as an SM9 key. -/
def NoSm9 (s : Store) : Prop :=
  ∀ (id : Uuid) (entry : KeyEntry), s.keys.map[id]? = some entry → entry.keyMeta.spec.isSm9 = false

section

variable {crypto : Crypto} {env : Env}

theorem noSm9_repo {α : Type} {c : RepoCall} {f : Db → Except String (α × Db)} :
    Ensures NoSm9 (repo env c f) fun a => ∃ db db', f db = .ok (a, db') :=
  ensures_repo_of fun s _ db' hs hf => ⟨hs, s.db, db', hf⟩

theorem noSm9_write {α : Type} {c : RepoCall} {f : Db → Except String (α × Db)} :
    Ensures NoSm9 (mapInternal (repo env c f)) fun _ => True :=
  ensures_mapInternal (noSm9_repo.mono fun _ _ => trivial)

theorem noSm9_findById {id : Uuid} :
    Ensures NoSm9 (Repo.findById env id) fun found => ∀ keyMeta, found = some keyMeta → keyMeta.spec.isSm9 = false := by
  refine noSm9_repo.mono ?_
  rintro _ ⟨db, db', h⟩ keyMeta rfl
  obtain ⟨hfound, -⟩ := Prod.mk.inj (Except.ok.inj h)
  exact isSm9_findById hfound

theorem noSm9_insertWithEviction {key : Uuid} {entry : KeyEntry} (h : entry.keyMeta.spec.isSm9 = false) :
    Ensures NoSm9 (modifyKeys (·.insertWithEviction key entry)) fun _ => True := by
  refine .modify (fun s hs id entry' hlook => ?_) trivial
  have hcached := BoundedKeyCache.of_getElem?_insertWithEviction hlook
  split at hcached
  · cases hcached
    exact h
  · exact hs id entry' hcached

theorem noSm9_mutate {key : Uuid} {status : KeyStatus} :
    Ensures NoSm9 (modifyKeys (·.mutate key (·.withStatus status))) fun _ => True := by
  refine .modify (fun s hs id entry hlook => ?_) trivial
  dsimp only at hlook
  rw [BoundedKeyCache.getElem?_mutate] at hlook
  split at hlook
  · obtain ⟨cached, hcached, rfl⟩ := Option.map_eq_some_iff.1 hlook
    exact hs key cached hcached
  · exact hs id entry hlook

theorem noSm9_lift {α : Type} (r : Except Abort α) : Ensures NoSm9 (lift r) fun a => r = .ok a :=
  ensures_lift fun _ h => h

theorem noSm9_loadEntryFromDb {keyId : Uuid} :
    Ensures NoSm9 (loadEntryFromDb crypto env keyId) fun entry => entry.keyMeta.spec.isSm9 = false := by
  refine .bind noSm9_findById fun found hfound => ?_
  cases found with
  | none => exact .throw _
  | some keyMeta =>
    refine .bind noSm9_repo fun material _ => ?_
    cases material with
    | none => exact .throw _
    | some encrypted =>
      refine .bind ensures_kekOf fun _ _ => ?_
      split
      · exact .throw _
      · exact .throw _
      · exact .pure (hfound keyMeta rfl)

theorem noSm9_entryFor {keyId : Uuid} {tenantId : String} :
    Ensures NoSm9 (entryFor crypto env keyId tenantId) fun entry => entry.keyMeta.spec.isSm9 = false := by
  refine .bind (.get fun s hs => hs) fun s (hs : NoSm9 s) => ?_
  split
  · rename_i entry hcached
    exact .ite (fun _ => .throw _) fun _ => .pure (hs keyId entry hcached)
  · refine .bind noSm9_loadEntryFromDb fun entry hentry => ?_
    refine .ite (fun _ => .throw _) fun _ => ?_
    exact .bind (noSm9_insertWithEviction hentry) fun _ _ => .pure hentry

theorem noSm9_of_entryFor {α : Type} {keyId : Uuid} {tenantId : String} {f : KeyEntry → M α} {R : α → Prop}
    (hf : ∀ entry, entry.keyMeta.spec.isSm9 = false → Ensures NoSm9 (f entry) R) :
    Ensures NoSm9 (entryFor crypto env keyId tenantId >>= f) R :=
  .bind noSm9_entryFor hf

theorem noSm9_persistKey {keyMeta : KeyMeta} {encrypted : Bytes} :
    Ensures NoSm9 (persistKey env keyMeta encrypted) fun _ => True :=
  .bind noSm9_write fun _ _ => noSm9_write

theorem noSm9_storeNew {keyMeta : KeyMeta} {material encrypted : Bytes} (h : keyMeta.spec.isSm9 = false) :
    Ensures NoSm9 (storeNew env keyMeta material encrypted) fun _ => True :=
  .bind (noSm9_insertWithEviction h) fun _ _ => .bind noSm9_persistKey fun _ _ => .pure trivial

theorem isSm9_of_generateKeyMaterial {spec : KeySpec} {material : Bytes}
    (h : generateKeyMaterial env spec = .ok material) : spec.isSm9 = false := by
  cases spec
  case sm9Signing => cases h
  case sm9Encryption => cases h
  all_goals rfl

theorem noSm9_rotateKey {keyId : Uuid} {tenantId : String} :
    Ensures NoSm9 (rotateKey crypto env keyId tenantId) fun keyMeta => keyMeta.spec.isSm9 = false := by
  refine noSm9_of_entryFor fun entry hentry => ?_
  refine .ite (fun _ => .throw _) fun _ => ?_
  refine .bind (noSm9_lift _) fun newMaterial _ => ?_
  refine .bind ensures_kekOf fun _ _ => ?_
  refine .bind (noSm9_lift _) fun encryptedNew _ => ?_
  refine .bind (R := fun _ => True) ?_ fun _ _ => ?_
  · refine .bind noSm9_persistKey fun _ _ => ?_
    refine .bind noSm9_write fun _ _ => ?_
    refine .bind ensures_kekOf fun _ _ => ?_
    refine .bind (noSm9_lift _) fun encryptedDek _ => ?_
    exact .bind noSm9_write fun _ _ => noSm9_write
  · exact .bind noSm9_mutate fun _ _ => .bind (noSm9_insertWithEviction hentry) fun _ _ => .pure hentry

theorem noSm9_removeKey {keyId : Uuid} : Ensures NoSm9 (removeKey keyId) fun _ => True := by
  intro s hs
  refine ⟨?_, fun _ _ => trivial⟩
  unfold removeKey
  rw [outcome_bind_ok (outcome_get s)]
  have hkeys := BoundedKeyCache.getElem?_remove s.keys keyId
  rcases hremove : s.keys.remove keyId with ⟨_ | entry, keys⟩
  · exact hs
  · intro id cached hcached
    rw [hremove] at hkeys
    change keys.map[id]? = some cached at hcached
    rw [hkeys] at hcached
    split at hcached
    · cases hcached
    · exact hs id cached hcached

theorem noSm9_materialForVersion {keyId : Uuid} {version : UInt32} :
    Ensures NoSm9 (materialForVersion crypto env keyId version) fun _ => True := by
  refine .bind noSm9_write fun found _ => ?_
  cases found with
  | none => exact .throw _
  | some row =>
    dsimp only
    split
    · exact .throw _
    · exact .bind ensures_kekOf fun _ _ => (noSm9_lift _).mono fun _ _ => trivial

theorem noSm9_loadOneIntoCache {keyMeta : KeyMeta} (h : keyMeta.spec.isSm9 = false) :
    Ensures NoSm9 (loadOneIntoCache crypto env keyMeta) fun _ => True := by
  refine .bind noSm9_repo fun material _ => ?_
  cases material with
  | none => exact .pure trivial
  | some encrypted =>
    refine .bind ensures_kekOf fun _ _ => ?_
    split
    · exact .throw _
    · exact .throw _
    · exact .bind (noSm9_insertWithEviction h) fun _ _ => .pure trivial

theorem noSm9_preload {metas : List KeyMeta} (hmetas : ∀ m ∈ metas, m.spec.isSm9 = false) :
    Ensures NoSm9 (preload crypto env metas) fun _ => True :=
  ensures_preload_of fun m hm => noSm9_loadOneIntoCache (hmetas m hm)

theorem noSm9_spawnLoadKeys : Ensures NoSm9 (spawnLoadKeys crypto env) fun _ => True := by
  refine .bind noSm9_repo fun metas hmetas => .bind (noSm9_preload ?_) fun _ _ => ?_
  · obtain ⟨db, db', h⟩ := hmetas
    intro m hm
    cases hlist : db.listAllTenants env.rank none none with
    | error e =>
      rw [hlist] at h
      cases h
    | ok listed =>
      rw [hlist] at h
      cases h
      obtain ⟨row, -, hrow⟩ := rowMeta_of_listAllTenants hlist m hm
      rw [← hrow]
      exact isSm9_toMeta row m.id
  · exact .bind (.modify (R := fun _ => True) (fun s hs => hs) trivial) fun _ _ => .pure trivial

theorem noSm9_getKeyMetadata {keyId : Uuid} :
    Ensures NoSm9 (getKeyMetadata env keyId) fun keyMeta => keyMeta.spec.isSm9 = false := by
  refine .bind (.get fun s hs => hs) fun s (hs : NoSm9 s) => ?_
  split
  · rename_i entry hcached
    exact .pure (hs keyId entry hcached)
  · refine .bind noSm9_findById fun found hfound => ?_
    cases found with
    | none => exact .throw _
    | some keyMeta => exact .pure (hfound keyMeta rfl)

/-- Every operation. -/
theorem noSm9_op (op : Op) : Ensures NoSm9 (op.run crypto env) fun _ => True := by
  have hlift : ∀ {α : Type} (r : Except Abort α), Ensures NoSm9 (lift r) fun _ => True :=
    fun r => (noSm9_lift r).mono fun _ _ => trivial
  cases op with
  | generateKey spec name tenantId =>
    refine ensures_value (.bind (noSm9_lift _) fun material hmaterial => ?_)
    refine .bind ensures_kekOf fun _ _ => .bind (hlift _) fun _ _ => ?_
    exact noSm9_storeNew (isSm9_of_generateKeyMaterial hmaterial)
  | importKeyMaterial spec name tenantId material =>
    refine ensures_value (.bind (noSm9_lift _) fun _ haccepted => ?_)
    refine .bind ensures_kekOf fun _ _ => .bind (hlift _) fun _ _ => ?_
    exact noSm9_storeNew (isSm9_of_checkImport haccepted)
  | rotateKey keyId tenantId => exact .bind noSm9_rotateKey fun _ _ => .pure trivial
  | deleteKey keyId tenantId =>
    exact .bind (noSm9_of_entryFor fun _ _ => .bind noSm9_write fun _ _ => noSm9_mutate) fun _ _ => .pure trivial
  | destroyKey keyId =>
    exact .bind (R := fun _ => True) (.bind noSm9_removeKey fun _ _ => .pure trivial) fun _ _ => .pure trivial
  | destroyKeyWithProof keyId => exact ensures_value (.bind noSm9_removeKey fun _ _ => .pure trivial)
  | getKeyMetadata keyId => exact .bind noSm9_getKeyMetadata fun _ _ => .pure trivial
  | encrypt keyId plaintext tenantId =>
    exact ensures_value (noSm9_of_entryFor fun _ _ => .ite (fun _ => .throw _) fun _ => hlift _)
  | decrypt keyId ciphertext tenantId =>
    refine ensures_value (noSm9_of_entryFor fun _ _ => .ite (fun _ => .throw _) fun _ => ?_)
    exact .bind (.ite (fun _ => .pure trivial) fun _ => noSm9_materialForVersion) fun _ _ => hlift _
  | sign keyId data tenantId =>
    exact ensures_value (noSm9_of_entryFor fun _ _ => .ite (fun _ => .throw _) fun _ => hlift _)
  | verify keyId data sig tenantId => exact ensures_value (noSm9_of_entryFor fun _ _ => hlift _)
  | exportKeyMaterial keyId tenantId =>
    exact ensures_value (noSm9_of_entryFor fun _ _ => .ite (fun _ => .throw _) fun _ => .pure trivial)
  | getKeyMaterial keyId tenantId => exact ensures_value (noSm9_of_entryFor fun _ _ => .pure trivial)
  | getKeyMaterialVersion keyId version tenantId =>
    refine ensures_value (noSm9_of_entryFor fun _ _ => ?_)
    exact .ite (fun _ => .pure trivial) fun _ => noSm9_materialForVersion
  | deriveSharedSecret keyId peerPublicKey algorithm tenantId =>
    exact ensures_value (noSm9_of_entryFor fun _ _ => .bind (hlift _) fun _ _ => .pure trivial)
  | listKeys filter =>
    refine ensures_value ?_
    unfold listKeys
    split
    · exact .throw _
    · exact noSm9_write
  | health =>
    refine ensures_value fun s hs => ⟨?_, fun _ _ => trivial⟩
    rwa [show (outcome (health env) s).2 = s from readOnly_health s]
  | loadKeys =>
    exact .bind (R := fun _ => True) (.bind noSm9_spawnLoadKeys fun _ _ => .pure trivial) fun _ _ => .pure trivial
  | spawnLoadKeys => exact ensures_value noSm9_spawnLoadKeys
  | restart kek =>
    refine .bind (.modify (R := fun _ => True) (fun s hs id entry hlook => ?_) trivial) fun _ _ => .pure trivial
    simp [BoundedKeyCache.new] at hlook

end

theorem noSm9_run (crypto : Crypto) (capacity : Option ℕ) (kek : Bytes) (calls : List Call) :
    NoSm9 ((call crypto).final (.start capacity kek) calls) := by
  have hstart : NoSm9 (.start capacity kek) := by
    intro id entry h
    simp [Store.start] at h
  exact Machine.run_inv (M := call crypto) (I := fun _ s => NoSm9 s) (fun _ s c h => (noSm9_op c.op s h).1) (h := [])
    hstart calls

end Postgres

end Keystore

end GmKms
