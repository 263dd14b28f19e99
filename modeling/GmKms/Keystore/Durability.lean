import GmKms.Keystore.PostgresUsable
import GmKms.Keystore.Rotation
/-!
# Keys last

What is encrypted under a key of the PostgreSQL keystore stays readable: through
evictions, restarts, preloads, rotations, destructions and statements that fail, until
the key's tenant deletes the key.
-/

namespace GmKms.Keystore.Postgres

open Lib Lib.Effect

/-- The entry is one of the key `m`, that decrypts with `material`. -/
structure Reads (m : KeyMeta) (material : Bytes) (e : KeyEntry) : Prop where
  tenantId : e.keyMeta.tenantId = m.tenantId
  spec : e.keyMeta.spec = m.spec
  version : e.keyMeta.version = m.version
  decrypts : e.keyMeta.status.canDecrypt = true
  material : e.material = material

/-- The row is one of the key `m`, and its material opens to `material`. -/
structure Records (crypto : Crypto) (kek : Bytes) (m : KeyMeta) (material : Bytes) (row : KeyRow) : Prop where
  reads : Reads m material { keyMeta := row.toMeta m.id, material }
  opens : ∃ encrypted, row.encryptedMaterial = some encrypted ∧ decryptMaterial crypto kek m.id encrypted = .ok material

/-- The key can be had from the database, and the cache has nothing else under its id. -/
structure Kept (crypto : Crypto) (kek : Bytes) (m : KeyMeta) (material : Bytes) (s : Store) : Prop where
  kek_eq : s.kek = kek
  row : ∃ row, s.db.live m.id = some row ∧ Records crypto kek m material row
  cached : ∀ e, s.keys.map[m.id]? = some e → Reads m material e

section

variable {crypto : Crypto} {env : Env} {kek : Bytes} {m : KeyMeta} {material : Bytes}

theorem Reads.obsolete {e : KeyEntry} (h : Reads m material e) : Reads m material (e.withStatus .obsolete) :=
  ⟨h.tenantId, h.spec, h.version, rfl, h.material⟩

theorem Records.obsolete {row : KeyRow} (h : Records crypto kek m material row) :
    Records crypto kek m material { row with status := KeyStatus.debug .obsolete } :=
  ⟨⟨h.reads.tenantId, h.reads.spec, h.reads.version, rfl, rfl⟩, h.opens⟩

theorem Kept.withDb {s : Store} (h : Kept crypto kek m material s) {db : Db}
    (hlive : ∀ row, s.db.live m.id = some row → Records crypto kek m material row →
      ∃ row', db.live m.id = some row' ∧ Records crypto kek m material row') :
      Kept crypto kek m material { s with db } := by
  obtain ⟨row, hrow, hof⟩ := h.row
  exact ⟨h.kek_eq, hlive row hrow hof, h.cached⟩

theorem Kept.withKeys {s : Store} (h : Kept crypto kek m material s) {keys : BoundedKeyCache}
    (hkeys : ∀ e, keys.map[m.id]? = some e → Reads m material e) : Kept crypto kek m material { s with keys } :=
  ⟨h.kek_eq, h.row, hkeys⟩

/-! ## Statements -/

/-- A statement that leaves the key's row as it is. -/
theorem kept_repo {α : Type} {c : RepoCall} {f : Db → Except String (α × Db)} {R : α → Prop}
    (h : ∀ db a db', f db = .ok (a, db') → (db.live m.id).isSome → db'.live m.id = db.live m.id ∧ R a) :
    Ensures (Kept crypto kek m material) (repo env c f) R := by
  refine ensures_repo_of fun s a db' hs hf => ?_
  obtain ⟨row, hrow, -⟩ := hs.row
  obtain ⟨hlive, hR⟩ := h s.db a db' hf (by rw [hrow]; rfl)
  exact ⟨hs.withDb fun row hrow hof => ⟨row, hlive.trans hrow, hof⟩, hR⟩

/-- A statement that only reads. -/
theorem kept_read {α : Type} {c : RepoCall} {f : Db → α} {R : α → Prop}
    (h : ∀ db row, db.live m.id = some row → Records crypto kek m material row → R (f db)) :
    Ensures (Kept crypto kek m material) (repo env c fun db => .ok (f db, db)) R := by
  refine ensures_repo_of fun s a db' hs hf => ?_
  obtain ⟨rfl, rfl⟩ := Prod.mk.inj (Except.ok.inj hf)
  obtain ⟨row, hrow, hof⟩ := hs.row
  exact ⟨hs, h s.db row hrow hof⟩

theorem kept_updateLive {c : RepoCall} {id : Uuid} {f : KeyRow → KeyRow} (h : id ≠ m.id) :
    Ensures (Kept crypto kek m material) (repo env c fun db => .ok ((), db.updateLive id f)) fun _ => True := by
  refine kept_repo fun db a db' hf _ => ⟨?_, trivial⟩
  obtain ⟨-, rfl⟩ := Prod.mk.inj (Except.ok.inj hf)
  rw [Db.live_updateLive, if_neg h]

theorem kept_updateStatus {id : Uuid} :
    Ensures (Kept crypto kek m material) (Repo.updateStatus env id .obsolete) fun _ => True := by
  refine ensures_repo_of fun s a db' hs hf => ⟨?_, trivial⟩
  obtain ⟨-, rfl⟩ := Prod.mk.inj (Except.ok.inj hf)
  refine hs.withDb fun row hrow hof => ?_
  rw [Db.updateStatus, Db.live_updateLive]
  by_cases hid : id = m.id
  · have hundeleted := (Db.live_eq_some_iff.1 hrow).2
    exact ⟨_, by rw [if_pos hid, hid, hrow]; simp [hundeleted], hof.obsolete⟩
  · exact ⟨row, by rw [if_neg hid, hrow], hof⟩

/-- A row is inserted only under an id that no row has. -/
theorem kept_insert {m' : KeyMeta} :
    Ensures (Kept crypto kek m material) (Repo.insert env m') fun _ => m'.id ≠ m.id := by
  refine kept_repo fun db a db' hf hlive => ?_
  cases hinsert : db.insert m' with
  | error e =>
    rw [hinsert] at hf
    cases hf
  | ok db₁ =>
    rw [hinsert] at hf
    obtain ⟨-, rfl⟩ := Prod.mk.inj (Except.ok.inj hf)
    have hne : m'.id ≠ m.id := by
      intro hid
      obtain ⟨row, hrow⟩ := Option.isSome_iff_exists.1 hlive
      have hmem : m'.id ∈ db.keys := by
        rw [hid]
        exact Std.ExtTreeMap.mem_iff_isSome_getElem?.2 (by rw [(Db.live_eq_some_iff.1 hrow).1]; rfl)
      unfold Db.insert at hinsert
      rw [if_pos hmem] at hinsert
      split at hinsert <;> cases hinsert
    exact ⟨by rw [Db.live_insert hinsert, if_neg hne], hne⟩

theorem kept_insertVersion {rowId id : Uuid} {now : DateTime} {version : UInt32} {dek : Option Bytes}
    {status : String} :
    Ensures (Kept crypto kek m material) (Repo.insertVersion env rowId now id version dek status) fun _ => True := by
  refine kept_repo fun db a db' hf _ => ⟨?_, trivial⟩
  cases hinsert : db.insertVersion rowId now id version dek status with
  | error e =>
    rw [hinsert] at hf
    cases hf
  | ok db₁ =>
    rw [hinsert] at hf
    obtain ⟨-, rfl⟩ := Prod.mk.inj (Except.ok.inj hf)
    rw [Db.live, keys_insertVersion hinsert, Db.live]

theorem kept_updateVersionRotatedAt {id : Uuid} {now : DateTime} {version : UInt32} :
    Ensures (Kept crypto kek m material) (Repo.updateVersionRotatedAt env now id version) fun _ => True :=
  kept_repo fun db a db' hf _ => by obtain ⟨-, rfl⟩ := Prod.mk.inj (Except.ok.inj hf); exact ⟨rfl, trivial⟩

theorem kept_findById {id : Uuid} : Ensures (Kept crypto kek m material) (Repo.findById env id) fun found =>
    id = m.id → ∀ keyMeta, found = some keyMeta → Reads m material { keyMeta, material } := by
  refine kept_read fun db row hrow hof hid keyMeta hfound => ?_
  rw [hid, Db.findById, hrow] at hfound
  obtain rfl := Option.some.inj hfound
  exact hof.reads

theorem kept_findEncryptedMaterial {id : Uuid} :
    Ensures (Kept crypto kek m material) (Repo.findEncryptedMaterial env id) fun found =>
      id = m.id → ∀ encrypted, found = some encrypted → decryptMaterial crypto kek m.id encrypted = .ok material := by
  refine kept_read fun db row hrow hof hid encrypted hfound => ?_
  obtain ⟨encrypted', hencrypted, hopens⟩ := hof.opens
  rw [hid, Db.findEncryptedMaterial, hrow, Option.bind_some, hencrypted] at hfound
  obtain rfl := Option.some.inj hfound
  exact hopens

theorem kept_kekOf : Ensures (Kept crypto kek m material) kekOf fun k => k = kek :=
  fun _ hs => ⟨hs, by rintro _ ⟨⟩; exact hs.kek_eq⟩

/-! ## The cache -/

theorem kept_insertWithEviction {id : Uuid} {e : KeyEntry} (h : id = m.id → Reads m material e) :
    Ensures (Kept crypto kek m material) (modifyKeys (·.insertWithEviction id e)) fun _ => True := by
  refine .modify (fun s hs => hs.withKeys fun e' he' => ?_) trivial
  have hfound := BoundedKeyCache.of_getElem?_insertWithEviction he'
  split at hfound
  · rename_i hid
    obtain rfl := Option.some.inj hfound
    exact h hid
  · exact hs.cached e' hfound

theorem kept_mutate {id : Uuid} :
    Ensures (Kept crypto kek m material) (modifyKeys (·.mutate id (·.withStatus .obsolete))) fun _ => True := by
  refine .modify (fun s hs => hs.withKeys fun e he => ?_) trivial
  rw [BoundedKeyCache.getElem?_mutate] at he
  split at he
  · rename_i hid
    obtain ⟨e', he', rfl⟩ := Option.map_eq_some_iff.1 he
    exact (hs.cached e' (hid ▸ he')).obsolete
  · exact hs.cached e he

theorem kept_removeKey {id : Uuid} : Ensures (Kept crypto kek m material) (removeKey id) fun _ => True := by
  intro s hs
  refine ⟨?_, fun _ _ => trivial⟩
  unfold removeKey
  rw [outcome_bind_ok (outcome_get s)]
  have hkeys := BoundedKeyCache.getElem?_remove s.keys id m.id
  rcases hremove : s.keys.remove id with ⟨_ | entry, keys⟩
  · exact hs
  · rw [hremove] at hkeys
    refine hs.withKeys fun e he => hs.cached e ?_
    rw [hkeys] at he
    split at he
    · cases he
    · exact he

/-! ## Methods -/

theorem kept_loadEntryFromDb {id : Uuid} : Ensures (Kept crypto kek m material) (loadEntryFromDb crypto env id) fun e =>
    id = m.id → Reads m material e := by
  refine .bind kept_findById fun found hfound => ?_
  cases found with
  | none => exact .throw _
  | some keyMeta =>
    refine .bind kept_findEncryptedMaterial fun encrypted hencrypted => ?_
    cases encrypted with
    | none => exact .throw _
    | some encrypted =>
      refine .bind kept_kekOf fun k hk => ?_
      subst hk
      split
      · exact .throw _
      · exact .throw _
      · rename_i opened hopened
        refine .pure fun hid => ?_
        have heq := hencrypted hid encrypted rfl
        rw [← hid, hopened] at heq
        obtain rfl := Except.ok.inj heq
        exact hfound hid keyMeta rfl

theorem kept_entryFor {id : Uuid} {tenantId : String} :
    Ensures (Kept crypto kek m material) (entryFor crypto env id tenantId) fun e =>
      id = m.id → Reads m material e ∧ tenantId = m.tenantId := by
  refine .bind (R := fun s => ∀ e, s.keys.map[m.id]? = some e → Reads m material e) (.get fun s hs => hs.cached)
    fun s hcached => ?_
  split
  · rename_i e hfound
    refine .ite (fun _ => .throw _) fun htenant => .pure fun hid => ?_
    have hreads := hcached e (hid ▸ hfound)
    exact ⟨hreads, (not_not.1 htenant).symm.trans hreads.tenantId⟩
  · refine .bind kept_loadEntryFromDb fun e he => ?_
    refine .ite (fun _ => .throw _) fun htenant => ?_
    exact .bind (kept_insertWithEviction he) fun _ _ => .pure fun hid =>
      ⟨he hid, (not_not.1 htenant).symm.trans (he hid).tenantId⟩

theorem kept_lift {α : Type} (r : Except Abort α) : Ensures (Kept crypto kek m material) (lift r) fun _ => True :=
  ensures_lift fun _ _ => trivial

theorem kept_persistKey {keyMeta : KeyMeta} {encrypted : Bytes} :
    Ensures (Kept crypto kek m material) (persistKey env keyMeta encrypted) fun _ => keyMeta.id ≠ m.id :=
  .bind (ensures_mapInternal kept_insert) fun _ hne =>
    ensures_mapInternal ((kept_updateLive hne).mono fun _ _ => hne)

theorem kept_storeNew {keyMeta : KeyMeta} {opened encrypted : Bytes} (h : keyMeta.id ≠ m.id) :
    Ensures (Kept crypto kek m material) (storeNew env keyMeta opened encrypted) fun _ => True :=
  .bind (kept_insertWithEviction fun hid => absurd hid h) fun _ _ => .bind kept_persistKey fun _ _ => .pure trivial

theorem kept_persistRotation {oldMeta newMeta : KeyMeta} {oldMaterial encryptedNew : Bytes} :
    Ensures (Kept crypto kek m material) (persistRotation crypto env oldMeta oldMaterial newMeta encryptedNew) fun _ =>
      newMeta.id ≠ m.id := by
  refine .bind kept_persistKey fun _ hne => ?_
  refine .bind (ensures_mapInternal kept_updateStatus) fun _ _ => ?_
  refine .bind kept_kekOf fun _ _ => .bind (kept_lift _) fun _ _ => ?_
  refine .bind (ensures_mapInternal kept_insertVersion) fun _ _ => ?_
  exact ensures_mapInternal (kept_updateVersionRotatedAt.mono fun _ _ => hne)

theorem kept_rotateKey {id : Uuid} {tenantId : String} :
    Ensures (Kept crypto kek m material) (rotateKey crypto env id tenantId) fun _ => True := by
  refine .bind kept_entryFor fun entry _ => .ite (fun _ => .throw _) fun _ => ?_
  refine .bind (kept_lift _) fun newMaterial _ => .bind kept_kekOf fun _ _ => .bind (kept_lift _) fun encryptedNew _ =>
    ?_
  refine .bind kept_persistRotation fun _ hne => .bind kept_mutate fun _ _ => ?_
  exact .bind (kept_insertWithEviction fun hid => absurd hid hne) fun _ _ => .pure trivial

theorem kept_deleteKey {id : Uuid} {tenantId : String} (h : id = m.id → tenantId ≠ m.tenantId) :
    Ensures (Kept crypto kek m material) (deleteKey crypto env id tenantId) fun _ => True := by
  refine .bind kept_entryFor fun entry hentry => ?_
  have hne : id ≠ m.id := fun hid => h hid (hentry hid).2
  refine .bind (ensures_mapInternal (kept_updateLive hne)) fun _ _ => ?_
  refine .modify (fun s hs => hs.withKeys fun e he => hs.cached e ?_) trivial
  rwa [BoundedKeyCache.getElem?_mutate, if_neg hne] at he

theorem kept_materialForVersion {id : Uuid} {version : UInt32} :
    Ensures (Kept crypto kek m material) (materialForVersion crypto env id version) fun _ => True := by
  refine .bind (ensures_mapInternal (kept_read (R := fun _ => True) fun _ _ _ _ => trivial)) fun found _ => ?_
  cases found with
  | none => exact .throw _
  | some row =>
    dsimp only
    split
    · exact .throw _
    · exact .bind kept_kekOf fun _ _ => kept_lift _

theorem kept_loadOneIntoCache {keyMeta : KeyMeta} (h : keyMeta.id = m.id → Reads m material { keyMeta, material }) :
    Ensures (Kept crypto kek m material) (loadOneIntoCache crypto env keyMeta) fun _ => True := by
  refine .bind kept_findEncryptedMaterial fun encrypted hencrypted => ?_
  cases encrypted with
  | none => exact .pure trivial
  | some encrypted =>
    refine .bind kept_kekOf fun k hk => ?_
    subst hk
    split
    · exact .throw _
    · exact .throw _
    · rename_i opened hopened
      refine .bind (kept_insertWithEviction fun hid => ?_) fun _ _ => .pure trivial
      have heq := hencrypted hid encrypted rfl
      rw [← hid, hopened] at heq
      obtain rfl := Except.ok.inj heq
      exact h hid

theorem kept_listAllTenants {limit offset : Option ℤ} :
    Ensures (Kept crypto kek m material) (Repo.listAllTenants env limit offset) fun metas =>
      ∀ keyMeta ∈ metas, keyMeta.id = m.id → Reads m material { keyMeta, material } := by
  refine ensures_repo_of fun s metas db' hs hf => ?_
  cases hlist : s.db.listAllTenants env.rank limit offset with
  | error e =>
    rw [hlist] at hf
    cases hf
  | ok metas' =>
    rw [hlist] at hf
    obtain ⟨rfl, rfl⟩ := Prod.mk.inj (Except.ok.inj hf)
    refine ⟨hs, fun keyMeta hmem hid => ?_⟩
    obtain ⟨row, hrow, hmeta⟩ := rowMeta_of_listAllTenants hlist keyMeta hmem
    obtain ⟨row', hrow', hof⟩ := hs.row
    rw [hid] at hrow hmeta
    obtain rfl := Option.some.inj (hrow.symm.trans hrow')
    exact hmeta ▸ hof.reads

theorem kept_spawnLoadKeys : Ensures (Kept crypto kek m material) (spawnLoadKeys crypto env) fun _ => True := by
  refine .bind kept_listAllTenants fun metas hmetas => ?_
  refine .bind (ensures_preload_of fun keyMeta hmem => kept_loadOneIntoCache (hmetas keyMeta hmem)) fun _ _ => ?_
  exact .bind (.modify (R := fun _ => True) (fun s hs => ⟨hs.kek_eq, hs.row, hs.cached⟩) trivial) fun _ _ =>
    .pure trivial

end

/-! ## Answers -/

/-- What an operation on the key answers can be had from the key's material alone. -/
def Faithful (crypto : Crypto) (m : KeyMeta) (material : Bytes) : Op → Value → Prop
  | .encrypt id plaintext _, .ciphertext c =>
    id = m.id → c.version = m.version ∧ cryptoDecrypt crypto material m.spec c m.tenantId = .ok plaintext
  | .exportKeyMaterial id _, .bytes b | .getKeyMaterial id _, .bytes b => id = m.id → b = material
  | _, _ => True

/-- The call draws another id than the key's, loads the same key encryption key, and does not delete the key. -/
structure Spares (kek : Bytes) (m : KeyMeta) (c : Call) : Prop where
  fresh : c.newId? ≠ some m.id
  restart : ∀ k, c.op = .restart k → k = kek
  keeps : c.op ≠ .deleteKey m.id m.tenantId

section

variable {crypto : Crypto} {env : Env} {kek : Bytes} {m : KeyMeta} {material : Bytes}

theorem decrypt_cryptoEncrypt (hcrypto : crypto.Decrypts) {spec : KeySpec} {keyId : Uuid} {tenantId : String}
    {version : UInt32} {plaintext : Bytes} {c : Ciphertext}
    (h : cryptoEncrypt crypto env material spec keyId tenantId version plaintext = .ok c) :
    c.version = version ∧ cryptoDecrypt crypto material spec c tenantId = .ok plaintext := by
  unfold cryptoEncrypt at h
  unfold cryptoDecrypt
  cases spec with
  | aes256Gcm | hmacSha256 =>
    cases hkey : crypto.aesUnboundKey material with
    | error e => simp [hkey] at h
    | ok _ =>
      cases hnonce : fill env 0 12 with
      | none => simp [hkey, hnonce] at h
      | some nonce =>
        have hlength : nonce.length = 12 := length_of_fill hnonce
        rcases hseal : crypto.aesSeal material nonce (userDataAad crypto keyId tenantId version) plaintext with
          e | ⟨x, tag⟩
        · simp [hkey, hnonce, hseal] at h
        · simp only [hkey, hnonce, hseal, Except.ok.injEq] at h
          subst h
          exact ⟨rfl, by simp [ciphertextAad, hlength, hcrypto.aes hseal]⟩
  | sm4 =>
    cases hkey : crypto.sm4Cipher material with
    | error e => simp [hkey] at h
    | ok _ =>
      cases hnonce : fill env 0 12 with
      | none => simp [hkey, hnonce] at h
      | some nonce =>
        rcases hseal : crypto.sm4Encrypt material nonce (userDataAad crypto keyId tenantId version) plaintext with
          e | ⟨x, tag⟩
        · simp [hkey, hnonce, hseal] at h
        · simp only [hkey, hnonce, hseal, Except.ok.injEq] at h
          subst h
          exact ⟨rfl, by simp [ciphertextAad, hcrypto.sm4 hseal]⟩
  | sm2 =>
    cases hkey : crypto.sm2KeyPair material with
    | error e => simp [hkey] at h
    | ok _ =>
      cases hencrypt : crypto.sm2Encrypt env.seed material plaintext with
      | error e => simp [hkey, hencrypt] at h
      | ok data =>
        by_cases hshort : data.length < 97
        · simp [hkey, hencrypt, hshort] at h
        · simp only [hkey, hencrypt, if_neg hshort, Except.ok.injEq] at h
          subst h
          obtain ⟨hnonce, htag, hparts⟩ := sm2_parts (not_lt.1 hshort)
          exact ⟨rfl, by simp [hnonce, htag, hparts, hcrypto.sm2 hencrypt]⟩
  | ed25519 | ed448 | ecdsaP256 | ecdsaP384 | rsa4096 | sm3Hmac | sm9Signing | sm9Encryption => cases h

/-- Every operation that spares the key keeps it, and answers faithfully. -/
theorem kept_run (hcrypto : crypto.Decrypts) {c : Call} (h : Spares kek m c) :
    Ensures (Kept crypto kek m material) (c.op.run crypto c.env) (Faithful crypto m material c.op) := by
  obtain ⟨env, op⟩ := c
  cases op with
  | generateKey spec name tenantId =>
    have hne : env.uuid 0 ≠ m.id := fun hid => h.fresh (congrArg some hid)
    refine ensures_value (.bind (kept_lift _) fun _ _ => .bind kept_kekOf fun _ _ => ?_)
    exact .bind (kept_lift _) fun _ _ => kept_storeNew hne
  | importKeyMaterial spec name tenantId material' =>
    have hne : env.uuid 0 ≠ m.id := fun hid => h.fresh (congrArg some hid)
    refine ensures_value (.bind (kept_lift _) fun _ _ => .bind kept_kekOf fun _ _ => ?_)
    exact .bind (kept_lift _) fun _ _ => kept_storeNew hne
  | rotateKey keyId tenantId => exact ensures_value kept_rotateKey
  | deleteKey keyId tenantId =>
    refine .bind (kept_deleteKey ?_) fun _ _ => .pure trivial
    rintro rfl rfl
    exact h.keeps rfl
  | destroyKey keyId =>
    exact .bind (R := fun _ => True) (.bind kept_removeKey fun _ _ => .pure trivial) fun _ _ => .pure trivial
  | destroyKeyWithProof keyId => exact ensures_value (.bind kept_removeKey fun _ _ => .pure trivial)
  | getKeyMetadata keyId =>
    refine ensures_value (.bind (.get (R := fun _ => True) fun _ _ => trivial) fun _ _ => ?_)
    split
    · exact .pure trivial
    · refine .bind (kept_read (R := fun _ => True) fun _ _ _ _ => trivial) fun found _ => ?_
      cases found with
      | none => exact .throw _
      | some keyMeta => exact .pure trivial
  | encrypt keyId plaintext tenantId =>
    refine .bind (R := fun c : Ciphertext => keyId = m.id → c.version = m.version ∧
      cryptoDecrypt crypto material m.spec c m.tenantId = .ok plaintext) ?_ fun c hc => .pure hc
    refine .bind kept_entryFor fun e he => .ite (fun _ => .throw _) fun _ => ensures_lift fun c hc hid => ?_
    obtain ⟨hreads, htenant⟩ := he hid
    rw [hreads.material, hreads.spec, hreads.version, htenant] at hc
    exact decrypt_cryptoEncrypt hcrypto hc
  | decrypt keyId ciphertext tenantId =>
    refine ensures_value (.bind kept_entryFor fun _ _ => .ite (fun _ => .throw _) fun _ => ?_)
    exact .bind (.ite (fun _ => .pure trivial) fun _ => kept_materialForVersion) fun _ _ => kept_lift _
  | sign keyId data tenantId =>
    exact ensures_value (.bind kept_entryFor fun _ _ => .ite (fun _ => .throw _) fun _ => kept_lift _)
  | verify keyId data sig tenantId => exact ensures_value (.bind kept_entryFor fun _ _ => kept_lift _)
  | exportKeyMaterial keyId tenantId =>
    refine .bind (R := fun b => keyId = m.id → b = material) ?_ fun b hb => .pure hb
    exact .bind kept_entryFor fun e he => .ite (fun _ => .throw _) fun _ => .pure fun hid => (he hid).1.material
  | getKeyMaterial keyId tenantId =>
    refine .bind (R := fun b => keyId = m.id → b = material) ?_ fun b hb => .pure hb
    exact .bind kept_entryFor fun e he => .pure fun hid => (he hid).1.material
  | getKeyMaterialVersion keyId version tenantId =>
    refine ensures_value (.bind kept_entryFor fun _ _ => ?_)
    exact .ite (fun _ => .pure trivial) fun _ => kept_materialForVersion
  | deriveSharedSecret keyId peerPublicKey algorithm tenantId =>
    exact ensures_value (.bind kept_entryFor fun _ _ => .bind (kept_lift _) fun _ _ => .pure trivial)
  | listKeys filter =>
    refine ensures_value ?_
    unfold listKeys
    split
    · exact .throw _
    · rename_i owner _
      refine ensures_mapInternal (kept_repo fun db a db' hf _ => ⟨?_, trivial⟩)
      cases hlist : db.list env.rank owner (filter.limit.map Db.asI64) (filter.offset.map Db.asI64) <;>
        rw [hlist] at hf <;> cases hf
      rfl
  | health =>
    refine ensures_value fun s hs => ⟨?_, fun _ _ => trivial⟩
    have hlist : Ensures (Kept crypto kek m material) (Repo.listAllTenants env (some 1) none) _ := kept_listAllTenants
    have hlist := (hlist s hs).1
    simp only [outcome, Postgres.health] at hlist ⊢
    split at hlist <;> rename_i heq <;> simp only [heq] <;> exact hlist
  | loadKeys =>
    exact .bind (R := fun _ => True) (.bind kept_spawnLoadKeys fun _ _ => .pure trivial) fun _ _ => .pure trivial
  | spawnLoadKeys => exact ensures_value kept_spawnLoadKeys
  | restart k =>
    obtain rfl := h.restart k rfl
    refine .bind (R := fun _ => True) (.modify (fun s hs => ⟨rfl, hs.row, fun e he => ?_⟩) trivial) fun _ _ =>
      .pure trivial
    simp [BoundedKeyCache.new] at he

/-! ## A key that was handed out -/

theorem records_newRow {encrypted : Bytes} (hspec : specOfText m.spec.debug = some m.spec)
    (hstatus : m.status.canDecrypt = true) (hopens : decryptMaterial crypto kek m.id encrypted = .ok material) :
    Records crypto kek m material (newRow m encrypted) where
  reads := ⟨rfl, by simp [newRow, KeyRow.ofMeta, KeyRow.toMeta, hspec], by simp [newRow, KeyRow.ofMeta, KeyRow.toMeta],
    by simp [newRow, KeyRow.ofMeta, KeyRow.toMeta, statusOfText_debug, hstatus], rfl⟩
  opens := ⟨encrypted, rfl, hopens⟩

/-- Once a new key is persisted, its row is there; the cache is as before. -/
theorem persistKey_stores {s : Store} {encrypted : Bytes} :
    Spec (persistKey env m encrypted) s fun r s' => r = .ok () →
      s'.kek = s.kek ∧ s'.keys = s.keys ∧ s'.db.live m.id = some (newRow m encrypted) := by
  refine .bind spec_tryWrite_or_fault (fun _ s₁ h₁ => ?_) fun _ _ _ => by rintro ⟨⟩
  obtain ⟨-, hinsert, hs₁⟩ := h₁
  refine spec_write_or_fault.mono fun r s₂ h₂ => ?_
  rintro rfl
  obtain ⟨-, rfl⟩ := h₂
  rw [hs₁]
  refine ⟨rfl, rfl, ?_⟩
  rw [Db.updateEncryptedMaterial, Db.live_updateLive, if_pos rfl, Db.live_insert hinsert, if_pos rfl]
  rfl

/-- A key that the cache lets in, or does not, and whose row is there. -/
theorem Kept.made {s : Store} {keys : BoundedKeyCache} {row : KeyRow} (hkek : s.kek = kek)
    (hkeys : s.keys = keys.insertWithEviction m.id { keyMeta := m, material }) (hstatus : m.status.canDecrypt = true)
    (hlive : s.db.live m.id = some row) (hof : Records crypto kek m material row) : Kept crypto kek m material s := by
  refine ⟨hkek, ⟨row, hlive, hof⟩, fun e he => ?_⟩
  rw [hkeys] at he
  have hfound := BoundedKeyCache.of_getElem?_insertWithEviction he
  rw [if_pos rfl] at hfound
  obtain rfl := Option.some.inj hfound
  exact ⟨rfl, rfl, rfl, hstatus, rfl⟩

/-- The key is handed out with a material under which it is kept. -/
def HandsOut (crypto : Crypto) (kek : Bytes) (r : Except Abort KeyMeta) (s : Store) : Prop :=
  ∀ m, r = .ok m → specOfText m.spec.debug = some m.spec → ∃ material, Kept crypto kek m material s

theorem storeNew_handsOut (hstatus : m.status.canDecrypt = true) {s : Store} {encrypted : Bytes}
    (hopens : decryptMaterial crypto s.kek m.id encrypted = .ok material) :
    Spec (storeNew env m material encrypted) s (HandsOut crypto s.kek) := by
  refine .bind (Q := fun r s' => r = .ok () ∧
    s' = { s with keys := s.keys.insertWithEviction m.id { keyMeta := m, material } }) ⟨rfl, rfl⟩ (fun _ s₁ h₁ => ?_)
    fun _ _ _ => by rintro _ ⟨⟩
  obtain ⟨-, rfl⟩ := h₁
  refine .bind persistKey_stores (fun _ s₂ h₂ => ?_) fun _ _ _ => by rintro _ ⟨⟩
  obtain ⟨hkek, hkeys, hlive⟩ := h₂ rfl
  rintro _ ⟨⟩ hspec
  exact ⟨material, .made hkek hkeys hstatus hlive (records_newRow hspec hstatus hopens)⟩

/-- The key can be had from the database. -/
structure Stored (crypto : Crypto) (kek : Bytes) (m : KeyMeta) (material : Bytes) (s : Store) : Prop where
  kek_eq : s.kek = kek
  row : ∃ row, s.db.live m.id = some row ∧ Records crypto kek m material row

/-- What a program does to the database it does whatever is cached. -/
theorem stored_of_kept {α : Type} {x : M α} {R : α → Prop} (hdb : DbOnly x)
    (hx : Ensures (Kept crypto kek m material) x R) :
    Ensures (Stored crypto kek m material) x fun _ => True := by
  intro s hs
  refine ⟨?_, fun _ _ => trivial⟩
  have hempty : Kept crypto kek m material { s with keys := .new none } :=
    ⟨hs.kek_eq, hs.row, fun e he => by simp [BoundedKeyCache.new] at he⟩
  rw [(hdb s { s with keys := .new none } rfl rfl).2]
  exact ⟨hs.kek_eq, (hx _ hempty).1.row⟩

/-- After the new key's row the rest of a rotation changes the old key's status at most. -/
theorem persistRotation_stores {s : Store} {oldMeta newMeta : KeyMeta} {oldMaterial encryptedNew : Bytes}
    (hstatus : newMeta.status.canDecrypt = true)
    (hopens : decryptMaterial crypto s.kek newMeta.id encryptedNew = .ok material) :
    Spec (persistRotation crypto env oldMeta oldMaterial newMeta encryptedNew) s fun r s' => r = .ok () →
      specOfText newMeta.spec.debug = some newMeta.spec → Stored crypto s.kek newMeta material s' := by
  by_cases hspec : specOfText newMeta.spec.debug = some newMeta.spec
  swap
  · exact fun _ h => absurd h hspec
  refine .bind persistKey_stores (fun _ s₁ h₁ => ?_) fun _ _ _ => by rintro ⟨⟩
  obtain ⟨hkek, -, hlive⟩ := h₁ rfl
  refine Spec.mono ((stored_of_kept (R := fun _ => True) ?_ ?_) s₁ ⟨hkek, _, hlive,
    records_newRow hspec hstatus hopens⟩)
    fun r s' h _ _ => h.1
  · refine dbOnly_bind (dbOnly_mapInternal dbOnly_repo) fun _ => dbOnly_bind dbOnly_kekOf fun _ => ?_
    refine dbOnly_bind dbOnly_lift fun _ => dbOnly_bind (dbOnly_mapInternal dbOnly_repo) fun _ => ?_
    exact dbOnly_mapInternal dbOnly_repo
  · refine .bind (ensures_mapInternal kept_updateStatus) fun _ _ => .bind kept_kekOf fun _ _ => ?_
    refine .bind (kept_lift _) fun _ _ => .bind (ensures_mapInternal kept_insertVersion) fun _ _ => ?_
    exact ensures_mapInternal kept_updateVersionRotatedAt

theorem rotateKey_handsOut (hcrypto : crypto.Lawful) {s : Store} {keyId : Uuid} {tenantId : String} :
    Spec (rotateKey crypto env keyId tenantId) s (HandsOut crypto s.kek) := by
  refine .bind entryFor_ends (fun entry s₁ h₁ => ?_) fun _ _ _ => by rintro _ ⟨⟩
  obtain ⟨-, rfl⟩ := h₁
  rw [← kek_resolved s keyId entry]
  generalize s.resolved keyId entry = s₁
  dsimp only
  split
  · rintro _ ⟨⟩
  refine spec_lift_bind (fun newMaterial _ => spec_kekOf_bind ?_) fun _ _ => by rintro _ ⟨⟩
  refine spec_lift_bind (fun encryptedNew hencrypted => ?_) fun _ _ => by rintro _ ⟨⟩
  have hopens := decrypt_encryptMaterial hcrypto hencrypted
  refine .bind (persistRotation_stores rfl hopens) (fun _ s₂ h₂ => ?_) fun _ _ _ => by rintro _ ⟨⟩
  rintro _ ⟨⟩ hspec
  obtain ⟨hkek, row, hlive, hof⟩ := h₂ rfl hspec
  exact ⟨newMaterial, .made hkek rfl rfl hlive hof⟩

theorem generateKey_handsOut (hcrypto : crypto.Lawful) {s : Store} {spec : KeySpec} {name tenantId : String} :
    Spec (generateKey crypto env spec name tenantId) s (HandsOut crypto s.kek) := by
  refine spec_lift_bind (fun _ _ => spec_kekOf_bind ?_) fun _ _ => by rintro _ ⟨⟩
  refine spec_lift_bind (fun encrypted hencrypted => ?_) fun _ _ => by rintro _ ⟨⟩
  exact storeNew_handsOut rfl (decrypt_encryptMaterial hcrypto hencrypted)

theorem importKeyMaterial_handsOut (hcrypto : crypto.Lawful) {s : Store} {spec : KeySpec} {name tenantId : String}
    {imported : Bytes} : Spec (importKeyMaterial crypto env spec name tenantId imported) s (HandsOut crypto s.kek) := by
  refine spec_lift_bind (fun _ _ => spec_kekOf_bind ?_) fun _ _ => by rintro _ ⟨⟩
  refine spec_lift_bind (fun encrypted hencrypted => ?_) fun _ _ => by rintro _ ⟨⟩
  exact storeNew_handsOut rfl (decrypt_encryptMaterial hcrypto hencrypted)

theorem kept_of_handedOut (hcrypto : crypto.Lawful) {s : Store} {c : Call}
    (hout : handedOut? c.op (call crypto s c).1 = some m) (hspec : specOfText m.spec.debug = some m.spec) :
    ∃ material, Kept crypto s.kek m material (call crypto s c).2 := by
  have hmade : ∀ x : M KeyMeta, Spec x s (HandsOut crypto s.kek) →
      (outcome (do return .keyMeta (← x) : M Value) s).1 = .ok (.keyMeta m) →
      ∃ material, Kept crypto s.kek m material (outcome (do return .keyMeta (← x) : M Value) s).2 := by
    intro x hx hok
    rcases hres : outcome x s with ⟨e | m', s'⟩
    · rw [outcome_bind_error hres] at hok
      cases hok
    · rw [outcome_bind_ok hres] at hok ⊢
      cases hok
      unfold Spec at hx
      rw [hres] at hx
      exact hx _ rfl hspec
  obtain ⟨env, op⟩ := c
  have hok : ∀ {r : Except Abort Value}, handedOut? op r = some m → r = .ok (.keyMeta m) := by
    intro r h
    unfold handedOut? at h
    split at h <;> cases h <;> rfl
  have hr := hok hout
  cases op with
  | generateKey spec name tenantId => exact hmade _ (generateKey_handsOut hcrypto) hr
  | importKeyMaterial spec name tenantId imported => exact hmade _ (importKeyMaterial_handsOut hcrypto) hr
  | rotateKey keyId tenantId => exact hmade _ (rotateKey_handsOut hcrypto) hr
  | _ => cases hout

/-! ## Runs -/

/-- The key, its material and all that was encrypted under it, after the run. -/
structure Lasts (crypto : Crypto) (m : KeyMeta) (s : Store) (is : List Call) : Prop where
  decrypts : ∀ env plaintext c,
    (⟨env, .encrypt m.id plaintext m.tenantId⟩, .ok (.ciphertext c)) ∈ (call crypto).trace s is →
      ∀ env', (∀ c, env'.fault c = none) →
        (outcome (decrypt crypto env' m.id c m.tenantId) ((call crypto).final s is)).1 = .ok plaintext
  material : ∀ env b, (⟨env, .getKeyMaterial m.id m.tenantId⟩, .ok (.bytes b)) ∈ (call crypto).trace s is →
    ∀ env', (∀ c, env'.fault c = none) →
      (outcome (getKeyMaterial crypto env' m.id m.tenantId) ((call crypto).final s is)).1 = .ok b

theorem kept_final (hcrypto : crypto.Decrypts) {s : Store} (hs : Kept crypto kek m material s) {is : List Call}
    (hspares : ∀ c ∈ is, Spares kek m c) : Kept crypto kek m material ((call crypto).final s is) ∧
      ∀ c v, (c, .ok v) ∈ (call crypto).trace s is → Faithful crypto m material c.op v := by
  induction is generalizing s with
  | nil => exact ⟨hs, fun c v hmem => by cases hmem⟩
  | cons c is ih =>
    obtain ⟨hc, his⟩ := List.forall_mem_cons.1 hspares
    have hstep : Spec (c.op.run crypto c.env) s _ := kept_run hcrypto hc s hs
    obtain ⟨hfinal, hlater⟩ := ih hstep.1 his
    refine ⟨hfinal, fun c' v hmem => ?_⟩
    rcases List.mem_cons.1 hmem with heq | hmem
    · obtain ⟨rfl, hok⟩ := Prod.mk.inj heq
      exact hstep.2 v hok.symm
    · exact hlater c' v hmem

/-- A kept key is resolved, from the cache or from the database. -/
theorem Kept.resolves {s : Store} (hs : Kept crypto kek m material s) (hfault : ∀ c, env.fault c = none) :
    ∃ e s', outcome (entryFor crypto env m.id m.tenantId) s = (.ok e, s') ∧ Reads m material e := by
  cases hcached : s.keys.map[m.id]? with
  | some e =>
    have hreads := hs.cached e hcached
    exact ⟨e, s, by rw [outcome_entryFor_hit crypto env m.id m.tenantId hcached, if_neg (not_not.2 hreads.tenantId)],
      hreads⟩
  | none =>
    obtain ⟨row, hlive, hreads, encrypted, hencrypted, hopens⟩ := hs.row
    have hmiss := outcome_entryFor_miss crypto env m.id m.tenantId hcached
    rw [loadEntryFromDb_of_live hfault hlive hencrypted (hs.kek_eq ▸ hopens)] at hmiss
    dsimp only at hmiss
    rw [if_neg (not_not.2 hreads.tenantId)] at hmiss
    exact ⟨_, _, hmiss, hreads⟩

/-- A key that was handed out lasts, whatever is evicted, restarted, preloaded, rotated, destroyed or fails. -/
theorem lasts_run (hcrypto : crypto.Lawful) (hdecrypts : crypto.Decrypts) {s : Store} {c : Call}
    (hout : handedOut? c.op (call crypto s c).1 = some m) (hspec : specOfText m.spec.debug = some m.spec)
    {is : List Call}
    (hspares : ∀ c ∈ is, Spares s.kek m c) : Lasts crypto m (call crypto s c).2 is := by
  obtain ⟨material, hkept⟩ := kept_of_handedOut hcrypto hout hspec
  obtain ⟨hfinal, hanswers⟩ := kept_final hdecrypts hkept hspares
  constructor
  · intro env plaintext x hmem env' hfault
    obtain ⟨hversion, hdecrypt⟩ := hanswers _ _ hmem rfl
    obtain ⟨e, s', hentry, hreads⟩ := hfinal.resolves hfault
    have hcan : (!e.keyMeta.status.canDecrypt) = false := by rw [hreads.decrypts]; rfl
    unfold decrypt
    rw [outcome_bind_ok hentry]
    dsimp only
    rw [hcan, hversion, if_neg Bool.false_ne_true, if_pos hreads.version.symm, pure_bind, hreads.material, hreads.spec,
      hreads.tenantId, hdecrypt]
    rfl
  · intro env b hmem env' hfault
    obtain ⟨e, s', hentry, hreads⟩ := hfinal.resolves hfault
    unfold getKeyMaterial
    rw [outcome_bind_ok hentry, hanswers _ _ hmem rfl, ← hreads.material]
    rfl

end

/-- A key in a cache that holds one. -/
def generated : Call := ⟨sampleEnv 1, .generateKey .aes256Gcm "key" "tenant-1"⟩

/-- It is used, rotated, crowded out, destroyed, and its process restarted. -/
def usedAndRestarted : List Call :=
  [⟨sampleEnv 2, .encrypt 1 [1, 2, 3] "tenant-1"⟩, ⟨sampleEnv 2, .rotateKey 1 "tenant-1"⟩,
   ⟨sampleEnv 3, .generateKey .sm4 "other" "tenant-1"⟩, ⟨sampleEnv 4, .getKeyMaterial 1 "tenant-1"⟩,
   ⟨sampleEnv 4, .destroyKey 1⟩, ⟨sampleEnv 4, .restart (List.replicate 32 1)⟩]

theorem lasts_usedAndRestarted : Lasts .plain (newMeta (sampleEnv 1) .aes256Gcm "key" "tenant-1" none)
    (call .plain (.start (some 1) (List.replicate 32 1)) generated).2 usedAndRestarted := by
  refine lasts_run Crypto.plain_lawful Crypto.plain_decrypts rfl rfl fun c hc => ⟨?_, ?_, ?_⟩
  all_goals
    simp only [usedAndRestarted, List.mem_cons, List.not_mem_nil, or_false] at hc
    rcases hc with rfl | rfl | rfl | rfl | rfl | rfl
  all_goals simp [Call.newId?, newMeta, sampleEnv, Store.start]

end GmKms.Keystore.Postgres
