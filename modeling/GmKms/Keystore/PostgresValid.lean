import GmKms.Keystore.PostgresMaterial
/-!
# Methods that keep material valid

Each method of the PostgreSQL keystore on a store with valid material, over a database
that may fail at any statement.
-/

namespace GmKms.Keystore.Postgres

open Lib Lib.Effect

section

variable {crypto : Crypto} {kek : Bytes} {ids : List Uuid} {ms : List KeyMeta} {env : Env} {s : Store}

/-! ## Statements -/

/-- A statement that succeeds changes the tables as it says, and one that fails nothing. -/
theorem spec_repo {α : Type} (c : RepoCall) (f : Db → Except String (α × Db)) :
    Spec (repo env c f) s fun r s' => match r with
      | .ok a => f s.db = .ok (a, s'.db) ∧ s' = { s with db := s'.db }
      | .error _ => s' = s := by
  unfold Spec outcome repo
  cases env.fault c with
  | some e => rfl
  | none => rcases hf : f s.db with e | ⟨a, db⟩ <;> simp

theorem spec_mapInternal {α : Type} {x : M α} {Q : Except Abort α → Store → Prop} (h : Spec x s Q)
    (herr : ∀ e e' s', Q (.error e) s' → Q (.error e') s') : Spec (mapInternal x) s Q := by
  unfold Spec at *
  rw [outcome_mapInternal]
  rcases hx : outcome x s with ⟨⟨⟨⟩⟩ | a, s'⟩ <;> rw [hx] at h
  · exact herr _ _ _ h
  · exact h
  · exact h

/-- A statement that keeps the keys as they are keeps the store valid, and the entries that it could hold. -/
theorem spec_sameKeys (h : Sound crypto kek ids ms s) {α : Type} (c : RepoCall) {f : Db → Except String (α × Db)}
    (hf : ∀ db a db', f db = .ok (a, db') → SameKeys db db') :
    Spec (mapInternal (repo env c f)) s fun _ s' => Sound crypto kek ids ms s' ∧ s'.keys = s.keys ∧
      ∀ id e, SoundEntry ids s.db id e → SoundEntry ids s'.db id e := by
  refine spec_mapInternal ((spec_repo c f).mono fun r s' h' => ?_) fun _ _ _ h' => h'
  cases r with
  | error e =>
    obtain rfl : s' = s := h'
    exact ⟨h, rfl, fun _ _ he => he⟩
  | ok a =>
    obtain ⟨hdb, hs'⟩ := h'
    have hsame := hf _ _ _ hdb
    rw [hs']
    exact ⟨h.sameKeys hsame, rfl, fun _ _ he => he.of_sameKeys hsame⟩

/-- A statement that only reads. -/
theorem spec_read {α : Type} (c : RepoCall) (f : Db → α) :
    Spec (repo env c fun db => .ok (f db, db)) s fun r s' => s' = s ∧ ∀ a, r = .ok a → a = f s.db := by
  refine (spec_repo c _).mono fun r s' h => ?_
  cases r with
  | error e =>
    obtain rfl : s' = s := h
    exact ⟨rfl, by rintro _ ⟨⟩⟩
  | ok a =>
    obtain ⟨hdb, hs'⟩ := h
    obtain ⟨rfl, hsame⟩ := Prod.mk.inj (Except.ok.inj hdb)
    refine ⟨by rw [hs', ← hsame], ?_⟩
    rintro _ ⟨⟩
    rfl

/-! ## Resolving a key -/

/-- The metadata of a live row, with the material that the row's opens to. -/
structure Loaded (crypto : Crypto) (s : Store) (id : Uuid) (row : KeyRow) (e : KeyEntry) : Prop where
  live : s.db.live id = some row
  keyMeta : e.keyMeta = row.toMeta id
  material : ∃ encrypted, row.encryptedMaterial = some encrypted ∧
    decryptMaterial crypto s.kek id encrypted = .ok e.material

theorem spec_loadEntryFromDb {id : Uuid} : Spec (loadEntryFromDb crypto env id) s fun r s' =>
    s' = s ∧ ∀ e, r = .ok e → ∃ row, Loaded crypto s id row e := by
  refine .bind (spec_read _ _) (fun found s₁ h₁ => ?_) fun e s₁ h₁ => ⟨h₁.1, by rintro _ ⟨⟩⟩
  obtain ⟨rfl, hfound⟩ := h₁
  have hfound := hfound found rfl
  cases found with
  | none => exact ⟨rfl, by rintro _ ⟨⟩⟩
  | some keyMeta =>
    obtain ⟨row, hlive, hmeta⟩ := Option.map_eq_some_iff.1 hfound.symm
    refine .bind (spec_read _ _) (fun material s₂ h₂ => ?_) fun e s₂ h₂ => ⟨h₂.1, by rintro _ ⟨⟩⟩
    obtain ⟨rfl, hmaterial⟩ := h₂
    have hmaterial := hmaterial material rfl
    cases material with
    | none => exact ⟨rfl, by rintro _ ⟨⟩⟩
    | some encrypted =>
      have hencrypted : row.encryptedMaterial = some encrypted := by
        rw [Db.findEncryptedMaterial, hlive] at hmaterial
        exact hmaterial.symm
      refine .bind (Q := fun r s' => r = .ok s₂.kek ∧ s' = s₂) ⟨rfl, rfl⟩ (fun kek s₃ h₃ => ?_) fun e s₃ h₃ => by
        cases h₃.1
      obtain ⟨hkek, rfl⟩ := h₃
      obtain rfl := Except.ok.inj hkek
      dsimp only
      split
      · exact ⟨rfl, by rintro _ ⟨⟩⟩
      · exact ⟨rfl, by rintro _ ⟨⟩⟩
      · rename_i opened hdecrypt
        refine ⟨rfl, ?_⟩
        rintro _ ⟨⟩
        exact ⟨row, hlive, hmeta.symm, encrypted, hencrypted, hdecrypt⟩

theorem specOfText_of_toMeta {row : KeyRow} {id : Uuid} {spec : KeySpec} (h : (row.toMeta id).spec = spec)
    (hspec : spec ≠ .aes256Gcm) : specOfText row.spec = some spec := by
  cases htext : specOfText row.spec with
  | none =>
    have hdefault : (row.toMeta id).spec = .aes256Gcm := by simp [KeyRow.toMeta, htext]
    exact absurd (h.symm.trans hdefault) hspec
  | some spec' =>
    have hnamed : (row.toMeta id).spec = spec' := by simp [KeyRow.toMeta, htext]
    rw [← h, hnamed]

/-- What is loaded from a valid row can be cached. -/
theorem Sound.loaded (h : Sound crypto kek ids ms s) {id : Uuid} {row : KeyRow} {e : KeyEntry}
    (hload : Loaded crypto s id row e) : SoundEntry ids s.db id e := by
  obtain ⟨hlive, hmeta, encrypted, hencrypted, hdecrypt⟩ := hload
  have hrow := (Db.live_eq_some_iff.1 hlive).1
  obtain ⟨material, hopened, hfits⟩ := h.db.row id row encrypted hrow hencrypted
  rw [h.kek_eq, hopened] at hdecrypt
  obtain rfl := Except.ok.inj hdecrypt
  refine ⟨h.db.drawn id row hrow, by rw [hmeta]; rfl, fun hspec => ?_, fun row' hrow' => ?_⟩
  · rw [hmeta] at hspec
    exact hfits .sm2 (specOfText_of_toMeta hspec (by decide))
  · obtain rfl := Option.some.inj (hrow.symm.trans hrow')
    refine ⟨by rw [hmeta]; rfl, fun spec hspec => ?_, hfits⟩
    rw [hmeta]
    simp [KeyRow.toMeta, hspec]

theorem spec_entryFor (h : Sound crypto kek ids ms s) {id : Uuid} {tenantId : String} :
    Spec (entryFor crypto env id tenantId) s fun r s' => Sound crypto kek ids ms s' ∧ s'.db = s.db ∧
      ∀ e, r = .ok e → e.keyMeta.tenantId = tenantId ∧ SoundEntry ids s.db id e := by
  cases hcached : s.keys.map[id]? with
  | some e =>
    unfold Spec
    rw [outcome_entryFor_hit crypto env id tenantId hcached]
    split
    · exact ⟨h, rfl, by rintro _ ⟨⟩⟩
    · rename_i htenant
      refine ⟨h, rfl, ?_⟩
      rintro _ ⟨⟩
      exact ⟨not_not.1 htenant, h.cache id e hcached⟩
  | none =>
    have hload : Spec (loadEntryFromDb crypto env id) s _ := spec_loadEntryFromDb
    unfold Spec at hload ⊢
    rw [outcome_entryFor_miss crypto env id tenantId hcached]
    cases hentry : (outcome (loadEntryFromDb crypto env id) s).1 with
    | error a => exact ⟨h, rfl, by rintro _ ⟨⟩⟩
    | ok e =>
      obtain ⟨row, hloaded⟩ := hload.2 e hentry
      have he := h.loaded hloaded
      dsimp only
      split
      · exact ⟨h, rfl, by rintro _ ⟨⟩⟩
      · rename_i htenant
        refine ⟨h.cached he, rfl, ?_⟩
        rintro _ ⟨⟩
        exact ⟨not_not.1 htenant, he⟩

/-! ## Creating keys -/

theorem eq_of_specOfText_debug {spec spec' : KeySpec} (h : specOfText spec.debug = some spec') : spec = spec' := by
  cases spec with
  | aes256Gcm | ed25519 | ecdsaP256 | sm4 | sm2 | hmacSha256 | rsa4096 => exact Option.some.inj h
  | ecdsaP384 | ed448 | sm3Hmac | sm9Signing | sm9Encryption =>
    replace h : none = some spec' := h
    cases h

/-- An entry of a new key says what the row of the key will say. -/
theorem matches_ofMeta {m : KeyMeta} {material : Bytes} (hvalid : ValidMaterial m.spec material) :
    Matches (.ofMeta m) { keyMeta := m, material } := by
  refine ⟨rfl, fun spec hspec => eq_of_specOfText_debug hspec, fun spec hspec => ?_⟩
  obtain rfl := eq_of_specOfText_debug hspec
  exact hvalid

/-- What persisting a new key needs and leaves: the key is among those handed out once both statements have
succeeded, and the entries of other keys remain valid. -/
theorem spec_persistKey (h : Sound crypto kek ids ms s) {m : KeyMeta} {encrypted : Bytes} (hdrawn : m.id ∈ ids)
    (hcached : ∀ e, s.keys.map[m.id]? = some e → Matches (.ofMeta m) e)
    (hopens : Opens crypto kek m.id m.spec.debug encrypted) :
    Spec (persistKey env m encrypted) s fun r s' => s'.keys = s.keys ∧
      (∀ id e, id ≠ m.id → SoundEntry ids s.db id e → SoundEntry ids s'.db id e) ∧
      match r with
      | .ok _ => Sound crypto kek ids (m :: ms) s'
      | .error _ => Sound crypto kek ids ms s' := by
  refine .bind (Q := fun r s' => match r with
      | .ok _ => s.db.insert m = .ok s'.db ∧ s' = { s with db := s'.db }
      | .error _ => s' = s) ?_ (fun _ s₁ h₁ => ?_) fun e s₁ h₁ => ?_
  · refine spec_mapInternal ((spec_repo _ _).mono fun r s' h' => ?_) fun _ _ _ h' => h'
    cases r with
    | error e => exact h'
    | ok a =>
      refine ⟨?_, h'.2⟩
      cases hinsert : s.db.insert m with
      | error e =>
        have := h'.1
        simp [hinsert, Except.map] at this
      | ok db =>
        have := h'.1
        simp only [hinsert, Except.map, Except.ok.injEq, Prod.mk.injEq] at this
        rw [this.2]
  · obtain ⟨hinsert, hs₁⟩ := h₁
    obtain ⟨-, -, hkeys⟩ := keys_of_insert hinsert
    have hnew : s₁.db.keys[m.id]? = some (.ofMeta m) := by rw [hkeys, if_pos rfl]
    have hothers : ∀ id e, id ≠ m.id → SoundEntry ids s.db id e → SoundEntry ids s₁.db id e := fun id e hne he =>
      he.of_insert hne hinsert
    have hsound₁ : Sound crypto kek ids ms s₁ := by
      rw [hs₁]
      refine h.withDb (h.db.insert hdrawn hinsert) fun id e he hentry => ?_
      by_cases hid : id = m.id
      · -- the entry that was cached for the new key now has a row
        subst hid
        refine ⟨hentry.drawn, hentry.id_eq, hentry.sm2, fun row hrow => ?_⟩
        obtain rfl := Option.some.inj (hnew.symm.trans hrow)
        exact hcached e he
      · exact hothers id e hid hentry
    refine spec_mapInternal ((spec_repo _ _).mono fun r s₂ h₂ => ?_) fun _ _ _ h' => h'
    cases r with
    | error e =>
      obtain rfl : s₂ = s₁ := h₂
      exact ⟨by rw [hs₁], hothers, hsound₁⟩
    | ok a =>
      obtain ⟨hdb, hs₂⟩ := h₂
      obtain ⟨-, hdb⟩ := Prod.mk.inj (Except.ok.inj hdb)
      have hdb₂ : SoundDb crypto kek ids (m :: ms) s₂.db := by
        have hupdated : SoundDb crypto kek ids ms s₂.db := by
          rw [← hdb]
          refine hsound₁.db.updateEncryptedMaterial fun row hrow => ?_
          obtain rfl := Option.some.inj (hnew.symm.trans hrow)
          exact hopens
        refine ⟨hupdated.drawn, hupdated.row, hupdated.version, fun m' hm' => ?_⟩
        rcases List.mem_cons.1 hm' with rfl | hm'
        · refine ⟨{ KeyRow.ofMeta m' with encryptedMaterial := some encrypted }, encrypted, ?_, rfl, rfl, rfl⟩
          rw [← hdb, Db.updateEncryptedMaterial, Db.keys_updateLive_of_some hnew, if_pos ⟨rfl, rfl⟩]
        · exact hupdated.persisted m' hm'
      have hentries : ∀ id e, SoundEntry ids s₁.db id e → SoundEntry ids s₂.db id e := fun id e he => by
        rw [← hdb]
        exact he.of_updateEncryptedMaterial
      refine ⟨by rw [hs₂, hs₁], fun id e hne he => hentries id e (hothers id e hne he), ?_⟩
      change Sound crypto kek ids (m :: ms) s₂
      rw [hs₂]
      exact hsound₁.withDb hdb₂ fun id e _ he => hentries id e he
  · obtain rfl : s₁ = s := h₁
    exact ⟨rfl, fun _ _ _ he => he, h⟩

/-- A new key with valid material, under an id that was not drawn before. -/
theorem spec_storeNew (h : Sound crypto kek ids ms s) {m : KeyMeta} {material encrypted : Bytes} (hfresh : m.id ∉ ids)
    (hvalid : ValidMaterial m.spec material) (hopened : decryptMaterial crypto kek m.id encrypted = .ok material) :
    Spec (storeNew env m material encrypted) s fun r s' => match r with
      | .ok m' => m' = m ∧ Sound crypto kek (m.id :: ids) (m :: ms) s'
      | .error _ => Sound crypto kek (m.id :: ids) ms s' := by
  have hrow : s.db.keys[m.id]? = none := by
    cases hrow : s.db.keys[m.id]? with
    | none => rfl
    | some row => exact absurd (h.db.drawn _ row hrow) hfresh
  have h' : Sound crypto kek (m.id :: ids) ms s := h.mono (List.subset_cons_self _ _) (List.Subset.refl _)
  have hentry : SoundEntry (m.id :: ids) s.db m.id { keyMeta := m, material } := by
    refine ⟨List.mem_cons_self .., rfl, fun hspec => ?_, fun row hsome => ?_⟩
    · replace hspec : m.spec = .sm2 := hspec
      rw [hspec] at hvalid
      exact hvalid
    · rw [hrow] at hsome
      cases hsome
  refine .bind (Q := fun r s' => r = .ok () ∧
    s' = { s with keys := s.keys.insertWithEviction m.id { keyMeta := m, material } })
    ⟨rfl, rfl⟩ (fun _ s₁ h₁ => ?_) fun _ _ h₁ => by cases h₁.1
  obtain ⟨-, rfl⟩ := h₁
  refine .bind (spec_persistKey (h'.cached hentry) (List.mem_cons_self ..) (fun e he => ?_) ⟨material, hopened, ?_⟩)
    (fun _ s₂ h₂ => ⟨rfl, h₂.2.2⟩) fun _ s₂ h₂ => h₂.2.2
  · have hfound := BoundedKeyCache.of_getElem?_insertWithEviction he
    rw [if_pos rfl] at hfound
    obtain rfl := Option.some.inj hfound
    exact matches_ofMeta hvalid
  · exact (matches_ofMeta hvalid).material

theorem spec_lift {α : Type} {r : Except Abort α} : Spec (lift r) s fun r' s' => s' = s ∧ r' = r := by
  cases r <;> exact ⟨rfl, rfl⟩

/-- Encrypting material under the key encryption key of the store. -/
theorem spec_encrypted (hcrypto : crypto.Lawful) (hkek : s.kek = kek) (n : ℕ) (id : Uuid) (material : Bytes) {α : Type}
    {f : Bytes → M α} {Q : Except Abort α → Store → Prop} (herr : ∀ e, Q (.error e) s)
    (hok : ∀ encrypted, decryptMaterial crypto kek id encrypted = .ok material → Spec (f encrypted) s Q) :
    Spec (do f (← lift (encryptMaterial crypto env n (← kekOf) id material)) : M α) s Q := by
  refine .bind (Q := fun r s' => r = .ok s.kek ∧ s' = s) ⟨rfl, rfl⟩ (fun kek' s₁ h₁ => ?_) fun _ _ h₁ => by cases h₁.1
  obtain ⟨hkek', rfl⟩ := h₁
  obtain rfl := Except.ok.inj hkek'
  refine .bind spec_lift (fun encrypted s₂ h₂ => ?_) fun e s₂ h₂ => h₂.1 ▸ herr e
  obtain ⟨rfl, hencrypted⟩ := h₂
  exact hok encrypted (hkek ▸ decrypt_encryptMaterial hcrypto hencrypted.symm)

/-- What the keystore may hand out as a key of the specification: the first fill of the call, if it is an SM2 key. -/
def DrawsValid (env : Env) (spec : KeySpec) : Prop := spec = .sm2 → ∀ material, fill env 0 32 = some material →
  Sm2Scalar material

theorem valid_of_generateKeyMaterial {spec : KeySpec} {material : Bytes} (hdraws : DrawsValid env spec)
    (h : generateKeyMaterial env spec = .ok material) : ValidMaterial spec material := by
  unfold generateKeyMaterial at h
  split at h
  · cases h
  · rename_i len hlen
    split at h
    · cases h
    · rename_i key hfill
      obtain rfl := Except.ok.inj h
      cases spec with
      | sm2 =>
        obtain rfl : 32 = len := Except.ok.inj hlen
        exact hdraws rfl key hfill
      | aes256Gcm | hmacSha256 | ed25519 =>
        obtain rfl : 32 = len := Except.ok.inj hlen
        exact length_of_fill hfill
      | sm4 =>
        obtain rfl : 16 = len := Except.ok.inj hlen
        exact length_of_fill hfill
      | ed448 | ecdsaP256 | ecdsaP384 | sm3Hmac | sm9Signing | sm9Encryption | rsa4096 => trivial

/-- What a call that makes a key leaves: the key is among those handed out if it is returned. -/
def Made (crypto : Crypto) (kek : Bytes) (ids : List Uuid) (ms : List KeyMeta) (id : Uuid) (r : Except Abort KeyMeta)
    (s : Store) : Prop :=
  match r with
  | .ok m => Sound crypto kek (id :: ids) (m :: ms) s
  | .error _ => Sound crypto kek (id :: ids) ms s

/-- A key that is stored under a new id is handed out. -/
theorem made_storeNew (h : Sound crypto kek ids ms s) {m : KeyMeta} {material encrypted : Bytes} (hfresh : m.id ∉ ids)
    (hvalid : ValidMaterial m.spec material) (hopened : decryptMaterial crypto kek m.id encrypted = .ok material) :
    Spec (storeNew env m material encrypted) s (Made crypto kek ids ms m.id) := by
  refine (spec_storeNew h hfresh hvalid hopened).mono fun r s' hr => ?_
  cases r with
  | error e => exact hr
  | ok m' =>
    obtain ⟨rfl, hsound⟩ := hr
    exact hsound

theorem spec_generateKey (hcrypto : crypto.Lawful) (h : Sound crypto kek ids ms s) {spec : KeySpec}
    {name tenantId : String}
    (hfresh : env.uuid 0 ∉ ids) (hdraws : DrawsValid env spec) :
    Spec (generateKey crypto env spec name tenantId) s (Made crypto kek ids ms (env.uuid 0)) := by
  have hrefused : Sound crypto kek (env.uuid 0 :: ids) ms s := h.mono (List.subset_cons_self _ _) (List.Subset.refl _)
  refine .bind spec_lift (fun material s₁ h₁ => ?_) fun e s₁ h₁ => h₁.1 ▸ hrefused
  obtain ⟨rfl, hmaterial⟩ := h₁
  refine spec_encrypted hcrypto h.kek_eq 1 (env.uuid 0) material (fun e => hrefused) fun encrypted hopened => ?_
  exact made_storeNew h hfresh (valid_of_generateKeyMaterial hdraws hmaterial.symm) hopened

theorem spec_importKeyMaterial (hcrypto : crypto.Lawful) (h : Sound crypto kek ids ms s) {spec : KeySpec}
    {name tenantId : String} {material : Bytes} (hfresh : env.uuid 0 ∉ ids) (himport : ImportsValid spec material) :
    Spec (importKeyMaterial crypto env spec name tenantId material) s (Made crypto kek ids ms (env.uuid 0)) := by
  have hrefused : Sound crypto kek (env.uuid 0 :: ids) ms s := h.mono (List.subset_cons_self _ _) (List.Subset.refl _)
  refine .bind spec_lift (fun _ s₁ h₁ => ?_) fun e s₁ h₁ => h₁.1 ▸ hrefused
  obtain ⟨rfl, haccepted⟩ := h₁
  refine spec_encrypted hcrypto h.kek_eq 0 (env.uuid 0) material (fun e => hrefused) fun encrypted hopened => ?_
  exact made_storeNew h hfresh (validMaterial_of_checkImport haccepted.symm himport) hopened

/-! ## Changing keys -/

/-- A version is recorded of a key whose rows its material fits. -/
theorem spec_insertVersion (h : Sound crypto kek ids ms s) {rowId keyId : Uuid} {now : DateTime} {version : UInt32}
    {dek : Bytes} {status : String}
    (hopens : ∀ row, s.db.keys[keyId]? = some row → Opens crypto kek keyId row.spec dek) :
    Spec (mapInternal (Repo.insertVersion env rowId now keyId version (some dek) status)) s fun _ s' =>
      Sound crypto kek ids ms s' ∧ s'.keys = s.keys := by
  refine spec_mapInternal ((spec_repo _ _).mono fun r s' h' => ?_) fun _ _ _ h' => h'
  cases r with
  | error e =>
    obtain rfl : s' = s := h'
    exact ⟨h, rfl⟩
  | ok a =>
    obtain ⟨hdb, hs'⟩ := h'
    cases hinsert : s.db.insertVersion rowId now keyId version (some dek) status with
    | error e => simp [hinsert, Except.map] at hdb
    | ok db =>
      simp only [hinsert, Except.map, Except.ok.injEq, Prod.mk.injEq] at hdb
      obtain ⟨hsound, hkeys⟩ := h.db.insertVersion hinsert hopens
      rw [hs', ← hdb.2]
      exact ⟨h.withDb hsound fun id e _ he => he.of_rows fun row hrow => ⟨row, hkeys ▸ hrow, rfl, rfl⟩, rfl⟩

theorem spec_updateStatus (h : Sound crypto kek ids ms s) (id : Uuid) (status : KeyStatus) :
    Spec (mapInternal (Repo.updateStatus env id status)) s fun _ s' => Sound crypto kek ids ms s' ∧ s'.keys = s.keys ∧
      ∀ id e, SoundEntry ids s.db id e → SoundEntry ids s'.db id e := by
  refine spec_sameKeys h _ fun db a db' hdb => ?_
  obtain ⟨-, rfl⟩ := Prod.mk.inj (Except.ok.inj hdb)
  exact sameKeys_updateLive id fun _ => ⟨rfl, rfl, rfl⟩

theorem spec_softDelete (h : Sound crypto kek ids ms s) (id : Uuid) (deletedBy : String) :
    Spec (mapInternal (Repo.softDelete env id deletedBy)) s fun _ s' => Sound crypto kek ids ms s' ∧ s'.keys = s.keys ∧
      ∀ id e, SoundEntry ids s.db id e → SoundEntry ids s'.db id e := by
  refine spec_sameKeys h _ fun db a db' hdb => ?_
  obtain ⟨-, rfl⟩ := Prod.mk.inj (Except.ok.inj hdb)
  exact sameKeys_updateLive id fun _ => ⟨rfl, rfl, rfl⟩

theorem spec_updateVersionRotatedAt (h : Sound crypto kek ids ms s) (now : DateTime) (id : Uuid) (version : UInt32) :
    Spec (mapInternal (Repo.updateVersionRotatedAt env now id version)) s fun _ s' =>
      Sound crypto kek ids ms s' ∧ s'.keys = s.keys ∧ ∀ id e, SoundEntry ids s.db id e → SoundEntry ids s'.db id e := by
  refine spec_sameKeys h _ fun db a db' hdb => ?_
  obtain ⟨-, rfl⟩ := Prod.mk.inj (Except.ok.inj hdb)
  exact sameKeys_updateVersionRotatedAt now id version

/-- The new key is handed out if everything was written, and what was written before a failure is valid too. -/
theorem spec_persistRotation (hcrypto : crypto.Lawful) (h : Sound crypto kek ids ms s) {old : KeyEntry}
    {newMeta : KeyMeta} {encryptedNew : Bytes} (hdrawn : newMeta.id ∈ ids) (huncached : s.keys.map[newMeta.id]? = none)
    (hold : SoundEntry ids s.db old.keyMeta.id old) (hne : old.keyMeta.id ≠ newMeta.id)
    (hopens : Opens crypto kek newMeta.id newMeta.spec.debug encryptedNew) :
    Spec (persistRotation crypto env old.keyMeta old.material newMeta encryptedNew) s fun r s' =>
      match r with
      | .ok _ => Sound crypto kek ids (newMeta :: ms) s'
      | .error _ => Sound crypto kek ids ms s' := by
  have hdrop : ∀ {s' : Store}, Sound crypto kek ids (newMeta :: ms) s' → Sound crypto kek ids ms s' := fun h' =>
    h'.mono (List.Subset.refl _) (List.subset_cons_self _ _)
  refine .bind (spec_persistKey h hdrawn (fun e he => ?_) hopens) (fun _ s₁ h₁ => ?_) fun _ s₁ h₁ => h₁.2.2
  · rw [huncached] at he
    cases he
  obtain ⟨-, hentries, h₁⟩ := h₁
  replace h₁ : Sound crypto kek ids (newMeta :: ms) s₁ := h₁
  have hold₁ := hentries _ _ hne hold
  refine .bind (spec_updateStatus h₁ old.keyMeta.id .obsolete) (fun _ s₂ h₂ => ?_) fun _ s₂ h₂ => hdrop h₂.1
  obtain ⟨h₂, -, hentries₂⟩ := h₂
  have hold₂ := hentries₂ _ _ hold₁
  refine spec_encrypted hcrypto h₂.kek_eq 2 old.keyMeta.id old.material (fun e => hdrop h₂) fun dek hdek => ?_
  refine .bind (spec_insertVersion h₂ fun row hrow => ⟨old.material, hdek, (hold₂.row row hrow).material⟩)
    (fun _ s₃ h₃ => ?_) fun _ s₃ h₃ => hdrop h₃.1
  refine (spec_updateVersionRotatedAt h₃.1 _ _ _).mono fun r s₄ h₄ => ?_
  cases r with
  | error e => exact hdrop h₄.1
  | ok a => exact h₄.1

theorem spec_rotateKey (hcrypto : crypto.Lawful) (h : Sound crypto kek ids ms s) {keyId : Uuid} {tenantId : String}
    (hfresh : env.uuid 0 ∉ ids)
    (hdraws : ∀ e, (outcome (entryFor crypto env keyId tenantId) s).1 = .ok e → e.keyMeta.status.canRotate = true →
      DrawsValid env e.keyMeta.spec) :
    Spec (rotateKey crypto env keyId tenantId) s (Made crypto kek ids ms (env.uuid 0)) := by
  have hweaken : ∀ {s' : Store}, Sound crypto kek ids ms s' → Sound crypto kek (env.uuid 0 :: ids) ms s' := fun h' =>
    h'.mono (List.subset_cons_self _ _) (List.Subset.refl _)
  have hfound : Spec (entryFor crypto env keyId tenantId) s fun r s' => (Sound crypto kek ids ms s' ∧ s'.db = s.db ∧
      ∀ e, r = .ok e → e.keyMeta.tenantId = tenantId ∧ SoundEntry ids s.db keyId e) ∧
        r = (outcome (entryFor crypto env keyId tenantId) s).1 := ⟨spec_entryFor h, rfl⟩
  refine .bind hfound (fun e s₁ h₁ => ?_) fun _ s₁ h₁ => hweaken h₁.1.1
  obtain ⟨⟨h₁, hdb, hentry⟩, hresult⟩ := h₁
  obtain ⟨-, hentry⟩ := hentry e rfl
  rw [← hdb] at hentry
  split
  · exact hweaken h₁
  · rename_i hstatus
    refine .bind spec_lift (fun material s₂ h₂ => ?_) fun _ s₂ h₂ => h₂.1 ▸ hweaken h₁
    obtain ⟨rfl, hmaterial⟩ := h₂
    have hvalid := valid_of_generateKeyMaterial (hdraws e hresult.symm (by simpa using hstatus)) hmaterial.symm
    dsimp only
    refine spec_encrypted hcrypto h₁.kek_eq 1 _ material (fun e => hweaken h₁) fun encrypted hopened => ?_
    have huncached : s₂.keys.map[env.uuid 0]? = none := by
      cases hcached : s₂.keys.map[env.uuid 0]? with
      | none => rfl
      | some e' => exact absurd (h₁.cache _ e' hcached).drawn hfresh
    have hne : e.keyMeta.id ≠ env.uuid 0 := by
      rw [hentry.id_eq]
      rintro rfl
      exact hfresh hentry.drawn
    have hold : SoundEntry (env.uuid 0 :: ids) s₂.db e.keyMeta.id e := by
      obtain ⟨hdrawn, hid, hsm2, hrow⟩ := hentry
      rw [hid]
      exact ⟨List.mem_cons_of_mem _ hdrawn, hid, hsm2, hrow⟩
    have hopens : Opens crypto kek (rotatedMeta env e.keyMeta).id (rotatedMeta env e.keyMeta).spec.debug encrypted := by
      refine ⟨material, hopened, fun spec hspec => ?_⟩
      obtain rfl := eq_of_specOfText_debug hspec
      exact hvalid
    have hpersisted : Spec (persistRotation crypto env e.keyMeta e.material (rotatedMeta env e.keyMeta) encrypted) s₂
        _ :=
      spec_persistRotation hcrypto (hweaken h₁) (List.mem_cons_self ..) huncached hold hne hopens
    refine .bind hpersisted (fun _ s₃ h₃ => ?_) fun _ s₃ h₃ => h₃
    replace h₃ : Sound crypto kek (env.uuid 0 :: ids) (rotatedMeta env e.keyMeta :: ms) s₃ := h₃
    have h₄ := h₃.setStatus keyId .obsolete
    refine h₄.cached ⟨List.mem_cons_self .., rfl, fun hspec => ?_, fun row hrow => ?_⟩
    · replace hspec : e.keyMeta.spec = .sm2 := hspec
      rw [hspec] at hvalid
      exact hvalid
    · obtain ⟨row', encrypted', hrow', htenant, hspec, -⟩ := h₃.db.persisted _ (List.mem_cons_self ..)
      obtain rfl := Option.some.inj (hrow.symm.trans hrow')
      refine ⟨htenant.symm, fun spec hs => ?_, fun spec hs => ?_⟩
      · rw [hspec] at hs
        exact eq_of_specOfText_debug hs
      · rw [hspec] at hs
        obtain rfl := eq_of_specOfText_debug hs
        exact hvalid

theorem spec_deleteKey (h : Sound crypto kek ids ms s) {keyId : Uuid} {tenantId : String} :
    Spec (deleteKey crypto env keyId tenantId) s fun _ s' => Sound crypto kek ids ms s' := by
  refine .bind (spec_entryFor h) (fun _ s₁ h₁ => ?_) fun _ s₁ h₁ => h₁.1
  refine .bind (spec_softDelete h₁.1 keyId "kms-system") (fun _ s₂ h₂ => ?_) fun _ s₂ h₂ => h₂.1
  exact h₂.1.setStatus keyId .pendingDeletion

theorem spec_removeKey (h : Sound crypto kek ids ms s) {keyId : Uuid} :
    Spec (removeKey keyId) s fun _ s' => Sound crypto kek ids ms s' := by
  refine .bind (Q := fun r s' => r = .ok s ∧ s' = s) ⟨rfl, rfl⟩ (fun s₀ s₁ h₁ => ?_) fun _ _ h₁ => by cases h₁.1
  obtain ⟨hs₀, rfl⟩ := h₁
  obtain rfl := Except.ok.inj hs₀
  have hremoved := h.removed keyId
  split
  · exact h
  · rename_i entry keys hremove
    rw [hremove] at hremoved
    exact hremoved

/-! ## Startup -/

theorem spec_loadOneIntoCache (h : Sound crypto kek ids ms s) {m : KeyMeta} (hm : RowMeta s.db m) :
    Spec (loadOneIntoCache crypto env m) s fun _ s' => Sound crypto kek ids ms s' ∧ s'.db = s.db := by
  obtain ⟨row, hlive, hmeta⟩ := hm
  refine .bind (spec_read _ _) (fun found s₁ h₁ => ?_) fun _ s₁ h₁ => ?_
  swap
  · obtain rfl := h₁.1
    exact ⟨h, rfl⟩
  obtain ⟨rfl, hfound⟩ := h₁
  have hfound := hfound found rfl
  cases found with
  | none => exact ⟨h, rfl⟩
  | some encrypted =>
    refine .bind (Q := fun r s' => r = .ok s₁.kek ∧ s' = s₁) ⟨rfl, rfl⟩ (fun kek' s₂ h₂ => ?_) fun _ _ h₂ => by cases
      h₂.1
    obtain ⟨hkek, rfl⟩ := h₂
    obtain rfl := Except.ok.inj hkek
    dsimp only
    split
    · exact ⟨h, rfl⟩
    · exact ⟨h, rfl⟩
    · rename_i material hdecrypt
      have hencrypted : row.encryptedMaterial = some encrypted := by
        rw [Db.findEncryptedMaterial, hlive] at hfound
        exact hfound.symm
      exact ⟨h.cached (h.loaded ⟨hlive, hmeta.symm, encrypted, hencrypted, hdecrypt⟩), rfl⟩

theorem spec_preload (h : Sound crypto kek ids ms s) {metas : List KeyMeta} (hmetas : ∀ m ∈ metas, RowMeta s.db m) :
    Spec (preload crypto env metas) s fun _ s' => Sound crypto kek ids ms s' := by
  induction metas generalizing s with
  | nil => exact h
  | cons m metas ih =>
    have hload : Spec (loadOneIntoCache crypto env m) s _ := spec_loadOneIntoCache h (hmetas m (List.mem_cons_self ..))
    have hrest : ∀ {s' : Store}, Sound crypto kek ids ms s' ∧ s'.db = s.db →
        Spec (preload crypto env metas) s' fun _ s'' => Sound crypto kek ids ms s'' := fun h' =>
      ih h'.1 fun m' hm' => h'.2 ▸ hmetas m' (List.mem_cons_of_mem _ hm')
    unfold Spec at hload ⊢
    rw [outcome_preload]
    revert hload
    rcases outcome (loadOneIntoCache crypto env m) s with ⟨⟨_ | _⟩ | ⟨_ | _⟩, s'⟩ <;> intro hload
    · exact hrest hload
    · exact hload.1
    · exact hrest hload
    · have hcounted : Spec (do return (← preload crypto env metas) + 1 : M ℕ) s' fun _ s'' =>
          Sound crypto kek ids ms s'' :=
        .bind (hrest hload) (fun _ _ h' => h') fun _ _ h' => h'
      exact hcounted

theorem spec_spawnLoadKeys (h : Sound crypto kek ids ms s) :
    Spec (spawnLoadKeys crypto env) s fun _ s' => Sound crypto kek ids ms s' := by
  refine .bind (spec_repo _ _) (fun metas s₁ h₁ => ?_) fun _ s₁ h₁ => ?_
  · obtain ⟨hlisted, hs₁⟩ := h₁
    cases hlist : s.db.listAllTenants env.rank none none with
    | error e => simp [hlist, Except.map] at hlisted
    | ok metas' =>
      simp only [hlist, Except.map, Except.ok.injEq, Prod.mk.injEq] at hlisted
      obtain ⟨rfl, hdb⟩ := hlisted
      obtain rfl : s₁ = s := by rw [hs₁, ← hdb]
      refine .bind (spec_preload h (rowMeta_of_listAllTenants hlist)) (fun _ s₂ h₂ => ?_) fun _ s₂ h₂ => h₂
      exact ⟨h₂.kek_eq, h₂.db, h₂.cache⟩
  · obtain rfl : s₁ = s := h₁
    exact h

/-! ## Calls -/

theorem readOnly_getKeyMetadata {keyId : Uuid} : ReadOnly (getKeyMetadata env keyId) := by
  refine readOnly_bind (fun _ => rfl) fun s => ?_
  split
  · exact readOnly_pure
  · refine readOnly_bind (readOnly_repo (f := fun db => .ok (db.findById keyId))) fun found => ?_
    split
    · exact readOnly_pure
    · exact readOnly_throw

theorem readOnly_listKeys {filter : KeyFilter} : ReadOnly (listKeys env filter) := by
  unfold listKeys
  split
  · exact readOnly_throw
  · rename_i tenantId _
    exact readOnly_mapInternal (readOnly_repo (f := fun db =>
      db.list env.rank tenantId (filter.limit.map Db.asI64) (filter.offset.map Db.asI64)))

theorem readOnly_health : ReadOnly (health env) := by
  intro s
  have hlist : (outcome (Repo.listAllTenants env (some 1) none) s).2 = s := readOnly_repo s
  unfold outcome at hlist ⊢
  unfold health
  cases hread : Repo.listAllTenants env (some 1) none s with
  | ok metas s' =>
    rw [hread] at hlist
    exact hlist
  | error e s' =>
    rw [hread] at hlist
    exact hlist

/-- A call that resolves a key and computes with what it finds. -/
theorem spec_of_entryFor (h : Sound crypto kek ids ms s) {keyId : Uuid} {tenantId : String} {α : Type}
    {f : KeyEntry → M α}
    (hf : ∀ e, ReadOnly (f e)) :
    Spec (do f (← entryFor crypto env keyId tenantId) : M α) s fun _ s' => Sound crypto kek ids ms s' := by
  refine .bind (spec_entryFor h) (fun e s₁ h₁ => ?_) fun _ s₁ h₁ => h₁.1
  unfold Spec
  rw [hf e s₁]
  exact h₁.1

theorem spec_readOnly {α : Type} {x : M α} (h : Sound crypto kek ids ms s) (hread : ReadOnly x) :
    Spec x s fun _ s' => Sound crypto kek ids ms s' := by
  unfold Spec
  rw [hread s]
  exact h

theorem spec_value {α : Type} {x : M α} {P : Store → Prop} {f : α → Value} (h : Spec x s fun _ s' => P s') :
    Spec (do return f (← x) : M Value) s fun _ s' => P s' :=
  .bind h (fun _ _ h' => h') fun _ _ h' => h'

end

/-- The id that a call draws for a new key. -/
def Call.newId? (c : Call) : Option Uuid :=
  match c.op with
  | .generateKey .. | .importKeyMaterial .. | .rotateKey .. => some (c.env.uuid 0)
  | _ => none

/-- The key that an answer hands out. -/
def handedOut? (op : Op) (r : Except Abort Value) : Option KeyMeta :=
  match op, r with
  | .generateKey .., .ok (.keyMeta m) | .importKeyMaterial .., .ok (.keyMeta m) | .rotateKey .., .ok (.keyMeta m) =>
    some m
  | _, _ => none

/-- An import brings valid material, and an SM2 key is generated, or rotated to, from 32 bytes in range. -/
def BringsValid (crypto : Crypto) (s : Store) (c : Call) : Prop :=
  match c.op with
  | .generateKey spec _ _ => DrawsValid c.env spec
  | .importKeyMaterial spec _ _ material => ImportsValid spec material
  | .rotateKey keyId tenantId => ∀ e, (outcome (entryFor crypto c.env keyId tenantId) s).1 = .ok e →
    e.keyMeta.status.canRotate = true → DrawsValid c.env e.keyMeta.spec
  | _ => True

section

variable {crypto : Crypto} {kek : Bytes} {ids : List Uuid} {ms : List KeyMeta} {s : Store}

/-- The answer of a call that makes a key hands out the key it made. -/
theorem sound_of_made {x : M KeyMeta} {id : Uuid} (h : Spec x s (Made crypto kek ids ms id)) {op : Op}
    (hok : ∀ m, handedOut? op (.ok (.keyMeta m)) = some m) (herr : ∀ e, handedOut? op (.error e) = none) :
    Sound crypto kek (id :: ids) ((handedOut? op (outcome (do return .keyMeta (← x) : M Value) s).1).toList ++ ms)
      (outcome (do return .keyMeta (← x) : M Value) s).2 := by
  unfold Spec Made at h
  rw [outcome_bind]
  revert h
  rcases outcome x s with ⟨e | m, s'⟩ <;> intro h
  · rw [herr]
    exact h
  · dsimp only
    rw [outcome_pure, hok]
    exact h

theorem sound_step (hcrypto : crypto.Lawful) (h : Sound crypto kek ids ms s) {c : Call}
    (hfresh : ∀ u, c.newId? = some u → u ∉ ids) (hbrings : BringsValid crypto s c)
    (hkek : ∀ k, c.op = .restart k → k = kek) :
    Sound crypto kek (c.newId?.toList ++ ids) ((handedOut? c.op (call crypto s c).1).toList ++ ms)
    (call crypto s c).2 := by
  obtain ⟨env, op⟩ := c
  unfold call
  cases op with
  | generateKey spec name tenantId =>
    exact sound_of_made (spec_generateKey hcrypto h (hfresh _ rfl) hbrings) (fun _ => rfl) fun _ => rfl
  | importKeyMaterial spec name tenantId material =>
    exact sound_of_made (spec_importKeyMaterial hcrypto h (hfresh _ rfl) hbrings) (fun _ => rfl) fun _ => rfl
  | rotateKey keyId tenantId =>
    exact sound_of_made (spec_rotateKey hcrypto h (hfresh _ rfl) hbrings) (fun _ => rfl) fun _ => rfl
  | deleteKey keyId tenantId => exact spec_value (f := fun _ => Value.unit) (spec_deleteKey h)
  | destroyKey keyId =>
    refine spec_value (f := fun _ => Value.unit) ?_
    exact Spec.bind (spec_removeKey h) (fun _ _ h' => h') fun _ _ h' => h'
  | destroyKeyWithProof keyId =>
    refine spec_value (f := .proof) ?_
    exact Spec.bind (spec_removeKey h) (fun _ _ h' => h') fun _ _ h' => h'
  | getKeyMetadata keyId => exact spec_value (f := .keyMeta) (spec_readOnly h readOnly_getKeyMetadata)
  | encrypt keyId plaintext tenantId =>
    refine spec_value (f := .ciphertext) (spec_of_entryFor h fun e => ?_)
    split
    · exact readOnly_throw
    · exact readOnly_lift
  | decrypt keyId ciphertext tenantId =>
    refine spec_value (f := .bytes) (spec_of_entryFor h fun e => ?_)
    split
    · exact readOnly_throw
    · refine readOnly_bind ?_ fun _ => readOnly_lift
      split
      · exact readOnly_pure
      · exact readOnly_materialForVersion
  | sign keyId data tenantId =>
    refine spec_value (f := .signature) (spec_of_entryFor h fun e => ?_)
    split
    · exact readOnly_throw
    · exact readOnly_lift
  | verify keyId data sig tenantId => exact spec_value (f := .flag) (spec_of_entryFor h fun e => readOnly_lift)
  | exportKeyMaterial keyId tenantId =>
    refine spec_value (f := .bytes) (spec_of_entryFor h fun e => ?_)
    split
    · exact readOnly_throw
    · exact readOnly_pure
  | getKeyMaterial keyId tenantId => exact spec_value (f := .bytes) (spec_of_entryFor h fun e => readOnly_pure)
  | getKeyMaterialVersion keyId version tenantId =>
    refine spec_value (f := .bytes) (spec_of_entryFor h fun e => ?_)
    split
    · exact readOnly_pure
    · exact readOnly_materialForVersion
  | deriveSharedSecret keyId peerPublicKey algorithm tenantId =>
    exact spec_value (f := .secret) (spec_of_entryFor h fun e => readOnly_bind readOnly_lift fun _ => readOnly_pure)
  | listKeys filter => exact spec_value (f := .keyMetas) (spec_readOnly h readOnly_listKeys)
  | health => exact spec_value (f := .health) (spec_readOnly h readOnly_health)
  | loadKeys =>
    refine spec_value (f := fun _ => Value.unit) ?_
    exact Spec.bind (spec_spawnLoadKeys h) (fun _ _ h' => h') fun _ _ h' => h'
  | spawnLoadKeys => exact spec_value (f := .count) (spec_spawnLoadKeys h)
  | restart k =>
    obtain rfl := hkek k rfl
    refine ⟨rfl, h.db, fun id e he => ?_⟩
    replace he : (BoundedKeyCache.new s.keys.capacity).map[id]? = some e := he
    rw [BoundedKeyCache.getElem?_new] at he
    cases he

end

end GmKms.Keystore.Postgres
