import GmKms.Keystore.Transparency
import GmKms.Keystore.ValidMaterial
/-!
# Material in the tables and the cache

The invariant of a keystore whose material is valid: each row's material opens under the
key encryption key to a key of the row's specification, and a cached entry says what its
row says. What each statement and each method leave of it.
-/

namespace GmKms.Keystore.Postgres

open Lib Lib.Effect

/-- The bytes are valid as material of the specification that a row names. -/
def FitsSpec (spec : String) (material : Bytes) : Prop := ∀ s, specOfText spec = some s → ValidMaterial s material

/-- Encrypted material that opens to a key of the specification that a row names. -/
def Opens (crypto : Crypto) (kek : Bytes) (id : Uuid) (spec : String) (encrypted : Bytes) : Prop :=
  ∃ material, decryptMaterial crypto kek id encrypted = .ok material ∧ FitsSpec spec material

/-- The entry is of its row's tenant and specification, and its material is valid. -/
structure Matches (row : KeyRow) (e : KeyEntry) : Prop where
  tenantId : e.keyMeta.tenantId = row.tenantId
  spec : ∀ s, specOfText row.spec = some s → e.keyMeta.spec = s
  material : FitsSpec row.spec e.material

/-- The row of a key and its material are in the table. -/
def Persisted (db : Db) (m : KeyMeta) : Prop :=
  ∃ row encrypted, db.keys[m.id]? = some row ∧ row.tenantId = m.tenantId ∧ row.spec = m.spec.debug ∧
    row.encryptedMaterial = some encrypted

/-- The tables, with the ids that were drawn so far and the keys that were handed out. -/
structure SoundDb (crypto : Crypto) (kek : Bytes) (ids : List Uuid) (ms : List KeyMeta) (db : Db) : Prop where
  drawn : ∀ (id : Uuid) (row : KeyRow), db.keys[id]? = some row → id ∈ ids
  row : ∀ (id : Uuid) (row : KeyRow) encrypted, db.keys[id]? = some row → row.encryptedMaterial = some encrypted →
    Opens crypto kek id row.spec encrypted
  version : ∀ v ∈ db.keyVersions, ∃ row, db.keys[v.keyId]? = some row ∧
    ∀ encrypted, v.encryptedDek = some encrypted → Opens crypto kek v.keyId row.spec encrypted
  persisted : ∀ m ∈ ms, Persisted db m

/-- A cached entry is under its id and says what its row says; and no SM2 key is out of range, also without a row. -/
structure SoundEntry (ids : List Uuid) (db : Db) (id : Uuid) (e : KeyEntry) : Prop where
  drawn : id ∈ ids
  id_eq : e.keyMeta.id = id
  sm2 : e.keyMeta.spec = .sm2 → Sm2Scalar e.material
  row : ∀ row, db.keys[id]? = some row → Matches row e

structure Sound (crypto : Crypto) (kek : Bytes) (ids : List Uuid) (ms : List KeyMeta) (s : Store) : Prop where
  kek_eq : s.kek = kek
  db : SoundDb crypto kek ids ms s.db
  cache : ∀ id e, s.keys.map[id]? = some e → SoundEntry ids s.db id e

/-! ## Statements -/

/-- The tables hold the same keys with the same material, in other states. -/
structure SameKeys (db db' : Db) : Prop where
  after : ∀ (id : Uuid) (row' : KeyRow), db'.keys[id]? = some row' → ∃ row, db.keys[id]? = some row ∧
    row'.tenantId = row.tenantId ∧ row'.spec = row.spec ∧ row'.encryptedMaterial = row.encryptedMaterial
  before : ∀ (id : Uuid) (row : KeyRow), db.keys[id]? = some row → ∃ row', db'.keys[id]? = some row' ∧
    row'.tenantId = row.tenantId ∧ row'.spec = row.spec ∧ row'.encryptedMaterial = row.encryptedMaterial
  versions : ∀ v' ∈ db'.keyVersions, ∃ v ∈ db.keyVersions, v'.keyId = v.keyId ∧ v'.encryptedDek = v.encryptedDek

section

variable {crypto : Crypto} {kek : Bytes} {ids : List Uuid} {ms : List KeyMeta} {db db' : Db}

theorem keys_updateLive_cases {id k : Uuid} {f : KeyRow → KeyRow} {row' : KeyRow}
    (h : (db.updateLive id f).keys[k]? = some row') :
    db.keys[k]? = some row' ∨ id = k ∧ ∃ row, db.keys[k]? = some row ∧ row' = f row := by
  rw [Db.keys_updateLive, Option.map_eq_some_iff] at h
  obtain ⟨row, hrow, rfl⟩ := h
  split
  · rename_i hid
    exact .inr ⟨hid.1, row, hrow, rfl⟩
  · exact .inl hrow

theorem exists_keys_updateLive {id k : Uuid} {f : KeyRow → KeyRow} {row : KeyRow} (h : db.keys[k]? = some row) :
    ∃ row', (db.updateLive id f).keys[k]? = some row' ∧ (row' = row ∨ row' = f row) := by
  refine ⟨_, Db.keys_updateLive_of_some h, ?_⟩
  split
  · exact .inr rfl
  · exact .inl rfl

theorem sameKeys_updateLive (id : Uuid) {f : KeyRow → KeyRow} (hf : ∀ row, (f row).tenantId = row.tenantId ∧
    (f row).spec = row.spec ∧ (f row).encryptedMaterial = row.encryptedMaterial) :
    SameKeys db (db.updateLive id f) where
  after k row' h := by
    rcases keys_updateLive_cases h with hrow | ⟨-, row, hrow, rfl⟩
    · exact ⟨row', hrow, rfl, rfl, rfl⟩
    · exact ⟨row, hrow, hf row⟩
  before k row h := by
    obtain ⟨row', h', hsame⟩ : ∃ row', (db.updateLive id f).keys[k]? = some row' ∧ (row' = row ∨ row' = f row) :=
      exists_keys_updateLive h
    refine ⟨row', h', ?_⟩
    rcases hsame with rfl | rfl
    · exact ⟨rfl, rfl, rfl⟩
    · exact hf row
  versions v hv := by
    rw [Db.keyVersions_updateLive] at hv
    exact ⟨v, hv, rfl, rfl⟩

theorem sameKeys_updateVersionRotatedAt (now : DateTime) (id : Uuid) (version : UInt32) :
    SameKeys db (db.updateVersionRotatedAt now id version) where
  after _ row h := ⟨row, h, rfl, rfl, rfl⟩
  before _ row h := ⟨row, h, rfl, rfl, rfl⟩
  versions v' hv := by
    obtain ⟨v, hmem, rfl⟩ := List.mem_map.1 hv
    refine ⟨v, hmem, ?_⟩
    split <;> exact ⟨rfl, rfl⟩

theorem SoundDb.of_sameKeys (h : SoundDb crypto kek ids ms db) (hsame : SameKeys db db') :
    SoundDb crypto kek ids ms db' where
  drawn id row' hrow' := by
    obtain ⟨row, hrow, -⟩ := hsame.after id row' hrow'
    exact h.drawn id row hrow
  row id row' encrypted hrow' hencrypted := by
    obtain ⟨row, hrow, -, hspec, hmaterial⟩ := hsame.after id row' hrow'
    rw [hspec]
    exact h.row id row encrypted hrow (hmaterial ▸ hencrypted)
  version v' hv' := by
    obtain ⟨v, hv, hkey, hdek⟩ := hsame.versions v' hv'
    obtain ⟨row, hrow, hopens⟩ := h.version v hv
    obtain ⟨row', hrow', -, hspec, -⟩ := hsame.before v.keyId row hrow
    rw [hkey, hdek]
    refine ⟨row', hrow', ?_⟩
    rw [hspec]
    exact hopens
  persisted m hm := by
    obtain ⟨row, encrypted, hrow, htenant, hspec, hmaterial⟩ := h.persisted m hm
    obtain ⟨row', hrow', htenant', hspec', hmaterial'⟩ := hsame.before m.id row hrow
    exact ⟨row', encrypted, hrow', htenant'.trans htenant, hspec'.trans hspec, hmaterial'.trans hmaterial⟩

/-- The row of a cached entry stays that of its tenant and specification. -/
theorem SoundEntry.of_rows {id : Uuid} {e : KeyEntry} (h : SoundEntry ids db id e)
    (hrows : ∀ row', db'.keys[id]? = some row' → ∃ row, db.keys[id]? = some row ∧ row'.tenantId = row.tenantId ∧
      row'.spec = row.spec) : SoundEntry ids db' id e where
  drawn := h.drawn
  id_eq := h.id_eq
  sm2 := h.sm2
  row row' hrow' := by
    obtain ⟨row, hrow, htenant, hspec⟩ := hrows row' hrow'
    obtain ⟨h₁, h₂, h₃⟩ := h.row row hrow
    refine ⟨h₁.trans htenant.symm, ?_, ?_⟩
    · rw [hspec]
      exact h₂
    · rw [hspec]
      exact h₃

theorem keys_of_insert {m : KeyMeta} (h : db.insert m = .ok db') : db.keys[m.id]? = none ∧
    db'.keyVersions = db.keyVersions ∧ ∀ k : Uuid, db'.keys[k]? = if m.id = k then some (.ofMeta m)
      else db.keys[k]? := by
  unfold Db.insert at h
  split_ifs at h with hnul hkey
  cases h
  refine ⟨by simpa using hkey, rfl, fun k => ?_⟩
  simp [Std.ExtTreeMap.getElem?_insert]

theorem SoundDb.insert (h : SoundDb crypto kek ids ms db) {m : KeyMeta} (hdrawn : m.id ∈ ids)
    (hinsert : db.insert m = .ok db') : SoundDb crypto kek ids ms db' := by
  obtain ⟨hfresh, hversions, hkeys⟩ := keys_of_insert hinsert
  have hother : ∀ (k : Uuid) (row : KeyRow), db.keys[k]? = some row → db'.keys[k]? = some row := by
    intro k row hrow
    rw [hkeys, if_neg, hrow]
    rintro rfl
    rw [hfresh] at hrow
    cases hrow
  refine ⟨fun id row hrow => ?_, fun id row encrypted hrow hencrypted => ?_, fun v hv => ?_, fun m' hm' => ?_⟩
  · rw [hkeys] at hrow
    split at hrow
    · rename_i hid
      exact hid ▸ hdrawn
    · exact h.drawn id row hrow
  · rw [hkeys] at hrow
    split at hrow
    · -- the new row has no material yet
      rw [← Option.some.inj hrow] at hencrypted
      cases hencrypted
    · exact h.row id row encrypted hrow hencrypted
  · rw [hversions] at hv
    obtain ⟨row, hrow, hopens⟩ := h.version v hv
    exact ⟨row, hother _ _ hrow, hopens⟩
  · obtain ⟨row, encrypted, hrow, hrest⟩ := h.persisted m' hm'
    exact ⟨row, encrypted, hother _ _ hrow, hrest⟩

theorem SoundDb.updateEncryptedMaterial (h : SoundDb crypto kek ids ms db) {id : Uuid} {encrypted : Bytes}
    (hopens : ∀ row, db.keys[id]? = some row → Opens crypto kek id row.spec encrypted) :
    SoundDb crypto kek ids ms (db.updateEncryptedMaterial id encrypted) where
  drawn k row' hrow' := by
    rcases keys_updateLive_cases hrow' with hrow | ⟨-, row, hrow, -⟩
    · exact h.drawn k row' hrow
    · exact h.drawn k row hrow
  row k row' encrypted' hrow' hencrypted := by
    rcases keys_updateLive_cases hrow' with hrow | ⟨rfl, row, hrow, rfl⟩
    · exact h.row k row' encrypted' hrow hencrypted
    · obtain rfl := Option.some.inj hencrypted
      exact hopens row hrow
  version v hv := by
    rw [Db.updateEncryptedMaterial, Db.keyVersions_updateLive] at hv
    obtain ⟨row, hrow, hopened⟩ := h.version v hv
    obtain ⟨row', hrow', hsame⟩ : ∃ row', (db.updateEncryptedMaterial id encrypted).keys[v.keyId]? = some row' ∧
      (row' = row ∨ row' = { row with encryptedMaterial := some encrypted }) := exists_keys_updateLive hrow
    refine ⟨row', hrow', ?_⟩
    rcases hsame with rfl | rfl <;> exact hopened
  persisted m hm := by
    obtain ⟨row, encrypted', hrow, htenant, hspec, hmaterial⟩ := h.persisted m hm
    obtain ⟨row', hrow', hsame⟩ : ∃ row', (db.updateEncryptedMaterial id encrypted).keys[m.id]? = some row' ∧
      (row' = row ∨ row' = { row with encryptedMaterial := some encrypted }) := exists_keys_updateLive hrow
    rcases hsame with rfl | rfl
    · exact ⟨row', encrypted', hrow', htenant, hspec, hmaterial⟩
    · exact ⟨_, encrypted, hrow', htenant, hspec, rfl⟩

theorem SoundDb.insertVersion (h : SoundDb crypto kek ids ms db) {rowId keyId : Uuid} {now : DateTime}
    {version : UInt32}
    {dek : Bytes} {status : String} (hinsert : db.insertVersion rowId now keyId version (some dek) status = .ok db')
    (hopens : ∀ row, db.keys[keyId]? = some row → Opens crypto kek keyId row.spec dek) :
    SoundDb crypto kek ids ms db' ∧ db'.keys = db.keys := by
  unfold Db.insertVersion at hinsert
  split_ifs at hinsert with hpkey hunique hkey
  cases hinsert
  refine ⟨⟨h.drawn, h.row, fun v hv => ?_, h.persisted⟩, rfl⟩
  rcases List.mem_append.1 hv with hv | hv
  · exact h.version v hv
  · rw [List.mem_singleton.1 hv]
    obtain ⟨row, hrow⟩ := Option.isSome_iff_exists.1 (Std.ExtTreeMap.mem_iff_isSome_getElem?.1 hkey)
    refine ⟨row, hrow, fun encrypted hencrypted => ?_⟩
    obtain rfl := Option.some.inj hencrypted
    exact hopens row hrow

theorem SoundEntry.of_sameKeys {id : Uuid} {e : KeyEntry} (h : SoundEntry ids db id e) (hsame : SameKeys db db') :
    SoundEntry ids db' id e :=
  h.of_rows fun row' hrow' => by
    obtain ⟨row, hrow, htenant, hspec, -⟩ := hsame.after id row' hrow'
    exact ⟨row, hrow, htenant, hspec⟩

theorem SoundEntry.of_updateEncryptedMaterial {id k : Uuid} {e : KeyEntry} {encrypted : Bytes}
    (h : SoundEntry ids db k e) : SoundEntry ids (db.updateEncryptedMaterial id encrypted) k e :=
  h.of_rows fun row' hrow' => by
    rcases keys_updateLive_cases hrow' with hrow | ⟨-, row, hrow, rfl⟩
    · exact ⟨row', hrow, rfl, rfl⟩
    · exact ⟨row, hrow, rfl, rfl⟩

theorem SoundEntry.of_insert {k : Uuid} {e : KeyEntry} {m : KeyMeta} (h : SoundEntry ids db k e) (hne : k ≠ m.id)
    (hinsert : db.insert m = .ok db') : SoundEntry ids db' k e :=
  h.of_rows fun row' hrow' => by
    rw [(keys_of_insert hinsert).2.2, if_neg hne.symm] at hrow'
    exact ⟨row', hrow', rfl, rfl⟩

theorem SoundEntry.withStatus {id : Uuid} {e : KeyEntry} (h : SoundEntry ids db id e) (status : KeyStatus) :
    SoundEntry ids db id (e.withStatus status) where
  drawn := h.drawn
  id_eq := h.id_eq
  sm2 := h.sm2
  row row hrow := by
    obtain ⟨h₁, h₂, h₃⟩ := h.row row hrow
    exact ⟨h₁, h₂, h₃⟩

end

/-! ## The cache -/

namespace Sound

variable {crypto : Crypto} {kek : Bytes} {ids ids' : List Uuid} {ms ms' : List KeyMeta} {s : Store}

/-- More ids may have been drawn, and fewer keys handed out. -/
theorem mono (h : Sound crypto kek ids ms s) (hids : ids ⊆ ids') (hms : ms' ⊆ ms) : Sound crypto kek ids' ms' s where
  kek_eq := h.kek_eq
  db := ⟨fun id row hrow => hids (h.db.drawn id row hrow), h.db.row, h.db.version, fun m hm =>
    h.db.persisted m (hms hm)⟩
  cache id e he := by
    obtain ⟨h₁, h₂, h₃, h₄⟩ := h.cache id e he
    exact ⟨hids h₁, h₂, h₃, h₄⟩

theorem withDb (h : Sound crypto kek ids ms s) {db : Db} (hdb : SoundDb crypto kek ids ms' db)
    (hcache : ∀ id e, s.keys.map[id]? = some e → SoundEntry ids s.db id e → SoundEntry ids db id e) :
    Sound crypto kek ids ms' { s with db } where
  kek_eq := h.kek_eq
  db := hdb
  cache id e he := hcache id e he (h.cache id e he)

theorem sameKeys (h : Sound crypto kek ids ms s) {db : Db} (hsame : SameKeys s.db db) :
    Sound crypto kek ids ms { s with db } :=
  h.withDb (h.db.of_sameKeys hsame) fun _ _ _ he => he.of_sameKeys hsame

theorem cached (h : Sound crypto kek ids ms s) {id : Uuid} {e : KeyEntry} (he : SoundEntry ids s.db id e) :
    Sound crypto kek ids ms { s with keys := s.keys.insertWithEviction id e } where
  kek_eq := h.kek_eq
  db := h.db
  cache id' e' he' := by
    have hfound := BoundedKeyCache.of_getElem?_insertWithEviction he'
    split at hfound
    · rename_i hid
      subst hid
      obtain rfl := Option.some.inj hfound
      exact he
    · exact h.cache id' e' hfound

theorem setStatus (h : Sound crypto kek ids ms s) (id : Uuid) (status : KeyStatus) :
    Sound crypto kek ids ms { s with keys := s.keys.mutate id (·.withStatus status) } where
  kek_eq := h.kek_eq
  db := h.db
  cache id' e' he' := by
    rw [BoundedKeyCache.getElem?_mutate] at he'
    split at he'
    · rename_i hid
      subst hid
      obtain ⟨e, he, rfl⟩ := Option.map_eq_some_iff.1 he'
      exact (h.cache id e he).withStatus status
    · exact h.cache id' e' he'

theorem removed (h : Sound crypto kek ids ms s) (id : Uuid) :
    Sound crypto kek ids ms { s with keys := (s.keys.remove id).2 } where
  kek_eq := h.kek_eq
  db := h.db
  cache id' e' he' := by
    rw [BoundedKeyCache.getElem?_remove] at he'
    split at he'
    · cases he'
    · exact h.cache id' e' he'

end Sound

end GmKms.Keystore.Postgres
