import GmKms.Keystore.PostgresCalls
/-!
# Cache entries and database rows

When a cache entry says what its row says, and what the cache of a bounded
keystore has to do with the cache of an unbounded one over the same database.
-/

namespace GmKms.Keystore.Postgres

open Lib Lib.Effect

/-! ## Metadata across the database -/

/-- The metadata as it comes back from the row it is written to. -/
def stored (m : KeyMeta) : KeyMeta := (KeyRow.ofMeta m).toMeta m.id

section

variable (m : KeyMeta)

@[simp] theorem tenantId_stored : (stored m).tenantId = m.tenantId := rfl

@[simp] theorem status_stored : (stored m).status = m.status := by
  simp [stored, KeyRow.ofMeta, KeyRow.toMeta, statusOfText_debug]

@[simp] theorem version_stored : (stored m).version = m.version := by
  simp [stored, KeyRow.ofMeta, KeyRow.toMeta]

theorem spec_stored (h : specOfText m.spec.debug = some m.spec) : (stored m).spec = m.spec := by
  simp [stored, KeyRow.ofMeta, KeyRow.toMeta, h]

/-- The columns hold the metadata exactly: the repository knows the specification
by name and the times are whole microseconds. -/
structure Storable : Prop where
  spec : specOfText m.spec.debug = some m.spec
  createdAt : pgTimestamp m.createdAt = m.createdAt
  rotatedAt : m.rotatedAt.map pgTimestamp = m.rotatedAt

variable {m}

theorem stored_eq_self (h : Storable m) (hmetadata : m.metadata = .default) : stored m = m := by
  simp only [stored, KeyRow.toMeta, KeyRow.ofMeta, h.spec, h.createdAt, h.rotatedAt, hmetadata, Option.getD_some,
    statusOfText_debug, Option.bind_some, KeyMetadata.fromValue_toValue_default, UInt32.toUInt32_toInt32]
  rw [← hmetadata]

end

theorem toMeta_withStatus (id : Uuid) (row : KeyRow) (status : KeyStatus) :
    KeyRow.toMeta id { row with status := status.debug } = { row.toMeta id with status } := by
  simp [KeyRow.toMeta, statusOfText_debug]

/-- The row says of the entry what a reload would find: its metadata, exactly or as
stored, and its material under the key encryption key. -/
structure Fits (crypto : Crypto) (kek : Bytes) (id : Uuid) (row : KeyRow) (entry : KeyEntry) : Prop where
  keyMeta : row.toMeta id = entry.keyMeta ∨ row.toMeta id = stored entry.keyMeta
  metadata : entry.keyMeta.metadata = .default
  material : ∃ encrypted, row.encryptedMaterial = some encrypted ∧
    decryptMaterial crypto kek id encrypted = .ok entry.material

section

variable {crypto : Crypto} {kek : Bytes} {id : Uuid} {row : KeyRow} {entry : KeyEntry}

theorem Fits.tenantId (h : Fits crypto kek id row entry) : (row.toMeta id).tenantId = entry.keyMeta.tenantId := by
  rcases h.keyMeta with h | h <;> rw [h]
  rfl

theorem Fits.id_eq (h : Fits crypto kek id row entry) : entry.keyMeta.id = id := by
  rcases h.keyMeta with h' | h' <;> exact (congrArg KeyMeta.id h').symm

/-- The statuses of both sides may change together. -/
theorem Fits.withStatus (h : Fits crypto kek id row entry) (status : KeyStatus) :
    Fits crypto kek id { row with status := status.debug } (entry.withStatus status) := by
  refine ⟨?_, h.metadata, h.material⟩
  rw [toMeta_withStatus]
  rcases h.keyMeta with h' | h' <;> rw [h']
  · exact .inl rfl
  · refine .inr ?_
    simp [stored, KeyRow.ofMeta, KeyRow.toMeta, statusOfText_debug, KeyEntry.withStatus]

end

/-! ## Encrypted material -/

@[simp] theorem length_of_fill {env : Env} {n len : ℕ} {bytes : Bytes} (h : fill env n len = some bytes) :
    bytes.length = len := by
  unfold fill at h
  cases hr : env.random n with
  | none => simp [hr] at h
  | some f =>
    rw [hr, Option.map_some, Option.some.injEq] at h
    simp [← h]

/-- What is encrypted under the key encryption key is decrypted under it. -/
theorem decrypt_encryptMaterial {crypto : Crypto} (hc : crypto.Lawful) {env : Env} {n : ℕ} {kek : Bytes} {id : Uuid}
    {material encrypted : Bytes} (h : encryptMaterial crypto env n kek id material = .ok encrypted) :
    decryptMaterial crypto kek id encrypted = .ok material := by
  unfold encryptMaterial at h
  cases hkey : crypto.aesUnboundKey kek with
  | error e => simp [hkey] at h
  | ok _ =>
    cases hnonce : fill env n 12 with
    | none => simp [hkey, hnonce] at h
    | some nonce =>
      rcases hseal : crypto.aesSeal kek nonce (kekWrapAad id) material with e | ⟨ciphertext, tag⟩
      · simp [hkey, hnonce, hseal] at h
      · simp only [hkey, hnonce, hseal, Except.ok.injEq] at h
        have hlen := length_of_fill hnonce
        have htag := hc.tag_length hseal
        have hshort : ¬ encrypted.length < 12 + 16 := by
          rw [← h]
          simp [hlen, htag]
          omega
        have htake : encrypted.take 12 = nonce := by
          rw [← h, List.append_assoc, ← hlen, List.take_left]
        have hdrop : encrypted.drop 12 = ciphertext ++ tag := by
          rw [← h, List.append_assoc, ← hlen, List.drop_left]
        simp only [decryptMaterial, if_neg hshort, hkey, htake, hdrop, hc.open_seal hseal]

/-- If encryption succeeded once in a call whose fills succeed, it succeeds again. -/
theorem encryptMaterial_again {crypto : Crypto} (hc : crypto.Lawful) {env : Env} (hrandom : ∀ n, env.random n ≠ none)
    {n : ℕ} {kek : Bytes} {id : Uuid} {material encrypted : Bytes}
    (h : encryptMaterial crypto env n kek id material = .ok encrypted) (n' : ℕ) (id' : Uuid) (material' : Bytes) :
    ∃ encrypted', encryptMaterial crypto env n' kek id' material' = .ok encrypted' := by
  unfold encryptMaterial at h ⊢
  cases hkey : crypto.aesUnboundKey kek with
  | error e => simp [hkey] at h
  | ok _ =>
    obtain ⟨f, hf⟩ := Option.ne_none_iff_exists'.1 (hrandom n')
    have hfill : fill env n' 12 = some ((List.range 12).map f) := by simp [fill, hf]
    obtain ⟨⟨ciphertext, tag⟩, hseal⟩ := hc.seal_total hkey ((List.range 12).map f) (kekWrapAad id') material'
    simp only [hfill, hseal]
    exact ⟨_, rfl⟩

/-! ## The tables -/

/-- What the keystore maintains in its tables: metadata columns hold the default, a
version belongs to a key, and a key with a version is obsolete. -/
structure DbInv (db : Db) : Prop where
  metadata : ∀ id row, db.live id = some row → row.metadata = some (KeyMetadata.toValue .default)
  version_key : ∀ v ∈ db.keyVersions, v.keyId ∈ db.keys
  version_obsolete : ∀ v ∈ db.keyVersions, ∀ row, db.live v.keyId = some row → row.status = KeyStatus.debug .obsolete

theorem dbInv_empty : DbInv .empty where
  metadata id row h := by simp [Db.live, Db.empty] at h
  version_key v hv := by simp [Db.empty] at hv
  version_obsolete v hv := by simp [Db.empty] at hv

theorem DbInv.metadata_toMeta {db : Db} (h : DbInv db) {id : Uuid} {row : KeyRow} (hlive : db.live id = some row) :
    (row.toMeta id).metadata = .default := by
  simp [KeyRow.toMeta, h.metadata id row hlive, KeyMetadata.fromValue_toValue_default]

theorem mem_keys_updateLive {db : Db} {id k : Uuid} {f : KeyRow → KeyRow} :
    k ∈ (db.updateLive id f).keys ↔ k ∈ db.keys := by
  rw [Std.ExtTreeMap.mem_iff_isSome_getElem?, Std.ExtTreeMap.mem_iff_isSome_getElem?, Db.keys_updateLive,
    Option.isSome_map]

/-- An update that leaves the metadata column and the status `Obsolete` alone. -/
theorem DbInv.updateLive {db : Db} (h : DbInv db) {id : Uuid} {f : KeyRow → KeyRow}
    (hmetadata : ∀ row, (f row).metadata = row.metadata)
    (hstatus : ∀ row, row.status = KeyStatus.debug .obsolete → (f row).status = KeyStatus.debug .obsolete) :
    DbInv (db.updateLive id f) := by
  have hlive : ∀ k row', (db.updateLive id f).live k = some row' →
      ∃ row, db.live k = some row ∧ (row' = row ∨ row' = f row) := by
    intro k row' hrow'
    rw [Db.live_updateLive] at hrow'
    split at hrow'
    · rename_i hk
      subst hk
      obtain ⟨hmap, -⟩ := Option.filter_eq_some_iff.1 hrow'
      obtain ⟨row, hrow, rfl⟩ := Option.map_eq_some_iff.1 hmap
      exact ⟨row, hrow, .inr rfl⟩
    · exact ⟨row', hrow', .inl rfl⟩
  refine ⟨fun k row' hrow' => ?_, fun v hv => ?_, fun v hv row' hrow' => ?_⟩
  · obtain ⟨row, hrow, rfl | rfl⟩ := hlive k row' hrow'
    · exact h.metadata k row' hrow
    · rw [hmetadata, h.metadata k row hrow]
  · rw [Db.keyVersions_updateLive] at hv
    exact mem_keys_updateLive.2 (h.version_key v hv)
  · rw [Db.keyVersions_updateLive] at hv
    obtain ⟨row, hrow, rfl | rfl⟩ := hlive v.keyId row' hrow'
    · exact h.version_obsolete v hv row' hrow
    · exact hstatus row (h.version_obsolete v hv row hrow)

theorem DbInv.insert {db db' : Db} (h : DbInv db) {m : KeyMeta} (hinsert : db.insert m = .ok db')
    (hmetadata : m.metadata = .default) : DbInv db' := by
  have hlive := Db.live_insert hinsert
  have hfresh : m.id ∉ db.keys ∧ db'.keyVersions = db.keyVersions ∧ ∀ k ∈ db.keys, k ∈ db'.keys := by
    unfold Db.insert at hinsert
    split at hinsert
    · cases hinsert
    · split at hinsert
      · cases hinsert
      · rename_i hfresh
        cases hinsert
        exact ⟨hfresh, rfl, fun k hk => by simp [hk]⟩
  obtain ⟨hfresh, hversions, hmem⟩ := hfresh
  refine ⟨fun k row hrow => ?_, fun v hv => ?_, fun v hv row hrow => ?_⟩
  · rw [hlive k] at hrow
    split at hrow
    · cases hrow
      simp [KeyRow.ofMeta, hmetadata]
    · exact h.metadata k row hrow
  · rw [hversions] at hv
    exact hmem _ (h.version_key v hv)
  · rw [hversions] at hv
    rw [hlive v.keyId, if_neg] at hrow
    · exact h.version_obsolete v hv row hrow
    · intro heq
      rw [heq] at hfresh
      exact hfresh (h.version_key v hv)

/-- A version may be recorded of a key that is obsolete. -/
theorem DbInv.insertVersion {db db' : Db} (h : DbInv db) {rowId keyId : Uuid} {now : DateTime} {version : UInt32}
    {dek : Option Bytes} {status : String} (hinsert : db.insertVersion rowId now keyId version dek status = .ok db')
    (hobsolete : ∀ row, db.live keyId = some row → row.status = KeyStatus.debug .obsolete) :
    DbInv db' ∧ ∀ k, db'.live k = db.live k := by
  unfold Db.insertVersion at hinsert
  split_ifs at hinsert with hpkey hunique hkey
  cases hinsert
  refine ⟨⟨h.metadata, fun v hv => ?_, fun v hv row hrow => ?_⟩, fun _ => rfl⟩
  · rcases List.mem_append.1 hv with hv | hv
    · exact h.version_key v hv
    · rw [List.mem_singleton.1 hv]
      exact hkey
  · rcases List.mem_append.1 hv with hv | hv
    · exact h.version_obsolete v hv row hrow
    · rw [List.mem_singleton.1 hv] at hrow
      exact hobsolete row hrow

theorem DbInv.updateVersionRotatedAt {db : Db} (h : DbInv db) (now : DateTime) (keyId : Uuid) (version : UInt32) :
    DbInv (db.updateVersionRotatedAt now keyId version) := by
  have hkeyId : ∀ v ∈ (db.updateVersionRotatedAt now keyId version).keyVersions,
      ∃ v' ∈ db.keyVersions, v.keyId = v'.keyId := by
    intro v hv
    obtain ⟨v', hv', rfl⟩ := List.mem_map.1 hv
    refine ⟨v', hv', ?_⟩
    split <;> rfl
  refine ⟨h.metadata, fun v hv => ?_, fun v hv row hrow => ?_⟩
  · obtain ⟨v', hv', heq⟩ := hkeyId v hv
    rw [heq]
    exact h.version_key v' hv'
  · obtain ⟨v', hv', heq⟩ := hkeyId v hv
    rw [heq] at hrow
    exact h.version_obsolete v' hv' row hrow

/-- A version that is new by its row id and belongs to a key is only refused where the
key has a version. -/
theorem exists_version_of_insertVersion_error {db : Db} {rowId keyId : Uuid} {now : DateTime} {version : UInt32}
    {dek : Option Bytes} {status e : String} (h : db.insertVersion rowId now keyId version dek status = .error e)
    (hrowId : ∀ v ∈ db.keyVersions, v.id ≠ rowId) (hkey : keyId ∈ db.keys) :
    ∃ v ∈ db.keyVersions, v.keyId = keyId := by
  unfold Db.insertVersion at h
  split at h
  · rename_i hpkey
    obtain ⟨v, hv, heq⟩ := List.any_eq_true.1 hpkey
    exact absurd (of_decide_eq_true heq) (hrowId v hv)
  · split at h
    · rename_i hunique
      obtain ⟨v, hv, heq⟩ := List.any_eq_true.1 hunique
      simp only [Bool.and_eq_true, decide_eq_true_eq] at heq
      exact ⟨v, hv, heq.1⟩
    · cases h

/-! ## Two caches over one database -/

/-- The entry `e` as a bounded cache may hold it where an unbounded one holds `e'`: the
same, or reloaded. -/
def Like (e e' : KeyEntry) : Prop :=
  e = e' ∨ e.material = e'.material ∧ e.keyMeta = stored e'.keyMeta

/-- The entries `ls` of a bounded cache and `lt` of an unbounded one over the same tables. -/
structure Agree (crypto : Crypto) (db : Db) (kek : Bytes) (ls lt : Uuid → Option KeyEntry) : Prop where
  resident : ∀ id e, ls id = some e → ∃ e', lt id = some e' ∧ e.keyMeta.tenantId = e'.keyMeta.tenantId ∧
    ∀ row, db.live id = some row → e = e' ∨ row.toMeta id = e.keyMeta
  left : ∀ id e row, ls id = some e → db.live id = some row → Fits crypto kek id row e
  right : ∀ id e row, lt id = some e → db.live id = some row → Fits crypto kek id row e

section

variable {crypto : Crypto} {db db' : Db} {kek : Bytes} {ls lt ls' lt' : Uuid → Option KeyEntry} {id : Uuid}

/-- What a row that fits an entry is loaded as is like that entry. -/
theorem Fits.like {row : KeyRow} {e e' : KeyEntry} (h : Fits crypto kek id row e) (h' : Fits crypto kek id row e')
    (hmeta : row.toMeta id = e.keyMeta) : Like e e' := by
  obtain ⟨enc, henc, hdec⟩ := h.material
  obtain ⟨enc', henc', hdec'⟩ := h'.material
  rw [henc] at henc'
  cases henc'
  rw [hdec] at hdec'
  have hmaterial : e.material = e'.material := by injection hdec'
  rcases h'.keyMeta with hkeyMeta | hkeyMeta <;> rw [hmeta] at hkeyMeta
  · left
    cases e
    cases e'
    simp_all
  · exact .inr ⟨hmaterial, hkeyMeta⟩

/-- Entries of one key that has a row are alike in both caches. -/
theorem Agree.like (h : Agree crypto db kek ls lt) {e e' : KeyEntry} {row : KeyRow} (hs : ls id = some e)
    (ht : lt id = some e') (hlive : db.live id = some row) : Like e e' := by
  obtain ⟨e'', ht', -, heq⟩ := h.resident id e hs
  rw [ht] at ht'
  cases ht'
  rcases heq row hlive with heq | hmeta
  · exact .inl heq
  · exact (h.left id e row hs hlive).like (h.right id e' row ht hlive) hmeta

/-- The tables may change where no cached key is concerned. -/
theorem Agree.of_live_eq (h : Agree crypto db kek ls lt) (hlive : ∀ id e, lt id = some e → db'.live id = db.live id) :
    Agree crypto db' kek ls lt where
  resident id e hs := by
    obtain ⟨e', ht, htenant, heq⟩ := h.resident id e hs
    rw [← hlive id e' ht] at heq
    exact ⟨e', ht, htenant, heq⟩
  left id e row hs hrow := by
    obtain ⟨e', ht, -⟩ := h.resident id e hs
    exact h.left id e row hs (by rw [← hrow, hlive id e' ht])
  right id e row ht hrow := h.right id e row ht (by rw [← hrow, hlive id e ht])

/-- An entry is cached on the right and perhaps on the left, while no other key's row
changes and its own fits the entry. -/
theorem Agree.insert (h : Agree crypto db kek ls lt) {entry : KeyEntry}
    (hs : ∀ k e, ls' k = some e → (if id = k then some entry else ls k) = some e)
    (ht : ∀ k, lt' k = if id = k then some entry else lt k) (hother : ∀ k, id ≠ k → db'.live k = db.live k)
    (hfits : ∀ row, db'.live id = some row → Fits crypto kek id row entry) : Agree crypto db' kek ls' lt' where
  resident k e hk := by
    have := hs k e hk
    rw [ht k]
    split at this
    · rename_i heq
      cases this
      exact ⟨entry, if_pos heq, rfl, fun _ _ => .inl rfl⟩
    · rename_i hne
      rw [if_neg hne, hother k hne]
      exact h.resident k e this
  left k e row hk hrow := by
    have := hs k e hk
    split at this
    · rename_i heq
      subst heq
      cases this
      exact hfits row hrow
    · rename_i hne
      exact h.left k e row this (by rw [← hrow, hother k hne])
  right k e row hk hrow := by
    rw [ht k] at hk
    split at hk
    · rename_i heq
      subst heq
      cases hk
      exact hfits row hrow
    · rename_i hne
      exact h.right k e row hk (by rw [← hrow, hother k hne])

/-- A reloaded entry takes a place on the left that is taken on the right. -/
theorem Agree.reload (h : Agree crypto db kek ls lt) {entry e' : KeyEntry} {row : KeyRow}
    (hs : ∀ k e, ls' k = some e → (if id = k then some entry else ls k) = some e) (ht : lt id = some e')
    (hlive : db.live id = some row) (hfits : Fits crypto kek id row entry) (hmeta : row.toMeta id = entry.keyMeta) :
    Agree crypto db kek ls' lt where
  resident k e hk := by
    have := hs k e hk
    split at this
    · rename_i heq
      subst heq
      cases this
      refine ⟨e', ht, ?_, fun row' hlive' => .inr ?_⟩
      · rw [← hmeta, (h.right id e' row ht hlive).tenantId]
      · rw [hlive] at hlive'
        cases hlive'
        exact hmeta
    · exact h.resident k e this
  left k e row' hk hrow := by
    have := hs k e hk
    split at this
    · rename_i heq
      subst heq
      cases this
      rw [hlive] at hrow
      cases hrow
      exact hfits
    · exact h.left k e row' this hrow
  right := h.right

/-- A key's status changes in both caches, and in its row unless that is gone. -/
theorem Agree.setStatus (h : Agree crypto db kek ls lt) {status : KeyStatus}
    (hs : ∀ k, ls' k = if id = k then (ls id).map (·.withStatus status) else ls k)
    (ht : ∀ k, lt' k = if id = k then (lt id).map (·.withStatus status) else lt k)
    (hother : ∀ k, id ≠ k → db'.live k = db.live k)
    (hrow : ∀ row', db'.live id = some row' →
      ∃ row, db.live id = some row ∧ row' = { row with status := status.debug }) :
    Agree crypto db' kek ls' lt' where
  resident k e hk := by
    rw [hs k] at hk
    rw [ht k]
    split at hk
    · rename_i heq
      subst heq
      obtain ⟨e₀, he₀, rfl⟩ := Option.map_eq_some_iff.1 hk
      obtain ⟨e', ht', htenant, hres⟩ := h.resident id e₀ he₀
      refine ⟨e'.withStatus status, by rw [if_pos rfl, ht', Option.map_some], htenant, fun row' hrow' => ?_⟩
      obtain ⟨row, hlive, rfl⟩ := hrow row' hrow'
      rcases hres row hlive with rfl | hmeta
      · exact .inl rfl
      · exact .inr (by rw [toMeta_withStatus, hmeta]; rfl)
    · rename_i hne
      rw [if_neg hne, hother k hne]
      exact h.resident k e hk
  left k e row hk hrow' := by
    rw [hs k] at hk
    split at hk
    · rename_i heq
      subst heq
      obtain ⟨e₀, he₀, rfl⟩ := Option.map_eq_some_iff.1 hk
      obtain ⟨row, hlive, rfl⟩ := hrow _ hrow'
      exact (h.left id e₀ row he₀ hlive).withStatus status
    · rename_i hne
      exact h.left k e row hk (by rw [← hrow', hother k hne])
  right k e row hk hrow' := by
    rw [ht k] at hk
    split at hk
    · rename_i heq
      subst heq
      obtain ⟨e₀, he₀, rfl⟩ := Option.map_eq_some_iff.1 hk
      obtain ⟨row, hlive, rfl⟩ := hrow _ hrow'
      exact (h.right id e₀ row he₀ hlive).withStatus status
    · rename_i hne
      exact h.right k e row hk (by rw [← hrow', hother k hne])

theorem agree_empty : Agree crypto db kek (fun _ => none) (fun _ => none) where
  resident _ _ h := by cases h
  left _ _ _ h := by cases h
  right _ _ _ h := by cases h

end

end GmKms.Keystore.Postgres
