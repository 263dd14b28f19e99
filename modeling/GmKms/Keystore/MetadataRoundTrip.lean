import GmKms.Keystore.Coherence
/-!
# Key metadata across the database

`insert` writes the `Debug` text of the specification, `From<KeyEntity> for KeyMeta` matches on seven of
the twelve texts. Everything else in a `KeyMeta` comes back as it was written.
-/

namespace GmKms.Keystore

open Lib

namespace KeyMetadata

/-- Both counts are `u64`. -/
def InRange (m : KeyMetadata) : Prop := (∀ n ∈ m.maxUsageCount, n < 2 ^ 64) ∧ m.currentUsageCount < 2 ^ 64

def sortedLabels (m : KeyMetadata) : List (String × String) := m.labels.mergeSort fun a b => a.1 ≤ b.1

theorem stringsOf_toValue (l : List String) : stringsOf (.arr (l.map .str) : Json Empty) = some l := by
  rw [stringsOf, Json.mapM_map_eq_some]
  exact fun _ => rfl

theorem labelsOf_toValue (l : List (String × String)) :
    labelsOf (.obj (l.map fun l => (l.1, .str l.2)) : Json Empty) = some l := by
  rw [labelsOf, Json.mapM_map_eq_some]
  exact fun _ => rfl

theorem maxUsageCountOf_toValue {n : Option ℕ} (h : ∀ k ∈ n, k < 2 ^ 64) :
    maxUsageCountOf (n.elim .null fun k => .int k : Json Empty) = some n := by
  cases n with
  | none => rfl
  | some k =>
    have hk : (Json.int k : Json Empty).asU64? = some k := Json.asUnsigned?_int (h k rfl)
    rw [Option.elim_some, maxUsageCountOf, hk]
    · rfl
    · rintro ⟨⟩

theorem fromValue_fields (operations count labels maxCount tags : Json Empty) :
    fromValue (.obj [("allowed_operations", operations), ("current_usage_count", count), ("labels", labels),
      ("max_usage_count", maxCount), ("tags", tags)]) = (do
        let tags ← stringsOf tags
        let labels ← labelsOf labels
        let maxUsageCount ← maxUsageCountOf maxCount
        let currentUsageCount ← count.asU64?
        let allowedOperations ← stringsOf operations
        return { tags, labels, maxUsageCount, currentUsageCount, allowedOperations }) := rfl

/-- Only the order of the labels, which are a map, is not kept. -/
theorem fromValue_toValue {m : KeyMetadata} (h : InRange m) :
    fromValue (toValue m) = some { m with labels := sortedLabels m } := by
  have hcount : (.int m.currentUsageCount : Json Empty).asU64? = some m.currentUsageCount := Json.asUnsigned?_int h.2
  have hlabels := labelsOf_toValue (sortedLabels m)
  rw [toValue, fromValue_fields, stringsOf_toValue, stringsOf_toValue, maxUsageCountOf_toValue h.1, hcount]
  rw [sortedLabels] at hlabels
  rw [hlabels]
  rfl

end KeyMetadata

/-- Equal metadata: the labels are a map, so their order does not matter. -/
structure SameMetadata (a b : KeyMetadata) : Prop where
  tags : a.tags = b.tags
  labels : a.labels.Perm b.labels
  maxUsageCount : a.maxUsageCount = b.maxUsageCount
  currentUsageCount : a.currentUsageCount = b.currentUsageCount
  allowedOperations : a.allowedOperations = b.allowedOperations

/-- Equal key metadata, the times to the precision of the database. -/
structure SameMeta (a b : KeyMeta) : Prop where
  id : a.id = b.id
  tenantId : a.tenantId = b.tenantId
  name : a.name = b.name
  spec : a.spec = b.spec
  status : a.status = b.status
  createdAt : a.createdAt = pgTimestamp b.createdAt
  rotatedAt : a.rotatedAt = b.rotatedAt.map pgTimestamp
  version : a.version = b.version
  description : a.description = b.description
  metadata : SameMetadata a.metadata b.metadata

/-- The row that was written for the key is found, and converts to the metadata of the key. -/
def ReadsBack (db : Db) (m : KeyMeta) : Prop :=
  ∃ row, db.keys[m.id]? = some row ∧ db.findById m.id = some (row.toMeta m.id) ∧ SameMeta (row.toMeta m.id) m

/-- The specifications that `From<KeyEntity> for KeyMeta` knows. -/
def namedSpecs : List KeySpec := [.aes256Gcm, .ed25519, .ecdsaP256, .sm4, .sm2, .hmacSha256, .rsa4096]

theorem spec_read_iff (spec : KeySpec) : (specOfText spec.debug).getD .aes256Gcm = spec ↔ spec ∈ namedSpecs := by
  cases spec <;> decide

open Postgres in
theorem sameMeta_stored_iff {m : KeyMeta} (hmetadata : KeyMetadata.InRange m.metadata) :
    SameMeta (stored m) m ↔ m.spec ∈ namedSpecs := by
  rw [← spec_read_iff]
  refine ⟨fun h => h.spec, fun hspec => ⟨rfl, rfl, rfl, hspec, status_stored m, rfl, rfl, version_stored m, rfl, ?_⟩⟩
  have hread : (stored m).metadata = { m.metadata with labels := KeyMetadata.sortedLabels m.metadata } := by
    simp only [stored, KeyRow.ofMeta, KeyRow.toMeta, Option.bind_some, KeyMetadata.fromValue_toValue hmetadata,
      Option.getD_some]
  rw [hread]
  exact ⟨rfl, List.mergeSort_perm _ _, rfl, rfl, rfl⟩

/-- What `insert` has written reads back as it was exactly for the specifications that the conversion knows. -/
theorem readsBack_iff {db db' : Db} {m : KeyMeta} (hinsert : db.insert m = .ok db')
    (hmetadata : KeyMetadata.InRange m.metadata) : ReadsBack db' m ↔ m.spec ∈ namedSpecs := by
  unfold Db.insert at hinsert
  split at hinsert
  · cases hinsert
  · split at hinsert
    · cases hinsert
    · cases hinsert
      have hrow : (db.keys.insert m.id (KeyRow.ofMeta m))[m.id]? = some (KeyRow.ofMeta m) := by simp
      have hlive : ({ db with keys := db.keys.insert m.id (KeyRow.ofMeta m) } : Db).live m.id =
          some (KeyRow.ofMeta m) :=
        Db.live_eq_some_iff.2 ⟨hrow, rfl⟩
      rw [← sameMeta_stored_iff hmetadata]
      unfold ReadsBack Db.findById
      simp only [hrow, hlive, Option.some.injEq, exists_eq_left', Option.map_some, true_and]
      rfl

/-- A key of `spec`, just created. -/
def freshMeta (spec : KeySpec) : KeyMeta where
  id := 7
  tenantId := "t"
  name := "k"
  spec
  status := .active
  createdAt := 0
  rotatedAt := none
  version := 1
  description := none
  metadata := .default

theorem insert_freshMeta (spec : KeySpec) :
    Db.empty.insert (freshMeta spec) =
      .ok { Db.empty with keys := Db.empty.keys.insert 7 (.ofMeta (freshMeta spec)) } := by
  have hclean : ¬ ["t", "k"].any hasNul = true := by decide
  have hnew : ¬ (freshMeta spec).id ∈ Db.empty.keys := by simp [Db.empty]
  exact (if_neg hclean).trans (if_neg hnew)

theorem readsBack_sm2 :
    ReadsBack { Db.empty with keys := Db.empty.keys.insert 7 (.ofMeta (freshMeta .sm2)) } (freshMeta .sm2) :=
  (readsBack_iff (insert_freshMeta .sm2) ⟨by decide, by decide⟩).2 (by decide)

/-- An ECDSA key over P-384 comes back as an AES key. -/
theorem not_readsBack_ecdsaP384 : ¬ ∀ (db db' : Db) (m : KeyMeta), KeyMetadata.InRange m.metadata →
    db.insert m = .ok db' → ReadsBack db' m := by
  intro h
  obtain ⟨row, hrow, -, hsame⟩ := h _ _ (freshMeta .ecdsaP384) ⟨by decide, by decide⟩ (insert_freshMeta .ecdsaP384)
  obtain rfl : KeyRow.ofMeta (freshMeta .ecdsaP384) = row := by simpa [freshMeta] using hrow
  exact absurd hsame.spec (by decide)

end GmKms.Keystore
