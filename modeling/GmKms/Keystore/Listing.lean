import GmKms.Keystore.Backend
import GmKms.Keystore.PostgresMaterial
import GmKms.Keystore.Reload
/-!
# Listing keys

Every listing is a cut of one list of the keys that match: what is left after the offset, up to the limit. The software
keystore leaves the order to its map, the repository lists the newest first and stops at 100 unless told otherwise.
-/

namespace GmKms

/-- `KeyFilter::default`. -/
def KeyFilter.default : KeyFilter := ⟨none, none, none, none, none, none⟩

namespace Keystore

open Lib.Effect

/-! ## Pages -/

section

variable {α ε : Type}

/-- What is left after the offset, up to the limit. -/
def cut (limit offset : Option ℕ) (l : List α) : List α :=
  let rest := offset.elim l l.drop
  limit.elim rest rest.take

theorem flatMap_cut (l : List α) (n count : ℕ) :
    ((List.range count).flatMap fun i => cut (some n) (some (i * n)) l) = l.take (count * n) := by
  induction count with
  | zero => simp
  | succ count ih =>
    rw [List.range_succ, List.flatMap_append, ih, List.flatMap_singleton, Nat.succ_mul, List.take_add]
    rfl

theorem mapM_ok {f : ℕ → Except ε α} {g : ℕ → α} {is : List ℕ} (h : ∀ i ∈ is, f i = .ok (g i)) :
    is.mapM f = .ok (is.map g) := by
  induction is with
  | nil => rfl
  | cons i is ih =>
    rw [List.forall_mem_cons] at h
    rw [List.mapM_cons, h.1, ih h.2]
    rfl

/-- Pages of `n`, each cut from the same list, are the whole of it when there are enough of them. -/
theorem pages_of_cut {list : ℕ → Except ε (List α)} {all : List α} {n count : ℕ} (hall : all.length ≤ count * n)
    (hlist : ∀ i < count, list i = .ok (cut (some n) (some (i * n)) all)) :
    ∃ pages, (List.range count).mapM list = .ok pages ∧ pages.flatten = all := by
  refine ⟨_, mapM_ok fun i hi => hlist i (List.mem_range.1 hi), ?_⟩
  rw [← List.flatMap_def, flatMap_cut, List.take_of_length_le hall]

end

/-! ## What a filter asks for -/

/-- The key has what each field that is set says, and carries all the tags. -/
def carries (filter : KeyFilter) (m : KeyMeta) : Bool :=
  (filter.tenantId.all fun t => m.tenantId = t) && (filter.status.all fun s => m.status = s) &&
    (filter.spec.all fun s => m.spec = s) && filter.tags.all fun tags => tags.all fun tag => tag ∈ m.metadata.tags

/-- No tag is asked for. -/
def NoTags (filter : KeyFilter) : Prop := ∀ tags, filter.tags = some tags → tags = []

/-- Listings, one after the other, of a store that has the keys `existing`: each call answers a cut of exactly the keys
that match, and pages list each of them once. -/
structure ObeysFilter (existing : List KeyMeta) (list : ℕ → KeyFilter → Except Abort (List KeyMeta))
    (filter : KeyFilter) :
    Prop where
  exact : ∀ i limit offset, ∃ all, all.Perm (existing.filter (carries filter)) ∧
    list i { filter with limit, offset } = .ok (cut limit offset all)
  pages : ∀ n count, (existing.filter (carries filter)).length ≤ count * n → ∃ pages,
    ((List.range count).mapM fun i => list i { filter with limit := some n, offset := some (i * n) }) = .ok pages ∧
      pages.flatten.Perm (existing.filter (carries filter))

/-- The same for one tenant's keys, newest first, with a limit of 100 where none is set. Sizes are those of an `i64`,
and no two keys are created at the same time where there are several pages. -/
structure ObeysTenant (existing : List KeyMeta) (list : ℕ → KeyFilter → Except Abort (List KeyMeta))
    (filter : KeyFilter) :
    Prop where
  exact : ∀ i limit offset, (∀ n ∈ limit, n < 2 ^ 63) → (∀ n ∈ offset, n < 2 ^ 63) →
    ∃ all, all.Perm (existing.filter (carries filter)) ∧ (all.Pairwise fun m m' => m'.createdAt ≤ m.createdAt) ∧
      list i { filter with limit, offset } = .ok (cut (some (limit.getD 100)) offset all)
  pages : ∀ n count, (existing.filter (carries filter)).length ≤ count * n → n < 2 ^ 63 → count * n < 2 ^ 63 →
    ((existing.filter (carries filter)).Pairwise fun m m' => m.createdAt ≠ m'.createdAt) → ∃ pages,
      ((List.range count).mapM fun i => list i { filter with limit := some n, offset := some (i * n) }) = .ok pages ∧
        pages.flatten.Perm (existing.filter (carries filter))

theorem all_tags {filter : KeyFilter} (h : NoTags filter) (m : KeyMeta) :
    (filter.tags.all fun tags => tags.all fun tag => tag ∈ m.metadata.tags) = true := by
  cases htags : filter.tags with
  | none => rfl
  | some tags =>
    rw [h tags htags]
    rfl

/-! ## The software keystore -/

namespace Software.SoftwareKeystore

/-- The metadata of the keys that exist. -/
def existing (ks : SoftwareKeystore) : List KeyMeta := ks.keys.toList.map (·.2.keyMeta)

theorem listed_eq_carries {filter : KeyFilter} (h : NoTags filter) : listed filter = carries filter := by
  funext m
  rw [carries, all_tags h, Bool.and_true]
  rfl

/-- The keys that are listed, in the order of the map. -/
def matching (ks : SoftwareKeystore) (env : UseEnv) (filter : KeyFilter) : List KeyMeta :=
  ((ks.keys.toList.mergeSort fun a b => env.rank a.1 ≤ env.rank b.1).map (·.2.keyMeta)).filter (listed filter)

theorem listKeys_eq (ks : SoftwareKeystore) (env : UseEnv) (filter : KeyFilter) (limit offset : Option ℕ) :
    ks.listKeys env { filter with limit, offset } = .ok (cut limit offset (ks.matching env filter)) := rfl

theorem matching_perm (ks : SoftwareKeystore) (env : UseEnv) {filter : KeyFilter} (h : NoTags filter) :
    (ks.matching env filter).Perm (ks.existing.filter (carries filter)) := by
  rw [← listed_eq_carries h]
  exact ((List.mergeSort_perm _ _).map _).filter _

theorem obeysFilter (ks : SoftwareKeystore) (env : UseEnv) {filter : KeyFilter} (h : NoTags filter) :
    ObeysFilter ks.existing (fun _ f => ks.listKeys env f) filter where
  exact _ limit offset := ⟨_, matching_perm ks env h, listKeys_eq ks env filter limit offset⟩
  pages n count hcount := by
    have hperm := matching_perm ks env h
    rw [← hperm.length_eq] at hcount
    obtain ⟨pages, hpages, hflatten⟩ := pages_of_cut hcount fun i _ => listKeys_eq ks env filter (some n) (some (i * n))
    exact ⟨pages, hpages, hflatten ▸ hperm⟩

end Software.SoftwareKeystore

/-! ## The repository -/

namespace Postgres

/-- The metadata of the keys that are not deleted. -/
def existing (db : Db) : List KeyMeta := (db.keys.toList.filter (·.2.deletedAt.isNone)).map fun r => r.2.toMeta r.1

/-- The keys of a tenant in the order in which they are listed. -/
def newest (db : Db) (rank : Uuid → ℕ) (tenantId : String) : List KeyMeta :=
  (Db.newestFirst rank (db.keys.toList.filter fun r => r.2.tenantId = tenantId && r.2.deletedAt.isNone)).map
    fun r => r.2.toMeta r.1

theorem newest_perm (db : Db) (rank : Uuid → ℕ) {filter : KeyFilter} {tenantId : String}
    (htenant : filter.tenantId = some tenantId)
    (hstatus : filter.status = none) (hspec : filter.spec = none) (htags : NoTags filter) :
    (newest db rank tenantId).Perm ((existing db).filter (carries filter)) := by
  have hcarries : ∀ r : Uuid × KeyRow, carries filter (r.2.toMeta r.1) = decide (r.2.tenantId = tenantId) := by
    intro r
    rw [carries, all_tags htags, htenant, hstatus, hspec]
    simp only [Option.all_some, Option.all_none, Bool.and_true]
    exact decide_eq_decide.2 Iff.rfl
  have hrows : (existing db).filter (carries filter) =
      (db.keys.toList.filter fun r => r.2.tenantId = tenantId && r.2.deletedAt.isNone).map fun r => r.2.toMeta r.1 := by
    rw [existing, List.filter_map, List.filter_filter]
    simp only [Function.comp_def, hcarries]
  rw [hrows]
  exact (List.mergeSort_perm _ _).map _

theorem newest_pairwise (db : Db) (rank : Uuid → ℕ) (tenantId : String) :
    (newest db rank tenantId).Pairwise fun m m' => m'.createdAt ≤ m.createdAt := by
  refine List.pairwise_map.2 ((List.pairwise_mergeSort ?_ ?_ _).imp ?_)
  · intro a b c hab hbc
    simp only [Bool.or_eq_true, Bool.and_eq_true, decide_eq_true_eq] at *
    rcases hab with hab | ⟨hab, hrank⟩
    · rcases hbc with hbc | ⟨hbc, -⟩
      · exact .inl (hbc.trans hab)
      · exact .inl (hbc ▸ hab)
    · rcases hbc with hbc | ⟨hbc, hrank'⟩
      · exact .inl (hab ▸ hbc)
      · exact .inr ⟨hab.trans hbc, hrank.trans hrank'⟩
  · intro a b
    simp only [Bool.or_eq_true, Bool.and_eq_true, decide_eq_true_eq]
    rcases lt_trichotomy a.2.createdAt b.2.createdAt with hlt | heq | hgt
    · exact .inr (.inl hlt)
    · rcases le_total (rank a.1) (rank b.1) with hle | hle
      · exact .inl (.inr ⟨heq, hle⟩)
      · exact .inr (.inr ⟨heq.symm, hle⟩)
    · exact .inl (.inl hgt)
  · intro a b hab
    simp only [Bool.or_eq_true, Bool.and_eq_true, decide_eq_true_eq] at hab
    rcases hab with hlt | ⟨heq, -⟩
    · exact hlt.le
    · exact heq.ge

/-- Where the times differ, there is only one order. -/
theorem newest_eq {db : Db} {tenantId : String} {keys : List KeyMeta} {rank rank' : Uuid → ℕ}
    (hperm : (newest db rank tenantId).Perm keys) (hperm' : (newest db rank' tenantId).Perm keys)
    (hdistinct : keys.Pairwise fun m m' => m.createdAt ≠ m'.createdAt) :
    newest db rank tenantId = newest db rank' tenantId := by
  refine (hperm.trans hperm'.symm).eq_of_pairwise ?_ (newest_pairwise db rank tenantId)
    (newest_pairwise db rank' tenantId)
  intro m m' hm hm' hle hle'
  by_contra hne
  have : Std.Symm fun m m' : KeyMeta => m.createdAt ≠ m'.createdAt := ⟨fun _ _ => Ne.symm⟩
  exact hdistinct.forall (hperm.mem_iff.1 hm) (hperm'.mem_iff.1 hm') hne (le_antisymm hle' hle)

theorem list_eq (db : Db) (rank : Uuid → ℕ) (tenantId : String) {limit offset : Option ℕ}
    (hlimit : ∀ n ∈ limit, n < 2 ^ 63)
    (hoffset : ∀ n ∈ offset, n < 2 ^ 63) :
    db.list rank tenantId (limit.map Db.asI64) (offset.map Db.asI64) =
      .ok (cut (some (limit.getD 100)) offset (newest db rank tenantId)) := by
  have hl : (limit.map Db.asI64).getD 100 = (limit.getD 100 : ℕ) := by
    cases limit with
    | none => rfl
    | some n => rw [Option.map_some, Option.getD_some, Option.getD_some, Db.asI64_eq_self (hlimit n rfl)]
  have ho : (offset.map Db.asI64).getD 0 = (offset.getD 0 : ℕ) := by
    cases offset with
    | none => rfl
    | some n => rw [Option.map_some, Option.getD_some, Option.getD_some, Db.asI64_eq_self (hoffset n rfl)]
  have hcut : ∀ l : List KeyMeta, cut (some (limit.getD 100)) offset l =
      (l.drop (offset.getD 0)).take (limit.getD 100) := by
    intro l
    cases offset <;> rfl
  rw [Db.list, hl, ho, Db.page, if_neg (by omega), if_neg (by omega), hcut, newest, ← List.map_drop, ← List.map_take]
  rfl

theorem outcome_listKeys {env : Env} (hfault : ∀ c, env.fault c = none) {filter : KeyFilter} {tenantId : String}
    (htenant : filter.tenantId = some tenantId) (s : Store) {limit offset : Option ℕ} (hlimit : ∀ n ∈ limit, n < 2 ^ 63)
    (hoffset : ∀ n ∈ offset, n < 2 ^ 63) :
    outcome (listKeys env { filter with limit, offset }) s =
      (.ok (cut (some (limit.getD 100)) offset (newest s.db env.rank tenantId)), s) := by
  unfold listKeys
  simp only [htenant]
  rw [outcome_mapInternal, Repo.list, outcome_repo hfault, list_eq s.db env.rank tenantId hlimit hoffset]
  rfl

/-- Without a tenant a listing is refused. -/
theorem outcome_listKeys_of_none {env : Env} {filter : KeyFilter} (htenant : filter.tenantId = none) (s : Store) :
    outcome (listKeys env filter) s =
      (.error (.error (.internal "list_keys called without tenant_id — tenant isolation violated")), s) := by
  unfold listKeys
  rw [htenant]
  rfl

theorem obeysTenant {env : ℕ → Env} (hfault : ∀ i c, (env i).fault c = none) {filter : KeyFilter} {tenantId : String}
    (htenant : filter.tenantId = some tenantId) (hstatus : filter.status = none) (hspec : filter.spec = none)
    (htags : NoTags filter) (s : Store) :
    ObeysTenant (existing s.db) (fun i f => (outcome (listKeys (env i) f) s).1) filter where
  exact i limit offset hlimit hoffset :=
    ⟨_, newest_perm s.db (env i).rank htenant hstatus hspec htags, newest_pairwise _ _ _,
      congrArg Prod.fst (outcome_listKeys (hfault i) htenant s hlimit hoffset)⟩
  pages n count hcount hn htotal hdistinct := by
    have hperm := fun i => newest_perm s.db (env i).rank htenant hstatus hspec htags
    rw [← (hperm 0).length_eq] at hcount
    have hlist : ∀ i < count, (outcome (listKeys (env i) { filter with limit := some n, offset := some (i * n) }) s).1 =
        .ok (cut (some n) (some (i * n)) (newest s.db (env 0).rank tenantId)) := by
      intro i hi
      have hoffset : i * n < 2 ^ 63 := (Nat.mul_le_mul_right n hi.le).trans_lt htotal
      rw [newest_eq (hperm 0) (hperm i) hdistinct, outcome_listKeys (hfault i) htenant s (by simpa using hn)
        (by simpa using hoffset)]
      rfl
    obtain ⟨pages, hpages, hflatten⟩ := pages_of_cut hcount hlist
    exact ⟨pages, hpages, hflatten ▸ hperm 0⟩

end Postgres

/-- What both keystores answer in any state, where no tags are asked for; the repository needs a tenant, and looks at
nothing else. -/
theorem listings_obey (ks : Software.SoftwareKeystore) (env : Software.UseEnv) (s : Postgres.Store)
    (pgEnv : ℕ → Postgres.Env)
    (filter : KeyFilter) :
    (NoTags filter → ObeysFilter ks.existing (fun _ f => ks.listKeys env f) filter) ∧
      (filter.tenantId = none → ∀ i, outcome (Postgres.listKeys (pgEnv i) filter) s =
        (.error (.error (.internal "list_keys called without tenant_id — tenant isolation violated")), s)) ∧
      ((∀ i c, (pgEnv i).fault c = none) → filter.tenantId ≠ none → filter.status = none → filter.spec = none →
        NoTags filter →
          ObeysTenant (Postgres.existing s.db) (fun i f => (outcome (Postgres.listKeys (pgEnv i) f) s).1) filter) := by
  refine ⟨ks.obeysFilter env, fun htenant i => Postgres.outcome_listKeys_of_none htenant s, ?_⟩
  intro hfault htenant hstatus hspec htags
  obtain ⟨tenantId, htenant⟩ := Option.ne_none_iff_exists'.1 htenant
  exact Postgres.obeysTenant hfault htenant hstatus hspec htags s

/-- A key of one tenant and one of another. -/
def Software.twoTenants : Software.SoftwareKeystore :=
  let (_, ks) := SoftwareKeystore.new.generateKey ⟨1, 0, fun _ => 7, .error "no key"⟩ .aes256Gcm "data" "tenant-1"
  (ks.generateKey ⟨2, 1, fun _ => 7, .error "no key"⟩ .sm4 "data" "tenant-2").2

def Postgres.twoTenants : Store :=
  (call .plain).final (.start none (List.replicate 32 7))
    [⟨sampleEnv 1, .generateKey .aes256Gcm "data" "tenant-1"⟩, ⟨sampleEnv 2, .generateKey .sm4 "data" "tenant-2"⟩]

/-- Both stores have two keys, of which the filter asks for one. -/
theorem listings_obey_twoTenants :
    let filter := { KeyFilter.default with tenantId := some "tenant-1" }
    (Software.twoTenants.existing.map (carries filter) = [true, false] ∧
      (Postgres.existing Postgres.twoTenants.db).map (carries filter) = [true, false]) ∧
    ObeysFilter Software.twoTenants.existing
        (fun _ f => Software.twoTenants.listKeys ⟨⟨0, 0, fun _ => 0, .error "no key"⟩, 0, fun _ => 0⟩ f) filter ∧
      ObeysTenant (Postgres.existing Postgres.twoTenants.db)
        (fun i f => (outcome (Postgres.listKeys (Postgres.sampleEnv i) f) Postgres.twoTenants).1) filter := by
  obtain ⟨hsoftware, -, hpostgres⟩ := listings_obey Software.twoTenants
    ⟨⟨0, 0, fun _ => 0, .error "no key"⟩, 0, fun _ => 0⟩ Postgres.twoTenants (fun i => Postgres.sampleEnv i)
    { KeyFilter.default with tenantId := some "tenant-1" }
  have htags : NoTags { KeyFilter.default with tenantId := some "tenant-1" } := fun _ h => by cases h
  refine ⟨⟨by decide +kernel, by decide +kernel⟩, hsoftware htags, ?_⟩
  exact hpostgres (fun _ _ => rfl) (Option.some_ne_none _) rfl rfl htags

/-- The default filter asks for every key, which the repository refuses. -/
theorem not_obeysFilter_default :
    ¬ ∀ (crypto : Crypto) (capacity : Option ℕ) (kek : Bytes) (calls : List Postgres.Call) (env : ℕ → Postgres.Env),
      (∀ i c, (env i).fault c = none) → ∀ filter : KeyFilter,
        let s := (Postgres.call crypto).final (.start capacity kek) calls
        ObeysFilter (Postgres.existing s.db) (fun i f => (outcome (Postgres.listKeys (env i) f) s).1) filter := by
  intro h
  have hobeys := h .plain none [] [] (fun _ => Postgres.sampleEnv 0) (fun _ _ => rfl) .default
  obtain ⟨all, -, hlist⟩ := hobeys.exact 0 none none
  cases hlist

end Keystore

end GmKms
