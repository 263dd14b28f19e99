import GmKms.Keystore.BoundedCache
import GmKms.Lib.Queue
/-!
# Which entries the key cache evicts

`insert_with_eviction` queues a key again each time it is inserted, and the old
place stays in the queue: the eviction loop takes the entry of a key that was
just inserted when it comes to an old place of it. `evictsOldest_iff` says which
insertions evict the least recently inserted entries all the same.
-/

namespace GmKms.Keystore.BoundedKeyCache

open Lib

/-- The evictions of the process are counted on. -/
def clear (c : BoundedKeyCache) : BoundedKeyCache := { c with map := ∅, order := [] }

inductive Call
  | insertWithEviction (key : Uuid) (entry : KeyEntry)
  | remove (key : Uuid)
  | mutate (key : Uuid) (f : KeyEntry → KeyEntry)
  | clear

inductive Answer
  | done
  | removed (entry : Option KeyEntry)
  | mutated (found : Bool)

def call : Machine BoundedKeyCache Call Answer
  | c, .insertWithEviction key entry => (.done, c.insertWithEviction key entry)
  | c, .remove key => (.removed (c.remove key).1, (c.remove key).2)
  | c, .mutate key f => (.mutated (c.getCloned key).isSome, c.mutate key f)
  | c, .clear => (.done, c.clear)

def Call.inserted? : Call → Option Uuid
  | .insertWithEviction key _ => some key
  | _ => none

/-- The keys that were inserted, each insertion in its place. -/
def insertions (h : History Call Answer) : List Uuid := h.filterMap fun e => e.1.inserted?

/-- What an insertion is to leave: `c` before it, `c'` after it. -/
structure InsertsOver (inserted : List Uuid) (key : Uuid) (c c' : BoundedKeyCache) : Prop where
  fits : ∀ n ∈ c.capacity, c'.map.size ≤ n
  queued : ∀ k ∈ c'.map, k ∈ c'.order
  resident : c.capacity ≠ some 0 → key ∈ c'.map
  oldest : ∀ e s : Uuid, e = key ∨ e ∈ c.map → e ∉ c'.map → s ∈ c'.map → Queue.Older inserted e s

/-- Every insertion leaves a cache that fits, with the inserted key in it, and evicts the least recently inserted. -/
def EvictsOldest (h : History Call Answer) (c : BoundedKeyCache) : Call → Prop
  | .insertWithEviction key entry => InsertsOver (insertions h ++ [key]) key c (c.insertWithEviction key entry)
  | _ => True

/-- The resident keys, the inserted one among them, by their first places in the queue. -/
def residents (c : BoundedKeyCache) (key : Uuid) : List Uuid :=
  Queue.firsts (fun k => decide (k = key ∨ k ∈ c.map)) (c.order ++ [key])

/-- As many residents as have to go, taken by their first places, are also the
first by their last places. -/
def PlacesAgree (_h : History Call Answer) (c : BoundedKeyCache) : Call → Prop
  | .insertWithEviction key _ => ∀ n ∈ c.capacity,
    ∀ e ∈ (c.residents key).take ((c.residents key).length - n),
      ∀ s ∈ (c.residents key).drop ((c.residents key).length - n), Queue.Older (c.order ++ [key]) e s
  | _ => True

/-! ## The eviction loop -/

section
variable {n : ℕ} {map : HashMap Uuid KeyEntry} {order : List Uuid} {evictions : ℕ}

theorem mem_erase_iff {k v : Uuid} : k ∈ map.erase v ↔ k ≠ v ∧ k ∈ map := by
  rw [Std.ExtTreeMap.mem_erase, Ne, Std.compare_eq_iff_eq, eq_comm]

theorem mem_insert_iff {k key : Uuid} {entry : KeyEntry} : k ∈ map.insert key entry ↔ k = key ∨ k ∈ map := by
  rw [Std.ExtTreeMap.mem_insert, Std.compare_eq_iff_eq, eq_comm]

theorem size_erase_add_one {v : Uuid} (hv : v ∈ map) : (map.erase v).size + 1 = map.size := by
  have hsize : map.size ≠ 0 := by
    intro h
    rw [Std.ExtTreeMap.eq_empty_iff_size_eq_zero.2 h] at hv
    exact Std.ExtTreeMap.not_mem_empty hv
  rw [Std.ExtTreeMap.size_erase, if_pos (Std.ExtTreeMap.mem_iff_contains.1 hv)]
  omega

theorem queued_erase {v : Uuid} (hqueued : ∀ k ∈ map, k ∈ v :: order) : ∀ k ∈ map.erase v, k ∈ order := by
  intro k hk
  obtain ⟨hne, hk⟩ := mem_erase_iff.1 hk
  exact (List.mem_cons.1 (hqueued k hk)).resolve_left hne

theorem queued_of_notMem {v : Uuid} (hv : v ∉ map) (hqueued : ∀ k ∈ map, k ∈ v :: order) : ∀ k ∈ map, k ∈ order := by
  intro k hk
  exact (List.mem_cons.1 (hqueued k hk)).resolve_left fun heq => hv (heq ▸ hk)

/-- The resident keys by their first places. -/
def inMap (map : HashMap Uuid KeyEntry) (order : List Uuid) : List Uuid :=
  Queue.firsts (fun k => decide (k ∈ map)) order

theorem inMap_cons_of_notMem {v : Uuid} (hv : v ∉ map) : inMap map (v :: order) = inMap map order :=
  Queue.firsts_cons_of_neg (decide_eq_false hv)

theorem inMap_cons_of_mem {v : Uuid} (hv : v ∈ map) : inMap map (v :: order) = v :: inMap (map.erase v) order := by
  rw [inMap, Queue.firsts_cons_of_pos (p := fun k => decide (k ∈ map)) (decide_eq_true hv), inMap]
  congr 1
  refine Queue.firsts_congr fun k _ => ?_
  rw [Bool.eq_iff_iff, decide_eq_true_iff, mem_erase_iff]
  simp

theorem length_inMap (hqueued : ∀ k ∈ map, k ∈ order) : (inMap map order).length = map.size := by
  induction order generalizing map with
  | nil =>
    have hempty : map = ∅ := Std.ExtTreeMap.eq_empty_iff_forall_not_mem.2 fun k hk => List.not_mem_nil (hqueued k hk)
    rw [hempty]
    rfl
  | cons v order ih =>
    by_cases hv : v ∈ map
    · rw [inMap_cons_of_mem hv, List.length_cons, ih (queued_erase hqueued), size_erase_add_one hv]
    · rw [inMap_cons_of_notMem hv, ih (queued_of_notMem hv hqueued)]

/-- The loop leaves the residents but for the first ones, by their first places. -/
theorem mem_evict (hqueued : ∀ k ∈ map, k ∈ order) (k : Uuid) :
    k ∈ (evict n map order evictions).1 ↔ k ∈ (inMap map order).drop (map.size - n) := by
  -- a resident victim is the first of the residents by their places, and each other victim is none of them
  induction order generalizing map evictions with
  | nil =>
    have hk : k ∉ map := fun hk => List.not_mem_nil (hqueued k hk)
    simp [evict, inMap, Queue.firsts_nil, hk]
  | cons v order ih =>
    rw [evict]
    split
    · rename_i hle
      rw [Nat.sub_eq_zero_of_le hle, List.drop_zero, inMap, Queue.mem_firsts, decide_eq_true_iff]
      exact ⟨fun hk => ⟨hqueued k hk, hk⟩, fun hk => hk.2⟩
    · rename_i hlt
      split
      · rename_i hv
        have hsize : map.size - n = (map.erase v).size - n + 1 := by
          have := size_erase_add_one hv
          omega
        rw [ih (queued_erase hqueued), inMap_cons_of_mem hv, hsize, List.drop_succ_cons]
      · rename_i hv
        rw [ih (queued_of_notMem hv hqueued), inMap_cons_of_notMem hv]

/-- What the loop takes off the queue are places of keys that are gone. -/
theorem evict_order (n : ℕ) (map : HashMap Uuid KeyEntry) (order : List Uuid) (evictions : ℕ) :
    ∃ popped, order = popped ++ (evict n map order evictions).2.1 ∧
      ∀ k ∈ (evict n map order evictions).1, k ∈ map ∧ k ∉ popped := by
  induction order generalizing map evictions with
  | nil => exact ⟨[], rfl, fun k hk => ⟨hk, List.not_mem_nil⟩⟩
  | cons v order ih =>
    rw [evict]
    split
    · exact ⟨[], rfl, fun k hk => ⟨hk, List.not_mem_nil⟩⟩
    · split
      · obtain ⟨popped, heq, hgone⟩ := ih (map.erase v) (evictions + 1)
        refine ⟨v :: popped, by rw [List.cons_append, ← heq], fun k hk => ?_⟩
        obtain ⟨hmem, hnot⟩ := hgone k hk
        obtain ⟨hne, hmem⟩ := mem_erase_iff.1 hmem
        exact ⟨hmem, by simp [hne, hnot]⟩
      · rename_i hv
        obtain ⟨popped, heq, hgone⟩ := ih map evictions
        refine ⟨v :: popped, by rw [List.cons_append, ← heq], fun k hk => ?_⟩
        obtain ⟨hmem, hnot⟩ := hgone k hk
        have hne : k ≠ v := fun h => hv (h ▸ hmem)
        exact ⟨hmem, by simp [hne, hnot]⟩

theorem size_evict_le (hqueued : ∀ k ∈ map, k ∈ order) : (evict n map order evictions).1.size ≤ n := by
  induction order generalizing map evictions with
  | nil =>
    have hempty : map = ∅ := Std.ExtTreeMap.eq_empty_iff_forall_not_mem.2 fun k hk => List.not_mem_nil (hqueued k hk)
    rw [evict, hempty, Std.ExtTreeMap.size_empty]
    exact Nat.zero_le n
  | cons v order ih =>
    rw [evict]
    split
    · assumption
    · split
      · exact ih (queued_erase hqueued)
      · exact ih (queued_of_notMem ‹_› hqueued)

end

/-! ## What holds in every run -/

/-- Every resident key is queued, and two resident keys' last places are in the order of their last insertions. -/
structure Tracks (inserted : List Uuid) (c : BoundedKeyCache) : Prop where
  queued : ∀ k ∈ c.map, k ∈ c.order
  older : ∀ k ∈ c.map, ∀ k' ∈ c.map, (Queue.Older c.order k k' ↔ Queue.Older inserted k k')

namespace Tracks

variable {inserted : List Uuid} {c : BoundedKeyCache}

/-- An insertion before its evictions. -/
theorem push (h : Tracks inserted c) (key : Uuid) (entry : KeyEntry) :
    Tracks (inserted ++ [key]) { c with map := c.map.insert key entry, order := c.order ++ [key] } where
  queued k hk := by
    rcases mem_insert_iff.1 hk with rfl | hk
    · simp
    · exact List.mem_append_left _ (h.queued k hk)
  older k hk k' hk' := by
    by_cases hkey : key = k
    · -- nothing comes after the inserted key
      subst hkey
      exact iff_of_false Queue.not_older_concat Queue.not_older_concat
    · rw [Queue.older_concat hkey, Queue.older_concat hkey]
      have hk := (mem_insert_iff.1 hk).resolve_left (Ne.symm hkey)
      rcases mem_insert_iff.1 hk' with rfl | hk'
      · simp
      · rw [h.older k hk k' hk']

/-- The queue may lose its front, with the keys that have a place there. -/
theorem drop (h : Tracks inserted c) {c' : BoundedKeyCache} {popped : List Uuid} (horder : c.order = popped ++ c'.order)
    (hgone : ∀ k ∈ c'.map, k ∈ c.map ∧ k ∉ popped) : Tracks inserted c' := by
  have hqueued : ∀ k ∈ c'.map, k ∈ c'.order := by
    intro k hk
    obtain ⟨hmem, hnot⟩ := hgone k hk
    have := h.queued k hmem
    rw [horder] at this
    exact (List.mem_append.1 this).resolve_left hnot
  refine ⟨hqueued, fun k hk k' hk' => ?_⟩
  rw [← h.older k (hgone k hk).1 k' (hgone k' hk').1, horder, Queue.older_append_of_mem (hqueued k hk)]

theorem insertWithEviction (h : Tracks inserted c) (key : Uuid) (entry : KeyEntry) :
    Tracks (inserted ++ [key]) (c.insertWithEviction key entry) := by
  unfold BoundedKeyCache.insertWithEviction
  split
  · exact h.push key entry
  · obtain ⟨popped, horder, hgone⟩ := evict_order ‹ℕ› (c.map.insert key entry) (c.order ++ [key]) c.evictions
    exact (h.push key entry).drop horder hgone

theorem remove (h : Tracks inserted c) (key : Uuid) : Tracks inserted (c.remove key).2 := by
  unfold BoundedKeyCache.remove
  split
  · refine ⟨fun k hk => ?_, fun k hk k' hk' => ?_⟩
    · obtain ⟨hne, hk⟩ := mem_erase_iff.1 hk
      exact (List.mem_erase_of_ne hne).2 (h.queued k hk)
    · obtain ⟨hne, hk⟩ := mem_erase_iff.1 hk
      obtain ⟨hne', hk'⟩ := mem_erase_iff.1 hk'
      rw [Queue.older_erase hne hne', h.older k hk k' hk']
  · exact h

theorem mutate (h : Tracks inserted c) (key : Uuid) (f : KeyEntry → KeyEntry) : Tracks inserted (c.mutate key f) := by
  unfold BoundedKeyCache.mutate
  split
  · rename_i entry hkey
    have hmem : ∀ k ∈ c.map.insert key (f entry), k ∈ c.map := by
      intro k hk
      rcases mem_insert_iff.1 hk with rfl | hk
      · exact Std.ExtTreeMap.mem_iff_isSome_getElem?.2 (by rw [hkey]; rfl)
      · exact hk
    exact ⟨fun k hk => h.queued k (hmem k hk), fun k hk k' hk' => h.older k (hmem k hk) k' (hmem k' hk')⟩
  · exact h

theorem clear (inserted : List Uuid) (c : BoundedKeyCache) : Tracks inserted c.clear where
  queued _ hk := absurd hk Std.ExtTreeMap.not_mem_empty
  older _ hk := absurd hk Std.ExtTreeMap.not_mem_empty

theorem new (capacity : Option ℕ) : Tracks [] (new capacity) where
  queued _ hk := absurd hk Std.ExtTreeMap.not_mem_empty
  older _ hk := absurd hk Std.ExtTreeMap.not_mem_empty

theorem call {h : History Call Answer} (hc : Tracks (insertions h) c) (i : Call) :
    Tracks (insertions (h ++ [(i, (call c i).1)])) (call c i).2 := by
  have hinsertions : insertions (h ++ [(i, (BoundedKeyCache.call c i).1)]) = insertions h ++ i.inserted?.toList := by
    rw [insertions, List.filterMap_append, ← insertions]
    cases hi : i.inserted? <;> simp [hi]
  rw [hinsertions]
  cases i with
  | insertWithEviction key entry => exact hc.insertWithEviction key entry
  | remove key =>
    simp only [Call.inserted?, Option.toList_none, List.append_nil]
    exact hc.remove key
  | mutate key f =>
    simp only [Call.inserted?, Option.toList_none, List.append_nil]
    exact hc.mutate key f
  | clear => exact clear _ c

end Tracks

/-! ## Which insertions evict the oldest -/

section
variable {c : BoundedKeyCache} {inserted : List Uuid} (key : Uuid) (entry : KeyEntry)

theorem residents_eq : c.residents key = inMap (c.map.insert key entry) (c.order ++ [key]) := by
  refine Queue.firsts_congr fun k _ => ?_
  rw [decide_eq_decide, mem_insert_iff]

theorem mem_residents (h : Tracks inserted c) {k : Uuid} : k ∈ c.residents key ↔ k = key ∨ k ∈ c.map := by
  rw [residents, Queue.mem_firsts, decide_eq_true_iff, and_iff_right_iff_imp]
  rintro (rfl | hk)
  · simp
  · exact List.mem_append_left _ (h.queued k hk)

theorem mem_insertWithEviction_of_unbounded (hcap : c.capacity = none) (k : Uuid) :
    k ∈ (c.insertWithEviction key entry).map ↔ k = key ∨ k ∈ c.map := by
  rw [insertWithEviction, hcap]
  exact mem_insert_iff

/-- An insertion keeps the residents but for the first ones, by their first places. -/
theorem mem_insertWithEviction (h : Tracks inserted c) {n : ℕ} (hcap : c.capacity = some n) (k : Uuid) :
    k ∈ (c.insertWithEviction key entry).map ↔ k ∈ (c.residents key).drop ((c.residents key).length - n) := by
  have hqueued := (h.push key entry).queued
  rw [residents_eq key entry, length_inMap hqueued, insertWithEviction, hcap]
  exact mem_evict hqueued k

theorem size_insertWithEviction_le (h : Tracks inserted c) {n : ℕ} (hcap : c.capacity = some n) :
    (c.insertWithEviction key entry).map.size ≤ n := by
  rw [insertWithEviction, hcap]
  exact size_evict_le (h.push key entry).queued

/-- Where there is room for a key, some resident stays. -/
theorem exists_mem_insertWithEviction (h : Tracks inserted c) {n : ℕ} (hcap : c.capacity = some n) (hn : n ≠ 0) :
    ∃ k, k ∈ (c.insertWithEviction key entry).map := by
  have hpos := List.length_pos_of_mem ((mem_residents key h).2 (.inl rfl))
  have hlt : (c.residents key).length - n < (c.residents key).length := by omega
  exact ⟨_, (mem_insertWithEviction key entry h hcap _).2 (List.mem_drop_iff_getElem.2 ⟨0, by simpa using hlt, rfl⟩)⟩

/-- Last places among the residents are in the order of the last insertions. -/
theorem older_residents (entry : KeyEntry) (h : Tracks inserted c) {e s : Uuid} (he : e ∈ c.residents key)
    (hs : s ∈ c.residents key) :
    Queue.Older (c.order ++ [key]) e s ↔ Queue.Older (inserted ++ [key]) e s :=
  (h.push key entry).older e (mem_insert_iff.2 ((mem_residents key h).1 he)) s
    (mem_insert_iff.2 ((mem_residents key h).1 hs))

theorem insertsOver_iff (h : Tracks inserted c) :
    InsertsOver (inserted ++ [key]) key c (c.insertWithEviction key entry) ↔
    ∀ n ∈ c.capacity, ∀ e ∈ (c.residents key).take ((c.residents key).length - n),
      ∀ s ∈ (c.residents key).drop ((c.residents key).length - n), Queue.Older (c.order ++ [key]) e s := by
  have hqueued := (h.insertWithEviction key entry).queued
  cases hcap : c.capacity with
  | none =>
    have hmem := mem_insertWithEviction_of_unbounded key entry hcap
    refine iff_of_true ⟨by simp [hcap], hqueued, fun _ => (hmem key).2 (.inl rfl), fun e s he hnot _ => ?_⟩ (by simp)
    exact absurd ((hmem e).2 he) hnot
  | some n =>
    have hmem := mem_insertWithEviction key entry h hcap
    constructor
    · rintro hi n ⟨⟩ e he s hs
      have he' := List.mem_of_mem_take he
      rw [older_residents key entry h he' (List.mem_of_mem_drop hs)]
      refine hi.oldest e s ((mem_residents key h).1 he') (fun hkept => ?_) ((hmem s).2 hs)
      exact List.disjoint_take_drop Queue.nodup_firsts le_rfl he ((hmem e).1 hkept)
    · intro hall
      have hold : ∀ e s : Uuid, e ∈ c.residents key → e ∉ (c.insertWithEviction key entry).map →
          s ∈ (c.insertWithEviction key entry).map → Queue.Older (c.order ++ [key]) e s := by
        intro e s he hnot hs
        rw [hmem] at hnot hs
        refine hall n rfl e ?_ s hs
        rw [← List.take_append_drop ((c.residents key).length - n) (c.residents key), List.mem_append] at he
        exact he.resolve_right hnot
      refine ⟨fun n' hn => size_insertWithEviction_le key entry h hn, hqueued, fun hn => ?_, fun e s he hnot hs => ?_⟩
      · by_contra hnot
        -- the key that stays would be queued behind the inserted one
        obtain ⟨s, hs⟩ := exists_mem_insertWithEviction key entry h hcap fun h0 => hn (by rw [hcap, h0])
        exact Queue.not_older_concat (hold key s ((mem_residents key h).2 (.inl rfl)) hnot hs)
      · have he := (mem_residents key h).2 he
        have hs' : s ∈ c.residents key := List.mem_of_mem_drop ((hmem s).1 hs)
        exact (older_residents key entry h he hs').1 (hold e s he hnot hs)

end

/-- In every run from the empty cache, whatever its capacity, every insertion
evicts the least recently inserted entries just when the places agree at each. -/
theorem evictsOldest_iff (capacity : Option ℕ) (calls : List Call) :
    call.Along EvictsOldest [] (.new capacity) calls ↔ call.Along PlacesAgree [] (.new capacity) calls := by
  have hstep : ∀ (h : History Call Answer) (c : BoundedKeyCache) (i : Call), Tracks (insertions h) c →
      (EvictsOldest h c i ↔ PlacesAgree h c i) := by
    intro h c i hc
    cases i with
    | insertWithEviction key entry => exact insertsOver_iff key entry hc
    | remove | mutate | clear => exact Iff.rfl
  constructor
  · exact fun ha => ha.mono_of_inv (fun _ _ i hc _ => hc.call i) (fun h c i hc => (hstep h c i hc).1)
      (Tracks.new capacity)
  · exact fun ha => ha.mono_of_inv (fun _ _ i hc _ => hc.call i) (fun h c i hc => (hstep h c i hc).2)
      (Tracks.new capacity)

def insertSample (key : Uuid) : Call :=
  .insertWithEviction key {
    keyMeta := {
      id := key, tenantId := "tenant-1", name := "key", spec := .aes256Gcm, status := .active, createdAt := 0,
      rotatedAt := none, version := 1, description := none, metadata := .default }
    material := List.replicate 32 7 }

/-- With room for one key, the last call evicts the key it inserts: the key's
second place is still in the queue from before the other key came. -/
theorem not_evictsOldest_insertedTwice : ¬ call.Along EvictsOldest [] (.new (some 1))
    [insertSample 1, insertSample 1, insertSample 2, insertSample 1] := by
  rintro ⟨-, -, -, hlast, -⟩
  have hgone : (1 : Uuid) ∉ (call.final (.new (some 1))
      [insertSample 1, insertSample 1, insertSample 2, insertSample 1]).map := by
    decide +kernel
  exact hgone (hlast.resident (by decide))

end GmKms.Keystore.BoundedKeyCache
