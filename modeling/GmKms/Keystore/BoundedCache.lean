import GmKms.Core.Key
/-!
# The bounded key cache

`BoundedKeyCache`: a map with the order in which its keys were inserted, which
evicts the oldest ones when a capacity is set. The methods that the PostgreSQL
keystore calls are modelled.
-/

namespace GmKms.Keystore

/-- `postgres::KeyEntry`: a key's metadata and its current material. -/
structure KeyEntry where
  keyMeta : KeyMeta
  material : Bytes
  deriving DecidableEq

/-- The entry with its key's status set. -/
def KeyEntry.withStatus (entry : KeyEntry) (status : KeyStatus) : KeyEntry :=
  { entry with keyMeta := { entry.keyMeta with status } }

structure BoundedKeyCache where
  map : HashMap Uuid KeyEntry
  order : List Uuid
  capacity : Option ℕ
  evictions : ℕ

namespace BoundedKeyCache

def new (capacity : Option ℕ) : BoundedKeyCache := ⟨∅, [], capacity, 0⟩

def getCloned (c : BoundedKeyCache) (key : Uuid) : Option KeyEntry := c.map[key]?

def mutate (c : BoundedKeyCache) (key : Uuid) (f : KeyEntry → KeyEntry) : BoundedKeyCache :=
  match c.map[key]? with
  | some entry => { c with map := c.map.insert key (f entry) }
  | none => c

def remove (c : BoundedKeyCache) (key : Uuid) : Option KeyEntry × BoundedKeyCache :=
  match c.map[key]? with
  | some entry => (some entry, { c with map := c.map.erase key, order := c.order.erase key })
  | none => (none, c)

/-- The loop of `insert_with_eviction`: pop the queue until the map fits. -/
def evict (capacity : ℕ) : HashMap Uuid KeyEntry → List Uuid → ℕ → HashMap Uuid KeyEntry × List Uuid × ℕ
  | map, [], evictions => (map, [], evictions)
  | map, victim :: order, evictions =>
    if map.size ≤ capacity then (map, victim :: order, evictions)
    else if victim ∈ map then evict capacity (map.erase victim) order (evictions + 1)
    else evict capacity map order evictions

def insertWithEviction (c : BoundedKeyCache) (key : Uuid) (entry : KeyEntry) : BoundedKeyCache :=
  let map := c.map.insert key entry
  let order := c.order ++ [key]
  match c.capacity with
  | none => { c with map, order }
  | some capacity =>
    let (map, order, evictions) := evict capacity map order c.evictions
    { c with map, order, evictions }

/-! ## Lookups after each operation -/

@[simp] theorem getElem?_new (capacity : Option ℕ) (key : Uuid) : (new capacity).map[key]? = none := by
  simp [new]

theorem getElem?_mutate (c : BoundedKeyCache) (key key' : Uuid) (f : KeyEntry → KeyEntry) :
    (c.mutate key f).map[key']? = if key = key' then (c.map[key]?).map f else c.map[key']? := by
  unfold mutate
  cases h : c.map[key]? with
  | none =>
    by_cases hk : key = key'
    · subst key'
      simp [h]
    · simp [hk]
  | some entry => simp [Std.ExtTreeMap.getElem?_insert]

@[simp] theorem capacity_mutate (c : BoundedKeyCache) (key : Uuid) (f : KeyEntry → KeyEntry) :
    (c.mutate key f).capacity = c.capacity := by
  unfold mutate
  split <;> rfl

theorem getElem?_remove (c : BoundedKeyCache) (key key' : Uuid) :
    (c.remove key).2.map[key']? = if key = key' then none else c.map[key']? := by
  unfold remove
  cases h : c.map[key]? with
  | none =>
    by_cases hk : key = key'
    · subst key'
      simp [h]
    · simp [hk]
  | some entry => simp [Std.ExtTreeMap.getElem?_erase]

@[simp] theorem remove_fst (c : BoundedKeyCache) (key : Uuid) : (c.remove key).1 = c.map[key]? := by
  unfold remove
  split <;> simp_all

/-- Evicting only takes entries away. -/
theorem of_getElem?_evict {capacity : ℕ} {map : HashMap Uuid KeyEntry} {order : List Uuid} {evictions : ℕ}
    {key : Uuid} {entry : KeyEntry} (h : (evict capacity map order evictions).1[key]? = some entry) :
    map[key]? = some entry := by
  induction order generalizing map evictions with
  | nil => exact h
  | cons victim order ih =>
    simp only [evict] at h
    split at h
    · exact h
    · split at h
      · have := ih h
        rw [Std.ExtTreeMap.getElem?_erase] at this
        split at this
        · cases this
        · exact this
      · exact ih h

@[simp] theorem capacity_insertWithEviction (c : BoundedKeyCache) (key : Uuid) (entry : KeyEntry) :
    (c.insertWithEviction key entry).capacity = c.capacity := by
  unfold insertWithEviction
  split <;> simp_all

/-- What a lookup finds after an insertion was inserted or was there before. -/
theorem of_getElem?_insertWithEviction {c : BoundedKeyCache} {key key' : Uuid} {entry entry' : KeyEntry}
    (h : (c.insertWithEviction key entry).map[key']? = some entry') :
    (if key = key' then some entry else c.map[key']?) = some entry' := by
  have hmap : (c.map.insert key entry)[key']? = some entry' := by
    unfold insertWithEviction at h
    split at h
    · exact h
    · exact of_getElem?_evict h
  simpa [Std.ExtTreeMap.getElem?_insert] using hmap

theorem getElem?_insertWithEviction_of_unbounded {c : BoundedKeyCache} (hc : c.capacity = none) (key key' : Uuid)
    (entry : KeyEntry) :
    (c.insertWithEviction key entry).map[key']? = if key = key' then some entry else c.map[key']? := by
  simp [insertWithEviction, hc, Std.ExtTreeMap.getElem?_insert]

end BoundedKeyCache

end GmKms.Keystore
