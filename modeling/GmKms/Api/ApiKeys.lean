import GmKms.Api.Auth
import GmKms.Core.UuidText
import GmKms.Lib.Machine
/-!
# The configured API keys

`ApiKeyConfig`: a list of keys that only grows, searched by secret or by id from
the front. Neither a secret nor an id has to be unique in it.
-/

namespace GmKms.Api

open Lib

/-! ## The first of a list -/

section

variable {α : Type} {p : α → Bool} {f : α → α} {l : List α} {i : ℕ} {a b : α}

/-- `iter_mut().find(..)`, and a change of what it finds. -/
def modifyFirst (p : α → Bool) (f : α → α) : List α → List α
  | [] => []
  | a :: l => if p a then f a :: l else a :: modifyFirst p f l

@[simp] theorem length_modifyFirst : (modifyFirst p f l).length = l.length := by
  induction l with
  | nil => rfl
  | cons a l ih =>
    rw [modifyFirst]
    split
    · rfl
    · rw [List.length_cons, List.length_cons, ih]

/-- An element stays, or it is the first and is changed. -/
theorem modifyFirst_cases (h : l[i]? = some a) : (modifyFirst p f l)[i]? = some a ∨
    l.find? p = some a ∧ (modifyFirst p f l)[i]? = some (f a) := by
  induction l generalizing i with
  | nil => cases h
  | cons b l ih =>
    rw [modifyFirst]
    by_cases hb : p b = true
    · rw [if_pos hb]
      cases i with
      | zero =>
        obtain rfl : b = a := Option.some.inj h
        exact .inr ⟨List.find?_cons_of_pos hb, rfl⟩
      | succ i => exact .inl h
    · rw [if_neg hb, List.find?_cons_of_neg hb]
      cases i with
      | zero => exact .inl h
      | succ i => exact ih h

theorem exists_modifyFirst (h : l.find? p = some a) :
    ∃ i : ℕ, l[i]? = some a ∧ (modifyFirst p f l)[i]? = some (f a) := by
  induction l with
  | nil => cases h
  | cons b l ih =>
    rw [modifyFirst]
    by_cases hb : p b = true
    · rw [List.find?_cons_of_pos hb] at h
      cases h
      exact ⟨0, rfl, by rw [if_pos hb]; rfl⟩
    · rw [List.find?_cons_of_neg hb] at h
      obtain ⟨i, hi, hi'⟩ := ih h
      exact ⟨i + 1, hi, by rw [if_neg hb]; exact hi'⟩

/-- An element the predicate holds of is the changed one, or one of those after the first. -/
theorem modifyFirst_of_pos (h : l[i]? = some a) (ha : p a = true) :
    (modifyFirst p f l)[i]? = some (f a) ∨ a ∈ (l.filter p).tail ∧ (modifyFirst p f l)[i]? = some a := by
  induction l generalizing i with
  | nil => cases h
  | cons b l ih =>
    rw [modifyFirst]
    by_cases hb : p b = true
    · rw [if_pos hb, List.filter_cons_of_pos hb, List.tail_cons]
      cases i with
      | zero =>
        obtain rfl : b = a := Option.some.inj h
        exact .inl rfl
      | succ i => exact .inr ⟨List.mem_filter.2 ⟨List.mem_of_getElem? h, ha⟩, h⟩
    · rw [if_neg hb, List.filter_cons_of_neg hb]
      cases i with
      | zero =>
        obtain rfl : b = a := Option.some.inj h
        exact absurd ha hb
      | succ i => exact ih h

/-- Those after the first are left alone. -/
theorem exists_of_mem_tail (h : a ∈ (l.filter p).tail) : ∃ i : ℕ, l[i]? = some a ∧
    (modifyFirst p f l)[i]? = some a := by
  induction l with
  | nil => cases h
  | cons b l ih =>
    rw [modifyFirst]
    by_cases hb : p b = true
    · rw [List.filter_cons_of_pos hb, List.tail_cons] at h
      obtain ⟨i, hi⟩ := List.mem_iff_getElem?.1 (List.mem_of_mem_filter h)
      exact ⟨i + 1, hi, by rw [if_pos hb]; exact hi⟩
    · rw [List.filter_cons_of_neg hb] at h
      obtain ⟨i, hi, hi'⟩ := ih h
      exact ⟨i + 1, hi, by rw [if_neg hb]; exact hi'⟩

end

/-! ## Keys -/

structure ApiKey where
  secret : String
  permission : ApiKeyPermission
  createdAt : DateTime
  expiresAt : Option DateTime
  revoked : Bool
  keyId : String
  tenantId : Option String
  failedAttempts : UInt32
  lockedUntil : Option DateTime
  deriving DecidableEq

namespace ApiKey

def new (now : DateTime) (uuid : Uuid) (secret : String) (permission : ApiKeyPermission) : ApiKey where
  secret := secret
  permission := permission
  createdAt := now
  expiresAt := none
  revoked := false
  keyId := uuid.text
  tenantId := none
  failedAttempts := 0
  lockedUntil := none

def withExpiration (k : ApiKey) (expiresAt : DateTime) : ApiKey := { k with expiresAt := some expiresAt }

def withKeyId (k : ApiKey) (keyId : String) : ApiKey := { k with keyId }

def withTenant (k : ApiKey) (tenantId : String) : ApiKey := { k with tenantId := some tenantId }

def isValid (k : ApiKey) (now : DateTime) : Bool := !k.revoked && k.expiresAt.all fun exp => decide (now < exp)

def isLocked (k : ApiKey) (now : DateTime) : Bool := k.lockedUntil.any fun u => decide (now < u)

def recordFailedAttempt (k : ApiKey) : ApiKey := { k with failedAttempts := k.failedAttempts + 1 }

def recordSuccessfulLogin (k : ApiKey) : ApiKey := { k with failedAttempts := 0, lockedUntil := none }

def lock (k : ApiKey) (now : DateTime) (duration : ℤ) : ApiKey := { k with lockedUntil := some (now + duration) }

theorem isValid_eq_false_iff {k : ApiKey} {now : DateTime} :
    k.isValid now = false ↔ k.revoked = true ∨ ∃ exp, k.expiresAt = some exp ∧ exp ≤ now := by
  rw [isValid]
  cases k.revoked with
  | true => simp
  | false => cases k.expiresAt <;> simp

/-- A key does not become valid by itself. -/
theorem isValid_of_le {k : ApiKey} {now t : DateTime} (h : k.isValid now = false) (ht : now ≤ t) :
    k.isValid t = false := by
  rw [isValid_eq_false_iff] at h ⊢
  rcases h with h | ⟨exp, hexp, hle⟩
  · exact .inl h
  · exact .inr ⟨exp, hexp, hle.trans ht⟩

end ApiKey

/-! ## The configuration -/

structure ApiKeyConfig where
  headerName : String
  validKeys : List ApiKey
  maxFailedAttempts : UInt32
  lockoutDuration : ℤ
  bruteForceProtection : Bool
  unknownKeyAttempts : UInt32
  unknownKeyLastAttempt : Option DateTime

namespace ApiKeyConfig

def withKeys (keys : List ApiKey) : ApiKeyConfig where
  headerName := "x-api-key"
  validKeys := keys
  maxFailedAttempts := 5
  lockoutDuration := DateTime.minutes 15
  bruteForceProtection := true
  unknownKeyAttempts := 0
  unknownKeyLastAttempt := none

section

variable (c : ApiKeyConfig) (now : DateTime) (key : String)

/-- The search of `validate`, at one reading of the clock. -/
def usableKey : Option ApiKey := c.validKeys.find? fun k => k.secret == key && k.isValid now && !k.isLocked now

/-- The search of the lookups: whatever state the key is in. -/
def firstKey : Option ApiKey := c.validKeys.find? fun k => k.secret == key

def validate : Option ApiKeyPermission := (c.usableKey now key).map (·.permission)

def validateWithIdentity : Option (ApiKeyPermission × String) := (c.usableKey now key).map fun k =>
  (k.permission, k.keyId)

/-- `has_permission`, which any key passes if no permission is asked for. -/
def hasPermission (required : List Permission) : Bool :=
  ((c.validate now key).map fun p => required.isEmpty || required.all p.satisfies).getD false

def lookupKeyId : Option String := (c.firstKey key).map (·.keyId)

def lookupTenant : Option String := (c.firstKey key).bind (·.tenantId)

/-- `record_failed_attempt`, less the delay after an unknown key. -/
def recordFailedAttempt : ApiKeyConfig :=
  if !c.bruteForceProtection then c
  else
    let elapsed := c.unknownKeyLastAttempt.any fun last => now - last > DateTime.minutes 5
    let c := { c with unknownKeyAttempts := if elapsed then 0 else c.unknownKeyAttempts }
    if c.validKeys.any fun k => k.secret == key then
      let record := fun k : ApiKey =>
        let k := k.recordFailedAttempt
        if k.failedAttempts ≥ c.maxFailedAttempts then k.lock now c.lockoutDuration else k
      { c with validKeys := modifyFirst (fun k => k.secret == key) record c.validKeys }
    else { c with unknownKeyAttempts := c.unknownKeyAttempts + 1, unknownKeyLastAttempt := some now }

def recordSuccessfulLogin : ApiKeyConfig :=
  { c with validKeys := modifyFirst (fun k => k.secret == key) ApiKey.recordSuccessfulLogin c.validKeys }

def addKey (k : ApiKey) : ApiKeyConfig := { c with validKeys := c.validKeys ++ [k] }

def revokeKey (keyId : String) : Bool × ApiKeyConfig :=
  if c.validKeys.any fun k => k.keyId == keyId then
    (true,
      { c with validKeys := modifyFirst (fun k => k.keyId == keyId) (fun k => { k with revoked := true }) c.validKeys })
  else (false, c)

def lockKeyById (keyId : String) : ApiKeyConfig :=
  { c with validKeys := modifyFirst (fun k => k.keyId == keyId) (fun k => k.lock now c.lockoutDuration) c.validKeys }

/-- `rotate_key`. The uuid is the id `ApiKey::new` draws, which the one for the rotated key replaces. -/
def rotateKey (uuid : Uuid) (oldKeyId newSecret : String) (newPermission : ApiKeyPermission) (gracePeriod : ℤ) :
    Option ApiKey × ApiKeyConfig :=
  match c.validKeys.find? fun k => k.keyId == oldKeyId with
  | none => (none, c)
  | some _ =>
    let expire := fun k : ApiKey => { k with expiresAt := some (now + gracePeriod) }
    let newKey := (ApiKey.new now uuid newSecret newPermission).withKeyId s!"{oldKeyId}-rotated"
    (some newKey, { c with validKeys := modifyFirst (fun k => k.keyId == oldKeyId) expire c.validKeys ++ [newKey] })

end

end ApiKeyConfig

/-! ## Calls -/

inductive ApiKeyCall where
  | addKey (key : ApiKey)
  | rotateKey (uuid : Uuid) (oldKeyId newSecret : String) (newPermission : ApiKeyPermission) (gracePeriod : ℤ)
  | revokeKey (keyId : String)
  | lockKeyById (keyId : String)
  | recordFailedAttempt (key : String)
  | recordSuccessfulLogin (key : String)

inductive ApiKeyAnswer where
  | done
  | revoked (found : Bool)
  | rotated (newKey : Option ApiKey)

/-- A call and the time at which it is made. -/
structure TimedCall where
  now : DateTime
  call : ApiKeyCall

namespace ApiKeyConfig

def step : Machine ApiKeyConfig TimedCall ApiKeyAnswer := fun c i =>
  match i.call with
  | .addKey key => (.done, c.addKey key)
  | .rotateKey uuid oldKeyId newSecret newPermission gracePeriod =>
    let r := c.rotateKey i.now uuid oldKeyId newSecret newPermission gracePeriod
    (.rotated r.1, r.2)
  | .revokeKey keyId => (.revoked (c.revokeKey keyId).1, (c.revokeKey keyId).2)
  | .lockKeyById keyId => (.done, c.lockKeyById i.now keyId)
  | .recordFailedAttempt key => (.done, c.recordFailedAttempt i.now key)
  | .recordSuccessfulLogin key => (.done, c.recordSuccessfulLogin key)

end ApiKeyConfig

end GmKms.Api
