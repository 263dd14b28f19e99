import GmKms.Keystore.Backend
/-!
# The Redis cache

`RedisCachedKeystore` around any backend. It is seen where a write to Redis fails after the
backend has done its work, and where a method of the trait is not passed on.
-/

namespace GmKms.Keystore

open Lib

/-- A call of a method of the trait; `aad` is what `encrypt` and `decrypt` are given besides.
`backend_type`, which names the implementation, is left out. -/
inductive KeystoreCall where
  | backend (op : BackendOp) (aad : Option Bytes)
  | createSm2KexSession (keyId : Uuid) (userId : Bytes)
  | acceptSm2KexSession (keyId : Uuid) (userId msg1 peerPublicKey : Bytes)
  | processSm2KexMessage (sessionId : Uuid) (msg peerPublicKey : Bytes)
  | getSm2KexResult (sessionId : Uuid)
  | removeSm2KexSession (sessionId : Uuid)
  | health

namespace KeystoreCall

@[reducible] def Value : KeystoreCall → Type
  | backend op _ => op.Value
  | createSm2KexSession .. | acceptSm2KexSession .. => Uuid × Bytes
  | processSm2KexMessage .. => Option Bytes
  | getSm2KexResult .. => Bytes
  | removeSm2KexSession .. => Unit
  | health => HealthStatus

abbrev Reply (c : KeystoreCall) : Type := Except Abort c.Value

end KeystoreCall

/-- An implementation of the trait; what it reads from outside is part of its state. -/
abbrev Backend (σ : Type) := (c : KeystoreCall) → σ → c.Reply × σ

/-- The default implementations of the methods of SM2 key exchange sessions. -/
def sessionUnsupported : Abort := .error (.notImplemented "SM2-KEX session requires software backend")

/-- How Redis answers the commands of a call: the error, where one fails. -/
structure RedisAnswers where
  ping : Except String Unit
  setEx : Except String Unit
  del : Except String Unit

/-- The values in Redis, which nothing reads, do not expire here. -/
structure RedisCachedKeystore (σ : Type) where
  inner : σ
  redis : HashMap String String

def cacheKeyId (keyId : Uuid) (tenantId : String) : String :=
  let id := keyId.text
  s!"kms:{tenantId}:key:{id}"

namespace RedisCachedKeystore

variable {σ : Type}

section

/- `serde_json::to_string` of a key's metadata. -/
variable (metaText : KeyMeta → String) (answers : RedisAnswers)

def cacheKeyMeta (s : RedisCachedKeystore σ) (keyMeta : KeyMeta) : Except Abort Unit × RedisCachedKeystore σ :=
  match answers.setEx with
  | .error e => (.error (.error (.internal e)), s)
  | .ok _ => (.ok (), { s with redis := s.redis.insert (cacheKeyId keyMeta.id keyMeta.tenantId) (metaText keyMeta) })

/-- A failure is only logged. -/
def invalidateCache (s : RedisCachedKeystore σ) (keyId : Uuid) (tenantId : String) : RedisCachedKeystore σ :=
  match answers.del with
  | .error _ => s
  | .ok _ => { s with redis := s.redis.erase (cacheKeyId keyId tenantId) }

/-- The metadata the backend answers with is cached. -/
def thenCache (redis : HashMap String String) : Except Abort KeyMeta × σ → Except Abort KeyMeta × RedisCachedKeystore σ
  | (.error e, inner) => (.error e, ⟨inner, redis⟩)
  | (.ok keyMeta, inner) =>
    match cacheKeyMeta metaText answers ⟨inner, redis⟩ keyMeta with
    | (.error e, s) => (.error e, s)
    | (.ok _, s) => (.ok keyMeta, s)

def delegate (inner : Backend σ) (c : KeystoreCall) (s : RedisCachedKeystore σ) : c.Reply × RedisCachedKeystore σ :=
  (inner c s.inner).map id fun i => { s with inner := i }

/-- The metadata is read before the call, for the tenant of the key. -/
def destroyWith (inner : Backend σ) (keyId : Uuid) (c : KeystoreCall) (s : RedisCachedKeystore σ) :
    c.Reply × RedisCachedKeystore σ :=
  match inner (.backend (.getKeyMetadata keyId) none) s.inner with
  | (.error e, i) => (.error e, { s with inner := i })
  | (.ok keyMeta, i) => delegate inner c (invalidateCache answers { s with inner := i } keyId keyMeta.tenantId)

/-- `impl KeystoreBackend for RedisCachedKeystore`. -/
def perform (inner : Backend σ) : (c : KeystoreCall) → RedisCachedKeystore σ → c.Reply × RedisCachedKeystore σ
  | .backend (.generateKey spec name tenantId) aad, s =>
    thenCache metaText answers s.redis (inner (.backend (.generateKey spec name tenantId) aad) s.inner)
  | .backend (.getKeyMetadata keyId) aad, s =>
    thenCache metaText answers s.redis (inner (.backend (.getKeyMetadata keyId) aad) s.inner)
  | .backend (.importKeyMaterial spec name tenantId material) aad, s =>
    thenCache metaText answers s.redis (inner (.backend (.importKeyMaterial spec name tenantId material) aad) s.inner)
  | .backend (.rotateKey keyId tenantId) aad, s =>
    let s := invalidateCache answers s keyId tenantId
    thenCache metaText answers s.redis (inner (.backend (.rotateKey keyId tenantId) aad) s.inner)
  | .backend (.deleteKey keyId tenantId) aad, s =>
    delegate inner (.backend (.deleteKey keyId tenantId) aad) (invalidateCache answers s keyId tenantId)
  | .backend (.destroyKey keyId) aad, s => destroyWith answers inner keyId (.backend (.destroyKey keyId) aad) s
  | .backend (.destroyKeyWithProof keyId) aad, s =>
    destroyWith answers inner keyId (.backend (.destroyKeyWithProof keyId) aad) s
  | .backend (.encrypt keyId plaintext tenantId) aad, s =>
    delegate inner (.backend (.encrypt keyId plaintext tenantId) aad) s
  | .backend (.decrypt keyId ciphertext tenantId) aad, s =>
    delegate inner (.backend (.decrypt keyId ciphertext tenantId) aad) s
  | .backend (.sign keyId data tenantId) aad, s => delegate inner (.backend (.sign keyId data tenantId) aad) s
  | .backend (.verify keyId data sig tenantId) aad, s =>
    delegate inner (.backend (.verify keyId data sig tenantId) aad) s
  | .backend (.listKeys filter) aad, s => delegate inner (.backend (.listKeys filter) aad) s
  | .backend (.exportKeyMaterial keyId tenantId) aad, s =>
    delegate inner (.backend (.exportKeyMaterial keyId tenantId) aad) s
  | .backend (.getKeyMaterial keyId tenantId) aad, s =>
    delegate inner (.backend (.getKeyMaterial keyId tenantId) aad) s
  | .backend (.getKeyMaterialVersion keyId version tenantId) aad, s =>
    delegate inner (.backend (.getKeyMaterialVersion keyId version tenantId) aad) s
  | .backend (.deriveSharedSecret keyId peerPublicKey algorithm tenantId) aad, s =>
    delegate inner (.backend (.deriveSharedSecret keyId peerPublicKey algorithm tenantId) aad) s
  | .createSm2KexSession .., s => (.error sessionUnsupported, s)
  | .acceptSm2KexSession .., s => (.error sessionUnsupported, s)
  | .processSm2KexMessage .., s => (.error sessionUnsupported, s)
  | .getSm2KexResult .., s => (.error sessionUnsupported, s)
  | .removeSm2KexSession .., s => (.error sessionUnsupported, s)
  | .health, s =>
    match answers.ping with
    | .error _ => (.ok .degraded, s)
    | .ok _ => delegate inner .health s

end

/-! ## With and without the cache -/

/-- A backend behind the cache and the same backend alone. -/
structure SideBySide (σ : Type) where
  cached : RedisCachedKeystore σ
  alone : σ

structure CachedCall where
  answers : RedisAnswers
  call : KeystoreCall

/-- What both answer. -/
structure Replies where
  call : KeystoreCall
  cached : call.Reply
  alone : call.Reply

/-- Both are called. -/
def sideBySide (metaText : KeyMeta → String) (inner : Backend σ) : Machine (SideBySide σ) CachedCall Replies :=
  fun s c =>
    (⟨c.call, (perform metaText c.answers inner c.call s.cached).1, (inner c.call s.alone).1⟩,
      ⟨(perform metaText c.answers inner c.call s.cached).2, (inner c.call s.alone).2⟩)

/-- The health of the cached keystore is also that of Redis. -/
def Replies.Same (r : Replies) : Prop := r.call = .health ∨ r.cached = r.alone

/-- The caller has not seen the cache, and neither has the backend. -/
def Transparent (h : History CachedCall Replies) (s : SideBySide σ) : Prop :=
  (∀ e ∈ h, e.2.Same) ∧ s.cached.inner = s.alone

/-- The call is transparent in a state of the backend. -/
def Unseen (inner : Backend σ) (answers : RedisAnswers) (s : σ) : KeystoreCall → Prop
  | .backend op aad =>
    match op with
    | .generateKey .. | .getKeyMetadata .. | .importKeyMaterial .. | .rotateKey .. =>
      answers.setEx = .ok () ∨ ∃ e, (inner (.backend op aad) s).1 = .error e
    | .destroyKey keyId | .destroyKeyWithProof keyId =>
      match inner (.backend (.getKeyMetadata keyId) none) s with
      | (.error e, s') => inner (.backend op aad) s = (.error e, s')
      | (.ok _, s') => inner (.backend op aad) s = inner (.backend op aad) s'
    | _ => True
  | .health => answers.ping = .ok () ∨ (inner .health s).2 = s
  | c => inner c s = (.error sessionUnsupported, s)

/-! ## One call -/

section

variable (metaText : KeyMeta → String) (answers : RedisAnswers) (inner : Backend σ) (s : RedisCachedKeystore σ)

theorem invalidateCache_inner (keyId : Uuid) (tenantId : String) :
    (invalidateCache answers s keyId tenantId).inner = s.inner := by
  unfold invalidateCache
  cases answers.del <;> rfl

/-- The metadata gets lost exactly where it cannot be cached. -/
theorem thenCache_iff (redis : HashMap String String) (r : Except Abort KeyMeta × σ) :
    (thenCache metaText answers redis r).1 = r.1 ∧ (thenCache metaText answers redis r).2.inner = r.2 ↔
      answers.setEx = .ok () ∨ ∃ e, r.1 = .error e := by
  obtain ⟨e | keyMeta, i⟩ := r
  · exact iff_of_true ⟨rfl, rfl⟩ (.inr ⟨e, rfl⟩)
  · unfold thenCache cacheKeyMeta
    cases answers.setEx with
    | error e => simp
    | ok _ => simp

theorem destroyWith_iff (keyId : Uuid) (c : KeystoreCall) :
    (destroyWith answers inner keyId c s).1 = (inner c s.inner).1 ∧
        (destroyWith answers inner keyId c s).2.inner = (inner c s.inner).2 ↔
      match inner (.backend (.getKeyMetadata keyId) none) s.inner with
      | (.error e, i) => inner c s.inner = (.error e, i)
      | (.ok _, i) => inner c s.inner = inner c i := by
  unfold destroyWith
  obtain ⟨e | keyMeta, i⟩ := inner (.backend (.getKeyMetadata keyId) none) s.inner
  · dsimp only
    rw [Prod.ext_iff]
    exact and_congr eq_comm eq_comm
  · dsimp only [delegate, Prod.map_fst, Prod.map_snd, id]
    rw [invalidateCache_inner, Prod.ext_iff]
    exact and_congr eq_comm eq_comm

theorem unsupported_iff (c : KeystoreCall) :
    .error sessionUnsupported = (inner c s.inner).1 ∧ s.inner = (inner c s.inner).2 ↔
      inner c s.inner = (.error sessionUnsupported, s.inner) := by
  rw [Prod.ext_iff]
  exact and_congr eq_comm eq_comm

theorem perform_iff (c : KeystoreCall) :
    (c = .health ∨ (perform metaText answers inner c s).1 = (inner c s.inner).1) ∧
        (perform metaText answers inner c s).2.inner = (inner c s.inner).2 ↔ Unseen inner answers s.inner c := by
  cases c with
  | health =>
    unfold perform Unseen
    cases answers.ping with
    | error e => simp [eq_comm]
    | ok _ => exact iff_of_true ⟨.inl rfl, rfl⟩ (.inl rfl)
  | backend op aad =>
    rw [or_iff_right (fun h => by cases h)]
    cases op with
    | generateKey spec name tenantId => exact thenCache_iff metaText answers s.redis _
    | getKeyMetadata keyId => exact thenCache_iff metaText answers s.redis _
    | importKeyMaterial spec name tenantId material => exact thenCache_iff metaText answers s.redis _
    | rotateKey keyId tenantId =>
      have hcache := thenCache_iff metaText answers (invalidateCache answers s keyId tenantId).redis
        (inner (.backend (.rotateKey keyId tenantId) aad) (invalidateCache answers s keyId tenantId).inner)
      simp only [perform]
      rw [invalidateCache_inner] at hcache ⊢
      exact hcache
    | deleteKey keyId tenantId =>
      refine iff_of_true ?_ trivial
      simp only [perform, delegate, invalidateCache_inner, Prod.map_fst, Prod.map_snd, id, and_self]
    | destroyKey keyId => exact destroyWith_iff answers inner s keyId _
    | destroyKeyWithProof keyId => exact destroyWith_iff answers inner s keyId _
    | _ => exact iff_of_true ⟨rfl, rfl⟩ trivial
  | _ =>
    rw [or_iff_right (fun h => by cases h)]
    exact unsupported_iff inner s _

end

/-! ## Runs -/

/-- The cache is transparent over exactly the runs whose calls all are. -/
theorem transparent_iff_unseen (metaText : KeyMeta → String) (inner : Backend σ) (s : σ) (redis : HashMap String String)
    (calls : List CachedCall) :
    (sideBySide metaText inner).Throughout Transparent [] ⟨⟨s, redis⟩, s⟩ calls ↔
      (sideBySide metaText inner).Along (fun _ s c => Unseen inner c.answers s.alone c.call)
      [] ⟨⟨s, redis⟩, s⟩ calls := by
  refine Machine.throughout_iff_along (I := fun _ _ => True) (fun _ _ _ _ => trivial) ?_ trivial ⟨by simp, rfl⟩ calls
  rintro h ⟨cached, alone⟩ ⟨answers, c⟩ - ⟨hsame, hinner⟩
  dsimp only at hinner
  subst hinner
  rw [← perform_iff metaText answers inner cached c, Transparent]
  simp only [List.forall_mem_append, List.forall_mem_singleton]
  exact and_congr_left fun _ => and_iff_right hsame

/-- The software keystore as a backend, without its sessions. -/
def softwareBackend (env : Software.UseEnv) : Backend Software.SoftwareKeystore
  | .backend op _, ks => ks.perform .plain env op
  | .createSm2KexSession .., ks => (.error sessionUnsupported, ks)
  | .acceptSm2KexSession .., ks => (.error sessionUnsupported, ks)
  | .processSm2KexMessage .., ks => (.error sessionUnsupported, ks)
  | .getSm2KexResult .., ks => (.error sessionUnsupported, ks)
  | .removeSm2KexSession .., ks => (.error sessionUnsupported, ks)
  | .health, ks => (.ok .healthy, ks)

/-- Redis does not answer. -/
def redisDown : RedisAnswers := ⟨.error "broken pipe", .error "broken pipe", .error "broken pipe"⟩

/-- A key is generated while Redis does not answer: it is stored, and reported as an error. -/
theorem not_transparent_redisDown :
    ¬ (sideBySide KeyMeta.name (softwareBackend ⟨⟨1, 0, fun _ => 7, .error "no key"⟩, 0, fun _ => 0⟩)).Throughout
      Transparent
      [] ⟨⟨⟨∅⟩, ∅⟩, ⟨∅⟩⟩ [⟨redisDown, .backend (.generateKey .aes256Gcm "key" "tenant-1") none⟩] := by
  rintro ⟨-, hlast, -⟩
  rcases hlast _ (List.mem_singleton_self _) with hhealth | hsame
  · cases hhealth
  · cases hsame

end RedisCachedKeystore

end GmKms.Keystore
