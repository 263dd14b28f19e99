import GmKms.Api.KeyService
import GmKms.Api.KeyImport
import GmKms.Keystore.RateLimiter
import GmKms.Lib.CheckThenAct
import GmKms.Lib.ProgramPool
/-!
# The quota of keys

`create_key` and `import_key` of `KeyService` with a `TenantQuotaTracker`: the check, the key and the count are separate
steps on two stores, and calls come in between. The counter lives in Redis for 30 days from its last increment. Nothing
calls `decrement_key_count`.
-/

namespace GmKms.Api.KeyQuota

open Lib Lib.Program Keystore Service
open Keystore.RateLimiter (RedisDb RedisCommand RedisEntry RedisValue)

structure QuotaConfig where
  maxKeys : UInt64
  maxRequestsPerMinute : UInt64
  maxRequestsPerDay : UInt64

/-! ## Calls -/

/-- A command of the tracker. -/
inductive QuotaOp where
  | get (key : String)
  | command (c : RedisCommand)

/-- All answer with a number, or with an error. -/
abbrev QuotaOp.Reply (_ : QuotaOp) : Type := Except String ℕ

/-- What a call reads from outside: besides what the keystore reads, the clock of Redis, and the error of a connection
that breaks, before or after the command has reached Redis. -/
structure QuotaEnv extends Software.UseEnv where
  redisNow : DateTime
  broken : Option String
  reaches : Bool

/-- Redis answers `GET` of a missing key with nil, which is no `u64`. -/
def QuotaOp.answer (redisNow : DateTime) : (op : QuotaOp) → RedisDb → op.Reply × RedisDb
  | .get key, db =>
    match db.find redisNow key with
    | some ⟨.counter n, _⟩ => (.ok n, db)
    | some ⟨.sortedSet _, _⟩ => (.error RateLimiter.wrongType, db)
    | none => (.error "Response type not convertible to numeric.", db)
  | .command c, db => c.perform redisNow db

/-- An increment is answered with a number. -/
def QuotaOp.counts (redisNow : DateTime) (db : RedisDb) : QuotaOp → Bool
  | .command (.incr key) => (QuotaOp.answer redisNow (.command (.incr key)) db).1.isOk
  | _ => true

def QuotaOp.perform (env : QuotaEnv) (op : QuotaOp) (db : RedisDb) : op.Reply × RedisDb :=
  match env.broken with
  | none => op.answer env.redisNow db
  | some e => (.error e, if env.reaches then (op.answer env.redisNow db).2 else db)

abbrev HandlerOp := BackendOp ⊕ QuotaOp

abbrev HandlerOp.Reply : HandlerOp → Type := Sum.elim BackendOp.Reply QuotaOp.Reply

abbrev Shared := Software.SoftwareKeystore × RedisDb

def perform (crypto : Crypto) (env : QuotaEnv) : (op : HandlerOp) → Shared → HandlerOp.Reply op × Shared :=
  Program.performEither (Software.SoftwareKeystore.perform crypto env.toUseEnv) (QuotaOp.perform env)

abbrev Handler (α : Type) : Type := Program HandlerOp.Reply ApiAbort α

/-! ## The tracker -/

def keysKey (tenantId : String) : String := s!"quota:{tenantId}:keys"

/-- `unwrap_or(0)`. -/
def orZero : Except String ℕ → ℕ
  | .ok n => n
  | .error _ => 0

def canCreateKey (config : QuotaConfig) (tenantId : String) : Handler Bool :=
  .call (.inr (.get (keysKey tenantId))) fun r => .done (.ok (orZero r < config.maxKeys.toNat))

/-- The callers only log an error. -/
def incrementKeyCount (tenantId : String) : Handler Unit :=
  .call (.inr (.command (.incr (keysKey tenantId)))) fun
    | .error _ => .done (.ok ())
    | .ok _ => .call (.inr (.command (.expire (keysKey tenantId) (60 * 60 * 24 * 30)))) fun _ => .done (.ok ())

/-! ## The methods -/

/-- The check, the key, and the count. -/
def underQuota (config : QuotaConfig) (tenantId : String) (make : Handler KeyMeta) : Handler KeyMeta := do
  if !(← canCreateKey config tenantId) then Program.fail (.error (.quotaExceeded "keys" 0 0))
  else
    let keyMeta ← make
    incrementKeyCount tenantId
    return keyMeta

/-- One call on the keystore. -/
def store (op : BackendOp) : Handler op.Value := (ask op apiError).inl fun e => e

def createKey (config : QuotaConfig) (spec : KeySpec) (name tenantId : String) : Handler KeyMeta :=
  if !spec.isGeneratable then
    let algorithm := spec.algorithmName
    Program.fail (.error (.invalidRequest
      (s!"{algorithm} cannot be generated; generatable specs are AES-256-GCM, SM4, SM2, " ++
      "Ed25519, HMAC-SHA256, HMAC-SM3. Importable-only specs (ECDSA/Ed448/RSA) must use the import endpoint.")))
  else underQuota config tenantId (store (.generateKey spec name tenantId))

def importKey {F : Type} (config : QuotaConfig) (fromStr : String → Option (Json F)) (spec : KeySpec)
    (name format : String) (wrappedKey encryptedTransportKey : Bytes) (sourceFingerprint tenantId : String) :
    Handler KeyMeta := do
  let keyMaterial ← Program.lift
    (KeyService.importChecks fromStr spec format wrappedKey encryptedTransportKey sourceFingerprint)
  underQuota config tenantId (store (.importKeyMaterial spec name tenantId keyMaterial))

/-! ## One call alone -/

section

variable {crypto : Crypto} {config : QuotaConfig} {env : QuotaEnv} {ks : Software.SoftwareKeystore} {db : RedisDb}

/-- What `can_create_key` answers. -/
def admits (config : QuotaConfig) (env : QuotaEnv) (db : RedisDb) (tenantId : String) : Bool :=
  orZero (QuotaOp.perform env (.get (keysKey tenantId)) db).1 < config.maxKeys.toNat

theorem run_incrementKeyCount (tenantId : String) (s : Shared) :
    ∃ db', (incrementKeyCount tenantId).run (perform crypto env) s = (.ok (), s.1, db') := by
  unfold incrementKeyCount
  rw [Program.run_call]
  cases (perform crypto env (.inr (.command (.incr (keysKey tenantId)))) s).1 with
  | error e => exact ⟨_, rfl⟩
  | ok n => exact ⟨_, rfl⟩

/-- The method is the one of the service, told what the tracker says. -/
theorem run_underQuota (tenantId : String) (p : Service KeyMeta) :
    ∃ db', (underQuota config tenantId (p.inl fun e => e)).run (perform crypto env) (ks, db) =
      ((runOn crypto env.toUseEnv (if !admits config env db tenantId then fail (.quotaExceeded "keys" 0 0) else p)
        ks).1,
        (runOn crypto env.toUseEnv (if !admits config env db tenantId then fail (.quotaExceeded "keys" 0 0) else p)
          ks).2,
        db') := by
  have hcheck : (canCreateKey config tenantId).run (perform crypto env) (ks, db) =
      (.ok (admits config env db tenantId), ks, (QuotaOp.perform env (.get (keysKey tenantId)) db).2) := rfl
  unfold underQuota
  rw [Program.run_bind_ok hcheck]
  cases admits config env db tenantId with
  | false => exact ⟨_, rfl⟩
  | true =>
    have hmake : (p.inl fun e => e).run (perform crypto env)
      (ks, (QuotaOp.perform env (.get (keysKey tenantId)) db).2) =
        ((p.run (Software.SoftwareKeystore.perform crypto env.toUseEnv) ks).1.mapError fun e => e,
          (p.run (Software.SoftwareKeystore.perform crypto env.toUseEnv) ks).2, _) := Program.run_inl _ _ p _
    change ∃ db', ((p.inl fun e => e) >>= fun keyMeta => do
      incrementKeyCount tenantId
      return keyMeta : Handler KeyMeta).run (perform crypto env) _ = ((runOn crypto env.toUseEnv p ks).1,
        (runOn crypto env.toUseEnv p ks).2, db')
    unfold runOn
    cases hp : p.run (Software.SoftwareKeystore.perform crypto env.toUseEnv) ks with
    | mk r ks' =>
      rw [hp] at hmake
      cases r with
      | error e => exact ⟨_, Program.run_bind_error hmake⟩
      | ok m =>
        obtain ⟨db', hincrement⟩ := run_incrementKeyCount tenantId
          (ks', (QuotaOp.perform env (.get (keysKey tenantId)) db).2)
        exact ⟨db', (Program.run_bind_ok hmake).trans (Program.run_bind_ok hincrement)⟩

theorem run_createKey {senv : ServiceEnv} {tenantId : String} (h : senv.canCreateKey = admits config env db tenantId)
    (spec : KeySpec) (name : String) : ∃ db', (createKey config spec name tenantId).run (perform crypto env) (ks, db) =
      ((runOn crypto env.toUseEnv (KeyService.createKey senv spec name tenantId) ks).1,
        (runOn crypto env.toUseEnv (KeyService.createKey senv spec name tenantId) ks).2, db') := by
  unfold createKey KeyService.createKey
  rw [h]
  split
  · exact ⟨db, rfl⟩
  · exact run_underQuota tenantId _

theorem run_importKey {F : Type} {senv : ServiceEnv} {tenantId : String}
    (h : senv.canCreateKey = admits config env db tenantId) (fromStr : String → Option (Json F)) (spec : KeySpec)
    (name format : String) (wrappedKey encryptedTransportKey : Bytes) (sourceFingerprint : String) :
    ∃ db', (importKey config fromStr spec name format wrappedKey encryptedTransportKey sourceFingerprint tenantId).run
      (perform crypto env) (ks, db) =
      ((runOn crypto env.toUseEnv (KeyService.importKey fromStr senv spec name format wrappedKey encryptedTransportKey
          sourceFingerprint tenantId) ks).1,
        (runOn crypto env.toUseEnv (KeyService.importKey fromStr senv spec name format wrappedKey encryptedTransportKey
          sourceFingerprint tenantId) ks).2, db') := by
  unfold importKey KeyService.importKey
  cases KeyService.importChecks fromStr spec format wrappedKey encryptedTransportKey sourceFingerprint with
  | error e => exact ⟨db, rfl⟩
  | ok material =>
    rw [h]
    exact run_underQuota tenantId _

end

/-! ## Calls side by side -/

/-- A call of the two methods, or one call that any other part of the server makes on the keystore: a deletion, say. -/
inductive Call where
  | create (spec : KeySpec) (name tenantId : String)
  /-- The material of an import, once it has passed the checks. -/
  | importKey (spec : KeySpec) (name tenantId : String) (material : Bytes)
  | other (op : BackendOp)

/-- The tenant whose quota the call is held against. -/
def Call.tenant? : Call → Option String
  | create _ _ tenantId | importKey _ _ tenantId _ => some tenantId
  | other _ => none

/-- A method as a program whose answer is not looked at. -/
def quiet (p : Handler KeyMeta) : Program HandlerOp.Reply Unit Unit := p.mapResult (fun _ => ()) fun _ => ()

def Call.program (config : QuotaConfig) : Call → Program HandlerOp.Reply Unit Unit
  | create spec name tenantId => quiet (createKey config spec name tenantId)
  | importKey spec name tenantId material =>
    quiet (underQuota config tenantId (store (.importKeyMaterial spec name tenantId material)))
  | other op => .call (.inl op) fun _ => .done (.ok ())

abbrev Calls := Pool HandlerOp.Reply Unit Unit Call Shared

abbrev Event := Program.Made HandlerOp.Reply Call QuotaEnv

def Calls.new : Calls := ⟨(.new, ∅), []⟩

def interleave (crypto : Crypto) (config : QuotaConfig) : Machine Calls (Move Call QuotaEnv) (Option Event) :=
  Pool.interleave (perform crypto) (Call.program config)

/-- The call makes a key for the tenant. -/
def makesKey (tenantId : String) : Event → Bool
  | ⟨_, c, _, .inl (.generateKey ..), .ok _⟩ | ⟨_, c, _, .inl (.importKeyMaterial ..), .ok _⟩ =>
    c.tenant? = some tenantId
  | _ => false

/-- The keys that the calls of a run have made for the tenant. -/
def keysMade (l : List Event) (tenantId : String) : ℕ := l.countP (makesKey tenantId)

/-! ## Where the calls are -/

/-- The call has passed the check and has not made its key. -/
def isAdmitted (tenantId : String) (c : Call × Program HandlerOp.Reply Unit Unit) : Bool :=
  match c.2 with
  | .call (.inl _) _ => c.1.tenant? = some tenantId
  | _ => false

/-- The call has made its key and has not counted it. -/
def isOwing (tenantId : String) (c : Call × Program HandlerOp.Reply Unit Unit) : Bool :=
  match c.2 with
  | .call (.inr (.command (.incr _))) _ => c.1.tenant? = some tenantId
  | _ => false

def number : RedisValue → ℕ
  | .counter n => n
  | .sortedSet _ => 0

def counter (db : RedisDb) (tenantId : String) : ℕ := db[keysKey tenantId]?.elim 0 fun e => number e.value

open CheckThenAct in
def tally (tenantId : String) (s : Calls) : Tally :=
  { counted := counter s.shared.2 tenantId
    admitted := s.calls.countP (isAdmitted tenantId)
    owing := s.calls.countP (isOwing tenantId) }

/-- Redis answers the tenant's calls, its increments with a number, before the time to live of its counter is over. -/
def steady (tenantId : String) (s : Calls) : Move Call QuotaEnv → Bool
  | .start _ => true
  | .advance i env =>
    match s.calls[i]? with
    | some (c, .call (.inr op) _) => c.tenant? ≠ some tenantId || env.broken.isNone &&
      (s.shared.2[keysKey tenantId]?).all (fun e => e.expiresAt.all (env.redisNow < ·)) &&
      op.counts env.redisNow s.shared.2
    | _ => true

/-- After the step no more than `c` calls of the tenant are between their check and their count. -/
def AtMost (c : ℕ) (crypto : Crypto) (config : QuotaConfig) (tenantId : String) (s : Calls) (m : Move Call QuotaEnv) :
    Prop := (tally tenantId (interleave crypto config s m).2).inside ≤ c

/-! ## The stages of a call -/

/-- The key of a method, and its count. -/
def counting (tenantId : String) (make : Handler KeyMeta) : Handler KeyMeta := do
  let keyMeta ← make
  incrementKeyCount tenantId
  return keyMeta

/-- The time to live of the counter, and the answer. -/
def expiring (tenantId : String) (keyMeta : KeyMeta) : Handler KeyMeta :=
  .call (.inr (.command (.expire (keysKey tenantId) (60 * 60 * 24 * 30)))) fun _ => .done (.ok keyMeta)

/-- The operation on the keystore of one of the two methods for the tenant. -/
inductive Makes (tenantId : String) : Call → Handler KeyMeta → Prop
  | create (spec : KeySpec) (name : String) :
      Makes tenantId (.create spec name tenantId) (store (.generateKey spec name tenantId))
  | importKey (spec : KeySpec) (name : String) (material : Bytes) :
      Makes tenantId (.importKey spec name tenantId material) (store (.importKeyMaterial spec name tenantId material))

/-- How far a call is. -/
inductive Stage (config : QuotaConfig) : Call → Program HandlerOp.Reply Unit Unit → Prop
  | ended (c : Call) (r : Except Unit Unit) : Stage config c (.done r)
  | other (op : BackendOp) : Stage config (.other op) (.call (.inl op) fun _ => .done (.ok ()))
  | checking {c : Call} {tenantId : String} {make : Handler KeyMeta} (hmake : Makes tenantId c make) :
      Stage config c (quiet (underQuota config tenantId make))
  | admitted {c : Call} {tenantId : String} {make : Handler KeyMeta} (hmake : Makes tenantId c make) :
      Stage config c (quiet (counting tenantId make))
  | owing {c : Call} {tenantId : String} (hc : c.tenant? = some tenantId) (keyMeta : KeyMeta) :
      Stage config c (quiet (do incrementKeyCount tenantId; return keyMeta))
  | expiring {c : Call} {tenantId : String} (hc : c.tenant? = some tenantId) (keyMeta : KeyMeta) :
      Stage config c (quiet (expiring tenantId keyMeta))

section

variable {config : QuotaConfig} {tenantId : String} {c : Call} {make : Handler KeyMeta}

theorem Makes.tenant (h : Makes tenantId c make) : c.tenant? = some tenantId := by
  cases h <;> rfl

theorem quiet_underQuota (make : Handler KeyMeta) : quiet (underQuota config tenantId make) =
    .call (.inr (.get (keysKey tenantId))) fun r =>
      if orZero r < config.maxKeys.toNat then quiet (counting tenantId make) else .done (.error ()) := by
  change Program.call _ _ = Program.call _ _
  congr 1
  funext r
  by_cases h : orZero r < config.maxKeys.toNat
  · rw [if_pos h]
    change quiet (if !decide (orZero r < config.maxKeys.toNat) then _ else _) = _
    rw [decide_eq_true h]
    rfl
  · rw [if_neg h]
    change quiet (if !decide (orZero r < config.maxKeys.toNat) then _ else _) = _
    rw [decide_eq_false h]
    rfl

theorem quiet_increment (keyMeta : KeyMeta) : quiet (do incrementKeyCount tenantId; return keyMeta) =
    .call (.inr (.command (.incr (keysKey tenantId)))) fun r =>
      if r.isOk then quiet (expiring tenantId keyMeta) else .done (.ok ()) := by
  change Program.call _ _ = Program.call _ _
  congr 1
  funext r
  cases r <;> rfl

theorem stage_program (c : Call) : Stage config c (c.program config) := by
  cases c with
  | other op => exact .other op
  | importKey spec name tenantId material => exact .checking (.importKey spec name material)
  | create spec name tenantId =>
    change Stage config _ (quiet (createKey config spec name tenantId))
    unfold createKey
    split
    · exact .ended _ _
    · exact .checking (.create spec name)

end

/-! ## The counter -/

section

variable {db : RedisDb} {tenantId tenantId' : String} {now : DateTime}

theorem keysKey_inj (h : keysKey tenantId = keysKey tenantId') : tenantId = tenantId' := by
  have hlist := congrArg String.toList h
  simp only [keysKey, toString, String.toList_append] at hlist
  exact String.toList_injective (List.append_cancel_left (List.append_cancel_right hlist))

theorem snd_answer_get (key : String) : (QuotaOp.answer now (.get key) db).2 = db := by
  unfold QuotaOp.answer
  dsimp only
  split <;> rfl

/-- A command on another key. -/
theorem counter_answer_of_ne {c : RedisCommand} (h : keysKey tenantId ≠ c.key) :
    counter (QuotaOp.answer now (.command c) db).2 tenantId = counter db tenantId := by
  unfold counter
  rw [QuotaOp.answer, RateLimiter.getElem?_perform_of_ne h]

/-- A time to live leaves the number as it is, unless it is over at once. -/
theorem counter_expire (key : String) {seconds : ℤ} (h : 0 < seconds) :
    counter (QuotaOp.answer now (.command (.expire key seconds)) db).2 tenantId = counter db tenantId := by
  by_cases hkey : keysKey tenantId = key
  · subst hkey
    rw [QuotaOp.answer, RedisCommand.perform]
    split
    · rfl
    · cases hfind : db.find now (keysKey tenantId) with
      | none => rfl
      | some e =>
        have hentry : db[keysKey tenantId]? = some e := (Option.filter_eq_some_iff.1 hfind).1
        dsimp only
        rw [if_neg (by omega), counter, counter, HashMap.getElem?_insert, if_pos rfl, hentry]
        rfl
  · exact counter_answer_of_ne hkey

/-- The counter as it stands is what `GET` reads. -/
theorem orZero_get (hfind : db.find now (keysKey tenantId) = db[keysKey tenantId]?) :
    orZero (QuotaOp.answer now (.get (keysKey tenantId)) db).1 = counter db tenantId := by
  unfold QuotaOp.answer counter
  dsimp only
  rw [hfind]
  cases db[keysKey tenantId]? with
  | none => rfl
  | some e =>
    obtain ⟨value, expiresAt⟩ := e
    cases value <;> rfl

theorem counter_incr (hfind : db.find now (keysKey tenantId) = db[keysKey tenantId]?)
    (hok : (QuotaOp.answer now (.command (.incr (keysKey tenantId))) db).1.isOk = true) :
    counter (QuotaOp.answer now (.command (.incr (keysKey tenantId))) db).2 tenantId = counter db tenantId + 1 := by
  rw [QuotaOp.answer, RedisCommand.perform, hfind] at hok ⊢
  unfold counter
  cases hentry : db[keysKey tenantId]? with
  | none =>
    dsimp only
    rw [HashMap.getElem?_insert, if_pos rfl]
    rfl
  | some e =>
    rw [hentry] at hok
    obtain ⟨value, expiresAt⟩ := e
    cases value with
    | sortedSet members => cases hok
    | counter n =>
      dsimp only at hok ⊢
      split at hok
      · rename_i hroom
        rw [if_pos hroom, HashMap.getElem?_insert, if_pos rfl]
        rfl
      · cases hok

end

/-! ## What a move does to the tally -/

section

variable {crypto : Crypto} {config : QuotaConfig} {tenantId : String}

theorem not_inside_program (c : Call) :
    isAdmitted tenantId (c, c.program config) = false ∧ isOwing tenantId (c, c.program config) = false := by
  cases c with
  | other op => exact ⟨rfl, rfl⟩
  | importKey spec name tenantId' material => exact ⟨rfl, rfl⟩
  | create spec name tenantId' =>
    change isAdmitted tenantId (_, quiet (createKey config spec name tenantId')) = false ∧
      isOwing tenantId (_, quiet (createKey config spec name tenantId')) = false
    unfold createKey
    split <;> exact ⟨rfl, rfl⟩

/-- What is inside at one stage. -/
structure At (tenantId : String) (x : Call × Program HandlerOp.Reply Unit Unit) (admitted owing : ℕ) : Prop where
  admitted : (if isAdmitted tenantId x then 1 else 0) = admitted
  owing : (if isOwing tenantId x then 1 else 0) = owing

/-- The tally where one call has moved on. -/
theorem tally_set {s : Calls} {i : ℕ} {x y : Call × Program HandlerOp.Reply Unit Unit} (hi : s.calls[i]? = some x)
    {a o a' o' : ℕ} (hx : At tenantId x a o) (hy : At tenantId y a' o') (shared : Shared) :
    (tally tenantId ⟨shared, s.calls.set i y⟩).counted = counter shared.2 tenantId ∧
      (tally tenantId ⟨shared, s.calls.set i y⟩).admitted + a = (tally tenantId s).admitted + a' ∧
      (tally tenantId ⟨shared, s.calls.set i y⟩).owing + o = (tally tenantId s).owing + o' := by
  have hadmitted := countP_set_add hi y (isAdmitted tenantId)
  have howing := countP_set_add hi y (isOwing tenantId)
  rw [hx.admitted, hy.admitted] at hadmitted
  rw [hx.owing, hy.owing] at howing
  exact ⟨rfl, hadmitted, howing⟩

theorem at_done (c : Call) (r : Except Unit Unit) : At tenantId (c, .done r) 0 0 := ⟨rfl, rfl⟩

variable {c : Call} {tenant : String} {make : Handler KeyMeta}

/-- The stage of a call of another tenant does not count. -/
theorem at_of_ne (hc : c.tenant? ≠ some tenantId) (p : Program HandlerOp.Reply Unit Unit) : At tenantId (c, p) 0 0 := by
  constructor
  · unfold isAdmitted
    split
    · rw [if_neg (by simpa using hc)]
    · rfl
  · unfold isOwing
    split
    · rw [if_neg (by simpa using hc)]
    · rfl

theorem at_checking (h : Makes tenant c make) : At tenantId (c, quiet (underQuota config tenant make)) 0 0 := by
  cases h <;> exact ⟨rfl, rfl⟩

theorem at_admitted (h : Makes tenantId c make) : At tenantId (c, quiet (counting tenantId make)) 1 0 := by
  cases h with
  | create => exact ⟨if_pos (decide_eq_true rfl), rfl⟩
  | importKey => exact ⟨if_pos (decide_eq_true rfl), rfl⟩

theorem at_owing (hc : c.tenant? = some tenantId) (m : KeyMeta) :
    At tenantId (c, quiet (do incrementKeyCount tenantId; return m)) 0 1 := ⟨rfl, if_pos (decide_eq_true hc)⟩

theorem at_expiring (m : KeyMeta) : At tenantId (c, quiet (expiring tenant m)) 0 0 := ⟨rfl, rfl⟩

/-- The shared state after a command that leaves the counter. -/
theorem counter_perform_of_ne {env : QuotaEnv} {command : RedisCommand} {db : RedisDb}
    (h : keysKey tenantId ≠ command.key) :
    counter (QuotaOp.perform env (.command command) db).2 tenantId = counter db tenantId := by
  unfold QuotaOp.perform
  cases env.broken with
  | none => exact counter_answer_of_ne h
  | some e =>
    dsimp only
    split
    · exact counter_answer_of_ne h
    · rfl

theorem counter_perform_expire {env : QuotaEnv} {db : RedisDb} (key : String) {seconds : ℤ} (h : 0 < seconds) :
    counter (QuotaOp.perform env (.command (.expire key seconds)) db).2 tenantId = counter db tenantId := by
  unfold QuotaOp.perform
  cases env.broken with
  | none => exact counter_expire key h
  | some e =>
    dsimp only
    split
    · exact counter_expire key h
    · rfl

theorem snd_perform_get {env : QuotaEnv} {db : RedisDb} (key : String) :
    (QuotaOp.perform env (.get key) db).2 = db := by
  unfold QuotaOp.perform
  cases env.broken with
  | none => exact snd_answer_get key
  | some e =>
    dsimp only
    split
    · exact snd_answer_get key
    · rfl

open CheckThenAct in
/-- What a move does: a step of the tally, in which as many keys are made as the log says. -/
structure Moves (config : QuotaConfig) (tenantId : String) (s s' : Calls) (e : Option Event) : Prop where
  step : (tally tenantId s).Step config.maxKeys.toNat (tally tenantId s')
  made : keysMade e.toList tenantId + (tally tenantId s).made = (tally tenantId s').made
  stage : ∀ x ∈ s'.calls, Stage config x.1 x.2

theorem stage_set {s : Calls} (hs : ∀ x ∈ s.calls, Stage config x.1 x.2) {i : ℕ} {k : Call}
    {p : Program HandlerOp.Reply Unit Unit} (hp : Stage config k p) :
    ∀ x ∈ s.calls.set i (k, p), Stage config x.1 x.2 := by
  intro x hx
  rcases List.mem_or_eq_of_mem_set hx with hx | rfl
  · exact hs x hx
  · exact hp

theorem steady_advance {s : Calls} {i : ℕ} {op : QuotaOp} {next : op.Reply → Program HandlerOp.Reply Unit Unit}
    (hi : s.calls[i]? = some (c, .call (.inr op) next)) (hc : c.tenant? = some tenantId) {env : QuotaEnv}
    (hsteady : steady tenantId s (.advance i env) = true) : env.broken = none ∧
      s.shared.2.find env.redisNow (keysKey tenantId) = s.shared.2[keysKey tenantId]? ∧
      op.counts env.redisNow s.shared.2 = true := by
  simp only [steady, hi, hc, ne_eq, not_true_eq_false, decide_false, Bool.false_or, Bool.and_eq_true,
    Option.isNone_iff_eq_none] at hsteady
  obtain ⟨⟨hbroken, hlive⟩, hcounts⟩ := hsteady
  refine ⟨hbroken, ?_, hcounts⟩
  unfold RedisDb.find
  cases hentry : s.shared.2[keysKey tenantId]? with
  | none => rfl
  | some e =>
    rw [hentry] at hlive
    exact Option.filter_some_pos hlive

theorem interleave_advance {s : Calls} {i : ℕ} {k : Call} {op : HandlerOp}
    {next : HandlerOp.Reply op → Program HandlerOp.Reply Unit Unit} (hi : s.calls[i]? = some (k, .call op next))
    (env : QuotaEnv) : interleave crypto config s (.advance i env) =
      (some ⟨i, k, env, op, (perform crypto env op s.shared).1⟩,
        ⟨(perform crypto env op s.shared).2, s.calls.set i (k, next (perform crypto env op s.shared).1)⟩) := by
  simp only [interleave, Pool.interleave, Pool.made, Pool.move, hi]

/-- A move that changes neither the number nor what is inside. -/
theorem moves_idle {s : Calls} (hs : ∀ x ∈ s.calls, Stage config x.1 x.2) {i : ℕ}
    {x : Call × Program HandlerOp.Reply Unit Unit} (hi : s.calls[i]? = some x) {a o : ℕ} (hx : At tenantId x a o)
    {p : Program HandlerOp.Reply Unit Unit} (hp : At tenantId (x.1, p) a o) (hstage : Stage config x.1 p)
    {shared : Shared} (hcounter : counter shared.2 tenantId = counter s.shared.2 tenantId) {e : Option Event}
    (he : keysMade e.toList tenantId = 0) : Moves config tenantId s ⟨shared, s.calls.set i (x.1, p)⟩ e := by
  obtain ⟨hn, ha, ho⟩ := tally_set hi hx hp shared
  have hcounted : (tally tenantId ⟨shared, s.calls.set i (x.1, p)⟩).counted = (tally tenantId s).counted :=
    hn.trans hcounter
  refine ⟨.idle hcounted (by omega) (by omega), ?_, stage_set hs hstage⟩
  unfold CheckThenAct.Tally.made
  omega

theorem moves_start {s : Calls} (hs : ∀ x ∈ s.calls, Stage config x.1 x.2) (k : Call) :
    Moves config tenantId s ⟨s.shared, s.calls ++ [(k, k.program config)]⟩ none := by
  have htally : tally tenantId ⟨s.shared, s.calls ++ [(k, k.program config)]⟩ = tally tenantId s := by
    have hout : isAdmitted tenantId (k, k.program config) = false ∧ isOwing tenantId (k, k.program config) = false :=
      not_inside_program k
    simp [tally, List.countP_append, hout.1, hout.2]
  refine ⟨.idle (by rw [htally]) (by rw [htally]) (by rw [htally]), ?_, fun x hx => ?_⟩
  · rw [htally]
    exact Nat.zero_add _
  · rcases List.mem_append.1 hx with hx | hx
    · exact hs x hx
    · rw [List.mem_singleton.1 hx]
      exact stage_program k

/-- The check. -/
theorem moves_checking {s : Calls} (hs : ∀ x ∈ s.calls, Stage config x.1 x.2) {i : ℕ} (hmake : Makes tenant c make)
    (hi : s.calls[i]? = some (c, quiet (underQuota config tenant make))) {env : QuotaEnv}
    (hsteady : steady tenantId s (.advance i env)) :
    Moves config tenantId s (interleave crypto config s (.advance i env)).2
      (interleave crypto config s (.advance i env)).1 := by
  have hx : At tenantId (c, quiet (underQuota config tenant make)) 0 0 := at_checking hmake
  rw [quiet_underQuota] at hi hx
  rw [interleave_advance hi]
  have hcounter : counter (perform crypto env (.inr (.get (keysKey tenant))) s.shared).2.2 tenantId =
      counter s.shared.2 tenantId := congrArg (counter · tenantId) (snd_perform_get (keysKey tenant))
  have hmade : ∀ r, keysMade [(⟨i, c, env, .inr (.get (keysKey tenant)), r⟩ : Event)] tenantId = 0 := fun r => rfl
  generalize hr : (perform crypto env (.inr (.get (keysKey tenant))) s.shared).1 = r
  by_cases htenant : tenant = tenantId
  · subst htenant
    by_cases hadmit : orZero r < config.maxKeys.toNat
    · simp only [if_pos hadmit]
      have hy := at_admitted hmake
      obtain ⟨hn, ha, ho⟩ := tally_set hi hx hy (perform crypto env (.inr (.get (keysKey tenant))) s.shared).2
      have hcounted := hn.trans hcounter
      have hread : orZero r = (tally tenant s).counted := by
        obtain ⟨hbroken, hfind, -⟩ := steady_advance hi hmake.tenant hsteady
        rw [← hr]
        change orZero (QuotaOp.perform env (.get (keysKey tenant)) s.shared.2).1 = _
        rw [QuotaOp.perform, hbroken]
        exact orZero_get hfind
      refine ⟨.grant (by omega) hcounted (by omega) (by omega), ?_, stage_set hs (.admitted hmake)⟩
      rw [Option.toList_some, hmade]
      unfold CheckThenAct.Tally.made
      change _ = (tally tenant s).counted at hcounted
      omega
    · simp only [if_neg hadmit]
      exact moves_idle hs hi hx (at_done c _) (.ended c _) hcounter (hmade r)
  · have hc : c.tenant? ≠ some tenantId := by
      rw [hmake.tenant]
      simpa using htenant
    have hy : ∀ p, At tenantId (c, p) 0 0 := at_of_ne hc
    split
    · exact moves_idle hs hi hx (hy _) (.admitted hmake) hcounter (hmade r)
    · exact moves_idle hs hi hx (hy _) (.ended c _) hcounter (hmade r)

/-- What a method does with the keystore's answer. -/
def afterStore (tenant : String) : Except Abort KeyMeta → Program HandlerOp.Reply Unit Unit
  | .ok keyMeta => quiet (do incrementKeyCount tenant; return keyMeta)
  | .error _ => .done (.error ())

theorem quiet_counting_create (spec : KeySpec) (name : String) :
    quiet (counting tenant (store (.generateKey spec name tenant))) =
      .call (.inl (.generateKey spec name tenant)) (afterStore tenant) := by
  change Program.call _ _ = Program.call _ _
  congr 1
  funext r
  rcases r with (_ | _) | _ <;> rfl

theorem quiet_counting_import (spec : KeySpec) (name : String) (material : Bytes) :
    quiet (counting tenant (store (.importKeyMaterial spec name tenant material))) =
      .call (.inl (.importKeyMaterial spec name tenant material)) (afterStore tenant) := by
  change Program.call _ _ = Program.call _ _
  congr 1
  funext r
  rcases r with (_ | _) | _ <;> rfl

/-- A key is made, or not. -/
theorem moves_made {s : Calls} (hs : ∀ x ∈ s.calls, Stage config x.1 x.2) {i : ℕ} (hmake : Makes tenant c make)
    (hi : s.calls[i]? = some (c, quiet (counting tenant make))) {shared : Shared}
    (hcounter : counter shared.2 tenantId = counter s.shared.2 tenantId) (r : Except Abort KeyMeta) {e : Event}
    (he : makesKey tenantId e = (r.isOk && decide (tenant = tenantId))) :
    Moves config tenantId s ⟨shared, s.calls.set i (c, afterStore tenant r)⟩ (some e) := by
  have hmade : keysMade (some e).toList tenantId = if makesKey tenantId e then 1 else 0 := by
    rw [Option.toList_some, keysMade, List.countP_singleton]
  rw [he] at hmade
  by_cases htenant : tenant = tenantId
  · subst htenant
    have hx := at_admitted hmake
    rw [decide_eq_true rfl, Bool.and_true] at hmade
    change _ = if r.isOk then 1 else 0 at hmade
    cases r with
    | error abort =>
      have hy : At tenant (c, afterStore tenant (.error abort)) 0 0 := at_done c _
      obtain ⟨hn, ha, ho⟩ := tally_set hi hx hy shared
      have hcounted : _ = (tally tenant s).counted := hn.trans hcounter
      refine ⟨.giveUp hcounted (by omega) (by omega), ?_, stage_set hs (.ended _ _)⟩
      rw [hmade]
      unfold CheckThenAct.Tally.made
      change 0 + _ = _
      omega
    | ok m =>
      have hy : At tenant (c, afterStore tenant (.ok m)) 0 1 := at_owing hmake.tenant m
      obtain ⟨hn, ha, ho⟩ := tally_set hi hx hy shared
      have hcounted : _ = (tally tenant s).counted := hn.trans hcounter
      refine ⟨.act hcounted (by omega) (by omega), ?_, stage_set hs (.owing hmake.tenant m)⟩
      rw [hmade]
      unfold CheckThenAct.Tally.made
      change 1 + _ = _
      omega
  · have hne : c.tenant? ≠ some tenantId := by
      rw [hmake.tenant]
      simpa using htenant
    have hx : ∀ p, At tenantId (c, p) 0 0 := at_of_ne hne
    rw [decide_eq_false htenant, Bool.and_false] at hmade
    cases r with
    | error _ => exact moves_idle hs hi (hx _) (hx _) (.ended _ _) hcounter hmade
    | ok m => exact moves_idle hs hi (hx _) (hx _) (.owing hmake.tenant m) hcounter hmade

theorem moves_admitted {s : Calls} (hs : ∀ x ∈ s.calls, Stage config x.1 x.2) {i : ℕ} (hmake : Makes tenant c make)
    (hi : s.calls[i]? = some (c, quiet (counting tenant make))) (env : QuotaEnv) :
    Moves config tenantId s (interleave crypto config s (.advance i env)).2
      (interleave crypto config s (.advance i env)).1 := by
  cases hmake with
  | create spec name =>
    have hi' := hi
    rw [quiet_counting_create] at hi'
    rw [interleave_advance hi']
    have hcounter : counter (perform crypto env (.inl (.generateKey spec name tenant)) s.shared).2.2 tenantId =
        counter s.shared.2 tenantId := rfl
    refine moves_made hs (.create spec name) hi hcounter _ ?_
    generalize (perform crypto env (.inl (.generateKey spec name tenant)) s.shared).1 = r
    cases r <;> simp [makesKey, Call.tenant?, Except.isOk, Except.toBool]
  | importKey spec name material =>
    have hi' := hi
    rw [quiet_counting_import] at hi'
    rw [interleave_advance hi']
    have hcounter : counter (perform crypto env (.inl (.importKeyMaterial spec name tenant material)) s.shared).2.2
        tenantId = counter s.shared.2 tenantId := rfl
    refine moves_made hs (.importKey spec name material) hi hcounter _ ?_
    generalize (perform crypto env (.inl (.importKeyMaterial spec name tenant material)) s.shared).1 = r
    cases r <;> simp [makesKey, Call.tenant?, Except.isOk, Except.toBool]

/-- The count. -/
theorem moves_owing {s : Calls} (hs : ∀ x ∈ s.calls, Stage config x.1 x.2) {i : ℕ} (hc : c.tenant? = some tenant)
    (m : KeyMeta) (hi : s.calls[i]? = some (c, quiet (do incrementKeyCount tenant; return m))) {env : QuotaEnv}
    (hsteady : steady tenantId s (.advance i env)) :
    Moves config tenantId s (interleave crypto config s (.advance i env)).2
      (interleave crypto config s (.advance i env)).1 := by
  have hi' := hi
  rw [quiet_increment] at hi'
  rw [interleave_advance hi']
  have hmade : ∀ r, keysMade [(⟨i, c, env, .inr (.command (.incr (keysKey tenant))), r⟩ : Event)] tenantId = 0 :=
    fun r => rfl
  by_cases htenant : tenant = tenantId
  · subst htenant
    obtain ⟨hbroken, hfind, hok⟩ := steady_advance hi' hc hsteady
    change (QuotaOp.answer env.redisNow (.command (.incr (keysKey tenant))) s.shared.2).1.isOk = true at hok
    have hperform : perform crypto env (.inr (.command (.incr (keysKey tenant)))) s.shared =
        ((QuotaOp.answer env.redisNow (.command (.incr (keysKey tenant))) s.shared.2).1, s.shared.1,
          (QuotaOp.answer env.redisNow (.command (.incr (keysKey tenant))) s.shared.2).2) := by
      change ((QuotaOp.perform env _ s.shared.2).1, s.shared.1, (QuotaOp.perform env _ s.shared.2).2) = _
      rw [QuotaOp.perform, hbroken]
    rw [hperform]
    dsimp only
    rw [if_pos hok]
    obtain ⟨hn, ha, ho⟩ := tally_set hi (at_owing hc m) (at_expiring m)
      (s.shared.1, (QuotaOp.answer env.redisNow (.command (.incr (keysKey tenant))) s.shared.2).2)
    have hcounted : _ = (tally tenant s).counted + 1 := hn.trans (counter_incr hfind hok)
    refine ⟨.count hcounted (by omega) (by omega), ?_, stage_set hs (.expiring hc m)⟩
    unfold CheckThenAct.Tally.made
    change 0 + _ = _
    omega
  · have hne : c.tenant? ≠ some tenantId := by
      rw [hc]
      simpa using htenant
    have hx : ∀ p, At tenantId (c, p) 0 0 := at_of_ne hne
    have hcounter : counter (perform crypto env (.inr (.command (.incr (keysKey tenant)))) s.shared).2.2 tenantId =
        counter s.shared.2 tenantId :=
      counter_perform_of_ne fun h => htenant (keysKey_inj h).symm
    split
    · exact moves_idle hs hi (hx _) (hx _) (.expiring hc m) hcounter (hmade _)
    · exact moves_idle hs hi (hx _) (hx _) (.ended _ _) hcounter (hmade _)

/-- The time to live. -/
theorem moves_expiring {s : Calls} (hs : ∀ x ∈ s.calls, Stage config x.1 x.2) {i : ℕ} (m : KeyMeta)
    (hi : s.calls[i]? = some (c, quiet (expiring tenant m))) (env : QuotaEnv) :
    Moves config tenantId s (interleave crypto config s (.advance i env)).2
      (interleave crypto config s (.advance i env)).1 := by
  rw [interleave_advance (k := c) hi]
  exact moves_idle hs hi (at_expiring m) (at_done c _) (.ended c _)
    (counter_perform_expire _ (by decide)) rfl

theorem makesKey_other (i : ℕ) (op : BackendOp) (env : QuotaEnv) (r : HandlerOp.Reply (.inl op)) :
    makesKey tenantId ⟨i, .other op, env, .inl op, r⟩ = false := by
  cases op <;> cases r <;> rfl

/-- Any other call on the keystore. -/
theorem moves_other {s : Calls} (hs : ∀ x ∈ s.calls, Stage config x.1 x.2) {i : ℕ} {op : BackendOp}
    (hi : s.calls[i]? = some (.other op, .call (.inl op) fun _ => .done (.ok ()))) (env : QuotaEnv) :
    Moves config tenantId s (interleave crypto config s (.advance i env)).2
      (interleave crypto config s (.advance i env)).1 := by
  have hx : ∀ p, At tenantId (.other op, p) 0 0 := at_of_ne nofun
  have hcounter : counter (perform crypto env (.inl op) s.shared).2.2 tenantId = counter s.shared.2 tenantId := rfl
  rw [interleave_advance hi]
  refine moves_idle hs hi (hx _) (hx _) (.ended _ _) hcounter ?_
  rw [Option.toList_some, keysMade, List.countP_singleton, makesKey_other]
  rfl

/-- Every move of a steady run is a step of the tally. -/
theorem moves {s : Calls} (hs : ∀ x ∈ s.calls, Stage config x.1 x.2) {m : Move Call QuotaEnv}
    (hsteady : steady tenantId s m) :
    Moves config tenantId s (interleave crypto config s m).2 (interleave crypto config s m).1 := by
  have hnothing : Moves config tenantId s s none := ⟨.idle rfl rfl rfl, Nat.zero_add _, hs⟩
  cases m with
  | start k => exact moves_start hs k
  | advance i env =>
    cases hi : s.calls[i]? with
    | none =>
      rw [interleave, Pool.interleave, Pool.made, Pool.move, hi]
      exact hnothing
    | some x =>
      obtain ⟨c, p⟩ := x
      cases hs _ (List.mem_of_getElem? hi) with
      | ended _ r =>
        rw [interleave, Pool.interleave, Pool.made, Pool.move, hi]
        exact hnothing
      | other op => exact moves_other hs hi env
      | checking hmake => exact moves_checking hs hmake hi hsteady
      | admitted hmake => exact moves_admitted hs hmake hi env
      | owing hc m => exact moves_owing hs hc m hi hsteady
      | expiring hc m => exact moves_expiring hs m hi env

end

/-! ## The bound -/

section

variable {crypto : Crypto} {config : QuotaConfig} {tenantId : String} {c : ℕ}

/-- With at most `c` calls of a tenant between their check and their count at any time, the tenant gets at most `c - 1`
keys more than its quota, whatever the other tenants do. -/
theorem keysMade_run {ms : List (Move Call QuotaEnv)} (hms : Machine.Along (interleave crypto config)
      (fun _ s m => steady tenantId s m ∧ AtMost c crypto config tenantId s m) [] Calls.new ms) :
    keysMade (log (Machine.trace (interleave crypto config) Calls.new ms)) tenantId ≤
      config.maxKeys.toNat + (c - 1) := by
  have hinv := hms.inv (I := fun h s => (∀ x ∈ s.calls, Stage config x.1 x.2) ∧
      keysMade (log h) tenantId = (tally tenantId s).made ∧
      (tally tenantId s).Bounded config.maxKeys.toNat (max c 1)) ?_ ⟨nofun, rfl, ?_⟩
  · obtain ⟨-, hmade, hbounded⟩ := hinv
    unfold CheckThenAct.Tally.Bounded at hbounded
    rw [List.nil_append] at hmade
    omega
  · rintro h s m ⟨hs, hmade, hbounded⟩ ⟨hsteady, hatMost⟩
    obtain ⟨hstep, hmade', hs'⟩ := moves hs hsteady
    refine ⟨hs', ?_, hstep.bounded (le_max_of_le_left hatMost) hbounded⟩
    have hlog : log (h ++ [(m, (interleave crypto config s m).1)]) =
        log h ++ (interleave crypto config s m).1.toList := by
      rw [log_append]
      cases (interleave crypto config s m).1 <;> rfl
    rw [hlog, keysMade, List.countP_append]
    unfold keysMade at hmade hmade'
    omega
  · change 0 + 0 + 1 ≤ _
    omega

instance (c : ℕ) (s : Calls) (m : Move Call QuotaEnv) : Decidable (AtMost c crypto config tenantId s m) :=
  inferInstanceAs (Decidable (_ ≤ _))

end

def oneKey : QuotaConfig := ⟨1, 5000, 1000000⟩

def answering (uuid : Uuid) : QuotaEnv :=
  { (sampleServiceEnv 7).toUseEnv with uuid, redisNow := 0, broken := none, reaches := true }

/-- Two calls pass the check before the first of them is counted, and the third is refused. -/
def racing : List (Move Call QuotaEnv) :=
  [.start (.create .aes256Gcm "orders" "acme"), .start (.create .aes256Gcm "invoices" "acme"),
    .advance 0 (answering 1), .advance 1 (answering 1), .advance 0 (answering 1), .advance 1 (answering 2),
    .advance 0 (answering 1), .advance 1 (answering 1), .start (.create .aes256Gcm "returns" "acme"),
    .advance 2 (answering 3), .advance 2 (answering 3), .advance 0 (answering 1), .advance 1 (answering 1)]

/-- The bound is reached. -/
theorem keysMade_racing :
    keysMade (log (Machine.trace (interleave .plain oneKey) Calls.new racing)) "acme" ≤ 1 + (2 - 1) ∧
    keysMade (log (Machine.trace (interleave .plain oneKey) Calls.new racing)) "acme" = 2 :=
  ⟨keysMade_run (by decide +kernel), by decide +kernel⟩

end GmKms.Api.KeyQuota
