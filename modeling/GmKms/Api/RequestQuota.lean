import GmKms.Api.CryptoService
import GmKms.Api.KeyQuota
/-!
# The quota of requests

`record_request` of the tracker, and the methods of `CryptoService` behind it. A request is counted before it is
checked, in a bucket of its minute and then in one of its day, so that requests side by side have numbers of their own.
A connection that breaks admits the request.
-/

namespace GmKms.Api.RequestQuota

open Lib Lib.Program Keystore Service KeyQuota
open Keystore.RateLimiter (RedisDb RedisCommand RedisEntry RedisValue)

/-- What the buckets are for. -/
inductive Period where
  | minute | day
  deriving DecidableEq

/-- What `chrono` writes of a date: `%Y%m%d%H%M` or `%Y%m%d`, in years of four digits. -/
structure Stamp where
  text : String
  digits : text.toList.all Char.isDigit

namespace Period

def name : Period → String
  | minute => "minute"
  | day => "day"

def resource : Period → String
  | minute => "requests_per_minute"
  | day => "requests_per_day"

def limit (config : QuotaConfig) : Period → ℕ
  | minute => config.maxRequestsPerMinute.toNat
  | day => config.maxRequestsPerDay.toNat

/-- In seconds. -/
def ttl : Period → ℤ
  | minute => 120
  | day => 86400

end Period

def bucketKey (tenantId : String) (p : Period) (stamp : Stamp) : String :=
  s!"quota:{tenantId}:req:{p.name}:{stamp.text}"

/-- The half of `record_request` for one period, and what comes after it. -/
def recordIn (config : QuotaConfig) (tenantId : String) (p : Period) (stamp : Stamp) (next : Handler Unit) :
    Handler Unit :=
  .call (.inr (.command (.incr (bucketKey tenantId p stamp)))) fun
    | .error _ => .done (.ok ())
    | .ok n => .call (.inr (.command (.expire (bucketKey tenantId p stamp) p.ttl))) fun _ =>
      if p.limit config < n then Program.fail (.error (.quotaExceeded p.resource n (p.limit config))) else next

/-- The dates are those of the two readings of the clock. -/
def recordRequest (config : QuotaConfig) (tenantId : String) (stamps : Period → Stamp) : Handler Unit :=
  recordIn config tenantId .minute (stamps .minute) (recordIn config tenantId .day (stamps .day) (.done (.ok ())))

/-- A method of the service behind the tracker. -/
def metered {α : Type} (config : QuotaConfig) (tenantId : String) (stamps : Period → Stamp) (p : Service α) :
    Handler α := do
  recordRequest config tenantId stamps
  p.inl fun e => e

/-! ## One call alone -/

section

variable {crypto : Crypto} {config : QuotaConfig} {env : QuotaEnv} {ks : Software.SoftwareKeystore} {db : RedisDb}
  {tenantId : String}

/-- What the service learns of the answer. -/
def refusal? : Except ApiAbort Unit → Option QuotaExceeded
  | .error (.error (.quotaExceeded resource current limit)) => some ⟨resource, current, limit⟩
  | _ => none

/-- An answer of the tracker: it admits the request or says which quota is exceeded. -/
def IsAnswer (r : Except ApiAbort Unit) : Prop :=
  r = .ok () ∨ ∃ resource current limit, r = .error (.error (.quotaExceeded resource current limit))

theorem run_recordIn (p : Period) (stamp : Stamp) {next : Handler Unit} (hnext : ∀ db : RedisDb, ∃ r db',
      next.run (perform crypto env) (ks, db) = (r, ks, db') ∧ IsAnswer r) (db : RedisDb) : ∃ r db',
    (recordIn config tenantId p stamp next).run (perform crypto env) (ks, db) = (r, ks, db') ∧ IsAnswer r := by
  unfold recordIn
  rw [Program.run_call]
  cases (perform crypto env (.inr (.command (.incr (bucketKey tenantId p stamp)))) (ks, db)).1 with
  | error e => exact ⟨_, _, rfl, .inl rfl⟩
  | ok n =>
    dsimp only
    rw [Program.run_call]
    split
    · exact ⟨_, _, rfl, .inr ⟨_, _, _, rfl⟩⟩
    · exact hnext _

theorem run_recordRequest (stamps : Period → Stamp) : ∃ r db',
    (recordRequest config tenantId stamps).run (perform crypto env) (ks, db) = (r, ks, db') ∧ IsAnswer r :=
  run_recordIn _ _ (run_recordIn _ _ fun db => ⟨_, db, rfl, .inl rfl⟩) db

/-- The method is the one of the service, told what the tracker says. -/
theorem run_metered {α : Type} {senv : ServiceEnv} {stamps : Period → Stamp} (h : senv.recordRequest =
      refusal? ((recordRequest config tenantId stamps).run (perform crypto env) (ks, db)).1) (p : Service α) :
    ∃ db', (metered config tenantId stamps p).run (perform crypto env) (ks, db) =
      ((runOn crypto env.toUseEnv (do CryptoService.checkQuota senv; p) ks).1,
        (runOn crypto env.toUseEnv (do CryptoService.checkQuota senv; p) ks).2, db') := by
  obtain ⟨r, db', hrecord, hr⟩ := run_recordRequest stamps
  rw [hrecord] at h
  unfold metered CryptoService.checkQuota
  rw [h]
  obtain rfl | ⟨resource, current, limit, rfl⟩ := hr
  · refine ⟨db', (Program.run_bind_ok hrecord).trans ?_⟩
    refine (Program.run_inl (fun e : ApiAbort => e) (QuotaOp.perform env) p db').trans ?_
    change _ = ((runOn crypto env.toUseEnv p ks).1, (runOn crypto env.toUseEnv p ks).2, db')
    unfold runOn
    cases (p.run (Software.SoftwareKeystore.perform crypto env.toUseEnv) ks).1 <;> rfl
  · exact ⟨db', Program.run_bind_error hrecord⟩

end

/-! ## Calls side by side -/

/-- A method of `CryptoService`, or a call that makes a key. -/
inductive Call where
  | metered (tenantId : String) (stamps : Period → Stamp) (method : Service Unit)
  | key (c : KeyQuota.Call)

def Call.program (config : QuotaConfig) : Call → Program HandlerOp.Reply Unit Unit
  | metered tenantId stamps method =>
    (RequestQuota.metered config tenantId stamps method).mapResult (fun u => u) fun _ => ()
  | key c => c.program config

abbrev Calls := Pool HandlerOp.Reply Unit Unit Call Shared

abbrev Event := Program.Made HandlerOp.Reply Call QuotaEnv

def Calls.new : Calls := ⟨(.new, ∅), []⟩

def interleave (crypto : Crypto) (config : QuotaConfig) : Machine Calls (Move Call QuotaEnv) (Option Event) :=
  Pool.interleave (perform crypto) (Call.program config)

/-- The number that a request was given in the bucket. -/
def number? (key : String) : (Σ op : HandlerOp, HandlerOp.Reply op) → Option ℕ
  | ⟨.inr (.command (.incr k)), .ok n⟩ => if k = key then some n else none
  | _ => none

def isWork : (Σ op : HandlerOp, HandlerOp.Reply op) → Bool
  | ⟨.inl _, _⟩ => true
  | _ => false

/-- The program has returned a value. -/
def hasReturned : Program HandlerOp.Reply Unit Unit → Bool
  | .done (.ok _) => true
  | _ => false

/-- The call at a place was counted in the bucket, and then reached the keystore or returned. -/
def isServed (key : String) (s : Calls) (l : List Event) (i : ℕ) : Bool :=
  (madeAt i l).any (fun e => (number? key e).isSome) &&
    ((madeAt i l).any isWork || (s.calls[i]?).any fun c => hasReturned c.2)

/-- The requests that were counted in the bucket and served. -/
def served (key : String) (s : Calls) (l : List Event) : ℕ := (List.range s.calls.length).countP (isServed key s l)

/-- A command on the bucket that arrives at Redis, whether or not its answer gets back. -/
def arrives (key : String) (e : Event) : Bool :=
  match e.op with
  | .inr (.command c) => c.key = key && (e.outside.broken.isNone || e.outside.reaches)
  | _ => false

/-- An increment of the bucket that arrives. -/
def isIncrement (key : String) (e : Event) : Bool :=
  match e.op with
  | .inr (.command (.incr _)) => arrives key e
  | _ => false

/-- The commands on the bucket arrive before its time to live, counted from `opened`, is over. -/
def Within (key : String) (opened : DateTime) (p : Period) (l : List Event) : Prop :=
  ∀ e ∈ l, arrives key e → opened ≤ e.outside.redisNow ∧ e.outside.redisNow < opened + p.ttl * 1000000000

/-! ## Keys -/

section

variable {tenantId tenantId' : String} {p p' : Period} {stamp stamp' : Stamp}

/-- What comes after the last colon. -/
theorem since_bucketKey : History.since (fun c : Char => c = ':') (bucketKey tenantId p stamp).toList =
    stamp.text.toList := by
  have hlist : (bucketKey tenantId p stamp).toList =
      ("quota:".toList ++ tenantId.toList ++ ":req:".toList ++ p.name.toList ++ [':']) ++ stamp.text.toList := by
    simp [bucketKey, toString, String.toList_append]
  have hnone : ∀ c ∈ stamp.text.toList, decide (c = ':') = false := by
    intro c hc
    refine decide_eq_false ?_
    rintro rfl
    exact absurd (List.all_eq_true.1 stamp.digits _ hc) (by decide)
  rw [hlist, History.since_append hnone, History.since_append_of_pos (by decide), List.nil_append]

/-- Keys of buckets of different periods are different. -/
theorem period_eq (h : bucketKey tenantId p stamp = bucketKey tenantId' p' stamp') : p = p' := by
  have hstamp : stamp.text = stamp'.text := by
    refine String.toList_injective ?_
    rw [← since_bucketKey (p := p), h, since_bucketKey]
  have hlist : ∀ (t : String) (q : Period) (u : Stamp), (bucketKey t q u).toList =
      ("quota:".toList ++ t.toList ++ ":req:".toList ++ q.name.toList) ++ ([':'] ++ u.text.toList) := by
    intro t q u
    simp [bucketKey, toString, String.toList_append]
  have hlast := congrArg String.toList h
  rw [hlist, hlist, hstamp] at hlast
  have hend : ∀ (l : List Char) (q : Period), (l ++ q.name.toList).getLast? = q.name.toList.getLast? := by
    intro l q
    cases q <;> exact List.getLast?_append_of_ne_nil _ (by simp [Period.name])
  have hname := congrArg List.getLast? (List.append_cancel_right hlast)
  rw [hend, hend] at hname
  cases p <;> cases p'
  · rfl
  · simp [Period.name] at hname
  · simp [Period.name] at hname
  · rfl

theorem keysKey_ne_bucketKey : keysKey tenantId ≠ bucketKey tenantId' p stamp := by
  intro h
  have hkeys : History.since (fun c : Char => c = ':') (keysKey tenantId).toList = "keys".toList := by
    have hlist : (keysKey tenantId).toList = ("quota:".toList ++ tenantId.toList ++ [':']) ++ "keys".toList := by
      simp [keysKey, toString, String.toList_append]
    have hnone : ∀ c ∈ "keys".toList, decide (c = ':') = false := by simp
    rw [hlist, History.since_append hnone, History.since_append_of_pos (by decide), List.nil_append]
  rw [h, since_bucketKey] at hkeys
  have hdigits := stamp.digits
  rw [hkeys] at hdigits
  simp at hdigits

end

/-! ## What the calls promise -/

/-- The numbers that a call was given are within the limits. -/
def WithinLimits (config : QuotaConfig) (tenantId : String) (stamps : Period → Stamp)
    (made : List (Σ op : HandlerOp, HandlerOp.Reply op)) : Prop :=
  ∀ p, ∀ e ∈ made, ∀ n ∈ number? (bucketKey tenantId p (stamps p)) e, n ≤ p.limit config

/-- What a call does after the calls it has made: it counts in each of its buckets once and before it works, works only
within the limits, and sets the time to live. -/
def Allows (config : QuotaConfig) : Call → List (Σ op : HandlerOp, HandlerOp.Reply op) → HandlerOp → Prop
  | .metered tenantId stamps _, made, .inl _ => WithinLimits config tenantId stamps made
  | .metered tenantId stamps _, made, .inr (.command (.incr key)) =>
    ∃ p, key = bucketKey tenantId p (stamps p) ∧ ∀ e ∈ made, number? key e = none ∧ isWork e = false
  | .metered tenantId stamps _, _, .inr (.command (.expire key seconds)) =>
    ∃ p, key = bucketKey tenantId p (stamps p) ∧ seconds = p.ttl
  | .metered .., _, .inr _ => False
  | .key _, _, .inr (.command (.incr key)) | .key _, _, .inr (.command (.expire key _)) =>
    ∃ tenantId, key = keysKey tenantId
  | .key _, _, .inr (.command _) => False
  | .key _, _, _ => True

def Returns (config : QuotaConfig) : Call → List (Σ op : HandlerOp, HandlerOp.Reply op) → Unit → Prop
  | .metered tenantId stamps _, made, _ => WithinLimits config tenantId stamps made
  | .key _, _, _ => True

section

variable {config : QuotaConfig} {tenantId : String} {stamps : Period → Stamp} {method : Service Unit}
  {made : List (Σ op : HandlerOp, HandlerOp.Reply op)}

theorem WithinLimits.snoc (h : WithinLimits config tenantId stamps made) {e : Σ op : HandlerOp, HandlerOp.Reply op}
    (he : ∀ p, ∀ n ∈ number? (bucketKey tenantId p (stamps p)) e, n ≤ p.limit config) :
    WithinLimits config tenantId stamps (made ++ [e]) := by
  intro p d hd
  rcases List.mem_append.1 hd with hd | hd
  · exact h p d hd
  · obtain rfl := List.mem_singleton.1 hd
    exact he p

theorem number?_incr {key k : String} {r : Except String ℕ} {n : ℕ}
    (h : n ∈ number? key ⟨.inr (.command (.incr k)), r⟩) : k = key ∧ r = .ok n := by
  cases r with
  | error e => cases h
  | ok m =>
    unfold number? at h
    dsimp only at h
    split at h
    · cases h
      exact ⟨‹_›, rfl⟩
    · cases h

/-- What a call has done when it comes to the period. -/
structure Fresh (config : QuotaConfig) (tenantId : String) (stamps : Period → Stamp) (p : Period)
    (made : List (Σ op : HandlerOp, HandlerOp.Reply op)) : Prop where
  within : WithinLimits config tenantId stamps made
  unnumbered : ∀ e ∈ made, number? (bucketKey tenantId p (stamps p)) e = none ∧ isWork e = false

/-- A period keeps the promises, where what comes after it does. The other period stays as fresh as it was. -/
theorem keeps_recordIn {p : Period} (h : Fresh config tenantId stamps p made) {next : Handler Unit}
    (hnext : ∀ made', WithinLimits config tenantId stamps made' →
      (∀ p' ≠ p, Fresh config tenantId stamps p' made → Fresh config tenantId stamps p' made') →
      next.Keeps (Allows config (.metered tenantId stamps method))
      (fun made _ => WithinLimits config tenantId stamps made)
        made') :
    (recordIn config tenantId p (stamps p) next).Keeps (Allows config (.metered tenantId stamps method))
      (fun made _ => WithinLimits config tenantId stamps made) made := by
  refine Keeps.call ⟨p, rfl, h.unnumbered⟩ fun r => ?_
  cases r with
  | error e => exact h.within.snoc fun p' n hn => nomatch (number?_incr hn).2
  | ok n =>
    refine Keeps.call ⟨p, rfl, rfl⟩ fun r => ?_
    by_cases hlimit : p.limit config < n
    · rw [if_pos hlimit]
      trivial
    · rw [if_neg hlimit]
      have hwithin : WithinLimits config tenantId stamps
          (made ++ [⟨.inr (.command (.incr (bucketKey tenantId p (stamps p)))), .ok n⟩]) := by
        refine h.within.snoc fun p' m hm => ?_
        obtain ⟨hkey, hm⟩ := number?_incr hm
        cases hm
        obtain rfl := period_eq hkey
        omega
      refine hnext _ (hwithin.snoc fun _ _ hm => nomatch hm) fun p' hp' hfresh =>
        ⟨hwithin.snoc (fun _ _ hm => nomatch hm), ?_⟩
      intro e he
      rw [List.append_assoc, List.mem_append] at he
      obtain he | he := he
      · exact hfresh.unnumbered e he
      · obtain rfl | he := List.mem_cons.1 he
        · exact ⟨if_neg fun hkey => hp' (period_eq hkey).symm, rfl⟩
        · obtain rfl := List.mem_singleton.1 he
          exact ⟨rfl, rfl⟩

theorem keeps_metered (tenantId : String) (stamps : Period → Stamp) (method : Service Unit) :
    (metered config tenantId stamps method).Keeps (Allows config (.metered tenantId stamps method))
      (Returns config (.metered tenantId stamps method)) [] := by
  have hempty : ∀ p, Fresh config tenantId stamps p [] := fun p =>
    ⟨fun _ _ he => absurd he List.not_mem_nil, fun _ he => absurd he List.not_mem_nil⟩
  refine Keeps.bind (R := fun made _ => WithinLimits config tenantId stamps made) ?_ fun made _ hmade => ?_
  · refine keeps_recordIn (hempty _) fun made hmade hfresh => ?_
    exact keeps_recordIn (hfresh .day (by decide) (hempty _)) fun made' hmade' _ => hmade'
  · -- the calls of the method are no increments
    have hown : ∀ own : List (Σ op : HandlerOp, HandlerOp.Reply op), (∀ e ∈ own, e.1.isLeft) →
        WithinLimits config tenantId stamps (made ++ own) := by
      intro own hleft p e he n hn
      rcases List.mem_append.1 he with he | he
      · exact hmade p e he n hn
      · have hl := hleft e he
        obtain ⟨op | op, r⟩ := e
        · cases hn
        · cases hl
    exact keeps_inl _ _ (fun own hleft _ => hown own hleft) fun own hleft _ => hown own hleft

theorem keeps_key (c : KeyQuota.Call) (made : List (Σ op : HandlerOp, HandlerOp.Reply op)) :
    (c.program config).Keeps (Allows config (.key c)) (Returns config (.key c)) made := by
  have hunder : ∀ (tenantId : String) (make : Handler KeyMeta) made,
      (∀ made, make.Keeps (Allows config (.key c)) (fun _ _ => True) made) →
      (quiet (underQuota config tenantId make)).Keeps (Allows config (.key c)) (Returns config (.key c)) made := by
    intro tenantId make made hmake
    rw [quiet_underQuota]
    refine Keeps.call trivial fun r => ?_
    split
    · refine Keeps.mapResult _ _ (Keeps.bind (hmake _) fun made m _ => ?_)
      refine Keeps.bind (R := fun _ _ => True) ?_ fun _ _ _ => trivial
      refine Keeps.call ⟨tenantId, rfl⟩ fun r => ?_
      cases r with
      | error e => trivial
      | ok n => exact Keeps.call ⟨tenantId, rfl⟩ fun _ => trivial
    · trivial
  cases c with
  | other op => exact Keeps.call trivial fun _ => trivial
  | importKey spec name tenantId material =>
    exact hunder _ _ _ fun made => keeps_inl _ _ (fun _ _ _ => trivial) fun _ _ _ => trivial
  | create spec name tenantId =>
    change (quiet (createKey config spec name tenantId)).Keeps _ _ _
    unfold createKey
    split
    · trivial
    · exact hunder _ _ _ fun made => keeps_inl _ _ (fun _ _ _ => trivial) fun _ _ _ => trivial

theorem keeps_program (c : Call) : (c.program config).Keeps (Allows config c) (Returns config c) [] := by
  cases c with
  | metered tenantId stamps method => exact (keeps_metered tenantId stamps method).mapResult _ _
  | key c => exact keeps_key c []

end

/-! ## The buckets -/

/-- The number under a key, which does not expire before the deadline. -/
def Counts (db : RedisDb) (key : String) (deadline : DateTime) : ℕ → Prop
  | 0 => db[key]? = none
  | n + 1 => ∃ expiresAt, db[key]? = some ⟨.counter (n + 1), expiresAt⟩ ∧ ∀ t ∈ expiresAt, deadline ≤ t

section

variable {db : RedisDb} {key : String} {now deadline : DateTime} {n : ℕ}

theorem Counts.find (h : Counts db key deadline n) (hnow : now < deadline) : db.find now key = db[key]? := by
  cases n with
  | zero => rw [RedisDb.find, show db[key]? = none from h, Option.filter_none]
  | succ n =>
    obtain ⟨expiresAt, hentry, hexpires⟩ := h
    rw [RateLimiter.find_eq_some hentry fun t ht => hnow.trans_le (hexpires t ht), hentry]

theorem Counts.incr (h : Counts db key deadline n) (hnow : now < deadline) :
    if n + 1 < 2 ^ 63 then ((RedisCommand.incr key).perform now db).1 = .ok (n + 1) ∧
      Counts ((RedisCommand.incr key).perform now db).2 key deadline (n + 1)
    else (∃ e, ((RedisCommand.incr key).perform now db).1 = .error e) ∧
    ((RedisCommand.incr key).perform now db).2 = db := by
  have hfind := h.find hnow
  cases n with
  | zero =>
    have hentry : db[key]? = none := h
    rw [if_pos (by decide), RedisCommand.perform, hfind, hentry]
    exact ⟨rfl, none, (HashMap.getElem?_insert ..).trans (if_pos rfl), by rintro _ ⟨⟩⟩
  | succ n =>
    obtain ⟨expiresAt, hentry, hexpires⟩ := h
    rw [RedisCommand.perform, hfind, hentry]
    dsimp only
    by_cases hroom : n + 1 + 1 < 2 ^ 63
    · rw [if_pos hroom, if_pos hroom]
      exact ⟨rfl, expiresAt, (HashMap.getElem?_insert ..).trans (if_pos rfl), hexpires⟩
    · rw [if_neg hroom, if_neg hroom]
      exact ⟨⟨_, rfl⟩, rfl⟩

theorem Counts.expire (h : Counts db key deadline n) (hnow : now < deadline) {seconds : ℤ} (hseconds : 0 < seconds)
    (hdeadline : deadline ≤ now + seconds * 1000000000) :
    Counts ((RedisCommand.expire key seconds).perform now db).2 key deadline n := by
  have hfind := h.find hnow
  rw [RedisCommand.perform]
  split
  · exact h
  · rw [hfind]
    cases n with
    | zero =>
      rw [show db[key]? = none from h]
      exact h
    | succ n =>
      obtain ⟨expiresAt, hentry, hexpires⟩ := h
      rw [hentry]
      dsimp only
      rw [if_neg (by omega)]
      refine ⟨_, (HashMap.getElem?_insert ..).trans (if_pos rfl), fun t ht => ?_⟩
      cases ht
      exact hdeadline

theorem Counts.of_ne (h : Counts db key deadline n) {c : RedisCommand} (hkey : key ≠ c.key) :
    Counts (c.perform now db).2 key deadline n := by
  have hsame : (c.perform now db).2[key]? = db[key]? := RateLimiter.getElem?_perform_of_ne hkey
  cases n with
  | zero => exact hsame.trans h
  | succ n =>
    obtain ⟨expiresAt, hentry, hexpires⟩ := h
    exact ⟨expiresAt, hsame.trans hentry, hexpires⟩

end

section

variable {crypto : Crypto} {config : QuotaConfig} {tenantId : String} {p : Period} {stamp : Stamp} {opened : DateTime}
  {l : List Event} {s : Shared} {e : Event}

/-- What the bucket counts: the increments that have arrived, as long as there is room. -/
def Inv (key : String) (deadline : DateTime) (l : List Event) (s : Shared) : Prop :=
  Counts s.2 key deadline (min (l.countP (isIncrement key)) (2 ^ 63 - 1))

/-- A command that arrives in time. -/
structure Timely (config : QuotaConfig) (key : String) (p : Period) (opened : DateTime) (l : List Event) (e : Event) :
    Prop where
  allowed : Allows config e.started (madeAt e.index l) e.op
  timely : arrives key e → opened ≤ e.outside.redisNow ∧ e.outside.redisNow < opened + p.ttl * 1000000000

theorem snd_perform_command (env : QuotaEnv) (c : RedisCommand) (db : RedisDb) :
    (QuotaOp.perform env (.command c) db).2 =
      if (env.broken.isNone || env.reaches) = true then (c.perform env.redisNow db).2 else db := by
  unfold QuotaOp.perform
  cases env.broken with
  | none => rfl
  | some e => cases env.reaches <;> rfl

/-- The commands on a bucket are its own two. -/
theorem Timely.command_eq {i : ℕ} {k : Call} {env : QuotaEnv} {c : RedisCommand} {r : QuotaOp.Reply (.command c)}
    (h : Timely config (bucketKey tenantId p stamp) p opened l ⟨i, k, env, .inr (.command c), r⟩)
    (hkey : c.key = bucketKey tenantId p stamp) :
    c = .incr (bucketKey tenantId p stamp) ∨ c = .expire (bucketKey tenantId p stamp) p.ttl := by
  have hallowed := h.allowed
  cases k with
  | key k =>
    cases c with
    | incr key | expire key seconds =>
      obtain ⟨t, ht⟩ := hallowed
      exact absurd (ht.symm.trans hkey) keysKey_ne_bucketKey
    | _ => cases hallowed
  | metered t stamps method =>
    cases c with
    | incr key => exact .inl (congrArg _ hkey)
    | expire key seconds =>
      obtain ⟨p', hkey', rfl⟩ := hallowed
      obtain rfl := period_eq (hkey'.symm.trans hkey)
      exact .inr (congrArg (RedisCommand.expire · _) hkey)
    | _ => cases hallowed

theorem inv_step (hinv : Inv (bucketKey tenantId p stamp) (opened + p.ttl * 1000000000) l s)
    (he : Timely config (bucketKey tenantId p stamp) p opened l e) :
    Inv (bucketKey tenantId p stamp) (opened + p.ttl * 1000000000) (l ++ [e]) (perform crypto e.outside e.op s).2 := by
  have hother : isIncrement (bucketKey tenantId p stamp) e = false →
      (l ++ [e]).countP (isIncrement (bucketKey tenantId p stamp)) =
      l.countP (isIncrement (bucketKey tenantId p stamp)) := by
    intro h
    rw [List.countP_append, List.countP_singleton, h]
    rfl
  unfold Inv at hinv ⊢
  obtain ⟨i, k, env, op | op, r⟩ := e
  · rw [hother rfl]
    exact hinv
  · cases op with
    | get key =>
      rw [hother rfl]
      change Counts (QuotaOp.perform env (.get key) s.2).2 _ _ _
      rw [snd_perform_get]
      exact hinv
    | command c =>
      change Counts (QuotaOp.perform env (.command c) s.2).2 _ _ _
      rw [snd_perform_command]
      by_cases harrives : arrives (bucketKey tenantId p stamp) ⟨i, k, env, .inr (.command c), r⟩ = true
      · obtain ⟨hopened, hnow⟩ := he.timely harrives
        obtain ⟨hkey, hreaches⟩ := (Bool.and_eq_true _ _).mp harrives
        rw [if_pos hreaches]
        obtain rfl | rfl := he.command_eq (of_decide_eq_true hkey)
        · have hcount : (l ++ [(⟨i, k, env, .inr (.command (.incr (bucketKey tenantId p stamp))), r⟩ : Event)]).countP
              (isIncrement (bucketKey tenantId p stamp)) = l.countP (isIncrement (bucketKey tenantId p stamp)) + 1 := by
            rw [List.countP_append, List.countP_singleton, isIncrement, harrives]
            rfl
          have hincr := hinv.incr hnow
          rw [hcount]
          by_cases hroom : min (l.countP (isIncrement (bucketKey tenantId p stamp))) (2 ^ 63 - 1) + 1 < 2 ^ 63
          · rw [if_pos hroom] at hincr
            rw [show min (l.countP (isIncrement (bucketKey tenantId p stamp)) + 1) (2 ^ 63 - 1) =
              min (l.countP (isIncrement (bucketKey tenantId p stamp))) (2 ^ 63 - 1) + 1 by omega]
            exact hincr.2
          · rw [if_neg hroom] at hincr
            rw [hincr.2, show min (l.countP (isIncrement (bucketKey tenantId p stamp)) + 1) (2 ^ 63 - 1) =
              min (l.countP (isIncrement (bucketKey tenantId p stamp))) (2 ^ 63 - 1) by omega]
            exact hinv
        · rw [hother rfl]
          exact hinv.expire hnow (by cases p <;> decide) (by linarith only [hopened])
      · have hnot : isIncrement (bucketKey tenantId p stamp) ⟨i, k, env, .inr (.command c), r⟩ = false := by
          cases c with
          | incr key => exact Bool.eq_false_iff.2 harrives
          | _ => rfl
        rw [hother hnot]
        split
        · rename_i hreaches
          refine hinv.of_ne fun hkey => harrives ?_
          change (decide (c.key = bucketKey tenantId p stamp) && (env.broken.isNone || env.reaches)) = true
          rw [hreaches, decide_eq_true hkey.symm]
          rfl
        · exact hinv

/-- A number says how many increments have arrived. -/
theorem number_of_answer (hinv : Inv (bucketKey tenantId p stamp) (opened + p.ttl * 1000000000) l s)
    (he : Timely config (bucketKey tenantId p stamp) p opened l e)
    (hanswer : e.answer = (perform crypto e.outside e.op s).1)
    {n : ℕ} (hn : n ∈ number? (bucketKey tenantId p stamp) ⟨e.op, e.answer⟩) :
    isIncrement (bucketKey tenantId p stamp) e = true ∧
      n = l.countP (isIncrement (bucketKey tenantId p stamp)) + 1 := by
  obtain ⟨i, k, env, op | op, r⟩ := e
  · cases hn
  · cases op with
    | get key => cases hn
    | command c =>
      cases c with
      | incr key =>
        obtain ⟨rfl, rfl⟩ := number?_incr hn
        change Except.ok n = (QuotaOp.perform env (.command (.incr (bucketKey tenantId p stamp))) s.2).1 at hanswer
        cases hbroken : env.broken with
        | some e =>
          rw [QuotaOp.perform, hbroken] at hanswer
          cases hanswer
        | none =>
          have harrives : arrives (bucketKey tenantId p stamp)
              ⟨i, k, env, .inr (.command (.incr (bucketKey tenantId p stamp))), .ok n⟩ = true := by
            simp [arrives, RedisCommand.key, hbroken]
          refine ⟨harrives, ?_⟩
          rw [QuotaOp.perform, hbroken] at hanswer
          change Except.ok n = ((RedisCommand.incr (bucketKey tenantId p stamp)).perform env.redisNow s.2).1 at hanswer
          have hincr := hinv.incr (he.timely harrives).2
          split at hincr
          · rename_i hroom
            rw [hincr.1] at hanswer
            cases hanswer
            omega
          · obtain ⟨⟨e, he'⟩, -⟩ := hincr
            rw [he'] at hanswer
            cases hanswer
      | _ => cases hn

end

/-! ## The bound -/

/-- Of two places in a list, one comes first. -/
theorem mem_or_mem_of_split {α : Type*} {l₁ l₂ m₁ m₂ : List α} {a b : α} (h : l₁ ++ a :: l₂ = m₁ ++ b :: m₂) :
    (l₁ = m₁ ∧ a = b) ∨ a ∈ m₁ ∨ b ∈ l₁ := by
  obtain ⟨t, rfl, ht⟩ | ⟨t, rfl, ht⟩ := List.append_eq_append_iff.1 h
  · cases t with
    | nil => exact .inl ⟨(List.append_nil _).symm, (List.cons.inj ht).1⟩
    | cons c t =>
      obtain ⟨rfl, -⟩ := List.cons.inj ht
      exact .inr (.inl (by simp))
  · cases t with
    | nil => exact .inl ⟨List.append_nil _, (List.cons.inj ht).1.symm⟩
    | cons c t =>
      obtain ⟨rfl, -⟩ := List.cons.inj ht
      exact .inr (.inr (by simp))

section

variable {crypto : Crypto} {config : QuotaConfig} {tenantId : String} {p : Period} {stamp : Stamp} {opened : DateTime}
  {ms : List (Move Call QuotaEnv)}

/-- A request has the number of the increments of its bucket that have arrived, its own the last. -/
theorem number_run (hwithin : Within (bucketKey tenantId p stamp) opened p
      (log (Machine.trace (interleave crypto config) Calls.new ms))) {l₁ l₂ : List Event} {e : Event}
    (hlog : log (Machine.trace (interleave crypto config) Calls.new ms) = l₁ ++ e :: l₂) {n : ℕ}
    (hn : n ∈ number? (bucketKey tenantId p stamp) ⟨e.op, e.answer⟩) :
    isIncrement (bucketKey tenantId p stamp) e = true ∧
      n = l₁.countP (isIncrement (bucketKey tenantId p stamp)) + 1 := by
  have hpromised : (Machine.final (interleave crypto config) Calls.new ms).Promised (Allows config) (Returns config)
      (log (Machine.trace (interleave crypto config) Calls.new ms)) := Pool.promised_run keeps_program _ ms
  have htimely : ∀ l₁ e l₂, log (Machine.trace (interleave crypto config) Calls.new ms) = l₁ ++ e :: l₂ →
      Timely config (bucketKey tenantId p stamp) p opened l₁ e := fun l₁ e l₂ heq =>
    ⟨hpromised.allowed l₁ e l₂ heq, hwithin e (heq ▸ List.mem_append_right _ (List.mem_cons_self ..))⟩
  have hstart : Inv (bucketKey tenantId p stamp) (opened + p.ttl * 1000000000) [] ((.new, ∅) : Shared) :=
    Std.ExtTreeMap.getElem?_empty
  obtain ⟨s, hinv, hanswer⟩ := Pool.answered_run (I := Inv (bucketKey tenantId p stamp) (opened + p.ttl * 1000000000))
    (Q := Timely config (bucketKey tenantId p stamp) p opened) (fun l s e hinv he _ => inv_step hinv he)
    hstart ms htimely hlog
  exact number_of_answer hinv (htimely l₁ e l₂ hlog) hanswer hn

/-- No number is given twice. -/
theorem number_unique (hwithin : Within (bucketKey tenantId p stamp) opened p
      (log (Machine.trace (interleave crypto config) Calls.new ms))) {e e' : Event}
    (he : e ∈ log (Machine.trace (interleave crypto config) Calls.new ms))
    (he' : e' ∈ log (Machine.trace (interleave crypto config) Calls.new ms)) {n : ℕ}
    (hn : n ∈ number? (bucketKey tenantId p stamp) ⟨e.op, e.answer⟩)
    (hn' : n ∈ number? (bucketKey tenantId p stamp) ⟨e'.op, e'.answer⟩) : e = e' := by
  obtain ⟨l₁, l₂, hl⟩ := List.append_of_mem he
  obtain ⟨m₁, m₂, hm⟩ := List.append_of_mem he'
  obtain ⟨hincr, hfirst⟩ := number_run hwithin hl hn
  obtain ⟨hincr', hsecond⟩ := number_run hwithin hm hn'
  obtain ⟨-, heq⟩ | hmem | hmem := mem_or_mem_of_split (hl.symm.trans hm)
  · exact heq
  -- an increment before the other is counted by it
  · obtain ⟨t₁, t₂, rfl⟩ := List.append_of_mem hmem
    obtain ⟨-, hthird⟩ := number_run hwithin (hm.trans (by rw [List.append_assoc, List.cons_append])) hn
    rw [List.countP_append, List.countP_cons_of_pos hincr] at hsecond
    omega
  · obtain ⟨t₁, t₂, rfl⟩ := List.append_of_mem hmem
    obtain ⟨-, hthird⟩ := number_run hwithin (hl.trans (by rw [List.append_assoc, List.cons_append])) hn'
    rw [List.countP_append, List.countP_cons_of_pos hincr'] at hfirst
    omega

theorem mem_madeAt_iff {i : ℕ} {l : List Event} {d : Σ op : HandlerOp, HandlerOp.Reply op} :
    d ∈ madeAt i l ↔ ∃ e ∈ l, e.index = i ∧ (⟨e.op, e.answer⟩ : Σ op : HandlerOp, HandlerOp.Reply op) = d := by
  simp [madeAt, and_assoc]

/-- A call that was counted in the bucket and served has a number within the limit. -/
theorem number_of_served {i : ℕ} (hserved : isServed (bucketKey tenantId p stamp)
      (Machine.final (interleave crypto config) Calls.new ms)
      (log (Machine.trace (interleave crypto config) Calls.new ms)) i) :
    ∃ e ∈ log (Machine.trace (interleave crypto config) Calls.new ms), e.index = i ∧
      ∃ n ∈ number? (bucketKey tenantId p stamp) ⟨e.op, e.answer⟩, n ≤ p.limit config := by
  obtain ⟨hcounted, hdone⟩ := Bool.and_eq_true_iff.1 hserved
  obtain ⟨d, hd, hnumber⟩ := List.any_eq_true.1 hcounted
  obtain ⟨n, hn⟩ := Option.isSome_iff_exists.1 hnumber
  obtain ⟨e, he, rfl, rfl⟩ := mem_madeAt_iff.1 hd
  refine ⟨e, he, rfl, n, hn, ?_⟩
  have hpromised : (Machine.final (interleave crypto config) Calls.new ms).Promised (Allows config) (Returns config)
      (log (Machine.trace (interleave crypto config) Calls.new ms)) := Pool.promised_run keeps_program _ ms
  obtain ⟨l₁, l₂, hl⟩ := List.append_of_mem he
  have hallowed := hpromised.allowed l₁ e l₂ hl
  -- the call is one of the service, and its bucket this one
  obtain ⟨t, stamps, method, hstarted, hkey, hbefore⟩ : ∃ t stamps method, e.started = .metered t stamps method ∧
      bucketKey tenantId p stamp = bucketKey t p (stamps p) ∧ ∀ d ∈ madeAt e.index l₁, isWork d = false := by
    obtain ⟨i, k, env, op | op, r⟩ := e
    · cases hn
    · cases op with
      | get key => cases hn
      | command c =>
        cases c with
        | incr key =>
          obtain ⟨rfl, -⟩ := number?_incr hn
          cases k with
          | key k =>
            obtain ⟨t, ht⟩ := hallowed
            exact absurd ht.symm keysKey_ne_bucketKey
          | metered t stamps method =>
            obtain ⟨p', hkey, hbefore⟩ := hallowed
            obtain rfl := period_eq hkey
            exact ⟨t, stamps, method, rfl, hkey, fun d hd => (hbefore d hd).2⟩
        | _ => cases hn
  rw [hkey] at hn
  obtain hwork | hreturned := Bool.or_eq_true_iff.1 hdone
  · obtain ⟨w, hw, hwork⟩ := List.any_eq_true.1 hwork
    obtain ⟨e', he', hindex, rfl⟩ := mem_madeAt_iff.1 hw
    obtain ⟨m₁, m₂, hm⟩ := List.append_of_mem he'
    obtain ⟨-, rfl⟩ | hmem | hmem := mem_or_mem_of_split (hl.symm.trans hm)
    · obtain ⟨i, k, env, op | op, r⟩ := e
      · cases hn
      · cases hwork
    · have hplace := Pool.place_run he
      have hplace' := Pool.place_run he'
      rw [hindex, hplace] at hplace'
      have hallowed' := hpromised.allowed m₁ e' m₂ hm
      rw [← Option.some.inj hplace', hstarted, hindex] at hallowed'
      obtain ⟨i', k', env', op | op, r'⟩ := e'
      · exact hallowed' p _ (mem_madeAt_iff.2 ⟨e, hmem, rfl, rfl⟩) n hn
      · cases hwork
    · rw [hbefore _ (mem_madeAt_iff.2 ⟨e', hmem, hindex, rfl⟩)] at hwork
      cases hwork
  · have hplace := Pool.place_run he
    rw [Option.any_eq_true] at hreturned
    obtain ⟨⟨k, q⟩, hcall, hreturned⟩ := hreturned
    have hcall' : (Machine.final (Pool.interleave (perform crypto) (Call.program config)) ⟨(.new, ∅), []⟩
      ms).calls[e.index]? =
      some (k, q) := hcall
    rw [hcall'] at hplace
    obtain rfl : k = e.started := Option.some.inj hplace
    have hunder := hpromised.under _ _ _ hcall'
    rw [hstarted] at hunder
    cases q with
    | call op next => cases hreturned
    | done r =>
      cases r with
      | error e => cases hreturned
      | ok a => exact hunder p _ hd n hn

/-- Whatever comes in between, a bucket serves no more requests than its limit, and the numbers of its requests are
those of the increments that have arrived. -/
theorem served_run (hwithin : Within (bucketKey tenantId p stamp) opened p
      (log (Machine.trace (interleave crypto config) Calls.new ms))) :
    served (bucketKey tenantId p stamp) (Machine.final (interleave crypto config) Calls.new ms)
        (log (Machine.trace (interleave crypto config) Calls.new ms)) ≤ p.limit config ∧
      ∀ l₁ e l₂, log (Machine.trace (interleave crypto config) Calls.new ms) = l₁ ++ e :: l₂ →
        ∀ n ∈ number? (bucketKey tenantId p stamp) ⟨e.op, e.answer⟩,
          n = l₁.countP (isIncrement (bucketKey tenantId p stamp)) + 1 := by
  refine ⟨?_, fun l₁ e l₂ hlog n hn => (number_run hwithin hlog hn).2⟩
  unfold served
  rw [List.countP_eq_length_filter, ← List.toFinset_card_of_nodup (List.nodup_range.filter _)]
  have hcard : (Finset.Icc 1 (p.limit config)).card = p.limit config := by simp
  rw [← hcard]
  refine Finset.card_le_card_of_forall_subsingleton
    (fun i n => ∃ e ∈ log (Machine.trace (interleave crypto config) Calls.new ms), e.index = i ∧
      n ∈ number? (bucketKey tenantId p stamp) ⟨e.op, e.answer⟩) (fun i hi => ?_) fun n _ i hi j hj => ?_
  · obtain ⟨e, he, hindex, n, hn, hle⟩ := number_of_served (List.mem_filter.1 (List.mem_toFinset.1 hi)).2
    obtain ⟨l₁, l₂, hl⟩ := List.append_of_mem he
    have hpos := (number_run hwithin hl hn).2
    exact ⟨n, Finset.mem_Icc.2 ⟨by omega, hle⟩, e, he, hindex, hn⟩
  · obtain ⟨-, e, he, rfl, hn⟩ := hi
    obtain ⟨-, e', he', rfl, hn'⟩ := hj
    rw [number_unique hwithin he he' hn hn']

end

def twoAMinute : QuotaConfig := ⟨1000, 2, 10⟩

def noon : Period → Stamp
  | .minute => ⟨"202601011200", by decide +kernel⟩
  | .day => ⟨"20260101", by decide +kernel⟩

def oneRequest : Call := .metered "acme" noon ((ask (.getKeyMetadata 1) apiError).bind fun _ => .done (.ok ()))

/-- Three requests are counted before the first of them is let through. -/
def crowd : List (Move Call QuotaEnv) :=
  [.start oneRequest, .start oneRequest, .start oneRequest, .advance 0 (answering 1), .advance 1 (answering 1),
    .advance 2 (answering 1), .advance 2 (answering 1), .advance 0 (answering 1), .advance 1 (answering 1),
    .advance 1 (answering 1), .advance 0 (answering 1), .advance 0 (answering 1), .advance 1 (answering 1),
    .advance 0 (answering 1), .advance 1 (answering 1)]

instance (key : String) (opened : DateTime) (p : Period) (l : List Event) : Decidable (Within key opened p l) :=
  inferInstanceAs (Decidable (∀ e ∈ l, _))

theorem served_crowd : served (bucketKey "acme" .minute (noon .minute))
      (Machine.final (interleave .plain twoAMinute) Calls.new crowd)
      (log (Machine.trace (interleave .plain twoAMinute) Calls.new crowd)) ≤ 2 ∧
    served (bucketKey "acme" .minute (noon .minute)) (Machine.final (interleave .plain twoAMinute) Calls.new crowd)
      (log (Machine.trace (interleave .plain twoAMinute) Calls.new crowd)) = 2 :=
  ⟨(served_run (p := .minute) (show Within _ 0 _ _ by decide +kernel)).1, by decide +kernel⟩

end GmKms.Api.RequestQuota
