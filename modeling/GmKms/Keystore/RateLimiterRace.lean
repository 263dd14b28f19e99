import GmKms.Keystore.SlidingWindow
import GmKms.Lib.ProgramPool
/-!
# Calls that race for the limit

Calls for one tenant whose commands interleave. A call that has found room adds its request with a later command, so
that others may find the same room; the limit holds as long as each counts those that are about to add.
-/

namespace GmKms.Keystore.RateLimiter

open Lib Lib.Program

/-- The calls under way and those that are done, over one Redis. -/
abbrev Clients := Pool RedisReply Abort RateLimitResult Call RedisDb

/-- A call starts, or sends its next command, which comes to Redis at a time of its own. -/
abbrev ClientMove := Move Call DateTime

section

variable (cfg : RateLimitConfig) (tenantId : String)

def interleave : Machine Clients ClientMove Unit := fun s m =>
  ((), s.move (fun now op db => op.perform now db) (fun c => checkRateLimit cfg tenantId c.now c.requestUuid) m)

/-- The call is about to add its request. -/
def isAdding (c : Call × RedisProgram RateLimitResult) : Bool :=
  match c.2 with
  | .call (.zadd ..) _ => true
  | _ => false

def isDoneAllowed (c : Call × RedisProgram RateLimitResult) : Bool :=
  match c.2 with
  | .done r => isAllowed r
  | _ => false

/-- The call has added its request. -/
def hasAdded (c : Call × RedisProgram RateLimitResult) : Bool :=
  match c.2 with
  | .call (.expire ..) _ => true
  | .done r => isAllowed r
  | _ => false

/-- Of the calls at most `max_requests` were allowed. -/
def WithinLimit (s : Clients) : Prop := s.calls.countP isDoneAllowed ≤ cfg.maxRequests.toNat

/-- Where one of the calls has added its request, the set has not expired. -/
def Alive (s : Clients) (now : DateTime) (key : String) : Prop :=
  s.calls.any hasAdded = true → (s.shared[key]?).all (fun e => e.expiresAt.all (now < ·)) = true

/-- A count that finds room finds it also for the calls that are about to add, and a removal drops nothing that one of
the calls has added. -/
def CommandFindsRoom (s : Clients) (now : DateTime) : RedisCommand → Prop
  | .zremrangebyscore _ max => ∀ d ∈ s.calls, hasAdded d = true → asF64 max.toNat < asF64 (secondsOf d.1.now)
  | .zcard key =>
    match s.shared.sortedSet now key with
    | .ok (members, _) =>
      members.length < cfg.maxRequests.toNat → members.length + s.calls.countP isAdding < cfg.maxRequests.toNat
    | .error _ => True
  | _ => True

def FindsRoom (s : Clients) : ClientMove → Prop
  | .start _ => True
  | .advance i now =>
    match s.calls[i]? with
    | some (_, .call op _) => Alive s now op.key ∧ CommandFindsRoom cfg s now op
    | _ => True

instance alive_decidable (s : Clients) (now : DateTime) (key : String) : Decidable (Alive s now key) :=
  inferInstanceAs (Decidable (_ → _))

instance commandFindsRoom_decidable (s : Clients) (now : DateTime) (op : RedisCommand) :
    Decidable (CommandFindsRoom cfg s now op) := by
  unfold CommandFindsRoom
  split
  · infer_instance
  · split <;> infer_instance
  · infer_instance

instance findsRoom_decidable (s : Clients) (m : ClientMove) : Decidable (FindsRoom cfg s m) := by
  unfold FindsRoom
  split
  · infer_instance
  · split <;> infer_instance

/-- How far a call is. -/
inductive Stage (w : Window) : RedisProgram RateLimitResult → Prop
  | removing : Stage w (slidingCheck cfg w)
  | counting : Stage w (countRequests cfg w)
  | adding (current : ℕ) : Stage w (addRequest cfg w current)
  | expiring (current : ℕ) : Stage w (setExpiry cfg w current)
  | allowed (r : RateLimitResult) : Stage w (.done (.ok r))
  | failed (e : Abort) : Stage w (.done (.error e))

/-- Each call is at a stage of its own window, the requests that were added are in the set, and with those about to be
added they are within the limit. -/
structure Sound (window : ℕ) (s : Clients) : Prop where
  stage : ∀ c ∈ s.calls, Stage cfg (windowOf cfg tenantId c.1.now c.1.requestUuid) c.2
  aligned : ∀ c ∈ s.calls, secondsOf c.1.now / cfg.windowSecs.toNat = window
  ids : (s.calls.map (·.1.requestUuid)).Nodup
  added : ∀ c ∈ s.calls, hasAdded c = true → ∃ deadline, Holds s.shared (windowKey tenantId window) deadline
    ((windowOf cfg tenantId c.1.now c.1.requestUuid).requestId, asF64 (secondsOf c.1.now))
  limit : s.calls.countP hasAdded + s.calls.countP isAdding ≤ cfg.maxRequests.toNat

end

/-! ## What a move keeps -/

section

variable {cfg : RateLimitConfig} {tenantId : String} {window : ℕ} {s : Clients}

/-- What a call goes on with when its command is answered. -/
def andThen {α : Type} (f : ℕ → RedisProgram α) : Except String ℕ → RedisProgram α
  | .ok n => f n
  | .error e => .done (.error (.error (.internal e)))

theorem send_bind {α : Type} (c : RedisCommand) (f : ℕ → RedisProgram α) : send c >>= f = .call c (andThen f) := by
  change Program.call c _ = _
  congr 1
  funext r
  cases r <;> rfl

theorem slidingCheck_eq (w : Window) : slidingCheck cfg w =
    .call (.zremrangebyscore w.key (Db.asI64 w.windowStart)) (andThen fun _ => countRequests cfg w) := send_bind _ _

theorem countRequests_eq (w : Window) : countRequests cfg w = .call (.zcard w.key) (andThen fun current =>
    if cfg.maxRequests.toNat ≤ current then
      .done (.ok (.rateLimited current cfg.maxRequests.toNat w.windowEnd (w.windowEnd - w.now)))
    else addRequest cfg w current) := send_bind _ _

theorem addRequest_eq (w : Window) (current : ℕ) : addRequest cfg w current =
    .call (.zadd w.key w.requestId (asF64 w.now)) (andThen fun _ => setExpiry cfg w current) := send_bind _ _

theorem setExpiry_eq (hsecs : cfg.windowSecs.toNat < 2 ^ 62) (w : Window) (current : ℕ) : setExpiry cfg w current =
    .call (.expire w.key (Db.asI64 (cfg.windowSecs.toNat * 2)))
      (andThen fun _ => .done (.ok (.allow (current + 1) cfg.maxRequests.toNat w.windowEnd))) := by
  rw [setExpiry, if_neg (by omega)]
  exact send_bind _ _

theorem Sound.start (hs : Sound cfg tenantId window s) (hsliding : cfg.slidingWindow = true) {c : Call}
    (hwindow : secondsOf c.now / cfg.windowSecs.toNat = window)
    (hnew : c.requestUuid ∉ s.calls.map (·.1.requestUuid)) :
    Sound cfg tenantId window { s with calls := s.calls ++ [(c, checkRateLimit cfg tenantId c.now c.requestUuid)]
      } := by
  obtain ⟨hstage, hadded, hadding⟩ : Stage cfg (windowOf cfg tenantId c.now c.requestUuid)
      (checkRateLimit cfg tenantId c.now c.requestUuid) ∧
      hasAdded (c, checkRateLimit cfg tenantId c.now c.requestUuid) = false ∧
        isAdding (c, checkRateLimit cfg tenantId c.now c.requestUuid) = false := by
    rcases checkRateLimit_cases hsliding tenantId c.now c.requestUuid with ⟨e, he⟩ | ⟨-, -, -, heq⟩
    · rw [he]
      exact ⟨.failed e, rfl, rfl⟩
    · rw [heq]
      exact ⟨.removing, rfl, rfl⟩
  refine ⟨?_, ?_, ?_, ?_, ?_⟩
  · exact List.forall_mem_append.2 ⟨hs.stage, by simpa using hstage⟩
  · exact List.forall_mem_append.2 ⟨hs.aligned, by simpa using hwindow⟩
  · rw [List.map_append]
    refine List.nodup_append.2 ⟨hs.ids, by simp, ?_⟩
    rintro id hid _ hid' rfl
    obtain rfl := List.mem_singleton.1 hid'
    exact hnew hid
  · intro d hd hdone
    rcases List.mem_append.1 hd with hd | hd
    · exact hs.added d hd hdone
    · obtain rfl := List.mem_singleton.1 hd
      rw [hadded] at hdone
      cases hdone
  · simpa [List.countP_append, hadded, hadding] using hs.limit

/-- A call goes on, and what the others have added stays. -/
theorem Sound.set (hs : Sound cfg tenantId window s) {i : ℕ} {c : Call} {p p' : RedisProgram RateLimitResult}
    {db' : RedisDb}
    (hi : s.calls[i]? = some (c, p)) (hstage : Stage cfg (windowOf cfg tenantId c.now c.requestUuid) p')
    (hkept : ∀ m : String × ℕ, (∃ d ∈ s.calls, hasAdded d = true ∧
        m = ((windowOf cfg tenantId d.1.now d.1.requestUuid).requestId, asF64 (secondsOf d.1.now))) →
      (∃ deadline, Holds s.shared (windowKey tenantId window) deadline m) →
        ∃ deadline, Holds db' (windowKey tenantId window) deadline m)
    (hadded : hasAdded (c, p') = true → ∃ deadline, Holds db' (windowKey tenantId window) deadline
      ((windowOf cfg tenantId c.now c.requestUuid).requestId, asF64 (secondsOf c.now)))
    (hlimit : (s.calls.set i (c, p')).countP hasAdded + (s.calls.set i (c, p')).countP isAdding ≤
      cfg.maxRequests.toNat) :
    Sound cfg tenantId window { shared := db', calls := s.calls.set i (c, p') } := by
  have hmem : (c, p) ∈ s.calls := List.mem_of_getElem? hi
  have hcases : ∀ d ∈ s.calls.set i (c, p'), d ∈ s.calls ∨ d = (c, p') := fun d hd => List.mem_or_eq_of_mem_set hd
  refine ⟨?_, ?_, ?_, ?_, hlimit⟩
  · intro d hd
    rcases hcases d hd with hd | rfl
    · exact hs.stage d hd
    · exact hstage
  · intro d hd
    rcases hcases d hd with hd | rfl
    · exact hs.aligned d hd
    · exact hs.aligned (c, p) hmem
  · have hsame : (s.calls.set i (c, p')).map (·.1.requestUuid) = s.calls.map (·.1.requestUuid) := map_set_of_eq hi rfl
    rw [hsame]
    exact hs.ids
  · intro d hd hdone
    rcases hcases d hd with hd | rfl
    · exact hkept _ ⟨d, hd, hdone, rfl⟩ (hs.added d hd hdone)
    · exact hadded hdone

theorem Alive.lt {now : DateTime} {key : String} (h : Alive s now key) {d : Call × RedisProgram RateLimitResult}
    (hd : d ∈ s.calls) (hadded : hasAdded d = true) {e : RedisEntry} (he : s.shared[key]? = some e) :
    ∀ t ∈ e.expiresAt, now < t := by
  intro t ht
  have hall := h (List.any_eq_true.2 ⟨d, hd, hadded⟩)
  rw [he, Option.all_some, Option.mem_def.1 ht] at hall
  exact of_decide_eq_true hall

/-- What a call has added stays through a command that spares it. -/
theorem Sound.kept {op : RedisCommand} {now : DateTime}
    (halive : ∀ e, s.shared[op.key]? = some e → ∀ t ∈ e.expiresAt, now < t) {m : String × ℕ}
    (hspares : Spares now (now + 1) m op) (hkey : op.key = windowKey tenantId window)
    (h : ∃ deadline, Holds s.shared (windowKey tenantId window) deadline m) :
    ∃ deadline, Holds (op.perform now s.shared).2 (windowKey tenantId window) deadline m := by
  obtain ⟨deadline, members, expiresAt, hentry, -, hmem⟩ := h
  have hheld : Holds s.shared (windowKey tenantId window) (now + 1) m := by
    refine ⟨members, expiresAt, hentry, fun t ht => Int.add_one_le_iff.2 ?_, hmem⟩
    exact halive _ (hkey ▸ hentry) t ht
  exact ⟨now + 1, hheld.perform fun _ => ⟨lt_add_one now, hspares⟩⟩

/-- As many calls have added their requests as the set has members, at most. -/
theorem Sound.countP_hasAdded_le (hs : Sound cfg tenantId window s) {now : DateTime} {members : SortedSet}
    {expiresAt : Option DateTime} (hset : s.shared.sortedSet now (windowKey tenantId window) = .ok (members, expiresAt))
    (halive : Alive s now (windowKey tenantId window)) : s.calls.countP hasAdded ≤ members.length := by
  rw [List.countP_eq_length_filter]
  have hsub : ((s.calls.filter hasAdded).map fun d => (windowOf cfg tenantId d.1.now d.1.requestUuid).requestId) ⊆
      members.map (·.1) := by
    intro id hid
    obtain ⟨d, hd, rfl⟩ := List.mem_map.1 hid
    obtain ⟨hmem, hadded⟩ := List.mem_filter.1 hd
    obtain ⟨deadline, members', expiresAt', hentry, -, hin⟩ := hs.added d hmem hadded
    have hfind := find_eq_some hentry (halive.lt hmem hadded hentry)
    rw [RedisDb.sortedSet, hfind] at hset
    cases hset
    exact List.mem_map_of_mem hin
  have hnodup : ((s.calls.filter hasAdded).map fun d =>
      (windowOf cfg tenantId d.1.now d.1.requestUuid).requestId).Nodup := by
    have huuids := hs.ids.sublist (List.filter_sublist.map (·.1.requestUuid) :
      ((s.calls.filter hasAdded).map _).Sublist _)
    rw [List.Nodup, List.pairwise_map] at huuids ⊢
    exact huuids.imp fun hne heq => hne (requestId_injective heq)
  simpa using (hnodup.subperm hsub).length_le

/-! ## One command of a call -/

variable {i : ℕ} {c : Call} {now : DateTime} {w : Window}

theorem Sound.limit_set (hs : Sound cfg tenantId window s) {p p' : RedisProgram RateLimitResult}
    (hi : s.calls[i]? = some (c, p)) (h : (if hasAdded (c, p') then 1 else 0) + (if isAdding (c, p') then 1 else 0) ≤
      (if hasAdded (c, p) then 1 else 0) + if isAdding (c, p) then 1 else 0) :
    (s.calls.set i (c, p')).countP hasAdded + (s.calls.set i (c, p')).countP isAdding ≤ cfg.maxRequests.toNat := by
  have hadded := countP_set_add hi (c, p') hasAdded
  have hadding := countP_set_add hi (c, p') isAdding
  have hlimit := hs.limit
  omega

theorem windowOf_key (hs : Sound cfg tenantId window s) {p : RedisProgram RateLimitResult}
    (hi : s.calls[i]? = some (c, p)) : (windowOf cfg tenantId c.now c.requestUuid).key = windowKey tenantId window :=
  congrArg (windowKey tenantId) (hs.aligned _ (List.mem_of_getElem? hi))

theorem Sound.remove (hs : Sound cfg tenantId window s) (hw : w = windowOf cfg tenantId c.now c.requestUuid)
    (hi : s.calls[i]? = some (c, slidingCheck cfg w)) (halive : Alive s now w.key)
    (hspares : ∀ d ∈ s.calls, hasAdded d = true → asF64 (Db.asI64 w.windowStart).toNat < asF64 (secondsOf d.1.now)) :
    Sound cfg tenantId window
      { shared := ((RedisCommand.zremrangebyscore w.key (Db.asI64 w.windowStart)).perform now s.shared).2
        calls := s.calls.set i (c, andThen (fun _ => countRequests cfg w)
          ((RedisCommand.zremrangebyscore w.key (Db.asI64 w.windowStart)).perform now s.shared).1) } := by
  have hkey : w.key = windowKey tenantId window := hw ▸ windowOf_key hs hi
  generalize hreply : ((RedisCommand.zremrangebyscore w.key (Db.asI64 w.windowStart)).perform now s.shared).1 = reply
  obtain ⟨hstage, hadded, hadding⟩ : Stage cfg w (andThen (fun _ => countRequests cfg w) reply) ∧
      hasAdded (c, andThen (fun _ => countRequests cfg w) reply) = false ∧
        isAdding (c, andThen (fun _ => countRequests cfg w) reply) = false := by
    cases reply with
    | error e => exact ⟨.failed _, rfl, rfl⟩
    | ok n => exact ⟨.counting, rfl, rfl⟩
  refine hs.set hi (hw ▸ hstage) ?_ ?_ (hs.limit_set hi ?_)
  · rintro m ⟨d, hd, hdone, rfl⟩ hheld
    exact Sound.kept (fun _ he => halive.lt hd hdone he) (hspares d hd hdone) hkey hheld
  · rw [hadded]
    rintro ⟨⟩
  · rw [hadded, hadding]
    exact Nat.zero_le _

theorem Sound.count (hs : Sound cfg tenantId window s) (hw : w = windowOf cfg tenantId c.now c.requestUuid)
    (hi : s.calls[i]? = some (c, countRequests cfg w)) (halive : Alive s now w.key)
    (hroom : ∀ members expiresAt, s.shared.sortedSet now w.key = .ok (members, expiresAt) →
      members.length < cfg.maxRequests.toNat → members.length + s.calls.countP isAdding < cfg.maxRequests.toNat) :
    Sound cfg tenantId window
      { shared := s.shared
        calls := s.calls.set i (c, andThen (fun current =>
          if cfg.maxRequests.toNat ≤ current then
            .done (.ok (.rateLimited current cfg.maxRequests.toNat w.windowEnd (w.windowEnd - w.now)))
          else addRequest cfg w current) ((s.shared.sortedSet now w.key).map (·.1.length))) } := by
  have hkey : w.key = windowKey tenantId window := hw ▸ windowOf_key hs hi
  cases hset : s.shared.sortedSet now w.key with
  | error e => exact hs.set hi (hw ▸ .failed _) (fun m _ h => h) (by rintro ⟨⟩) (hs.limit_set hi (Nat.zero_le _))
  | ok set =>
    obtain ⟨members, expiresAt⟩ := set
    simp only [Except.map, andThen]
    split
    · exact hs.set hi (hw ▸ .allowed _) (fun m _ h => h) (by rintro ⟨⟩) (hs.limit_set hi (Nat.zero_le _))
    · rename_i hfull
      have hfound := hroom members expiresAt hset (not_le.1 hfull)
      have hcount := hs.countP_hasAdded_le (hkey ▸ hset) (hkey ▸ halive)
      refine hs.set hi (hw ▸ .adding _) (fun m _ h => h) (by rintro ⟨⟩) ?_
      have hadded := countP_set_add hi (c, addRequest cfg w members.length) hasAdded
      have hadding := countP_set_add hi (c, addRequest cfg w members.length) isAdding
      have hthis : isAdding (c, addRequest cfg w members.length) = true := rfl
      have hnot : hasAdded (c, addRequest cfg w members.length) = false := rfl
      rw [hnot] at hadded
      rw [hthis] at hadding
      simp only [if_true, Bool.false_eq_true, if_false] at hadded hadding
      omega

theorem Sound.add (hs : Sound cfg tenantId window s) (hsecs : cfg.windowSecs.toNat < 2 ^ 62)
    (hw : w = windowOf cfg tenantId c.now c.requestUuid) {current : ℕ}
    (hi : s.calls[i]? = some (c, addRequest cfg w current)) (halive : Alive s now w.key) :
    Sound cfg tenantId window
      { shared := ((RedisCommand.zadd w.key w.requestId (asF64 w.now)).perform now s.shared).2
        calls := s.calls.set i (c, andThen (fun _ => setExpiry cfg w current)
          ((RedisCommand.zadd w.key w.requestId (asF64 w.now)).perform now s.shared).1) } := by
  have hkey : w.key = windowKey tenantId window := hw ▸ windowOf_key hs hi
  have hmem := List.mem_of_getElem? hi
  have hothers : ∀ m : String × ℕ, (∃ d ∈ s.calls, hasAdded d = true ∧
      m = ((windowOf cfg tenantId d.1.now d.1.requestUuid).requestId, asF64 (secondsOf d.1.now))) →
        (∃ deadline, Holds s.shared (windowKey tenantId window) deadline m) →
          ∃ deadline, Holds ((RedisCommand.zadd w.key w.requestId (asF64 w.now)).perform now s.shared).2
            (windowKey tenantId window) deadline m := by
    rintro m ⟨d, hd, hdone, rfl⟩ hheld
    refine Sound.kept (fun _ he => halive.lt hd hdone he) (fun heq => ?_) hkey hheld
    have huuid := requestId_injective (hw ▸ heq)
    obtain rfl := List.inj_on_of_nodup_map hs.ids hd hmem huuid.symm
    cases hdone
  cases hreply : ((RedisCommand.zadd w.key w.requestId (asF64 w.now)).perform now s.shared).1 with
  | error e => exact hs.set hi (hw ▸ .failed _) hothers (by rintro ⟨⟩) (hs.limit_set hi (Nat.zero_le _))
  | ok n =>
    have hexpiring : hasAdded (c, setExpiry cfg w current) = true ∧ isAdding (c, setExpiry cfg w current) = false := by
      rw [setExpiry_eq hsecs]
      exact ⟨rfl, rfl⟩
    refine hs.set hi (hw ▸ .expiring current) hothers (fun _ => ?_) (hs.limit_set hi ?_)
    · have hheld := holds_zadd hreply
      rw [hkey] at hheld ⊢
      subst hw
      exact ⟨_, hheld⟩
    · change (if hasAdded (c, setExpiry cfg w current) then 1 else 0) +
        (if isAdding (c, setExpiry cfg w current) then 1 else 0) ≤ 1
      rw [hexpiring.1, hexpiring.2]
      exact le_rfl

theorem Sound.expire (hs : Sound cfg tenantId window s) (hpos : 0 < cfg.windowSecs.toNat)
    (hsecs : cfg.windowSecs.toNat < 2 ^ 62) (hw : w = windowOf cfg tenantId c.now c.requestUuid) {current : ℕ}
    (hi : s.calls[i]? = some (c, setExpiry cfg w current)) (halive : Alive s now w.key) :
    Sound cfg tenantId window
      { shared := ((RedisCommand.expire w.key (Db.asI64 (cfg.windowSecs.toNat * 2))).perform now s.shared).2
        calls := s.calls.set i (c, andThen
          (fun _ => .done (.ok (.allow (current + 1) cfg.maxRequests.toNat w.windowEnd)))
          ((RedisCommand.expire w.key (Db.asI64 (cfg.windowSecs.toNat * 2))).perform now s.shared).1) } := by
  have hkey : w.key = windowKey tenantId window := hw ▸ windowOf_key hs hi
  have hmem := List.mem_of_getElem? hi
  have htwice : cfg.windowSecs.toNat * 2 < 2 ^ 63 := by omega
  have hself : hasAdded (c, setExpiry cfg w current) = true := by
    rw [setExpiry_eq hsecs]
    rfl
  generalize setExpiry cfg w current = p at hi hself hmem
  have hspares : ∀ m, Spares now (now + 1) m (.expire w.key (Db.asI64 (cfg.windowSecs.toNat * 2))) := by
    intro m
    rw [Db.asI64_eq_self htwice]
    have hlong : (1 : ℤ) ≤ (cfg.windowSecs.toNat * 2 : ℕ) * 1000000000 := by omega
    exact ⟨by omega, by linarith [hlong]⟩
  have hothers : ∀ m : String × ℕ, (∃ d ∈ s.calls, hasAdded d = true ∧
      m = ((windowOf cfg tenantId d.1.now d.1.requestUuid).requestId, asF64 (secondsOf d.1.now))) →
        (∃ deadline, Holds s.shared (windowKey tenantId window) deadline m) →
          ∃ deadline, Holds ((RedisCommand.expire w.key (Db.asI64 (cfg.windowSecs.toNat * 2))).perform now s.shared).2
            (windowKey tenantId window) deadline m := by
    rintro m ⟨d, hd, hdone, -⟩ hheld
    exact Sound.kept (fun _ he => halive.lt hd hdone he) (hspares m) hkey hheld
  cases hreply : ((RedisCommand.expire w.key (Db.asI64 (cfg.windowSecs.toNat * 2))).perform now s.shared).1 with
  | error e => exact hs.set hi (hw ▸ .failed _) hothers (by rintro ⟨⟩) (hs.limit_set hi (Nat.zero_le _))
  | ok n =>
    refine hs.set hi (hw ▸ .allowed _) hothers (fun _ => ?_) (hs.limit_set hi ?_)
    · exact hothers _ ⟨(c, p), hmem, hself, rfl⟩ (hs.added (c, p) hmem hself)
    · rw [hself]
      exact Nat.le_add_right 1 _

/-- Every command of every call, under the condition. -/
theorem Sound.advance (hs : Sound cfg tenantId window s) (hpos : 0 < cfg.windowSecs.toNat)
    (hsecs : cfg.windowSecs.toNat < 2 ^ 62) {op : RedisCommand} {next : Except String ℕ → RedisProgram RateLimitResult}
    (hi : s.calls[i]? = some (c, .call op next)) (hroom : FindsRoom cfg s (.advance i now)) :
    Sound cfg tenantId window
      { shared := (op.perform now s.shared).2, calls := s.calls.set i (c, next (op.perform now s.shared).1) } := by
  rw [FindsRoom, hi] at hroom
  obtain ⟨halive, hcommand⟩ := hroom
  have hstage := hs.stage _ (List.mem_of_getElem? hi)
  dsimp only at hstage
  generalize hw : windowOf cfg tenantId c.now c.requestUuid = w at hstage
  generalize hp : (Program.call op next : RedisProgram RateLimitResult) = p at hstage hi
  cases hstage with
  | removing =>
    rw [slidingCheck_eq] at hp
    cases hp
    exact hs.remove hw.symm hi halive hcommand
  | counting =>
    rw [countRequests_eq] at hp
    cases hp
    refine hs.count hw.symm hi halive fun members expiresAt hset => ?_
    rw [CommandFindsRoom, hset] at hcommand
    exact hcommand
  | adding current =>
    rw [addRequest_eq] at hp
    cases hp
    exact hs.add hsecs hw.symm hi halive
  | expiring current =>
    rw [setExpiry_eq hsecs] at hp
    cases hp
    exact hs.expire hpos hsecs hw.symm hi halive
  | allowed r => cases hp
  | failed e => cases hp

/-! ## Runs -/

/-- The request id that a move draws. -/
def drawnBy : ClientMove → Option Uuid
  | .start c => some c.requestUuid
  | .advance .. => none

theorem uuids_move (m : ClientMove) :
    (interleave cfg tenantId s m).2.calls.map (·.1.requestUuid) = s.calls.map (·.1.requestUuid) ++
      (drawnBy m).toList := by
  unfold interleave
  rcases Pool.move_cases (fun now op db => RedisCommand.perform now db op)
    (fun c : Call => checkRateLimit cfg tenantId c.now c.requestUuid) s m with
    ⟨c, rfl, heq⟩ | ⟨i, now, c, op, next, rfl, hi, heq⟩ | heq
  · simp [heq, drawnBy]
  · rw [heq]
    simpa [drawnBy] using map_set_of_eq hi rfl
  · cases m with
    | start c => simp [Pool.move, drawnBy]
    | advance i now =>
      rw [heq]
      simp [drawnBy]

theorem Sound.move (hs : Sound cfg tenantId window s) (hsliding : cfg.slidingWindow = true)
    (hpos : 0 < cfg.windowSecs.toNat)
    (hsecs : cfg.windowSecs.toNat < 2 ^ 62) {m : ClientMove} (hroom : FindsRoom cfg s m)
    (hstart : ∀ c, m = .start c → secondsOf c.now / cfg.windowSecs.toNat = window ∧
      c.requestUuid ∉ s.calls.map (·.1.requestUuid)) : Sound cfg tenantId window (interleave cfg tenantId s m).2 := by
  unfold interleave
  rcases Pool.move_cases (fun now op db => RedisCommand.perform now db op)
    (fun c : Call => checkRateLimit cfg tenantId c.now c.requestUuid) s m with
    ⟨c, rfl, heq⟩ | ⟨i, now, c, op, next, rfl, hi, heq⟩ | heq
  · rw [heq]
    exact hs.start hsliding (hstart c rfl).1 (hstart c rfl).2
  · rw [heq]
    exact hs.advance hpos hsecs hi hroom
  · rw [heq]
    exact hs

theorem Sound.withinLimit (hs : Sound cfg tenantId window s) : WithinLimit cfg s := by
  have hle : s.calls.countP isDoneAllowed ≤ s.calls.countP hasAdded := by
    apply List.countP_mono_left
    rintro ⟨c, p⟩ _ hdone
    cases p with
    | done r => exact hdone
    | call op next => cases hdone
  exact hle.trans ((Nat.le_add_right _ _).trans hs.limit)

theorem Sound.throughout (hs : Sound cfg tenantId window s) (hsliding : cfg.slidingWindow = true)
    (hpos : 0 < cfg.windowSecs.toNat) (hsecs : cfg.windowSecs.toNat < 2 ^ 62) {h : History ClientMove Unit}
    {moves : List ClientMove} (hwindow : ∀ c, .start c ∈ moves → secondsOf c.now / cfg.windowSecs.toNat = window)
    (hids : (s.calls.map (·.1.requestUuid) ++ moves.filterMap drawnBy).Nodup)
    (halong : (interleave cfg tenantId).Along (fun _ s m => FindsRoom cfg s m) h s moves) :
    (interleave cfg tenantId).Throughout (fun _ s => WithinLimit cfg s) h s moves := by
  induction moves generalizing s h with
  | nil => exact hs.withinLimit
  | cons m moves ih =>
    obtain ⟨hroom, halong⟩ := halong
    have hfilter : (m :: moves).filterMap drawnBy = (drawnBy m).toList ++ moves.filterMap drawnBy := by
      cases m <;> rfl
    rw [hfilter, ← List.append_assoc] at hids
    refine ⟨hs.withinLimit, ih (hs.move hsliding hpos hsecs hroom fun c hc => ⟨?_, ?_⟩) ?_ ?_ halong⟩
    · exact hwindow c (hc ▸ List.mem_cons_self)
    · subst hc
      exact fun hmem => (List.nodup_append.1 (List.nodup_append.1 hids).1).2.2 _ hmem _ (List.mem_singleton_self _) rfl
    · exact fun c hc => hwindow c (List.mem_cons_of_mem _ hc)
    · rwa [uuids_move]

/-- Calls of one window keep the limit, whatever the order of their commands, as long as each count that finds room
finds it for those that are about to add, and no command drops what was added. -/
theorem withinLimit_of_along (cfg : RateLimitConfig) (tenantId : String) (window : ℕ) (db : RedisDb)
    (hsliding : cfg.slidingWindow = true) (hpos : 0 < cfg.windowSecs.toNat) (hsecs : cfg.windowSecs.toNat < 2 ^ 62)
    {moves : List ClientMove} (hwindow : ∀ c, .start c ∈ moves → secondsOf c.now / cfg.windowSecs.toNat = window)
    (hids : (moves.filterMap drawnBy).Nodup)
    (halong : (interleave cfg tenantId).Along (fun _ s m => FindsRoom cfg s m) [] ⟨db, []⟩ moves) :
    (interleave cfg tenantId).Throughout (fun _ s => WithinLimit cfg s) [] ⟨db, []⟩ moves := by
  have hs : Sound cfg tenantId window ⟨db, []⟩ := ⟨by simp, by simp, by simp, by simp, Nat.zero_le _⟩
  exact hs.throughout hsliding hpos hsecs hwindow (by simpa using hids) halong

def twoInTen : RateLimitConfig := { oneInTen with maxRequests := 2 }

/-- Two calls count before either has added its request, for both of which there is room; a third finds none. -/
def roomForTwo : List ClientMove :=
  [.start (callAt 11000000000 1), .start (callAt 12000000000 2), .start (callAt 12000000000 3),
    .advance 0 12000000000, .advance 1 12000000000, .advance 0 12000000000, .advance 1 12000000000,
    .advance 2 12000000000, .advance 1 12000000000, .advance 0 12000000000, .advance 2 12000000000,
    .advance 0 12000000000, .advance 1 12000000000]

theorem withinLimit_roomForTwo :
    (interleave twoInTen "t").Throughout (fun _ s => WithinLimit twoInTen s) [] ⟨∅, []⟩ roomForTwo := by
  refine withinLimit_of_along twoInTen "t" 1 ∅ rfl (by decide) (by decide) ?_ (by decide) (by decide +kernel)
  intro c hc
  obtain rfl | rfl | rfl : c = callAt 11000000000 1 ∨ c = callAt 12000000000 2 ∨ c = callAt 12000000000 3 := by
    simpa [roomForTwo] using hc
  all_goals rfl

/-- Two calls of one second that take turns. -/
def takingTurns : List ClientMove :=
  [.start (callAt 11000000000 1), .start (callAt 11000000000 2), .advance 0 11000000000, .advance 1 11000000000,
    .advance 0 11000000000, .advance 1 11000000000, .advance 0 11000000000, .advance 1 11000000000,
    .advance 0 11000000000, .advance 1 11000000000]

theorem not_withinLimit_takingTurns :
    ¬ ∀ (cfg : RateLimitConfig) (tenantId : String) (window : ℕ) (moves : List ClientMove),
    cfg.slidingWindow = true → 0 < cfg.windowSecs.toNat →
      (∀ c, .start c ∈ moves → secondsOf c.now / cfg.windowSecs.toNat = window) → (moves.filterMap drawnBy).Nodup →
        (interleave cfg tenantId).Throughout (fun _ s => WithinLimit cfg s) [] ⟨∅, []⟩ moves := by
  intro h
  have hwithin := (h oneInTen "t" 1 takingTurns rfl (by decide) ?_ (by decide)).final
  · revert hwithin
    unfold WithinLimit
    decide +kernel
  · intro c hc
    obtain rfl | rfl : c = callAt 11000000000 1 ∨ c = callAt 11000000000 2 := by simpa [takingTurns] using hc
    · rfl
    · rfl

end

end GmKms.Keystore.RateLimiter
