import GmKms.Api.Metrics
import GmKms.Lib.MapEntries
import GmKms.Lib.ProgramPool
/-!
# Gauges and keys

Calls that make, rotate and delete keys, interleaved. A call changes the keystore first and the counters later, one
operation at a time: what it still owes to a counter is part of the balance between the counter and the keys.
-/

namespace GmKms.Api.Metrics

open Lib Lib.Program Keystore Service

variable {F : Type}

/-- The calls under way and those that have returned, over one keystore and its counters. -/
abbrev Calls (F : Type) :=
  Pool (Sum.elim BackendOp.Reply CounterOp.Reply) Rest.Refusal Answer (KeyCall F) (Software.SoftwareKeystore ×
    KeysByStatus)

/-- A call starts, or does its next operation with what that reads from outside. -/
abbrev CallMove (F : Type) := Move (KeyCall F) Software.UseEnv

def Calls.new : Calls F := ⟨(.new, fun _ => 0), []⟩

def interleave (crypto : Crypto) : Machine (Calls F) (CallMove F) Unit := fun s m =>
  ((), s.move (fun env op st => perform crypto env op st) KeyCall.program m)

/-! ## What the gauges say -/

/-- How many keys have this status. -/
def withStatus (ks : Software.SoftwareKeystore) (status : KeyStatus) : ℕ :=
  MapEntries.countP (fun e => e.keyMeta.status = status) ks.keys

def StatusCounter.status : StatusCounter → KeyStatus
  | active => .active
  | pendingDeletion => .pendingDeletion
  | obsolete => .obsolete

structure Tracks (s : Calls F) : Prop where
  active : (s.shared.2 .active).toNat = withStatus s.shared.1 .active
  pendingDeletion : (s.shared.2 .pendingDeletion).toNat = withStatus s.shared.1 .pendingDeletion

def hasReturned : Handler Answer → Bool
  | .done _ => true
  | .call .. => false

def AllReturned (s : Calls F) : Prop := ∀ c ∈ s.calls, hasReturned c.2 = true

/-- The move takes one from a counter at zero. -/
def Wraps (s : Calls F) : CallMove F → Prop
  | .start _ => False
  | .advance i _ =>
    match s.calls[i]? with
    | some (_, .call (.inr (.dec counter)) _) => s.shared.2 counter = 0
    | _ => False

/-- No counter wraps, and whenever all calls have returned the gauges are the numbers of the keys. -/
def GaugesTrack (crypto : Crypto) (ms : List (CallMove F)) : Prop :=
  (interleave crypto).Along (fun _ s m => ¬ Wraps s m) [] .new ms ∧
    (interleave crypto).Throughout (fun _ s => AllReturned s → Tracks s) [] .new ms

/-! ## When they do -/

def KeyRequest.deletes : KeyRequest → Bool
  | delete .. => true
  | _ => false

/-- The call has found the counter above zero and is about to decrement it. -/
def isDecrementing (c : KeyCall F × Handler Answer) : Bool :=
  match c.2 with
  | .call (.inr (.dec _)) _ => true
  | _ => false

/-- A deletion deletes a key that is active, its load finds more than the decrements under way will take, and a load of
a rotation finds nothing. -/
def Careful (s : Calls F) : CallMove F → Prop
  | .start _ => True
  | .advance i _ =>
    match s.calls[i]? with
    | some (c, .call op _) =>
      match op with
      | .inl (.deleteKey keyId tenantId) => ∀ entry, s.shared.1.keys[keyId]? = some entry →
        entry.keyMeta.tenantId = tenantId → entry.keyMeta.status = .active
      | .inr (.get counter) =>
        if c.request.deletes then s.calls.countP isDecrementing < (s.shared.2 counter).toNat
        else s.shared.2 counter = 0
      | .inr (.inc counter) => counter ≠ .obsolete → (s.shared.2 counter).toNat + 1 < 2 ^ 64
      | _ => True
    | _ => True

/-- A key gets an id that no other key has, as `Uuid::new_v4` draws it. -/
def DrawsNewId (s : Calls F) : CallMove F → Prop
  | .start _ => True
  | .advance i env =>
    match s.calls[i]? with
    | some (_, .call (.inl op) _) => op.creates = true → s.shared.1.keys[env.uuid]? = none
    | _ => True

/-! ## What is owed -/

/-- What a call will still add to a counter. -/
def owes (counter : StatusCounter) (c : KeyCall F × Handler Answer) : ℤ :=
  match c.2 with
  | .call (.inr (.inc counter')) _ => if counter' = counter then 1 else 0
  | .call (.inr (.dec _)) _ => if counter = .active then -1 else 1
  | .call (.inr (.get _)) _ => if c.1.request.deletes then (if counter = .active then -1 else 1) else 0
  | _ => 0

/-- The counting of a call that goes on to answer `a`. -/
def counting (counter : StatusCounter) (a : Answer) : Handler Answer := .call (.inr (.inc counter)) fun _ =>
  .done (.ok a)

def decrementing (counter : StatusCounter) (a : Answer) : Handler Answer :=
  .call (.inr (.dec .active)) fun _ => counting counter a

def leaving (counter : StatusCounter) (a : Answer) : Handler Answer :=
  .call (.inr (.get .active)) fun (active : UInt64) => if 0 < active then decrementing counter a else counting counter a

/-- A call that has not come to its operation on the keystore yet. -/
inductive Asking : KeyRequest → Handler Answer → Prop
  | refused (q : KeyRequest) (e : Rest.Refusal) : Asking q (.done (.error e))
  | checking {q : KeyRequest} {keyId : Uuid} {next : BackendOp.Reply (.getKeyMetadata keyId) → Handler Answer}
      (h : ∀ r, Asking q (next r)) : Asking q (.call (.inl (.getKeyMetadata keyId)) next)
  | creating {req : Rest.CreateKeyRequest} {spec : KeySpec} {name tenantId : String}
      {next : BackendOp.Reply (.generateKey spec name tenantId) → Handler Answer}
      (hok : ∀ m, ∃ a, next (.ok m) = counting .active a) (herror : ∀ e, ∃ e', next (.error e) = .done (.error e')) :
      Asking (.create req) (.call (.inl (.generateKey spec name tenantId)) next)
  | rotating {id : Uuid} {query : Rest.TenantQuery} {keyId : Uuid} {tenantId : String}
      {next : BackendOp.Reply (.rotateKey keyId tenantId) → Handler Answer}
      (hok : ∀ m, ∃ a, next (.ok m) = leaving .obsolete a) (herror : ∀ e, ∃ e', next (.error e) = .done (.error e')) :
      Asking (.rotate id query) (.call (.inl (.rotateKey keyId tenantId)) next)
  | deleting {id : Uuid} {query : Rest.TenantQuery} {keyId : Uuid} {tenantId : String}
      {next : BackendOp.Reply (.deleteKey keyId tenantId) → Handler Answer}
      (hok : ∀ u, ∃ a, next (.ok u) = leaving .pendingDeletion a)
      (herror : ∀ e, ∃ e', next (.error e) = .done (.error e')) :
      Asking (.delete id query) (.call (.inl (.deleteKey keyId tenantId)) next)

/-- How far a call is. -/
inductive Stage : KeyRequest → Handler Answer → Prop
  | asking {q : KeyRequest} {p : Handler Answer} (h : Asking q p) : Stage q p
  | leavingRotated (id : Uuid) (query : Rest.TenantQuery) (a : Answer) : Stage (.rotate id query) (leaving .obsolete a)
  | leavingDeleted (id : Uuid) (query : Rest.TenantQuery) (a : Answer) :
      Stage (.delete id query) (leaving .pendingDeletion a)
  | decrementing (id : Uuid) (query : Rest.TenantQuery) (a : Answer) :
      Stage (.delete id query) (decrementing .pendingDeletion a)
  | counting (q : KeyRequest) (counter : StatusCounter) (a : Answer) : Stage q (counting counter a)
  | answered (q : KeyRequest) (a : Answer) : Stage q (.done (.ok a))

def ActiveOrPending (ks : Software.SoftwareKeystore) : Prop :=
  ∀ (id : Uuid) (entry : Software.KeyEntry), ks.keys[id]? = some entry →
    entry.keyMeta.status = .active ∨ entry.keyMeta.status = .pendingDeletion

/-- Each call is at a stage, keys are active or pending deletion, a counter with what is owed to it is the number of its
keys, and the decrements under way find enough. -/
structure Sound (s : Calls F) : Prop where
  stage : ∀ c ∈ s.calls, Stage c.1.request c.2
  status : ActiveOrPending s.shared.1
  balance : ∀ counter ≠ .obsolete, ((s.shared.2 counter).toNat : ℤ) + (s.calls.map (owes counter)).sum =
    withStatus s.shared.1 counter.status
  room : s.calls.countP isDecrementing ≤ (s.shared.2 .active).toNat

/-! ## The stages of a call -/

section

variable {q : KeyRequest} {p : Handler Answer}

theorem Asking.owes_eq_zero (h : Asking q p) (counter : StatusCounter) (c : KeyCall F) : owes counter (c, p) = 0 := by
  cases h <;> rfl

theorem Asking.not_decrementing (h : Asking q p) (c : KeyCall F) : isDecrementing (c, p) = false := by
  cases h <;> rfl

theorem recordLeaving_eq (counter : StatusCounter) (a : Answer) :
    (do recordLeaving counter; return a : Handler Answer) = leaving counter a := by
  change Program.call _ _ = Program.call _ _
  congr 1
  funext (active : UInt64)
  by_cases hactive : 0 < active
  · simp only [Program.bind, hactive, if_true]
    rfl
  · simp only [Program.bind, hactive, if_false]
    rfl

/-- The methods on one key start with a look at its owner. -/
theorem asking_owned {keyId : Uuid} {tenantId : String} {op : BackendOp} {k : op.Value → Handler Answer}
    (h : Asking q ((ask op apiError).inl .ofAbort >>= k)) :
    Asking q ((do
      let _ ← KeyService.ownedKeyMeta keyId tenantId
      ask op apiError : Service op.Value).inl .ofAbort >>= k) := by
  refine .checking fun r => ?_
  cases r with
  | error e =>
    cases e <;> exact .refused _ _
  | ok m =>
    change Asking q ((do
      let _ ← (if m.tenantId ≠ tenantId then fail (.keyNotFound keyId.text) else return m : Service KeyMeta)
      ask op apiError : Service op.Value).inl .ofAbort >>= k)
    split
    · exact .refused _ _
    · exact h

theorem asking_program (c : KeyCall F) : Asking c.request c.program := by
  obtain ⟨srv, caller, request⟩ := c
  cases request with
  | create req =>
    change Asking (.create req) (createKey srv caller req)
    unfold createKey
    cases createKeyGate srv caller req with
    | error e => exact .refused _ _
    | ok g =>
      obtain ⟨tenant, spec⟩ := g
      change Asking (.create req) ((KeyService.createKey srv.env spec req.name tenant).inl .ofAbort >>= _)
      unfold KeyService.createKey
      split
      · exact .refused _ _
      · split
        · exact .refused _ _
        · refine .creating (fun m => ⟨_, rfl⟩) fun e => ?_
          cases e <;> exact ⟨_, rfl⟩
  | rotate id query =>
    change Asking (.rotate id query) (rotateKey srv caller id query)
    unfold rotateKey
    cases rotateKeyGate srv caller id query with
    | error e => exact .refused _ _
    | ok tenant =>
      refine asking_owned (.rotating (fun m => ⟨.key (.ofMeta m), recordLeaving_eq _ _⟩) fun e => ?_)
      cases e <;> exact ⟨_, rfl⟩
  | delete id query =>
    change Asking (.delete id query) (deleteKey srv caller id query)
    unfold deleteKey
    cases deleteKeyGate srv caller id query with
    | error e => exact .refused _ _
    | ok tenant =>
      refine asking_owned (.deleting (fun _ => ⟨.noContent, recordLeaving_eq _ _⟩) fun e => ?_)
      cases e <;> exact ⟨_, rfl⟩

end

/-! ## The number of keys of a status -/

section

variable {ks : Software.SoftwareKeystore} {id : Uuid}

theorem withStatus_put_of_none (h : ks.keys[id]? = none) (entry : Software.KeyEntry) (status : KeyStatus) :
    withStatus (ks.put id entry) status = withStatus ks status + if entry.keyMeta.status = status then 1 else 0 := by
  have hcount := MapEntries.countP_insert_of_none (fun e : Software.KeyEntry => e.keyMeta.status = status) h entry
  simp only [decide_eq_true_eq] at hcount
  exact hcount

theorem withStatus_put_add {old : Software.KeyEntry} (h : ks.keys[id]? = some old) (entry : Software.KeyEntry)
    (status : KeyStatus) : withStatus (ks.put id entry) status + (if old.keyMeta.status = status then 1 else 0) =
      withStatus ks status + if entry.keyMeta.status = status then 1 else 0 := by
  have hcount := MapEntries.countP_insert_add (fun e : Software.KeyEntry => e.keyMeta.status = status) h entry
  simp only [decide_eq_true_eq] at hcount
  exact hcount

/-- A key that keeps its status. -/
theorem withStatus_put_of_eq {old entry : Software.KeyEntry} (h : ks.keys[id]? = some old)
    (hstatus : entry.keyMeta.status = old.keyMeta.status) (status : KeyStatus) :
    withStatus (ks.put id entry) status = withStatus ks status := by
  have hcount := withStatus_put_add h entry status
  rw [hstatus] at hcount
  exact Nat.add_right_cancel hcount

theorem ActiveOrPending.put (h : ActiveOrPending ks) {entry : Software.KeyEntry}
    (hentry : entry.keyMeta.status = .active ∨ entry.keyMeta.status = .pendingDeletion) :
    ActiveOrPending (ks.put id entry) := by
  intro id' entry' hentry'
  rw [Software.SoftwareKeystore.keys_put] at hentry'
  split at hentry'
  · cases hentry'
    exact hentry
  · exact h id' entry' hentry'

/-- Of these keys only an active one can be rotated. -/
theorem ActiveOrPending.active_of_canRotate (h : ActiveOrPending ks) {entry : Software.KeyEntry}
    (hentry : ks.keys[id]? = some entry) (hrotate : entry.keyMeta.status.canRotate = true) :
    entry.keyMeta.status = .active := by
  rcases h id entry hentry with hstatus | hstatus
  · exact hstatus
  · rw [hstatus] at hrotate
    cases hrotate

end

/-! ## What a move keeps -/

section

variable {s : Calls F} {i : ℕ} {c : KeyCall F} {p p' : Handler Answer}

theorem Sound.new : Sound (Calls.new : Calls F) := by
  refine ⟨?_, ?_, ?_, ?_⟩
  · rintro c ⟨⟩
  · intro id entry hentry
    simp [Calls.new, Software.SoftwareKeystore.new] at hentry
  · intro counter _
    simp [Calls.new, withStatus, Software.SoftwareKeystore.new, MapEntries.countP_empty]
  · exact Nat.zero_le _

theorem Sound.start (hs : Sound s) (c : KeyCall F) : Sound { s with calls := s.calls ++ [(c, c.program)] } := by
  have hasking := asking_program c
  refine ⟨?_, hs.status, ?_, ?_⟩
  · exact List.forall_mem_append.2 ⟨hs.stage, by simpa using .asking hasking⟩
  · intro counter hcounter
    simpa [hasking.owes_eq_zero counter c] using hs.balance counter hcounter
  · simpa [List.countP_append, hasking.not_decrementing c] using hs.room

/-- An operation of a call that moves keys, counters and what it owes alike. -/
theorem Sound.set (hs : Sound s) (hi : s.calls[i]? = some (c, p)) (hstage : Stage c.request p')
    {st : Software.SoftwareKeystore × KeysByStatus}
    (hstatus : ActiveOrPending st.1)
    (hbalance : ∀ counter ≠ .obsolete,
      ((st.2 counter).toNat : ℤ) + owes counter (c, p') + withStatus s.shared.1 counter.status =
        (s.shared.2 counter).toNat + owes counter (c, p) + withStatus st.1 counter.status)
    (hroom : s.calls.countP isDecrementing + (if isDecrementing (c, p') then 1 else 0) ≤
      (st.2 .active).toNat + if isDecrementing (c, p) then 1 else 0) :
    Sound { shared := st, calls := s.calls.set i (c, p') } := by
  refine ⟨?_, hstatus, ?_, ?_⟩
  · intro d hd
    rcases List.mem_or_eq_of_mem_set hd with hd | rfl
    · exact hs.stage d hd
    · exact hstage
  · intro counter hcounter
    have hsum := sum_map_set_add hi (c, p') (owes counter)
    have hbefore := hs.balance counter hcounter
    have hmoved := hbalance counter hcounter
    dsimp only
    omega
  · have hcount := countP_set_add hi (c, p') isDecrementing
    dsimp only
    omega

/-- A call goes on and owes what it owed. -/
theorem Sound.goOn (hs : Sound s) (hi : s.calls[i]? = some (c, p)) (hstage : Stage c.request p')
    (howes : ∀ counter, owes counter (c, p') = owes counter (c, p))
    (hdecrementing : isDecrementing (c, p') = isDecrementing (c, p)) :
    Sound { s with calls := s.calls.set i (c, p') } := by
  refine hs.set hi hstage hs.status (fun counter _ => by rw [howes]) ?_
  rw [hdecrementing]
  exact Nat.add_le_add_right hs.room _

/-! ### On the keystore -/

theorem Sound.generate (hs : Sound s) {spec : KeySpec} {name tenantId : String}
    {next : BackendOp.Reply (.generateKey spec name tenantId) → Handler Answer}
    (hi : s.calls[i]? = some (c, .call (.inl (.generateKey spec name tenantId)) next))
    (hok : ∀ m, ∃ a, next (.ok m) = Metrics.counting .active a)
    (herror : ∀ e, ∃ e', next (.error e) = .done (.error e')) {env : Software.Env}
    (hnew : s.shared.1.keys[env.uuid]? = none) :
    Sound {
      shared := ((s.shared.1.generateKey env spec name tenantId).2, s.shared.2)
      calls := s.calls.set i (c, next (s.shared.1.generateKey env spec name tenantId).1) } := by
  unfold Software.SoftwareKeystore.generateKey
  cases Software.SoftwareKeystore.generatedMaterial spec env with
  | error e =>
    obtain ⟨e', he⟩ := herror e
    dsimp only
    rw [he]
    exact hs.goOn hi (.asking (.refused _ _)) (fun _ => rfl) rfl
  | ok material =>
    obtain ⟨a, ha⟩ := hok (Software.SoftwareKeystore.newMeta env spec name tenantId none)
    dsimp only
    rw [ha]
    -- one more key is active, and the call owes its counter one
    refine hs.set hi (.counting _ _ _) (hs.status.put (.inl rfl)) ?_ (Nat.add_le_add_right hs.room 0)
    intro counter hcounter
    rw [withStatus_put_of_none hnew]
    cases counter with
    | active =>
      change (_ : ℤ) + 1 + _ = _ + 0 + ((_ + 1 : ℕ) : ℤ)
      push_cast
      ring
    | pendingDeletion => rfl
    | obsolete => exact absurd rfl hcounter

theorem Sound.rotate (hs : Sound s) {id : Uuid} {query : Rest.TenantQuery} (hq : c.request = .rotate id query)
    {keyId : Uuid} {tenantId : String} {next : BackendOp.Reply (.rotateKey keyId tenantId) → Handler Answer}
    (hi : s.calls[i]? = some (c, .call (.inl (.rotateKey keyId tenantId)) next))
    (hok : ∀ m, ∃ a, next (.ok m) = leaving .obsolete a) (herror : ∀ e, ∃ e', next (.error e) = .done (.error e'))
    (env : Software.UseEnv) :
    Sound {
      shared := ((s.shared.1.rotateKey env.toEnv keyId tenantId).2, s.shared.2)
      calls := s.calls.set i (c, next (s.shared.1.rotateKey env.toEnv keyId tenantId).1) } := by
  by_cases hkey : ∃ entry, s.shared.1.keys[keyId]? = some entry ∧ entry.keyMeta.tenantId = tenantId ∧
      entry.keyMeta.status.canRotate = true
  · obtain ⟨entry, hentry, howned, hrotate⟩ := hkey
    have hactive := hs.status.active_of_canRotate hentry hrotate
    rw [Software.SoftwareKeystore.rotateKey_of_owned hentry howned hrotate]
    cases Software.SoftwareKeystore.rotationMaterial entry.keyMeta.spec env.toEnv with
    | error e =>
      obtain ⟨e', he⟩ := herror e
      dsimp only
      rw [he]
      -- the current version has been archived, though no new one follows
      refine hs.set hi (.asking (.refused _ _)) (hs.status.put (.inl hactive)) ?_ (Nat.add_le_add_right hs.room 0)
      intro counter _
      have hsame : withStatus (s.shared.1.put keyId (Software.SoftwareKeystore.archive entry)) counter.status =
          withStatus s.shared.1 counter.status := withStatus_put_of_eq hentry (by rfl) _
      dsimp only
      rw [hsame]
      rfl
    | ok material =>
      obtain ⟨a, ha⟩ := hok (Software.rotatedMeta entry.keyMeta env.now)
      dsimp only
      rw [ha]
      -- the key is active as before, so the call owes nothing
      refine hs.set hi (hq ▸ .leavingRotated _ _ _) (hs.status.put (.inl rfl)) ?_ (Nat.add_le_add_right hs.room 0)
      intro counter _
      rw [withStatus_put_of_eq hentry hactive.symm, owes, owes, hq]
      rfl
  · obtain ⟨hkept, e, he⟩ : (s.shared.1.rotateKey env.toEnv keyId tenantId).2 = s.shared.1 ∧
        ∃ e, (s.shared.1.rotateKey env.toEnv keyId tenantId).1 = .error e := by
      refine Software.SoftwareKeystore.rotateKey_refused fun entry hentry howned => ?_
      by_contra hrotate
      exact hkey ⟨entry, hentry, howned, by simpa using hrotate⟩
    obtain ⟨e', hnext⟩ := herror e
    rw [hkept, he, hnext]
    exact hs.goOn hi (.asking (.refused _ _)) (fun _ => rfl) rfl

theorem Sound.delete (hs : Sound s) {id : Uuid} {query : Rest.TenantQuery} (hq : c.request = .delete id query)
    {keyId : Uuid} {tenantId : String} {next : BackendOp.Reply (.deleteKey keyId tenantId) → Handler Answer}
    (hi : s.calls[i]? = some (c, .call (.inl (.deleteKey keyId tenantId)) next))
    (hok : ∀ u, ∃ a, next (.ok u) = leaving .pendingDeletion a)
    (herror : ∀ e, ∃ e', next (.error e) = .done (.error e'))
    (hactive : ∀ entry, s.shared.1.keys[keyId]? = some entry → entry.keyMeta.tenantId = tenantId →
      entry.keyMeta.status = .active) :
    Sound {
      shared := ((s.shared.1.deleteKey keyId tenantId).2, s.shared.2)
      calls := s.calls.set i (c, next (s.shared.1.deleteKey keyId tenantId).1) } := by
  by_cases hkey : ∃ entry, s.shared.1.keys[keyId]? = some entry ∧ entry.keyMeta.tenantId = tenantId
  · obtain ⟨entry, hentry, howned⟩ := hkey
    obtain ⟨a, ha⟩ := hok ()
    rw [Software.SoftwareKeystore.deleteKey_of_owned hentry howned]
    dsimp only
    rw [ha]
    -- the key has left one status for the other, and the call owes both counters
    refine hs.set hi (hq ▸ .leavingDeleted _ _ _) (hs.status.put (.inr rfl)) ?_ (Nat.add_le_add_right hs.room 0)
    intro counter hcounter
    have hcount := withStatus_put_add hentry (Software.deletedEntry entry) counter.status
    rw [hactive entry hentry howned] at hcount
    have howes : owes counter (c, leaving .pendingDeletion a) = if counter = .active then -1 else 1 := by
      simp only [owes, leaving, hq, KeyRequest.deletes, if_true]
    dsimp only
    rw [howes]
    cases counter with
    | active =>
      change _ + 1 = _ + 0 at hcount
      change (_ : ℤ) + -1 + _ = _ + 0 + _
      omega
    | pendingDeletion =>
      change _ + 0 = _ + 1 at hcount
      change (_ : ℤ) + 1 + _ = _ + 0 + _
      omega
    | obsolete => exact absurd rfl hcounter
  · have hrefused : s.shared.1.deleteKey keyId tenantId = (.error (.error (.keyNotFound keyId.text)), s.shared.1) := by
      rw [Software.SoftwareKeystore.deleteKey,
        Software.SoftwareKeystore.verifyTenant_of_not_owned fun entry hentry howned => hkey ⟨entry, hentry, howned⟩]
    obtain ⟨e', hnext⟩ := herror (.error (.keyNotFound keyId.text))
    rw [hrefused, hnext]
    exact hs.goOn hi (.asking (.refused _ _)) (fun _ => rfl) rfl

/-! ### On the counters -/

theorem toNat_inc {n : UInt64} (h : n.toNat + 1 < 2 ^ 64) : (n + 1).toNat = n.toNat + 1 := by
  rw [UInt64.toNat_add, UInt64.toNat_one, Nat.mod_eq_of_lt h]

theorem toNat_dec {n : UInt64} (h : 0 < n.toNat) : (n - 1).toNat = n.toNat - 1 := by
  rw [UInt64.toNat_sub_of_le]
  · rfl
  · rw [UInt64.le_iff_toNat_le]
    exact h

/-- A deletion loads what its decrement will still find. -/
theorem Sound.loadDeleted (hs : Sound s) {id : Uuid} {query : Rest.TenantQuery} (hq : c.request = .delete id query)
    {a : Answer} (hi : s.calls[i]? = some (c, leaving .pendingDeletion a))
    (hroom : s.calls.countP isDecrementing < (s.shared.2 .active).toNat) :
    Sound { s with calls := s.calls.set i (c, if 0 < s.shared.2 .active then decrementing .pendingDeletion a
      else Metrics.counting .pendingDeletion a) } := by
  have hfound : 0 < s.shared.2 .active := UInt64.lt_iff_toNat_lt.2 (Nat.zero_lt_of_lt hroom)
  rw [if_pos hfound]
  refine hs.set hi (hq ▸ .decrementing _ _ _) hs.status ?_ hroom
  intro counter _
  simp only [owes, leaving, decrementing, hq, KeyRequest.deletes, if_true]

/-- A rotation loads zero, and decrements nothing. -/
theorem Sound.loadRotated (hs : Sound s) {id : Uuid} {query : Rest.TenantQuery} (hq : c.request = .rotate id query)
    {a : Answer} (hi : s.calls[i]? = some (c, leaving .obsolete a)) (hzero : s.shared.2 .active = 0) :
    Sound { s with calls := s.calls.set i (c, if 0 < s.shared.2 .active then decrementing .obsolete a
      else Metrics.counting .obsolete a) } := by
  have hnone : ¬ 0 < s.shared.2 .active := by
    rw [hzero]
    decide
  rw [if_neg hnone]
  refine hs.set hi (.counting _ _ _) hs.status ?_ (Nat.add_le_add_right hs.room 0)
  intro counter hcounter
  simp only [owes, leaving, Metrics.counting, hq, KeyRequest.deletes, hcounter.symm, Bool.false_eq_true, if_false]

theorem Sound.decrement (hs : Sound s) {a : Answer} (hi : s.calls[i]? = some (c, decrementing .pendingDeletion a)) :
    0 < (s.shared.2 .active).toNat ∧ Sound {
      shared := (s.shared.1, Function.update s.shared.2 .active (s.shared.2 .active - 1))
      calls := s.calls.set i (c, Metrics.counting .pendingDeletion a) } := by
  -- this call is one of those for which there is room
  have hpos : 0 < s.calls.countP isDecrementing := List.countP_pos_iff.2 ⟨_, List.mem_of_getElem? hi, rfl⟩
  have hfound : 0 < (s.shared.2 .active).toNat := hpos.trans_le hs.room
  refine ⟨hfound, hs.set hi (.counting _ _ _) hs.status ?_ ?_⟩
  · intro counter hcounter
    cases counter with
    | active =>
      simp only [Function.update_self, toNat_dec hfound, owes, decrementing, Metrics.counting, reduceCtorEq, if_false,
        if_true]
      omega
    | pendingDeletion => simp [Function.update_of_ne, owes, decrementing, Metrics.counting]
    | obsolete => exact absurd rfl hcounter
  · have hroom := hs.room
    simp only [Function.update_self, toNat_dec hfound, isDecrementing, decrementing, Metrics.counting,
      Bool.false_eq_true,
      if_false, if_true]
    omega

theorem Sound.increment (hs : Sound s) {counter : StatusCounter} {a : Answer}
    (hi : s.calls[i]? = some (c, Metrics.counting counter a))
    (hfits : counter ≠ .obsolete → (s.shared.2 counter).toNat + 1 < 2 ^ 64) :
    Sound {
      shared := (s.shared.1, Function.update s.shared.2 counter (s.shared.2 counter + 1))
      calls := s.calls.set i (c, .done (.ok a)) } := by
  refine hs.set hi (.answered _ _) hs.status ?_ ?_
  · intro counter' hcounter'
    by_cases heq : counter = counter'
    · subst heq
      simp [toNat_inc (hfits hcounter'), owes, Metrics.counting]
    · simp [Function.update_of_ne (Ne.symm heq), owes, Metrics.counting, heq]
  · by_cases heq : counter = .active
    · subst heq
      have hroom := hs.room
      have hnext := toNat_inc (hfits (by decide))
      simp only [Function.update_self, hnext, isDecrementing, Metrics.counting, Bool.false_eq_true, if_false]
      omega
    · simp only [Function.update_of_ne (Ne.symm heq), isDecrementing, Metrics.counting, Bool.false_eq_true, if_false]
      exact Nat.add_le_add_right hs.room 0

/-- Every operation of every call, under the condition. -/
theorem Sound.advance (hs : Sound s) {env : Software.UseEnv} {op : BackendOp ⊕ CounterOp}
    {next : Sum.elim BackendOp.Reply CounterOp.Reply op → Handler Answer} (hi : s.calls[i]? = some (c, .call op next))
    (hnew : DrawsNewId s (.advance i env)) (hcareful : Careful s (.advance i env)) (crypto : Crypto) :
    ¬ Wraps s (.advance i env) ∧ Sound {
      shared := (perform crypto env op s.shared).2
      calls := s.calls.set i (c, next (perform crypto env op s.shared).1) } := by
  have hstage := hs.stage _ (List.mem_of_getElem? hi)
  rw [DrawsNewId, hi] at hnew
  rw [Careful, hi] at hcareful
  rw [Wraps, hi]
  dsimp only at hstage
  generalize hq : c.request = q at hstage
  generalize hp : (Program.call op next : Handler Answer) = p at hstage hi
  cases hstage with
  | asking h =>
    cases h with
    | refused => cases hp
    | checking h =>
      cases hp
      exact ⟨id, hs.goOn hi (.asking (hq ▸ h _)) (fun counter => (h _).owes_eq_zero counter c)
        ((h _).not_decrementing c)⟩
    | creating hok herror =>
      cases hp
      exact ⟨id, hs.generate hi hok herror (hnew rfl)⟩
    | rotating hok herror =>
      cases hp
      exact ⟨id, hs.rotate hq hi hok herror env⟩
    | deleting hok herror =>
      cases hp
      exact ⟨id, hs.delete hq hi hok herror hcareful⟩
  | leavingRotated id query a =>
    cases hp
    dsimp only at hcareful
    rw [hq] at hcareful
    exact ⟨fun h => h, hs.loadRotated hq hi hcareful⟩
  | leavingDeleted id query a =>
    cases hp
    dsimp only at hcareful
    rw [hq] at hcareful
    exact ⟨fun h => h, hs.loadDeleted hq hi hcareful⟩
  | decrementing id query a =>
    cases hp
    obtain ⟨hfound, hs'⟩ := hs.decrement hi
    refine ⟨fun hzero => ?_, hs'⟩
    rw [hzero] at hfound
    exact absurd hfound (by decide)
  | counting q counter a =>
    cases hp
    exact ⟨id, hs.increment hi hcareful⟩
  | answered q a => cases hp

/-- A move keeps the balance and wraps no counter. -/
theorem Sound.move (hs : Sound s) (crypto : Crypto) {m : CallMove F} (hnew : DrawsNewId s m)
    (hcareful : Careful s m) : ¬ Wraps s m ∧ Sound (interleave crypto s m).2 := by
  cases m with
  | start c => exact ⟨id, hs.start c⟩
  | advance i env =>
    cases hi : s.calls[i]? with
    | none =>
      rw [interleave, Wraps, Pool.move, hi]
      exact ⟨id, hs⟩
    | some d =>
      obtain ⟨c, p⟩ := d
      cases p with
      | done r =>
        rw [interleave, Wraps, Pool.move, hi]
        exact ⟨id, hs⟩
      | call op next =>
        rw [interleave, Pool.move_advance _ _ hi]
        exact hs.advance hi hnew hcareful crypto

theorem Sound.tracks (hs : Sound s) (hall : AllReturned s) : Tracks s := by
  have hnone : ∀ counter, (s.calls.map (owes counter)).sum = 0 := by
    intro counter
    refine List.sum_eq_zero ?_
    rintro _ hx
    obtain ⟨d, hd, rfl⟩ := List.mem_map.1 hx
    have hreturned := hall d hd
    obtain ⟨c, p⟩ := d
    cases p with
    | done r => rfl
    | call op next => cases hreturned
  constructor
  · have hbalance := hs.balance .active (by decide)
    rw [hnone] at hbalance
    exact_mod_cast hbalance
  · have hbalance := hs.balance .pendingDeletion (by decide)
    rw [hnone] at hbalance
    exact_mod_cast hbalance

end

/-! ## Runs -/

/-- In a run of careful moves no counter wraps, and whenever all calls have returned the gauges are the numbers of the
active keys and of those pending deletion. -/
theorem gaugesTrack_run {crypto : Crypto} {ms : List (CallMove F)}
    (hnew : (interleave crypto).Along (fun _ s m => DrawsNewId s m) [] .new ms)
    (hcareful : (interleave crypto).Along (fun _ s m => Careful s m) [] .new ms) : GaugesTrack crypto ms := by
  have hmoves := hnew.and hcareful
  have hstep : ∀ (h : History (CallMove F) Unit) (s : Calls F) (m : CallMove F),
      Sound s → DrawsNewId s m ∧ Careful s m → Sound (interleave crypto s m).2 :=
    fun _ _ _ hs hm => (hs.move crypto hm.1 hm.2).2
  constructor
  · exact hmoves.mono_of_inv (I := fun _ s => Sound s) hstep (fun _ _ _ hs hm => (hs.move crypto hm.1 hm.2).1) .new
  · exact (hmoves.throughout (I := fun _ s => Sound s) hstep .new).mono fun _ _ hs => hs.tracks

instance careful_decidable (s : Calls F) (m : CallMove F) : Decidable (Careful s m) := by
  unfold Careful
  split
  · infer_instance
  · split
    · split
      · rename_i keyId tenantId _ _
        exact decidable_of_iff (∀ entry ∈ (s.shared.1.keys[keyId]? : Option Software.KeyEntry),
          entry.keyMeta.tenantId = tenantId → entry.keyMeta.status = .active) Iff.rfl
      · infer_instance
      · infer_instance
      · infer_instance
    · infer_instance

instance drawsNewId_decidable (s : Calls F) (m : CallMove F) : Decidable (DrawsNewId s m) := by
  unfold DrawsNewId
  split
  · infer_instance
  · split <;> infer_instance

/-- Two operators have approved the rotation and the deletion of the key 1. -/
def approvedChanges : Approval.ApprovalEngine :=
  Machine.final Approval.ApprovalEngine.call .new
    [.createRequest 11 0 .keyRotate (Uuid.text 1) "key" "acme" "alice" none .double,
      .approve (fun _ => 1) 11 "bob" .operator none,
      .approve (fun _ => 2) 11 "carol" .operator none,
      .createRequest 12 0 .keyDelete (Uuid.text 1) "key" "acme" "alice" none .double,
      .approve (fun _ => 1) 12 "bob" .operator none,
      .approve (fun _ => 2) 12 "carol" .operator none]

/-- No tracker is configured and no policy denies. -/
def gaugeServer : Server Unit where
  crypto := .plain
  outside := sampleServiceEnv 7
  keystore := .new
  quotaTracker := false
  evaluatePbac _ _ _ _ := .allowed
  approvalManager := approvedChanges
  now := 3
  parseUuid s := if s = "rotation" then some 11 else if s = "deletion" then some 12 else none
  decodeError _ := "Invalid padding"
  fromStr _ := none

def callOf (request : KeyRequest) : KeyCall Unit := ⟨gaugeServer, ⟨.keyAdmin, "admin", some "acme"⟩, request⟩

def drawing (uuid : Uuid) : Software.UseEnv := { (sampleServiceEnv 7).toUseEnv with uuid }

/-- Two keys are made side by side and the first one is deleted. -/
def deletedKey : List (CallMove Unit) :=
  .start (callOf (.create ⟨"orders", "aes-256-gcm", "acme"⟩)) ::
    .start (callOf (.create ⟨"invoices", "sm4", "acme"⟩)) ::
    [.advance 0 (drawing 1), .advance 1 (drawing 2), .advance 1 (drawing 3), .advance 0 (drawing 4)] ++
    .start (callOf (.delete 1 ⟨"acme", some "deletion"⟩)) :: List.replicate 5 (.advance 2 (drawing 5))

theorem gaugesTrack_deletedKey : GaugesTrack .plain deletedKey := by
  refine gaugesTrack_run ?_ ?_
  · refine ⟨?_, ?_, ?_, ?_, ?_, ?_, ?_, ?_, ?_, ?_, ?_, ?_, trivial⟩ <;> decide +kernel
  · refine ⟨?_, ?_, ?_, ?_, ?_, ?_, ?_, ?_, ?_, ?_, ?_, ?_, trivial⟩ <;> decide +kernel

/-- A key is made and then rotated. -/
def rotatedKey : List (CallMove Unit) :=
  .start (callOf (.create ⟨"orders", "aes-256-gcm", "acme"⟩)) :: List.replicate 2 (.advance 0 (drawing 1)) ++
    .start (callOf (.rotate 1 ⟨"acme", some "rotation"⟩)) :: List.replicate 5 (.advance 1 (drawing 2))

def succeeded : Handler Answer → Bool
  | .done (.ok _) => true
  | _ => false

theorem not_gaugesTrack_rotatedKey :
    (∀ c ∈ ((interleave .plain).final .new rotatedKey).calls, succeeded c.2 = true) ∧
      (interleave .plain).Along (fun _ s m => DrawsNewId s m) [] .new rotatedKey ∧ ¬ GaugesTrack .plain rotatedKey := by
  refine ⟨by decide +kernel, ?_, ?_⟩
  · refine ⟨?_, ?_, ?_, ?_, ?_, ?_, ?_, ?_, ?_, trivial⟩ <;> decide +kernel
  · rintro ⟨-, htracks⟩
    have hactive := (htracks.final ?_).active
    · revert hactive
      decide +kernel
    · unfold AllReturned
      decide +kernel

end GmKms.Api.Metrics
