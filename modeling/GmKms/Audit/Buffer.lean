import GmKms.Audit.Entry
import GmKms.Lib.ProgramPool
/-!
# The buffer of the audit loggers

`AuditLogger` pushes an event under the lock of its buffer, and takes the whole buffer out under the lock when it is
full. What was taken out is written line by line without a lock; the errors of the output are ignored. The signed
loggers keep their entries in a buffer of the same kind. Nothing but calls flushes: `flush_interval_secs` is not read.
-/

namespace GmKms.Audit.Buffer

open Lib Lib.Program

structure BufferConfig where
  outputPath : String
  bufferSize : ℕ

inductive Output where
  | stdout | file
  deriving DecidableEq

/-! ## Steps -/

/-- What is done under the lock, and what is done on the output. -/
inductive BufferOp (α : Type) where
  | push (x : α)
  | drain
  | read
  /-- `OpenOptions::open`. -/
  | openFile
  /-- `to_string` and `writeln!`. -/
  | write (output : Output) (x : α)

/-- A push answers the new length. -/
abbrev BufferOp.Reply {α : Type} : BufferOp α → Type
  | push _ => ℕ
  | drain | read => List α
  | openFile => Bool
  | write .. => Unit

structure OutputEnv where
  opens : Bool
  writes : Bool

/-- The buffer, and the lines on the outputs in the order in which they were written. -/
structure Buffered (α : Type) where
  buffer : List α
  lines : List (Output × α)

variable {α : Type}

def perform (env : OutputEnv) : (op : BufferOp α) → Buffered α → op.Reply × Buffered α
  | .push x, s => (s.buffer.length + 1, { s with buffer := s.buffer ++ [x] })
  | .drain, s => (s.buffer, { s with buffer := [] })
  | .read, s => (s.buffer, s)
  | .openFile, s => (env.opens, s)
  | .write output x, s => ((), if env.writes then { s with lines := s.lines ++ [(output, x)] } else s)

/-! ## Calls -/

abbrev Steps (α : Type) : Type := Program (BufferOp.Reply (α := α)) Unit Unit

def writeAll (output : Output) : List α → Steps α
  | [] => .done (.ok ())
  | x :: xs => .call (.write output x) fun _ => writeAll output xs

/-- A file that cannot be opened is replaced by the standard output. -/
def emit (config : BufferConfig) (xs : List α) : Steps α :=
  if config.outputPath = "stdout" then writeAll .stdout xs
  else .call .openFile fun opened => writeAll (if opened then .file else .stdout) xs

def flush (config : BufferConfig) : Steps α :=
  .call .drain fun xs => if xs.isEmpty then .done (.ok ()) else emit config xs

def log (config : BufferConfig) (x : α) : Steps α :=
  .call (.push x) fun length => if config.bufferSize ≤ length then flush config else .done (.ok ())

/-- `query` and `backlog_depth` look at the buffer under its lock. -/
def look : Steps α := .call .read fun _ => .done (.ok ())

inductive Call (α : Type) where
  | log (x : α)
  | flush
  | look

def Call.program (config : BufferConfig) : Call α → Steps α
  | log x => Buffer.log config x
  | flush => Buffer.flush config
  | look => Buffer.look

abbrev Calls (α : Type) : Type := Pool (BufferOp.Reply (α := α)) Unit Unit (Call α) (Buffered α)

abbrev Event (α : Type) : Type := Made (BufferOp.Reply (α := α)) (Call α) OutputEnv

def Calls.new : Calls α := ⟨⟨[], []⟩, []⟩

def interleave (config : BufferConfig) : Machine (Calls α) (Move (Call α) OutputEnv) (Option (Event α)) :=
  Pool.interleave perform (Call.program config)

/-! ## `query` -/

structure AuditFilter where
  eventTypes : Option (List EventType)
  actorId : Option String
  resourceId : Option String
  startTime : Option DateTime
  endTime : Option DateTime
  limit : Option ℕ
  offset : Option ℕ

variable {F : Type}

def AuditFilter.accepts (filter : AuditFilter) (event : AuditEvent F) : Bool :=
  filter.eventTypes.all (·.contains event.eventType) && filter.actorId.all (event.actorId = ·) &&
    filter.resourceId.all (event.resourceId = some ·) && filter.startTime.all (· ≤ event.timestamp) &&
    filter.endTime.all (event.timestamp ≤ ·)

/-- What `query` makes of the buffer. -/
def AuditFilter.select (filter : AuditFilter) (buffer : List (AuditEvent F)) : List (AuditEvent F) :=
  ((buffer.filter filter.accepts).drop (filter.offset.getD 0)).take (filter.limit.getD 100)

/-! ## What becomes of what was logged -/

/-- What was logged. -/
def pushed (l : List (Event α)) : List α :=
  l.filterMap fun
    | ⟨_, _, _, .push x, _⟩ => some x
    | _ => none

/-- What flushes have taken out. -/
def drained (l : List (Event α)) : List α :=
  l.flatMap fun
    | ⟨_, _, _, .drain, xs⟩ => xs
    | _ => []

/-- What flushes have tried to write. -/
def attempted (l : List (Event α)) : List α :=
  l.filterMap fun
    | ⟨_, _, _, .write _ x, _⟩ => some x
    | _ => none

/-- The lines that were written without an error. -/
def written (l : List (Event α)) : List (Output × α) :=
  l.filterMap fun
    | ⟨_, _, env, .write output x, _⟩ => if env.writes then some (output, x) else none
    | _ => none

/-- What a program still has to write. -/
def remaining : Steps α → List α
  | .call (.write _ x) next => x :: remaining (next ())
  | .call .openFile next => remaining (next true)
  | _ => []

/-- What the flushes under way still have to write. -/
def inFlight (s : Calls α) : Multiset α := (s.calls.map fun c => (remaining c.2 : Multiset α)).sum

/-- How far a call is. -/
inductive Stage (config : BufferConfig) : Call α → Steps α → Prop
  | ended (c : Call α) (r : Except Unit Unit) : Stage config c (.done r)
  | logging (x : α) : Stage config (.log x) (log config x)
  | flushing (c : Call α) : Stage config c (flush config)
  | emitting (c : Call α) (xs : List α) : Stage config c (emit config xs)
  | writing (c : Call α) (output : Output) (xs : List α) : Stage config c (writeAll output xs)
  | looking : Stage config .look look

section

variable {config : BufferConfig}

theorem stage_program (c : Call α) : Stage config c (c.program config) := by
  cases c with
  | log x => exact .logging x
  | flush => exact .flushing _
  | look => exact .looking

@[simp] theorem remaining_writeAll (output : Output) (xs : List α) : remaining (writeAll output xs) = xs := by
  induction xs with
  | nil => rfl
  | cons x xs ih => exact congrArg (x :: ·) ih

@[simp] theorem remaining_emit (xs : List α) : remaining (emit config xs) = xs := by
  unfold emit
  split
  · exact remaining_writeAll _ _
  · exact remaining_writeAll _ _

theorem remaining_program (c : Call α) : remaining (c.program config) = [] := by
  cases c <;> rfl

theorem pushed_append (l l' : List (Event α)) : pushed (l ++ l') = pushed l ++ pushed l' := List.filterMap_append

theorem drained_append (l l' : List (Event α)) : drained (l ++ l') = drained l ++ drained l' := List.flatMap_append

theorem attempted_append (l l' : List (Event α)) : attempted (l ++ l') = attempted l ++ attempted l' :=
  List.filterMap_append

theorem written_append (l l' : List (Event α)) : written (l ++ l') = written l ++ written l' := List.filterMap_append

/-- Everything that was logged has been taken out or is in the buffer, in the order in which it was logged, and
everything that was taken out has been written or will be. A full buffer has a call that is about to take it out. -/
structure Inv (config : BufferConfig) (l : List (Event α)) (s : Calls α) : Prop where
  stages : ∀ x ∈ s.calls, Stage config x.1 x.2
  buffered : drained l ++ s.shared.buffer = pushed l
  accounted : (attempted l : Multiset α) + inFlight s = (drained l : Multiset α)
  room : s.shared.buffer.length < max 1 config.bufferSize ∨ ∃ x ∈ s.calls, x.2 = flush config
  lines : s.shared.lines = written l

theorem inv_new : Inv config ([] : List (Event α)) Calls.new where
  stages := nofun
  buffered := rfl
  accounted := rfl
  room := .inl (by simp [Calls.new])
  lines := rfl

/-- What a step does to the buffer, to the lines and to what its call still has to write. -/
structure Moves (config : BufferConfig) (s : Buffered α) (c : Call α) (e : Event α) (p p' : Steps α) (s' : Buffered α) :
    Prop where
  stage : Stage config c p'
  buffered : drained [e] ++ s'.buffer = s.buffer ++ pushed [e]
  accounted : (attempted [e] : Multiset α) + (remaining p' : Multiset α) = remaining p + (drained [e] : Multiset α)
  room : s'.buffer.length < max 1 config.bufferSize ∨ p' = flush config ∨ s'.buffer = s.buffer ∧ p ≠ flush config
  lines : s'.lines = s.lines ++ written [e]

variable {l : List (Event α)} {s : Calls α} {i : ℕ} {c : Call α} {e : OutputEnv} {op : BufferOp α}
  {next : op.Reply → Steps α}

/-- What leaves one account enters another. -/
theorem balance {M : Type*} [AddCancelCommMonoid M] {a a' t t' r r' d : M} (hsum : t' + r = t + r')
    (hstep : a' + r' = r + d) :
    a + a' + t' = a + t + d := by
  refine add_right_cancel (b := r) ?_
  calc a + a' + t' + r = a + a' + (t' + r) := by abel
    _ = a + t + (a' + r') := by rw [hsum]; abel
    _ = a + t + d + r := by rw [hstep]; abel

theorem Inv.advance (h : Inv config l s) (hi : s.calls[i]? = some (c, .call op next))
    (hmoves : Moves config s.shared c ⟨i, c, e, op, (perform e op s.shared).1⟩ (.call op next)
      (next (perform e op s.shared).1) (perform e op s.shared).2) :
    Inv config (l ++ [⟨i, c, e, op, (perform e op s.shared).1⟩])
      { shared := (perform e op s.shared).2, calls := s.calls.set i (c, next (perform e op s.shared).1) } where
  stages x hx := by
    rcases List.mem_or_eq_of_mem_set hx with hx | rfl
    · exact h.stages x hx
    · exact hmoves.stage
  buffered := by
    rw [drained_append, pushed_append, List.append_assoc, hmoves.buffered, ← List.append_assoc, h.buffered]
  accounted := by
    have hsum := sum_map_set_add hi (c, next (perform e op s.shared).1) fun c => (remaining c.2 : Multiset α)
    have hstep := hmoves.accounted
    have haccounted := h.accounted
    unfold inFlight at haccounted ⊢
    rw [attempted_append, drained_append, ← Multiset.coe_add, ← Multiset.coe_add, ← haccounted]
    exact balance hsum hstep
  room := by
    rcases hmoves.room with hroom | hflush | ⟨hbuffer, hnot⟩
    · exact .inl hroom
    · have hlt : i < s.calls.length := (List.getElem?_eq_some_iff.1 hi).1
      exact .inr ⟨_, List.mem_iff_getElem?.2 ⟨i, List.getElem?_set_self hlt⟩, hflush⟩
    · rcases h.room with hroom | ⟨x, hx, hflush⟩
      · exact .inl (hbuffer.symm ▸ hroom)
      · obtain ⟨j, hj⟩ := List.mem_iff_getElem?.1 hx
        have hij : i ≠ j := by
          rintro rfl
          rw [hi] at hj
          cases hj
          exact hnot hflush
        exact .inr ⟨x, List.mem_iff_getElem?.2 ⟨j, by rw [List.getElem?_set_ne hij, hj]⟩, hflush⟩
  lines := by rw [written_append, hmoves.lines, h.lines]

theorem moves_writeAll (env : OutputEnv) (i : ℕ) (c : Call α) (output : Output) (x : α) (xs : List α) (b : Buffered α) :
    Moves config b c ⟨i, c, env, .write output x, ()⟩ (writeAll output (x :: xs)) (writeAll output xs)
      (perform env (.write output x) b).2 where
  stage := .writing c output xs
  buffered := by
    unfold perform
    dsimp only
    split <;> simp [drained, pushed]
  accounted := by
    rw [remaining_writeAll, remaining_writeAll, Multiset.coe_add, Multiset.coe_add]
    simp [attempted, drained]
  room := by
    refine .inr (.inr ⟨?_, nofun⟩)
    unfold perform
    dsimp only
    split <;> rfl
  lines := by
    by_cases hwrites : env.writes = true <;> simp [perform, written, hwrites]

theorem inv_start (h : Inv config l s) (c : Call α) :
    Inv config l { s with calls := s.calls ++ [(c, c.program config)] } where
  stages x hx := by
    rcases List.mem_append.1 hx with hx | hx
    · exact h.stages x hx
    · rw [List.mem_singleton.1 hx]
      exact stage_program c
  buffered := h.buffered
  accounted := by
    have haccounted := h.accounted
    unfold inFlight at haccounted ⊢
    rw [List.map_append, List.sum_append, List.map_singleton, List.sum_singleton, remaining_program, Multiset.coe_nil,
      add_zero, haccounted]
  room := h.room.imp_right fun ⟨x, hx, hflush⟩ => ⟨x, List.mem_append_left _ hx, hflush⟩
  lines := h.lines

theorem interleave_advance {p : Steps α} (hi : s.calls[i]? = some (c, p)) (hp : p = .call op next) (e : OutputEnv) :
    interleave config s (.advance i e) = (some ⟨i, c, e, op, (perform e op s.shared).1⟩,
      { shared := (perform e op s.shared).2, calls := s.calls.set i (c, next (perform e op s.shared).1) }) := by
  subst hp
  simp only [interleave, Pool.interleave, Pool.made, Pool.move, hi]

/-- A call that is at its next step. -/
theorem inv_step (h : Inv config l s) {p : Steps α} (hi : s.calls[i]? = some (c, p)) (hp : p = .call op next)
    (hmoves : Moves config s.shared c ⟨i, c, e, op, (perform e op s.shared).1⟩ p (next (perform e op s.shared).1)
      (perform e op s.shared).2) :
    Inv config (l ++ (interleave config s (.advance i e)).1.toList) (interleave config s (.advance i e)).2 := by
  rw [interleave_advance hi hp]
  subst hp
  exact h.advance hi hmoves

theorem inv_writeAll (h : Inv config l s) {output : Output} {xs : List α}
    (hi : s.calls[i]? = some (c, writeAll output xs)) :
    Inv config (l ++ (interleave config s (.advance i e)).1.toList) (interleave config s (.advance i e)).2 := by
  cases xs with
  | nil =>
    have hnothing : interleave config s (.advance i e) = (none, s) := by
      simp only [interleave, Pool.interleave, Pool.made, Pool.move, hi, writeAll]
    rw [hnothing]
    simpa using h
  | cons x xs => exact inv_step h hi rfl (moves_writeAll e i c output x xs s.shared)

theorem inv_emit (h : Inv config l s) {xs : List α} (hi : s.calls[i]? = some (c, emit config xs)) :
    Inv config (l ++ (interleave config s (.advance i e)).1.toList) (interleave config s (.advance i e)).2 := by
  by_cases hpath : config.outputPath = "stdout"
  · rw [emit, if_pos hpath] at hi
    exact inv_writeAll h hi
  · have hemit : emit config xs = .call .openFile fun opened => writeAll (if opened then .file else .stdout) xs :=
      if_neg hpath
    refine inv_step h hi hemit ⟨.writing _ _ _, ?_, ?_, .inr (.inr ⟨rfl, ?_⟩), by simp [perform, written]⟩
    · simp [perform, drained, pushed]
    · rw [remaining_writeAll, remaining_emit]
      simp [attempted, drained]
    · rw [hemit]
      exact nofun

theorem inv_interleave (h : Inv config l s) (m : Move (Call α) OutputEnv) :
    Inv config (l ++ (interleave config s m).1.toList) (interleave config s m).2 := by
  cases m with
  | start c => simpa [interleave, Pool.interleave, Pool.made, Pool.move] using inv_start h c
  | advance i e =>
    cases hi : s.calls[i]? with
    | none =>
      have hnothing : interleave config s (.advance i e) = (none, s) := by
        simp only [interleave, Pool.interleave, Pool.made, Pool.move, hi]
      rw [hnothing]
      simpa using h
    | some x =>
      obtain ⟨c, p⟩ := x
      cases h.stages _ (List.mem_of_getElem? hi) with
      | ended _ r =>
        have hnothing : interleave config s (.advance i e) = (none, s) := by
          simp only [interleave, Pool.interleave, Pool.made, Pool.move, hi]
        rw [hnothing]
        simpa using h
      | logging x =>
        refine inv_step h hi rfl ⟨?_, rfl, ?_, ?_, by simp [perform, written]⟩
        · split
          · exact .flushing _
          · exact .ended _ _
        · split <;> rfl
        · by_cases hfull : config.bufferSize ≤ s.shared.buffer.length + 1
          · exact .inr (.inl (if_pos hfull))
          · refine .inl ?_
            change (s.shared.buffer ++ [x]).length < _
            rw [List.length_append, List.length_singleton]
            omega
      | flushing _ =>
        refine inv_step h hi rfl ⟨?_, by simp [perform, drained, pushed], ?_, .inl ?_, by simp [perform, written]⟩
        · split
          · exact .ended _ _
          · exact .emitting _ _
        · have hremaining : remaining
              (if s.shared.buffer.isEmpty then (.done (.ok ()) : Steps α) else emit config s.shared.buffer) =
                s.shared.buffer := by
            split
            · rename_i hempty
              rw [List.isEmpty_iff.1 hempty]
              rfl
            · exact remaining_emit _
          rw [Multiset.coe_add, Multiset.coe_add]
          exact congrArg (fun xs : List α => (xs : Multiset α)) (hremaining.trans (List.append_nil _).symm)
        · change 0 < _
          omega
      | emitting _ xs => exact inv_emit h hi
      | writing _ output xs => exact inv_writeAll h hi
      | looking =>
        refine inv_step h hi rfl ⟨.ended _ _, by simp [perform, drained, pushed], rfl, .inr (.inr ⟨rfl, by rintro ⟨⟩⟩),
          by simp [perform, written]⟩

theorem inv_run (config : BufferConfig) (ms : List (Move (Call α) OutputEnv)) :
    Inv config (Program.log (Machine.trace (interleave config) Calls.new ms))
    (Machine.final (interleave config) Calls.new ms) := by
  refine Machine.run_inv (I := fun h s => Inv config (Program.log h) s) (h := []) (fun h s m hinv => ?_) inv_new ms
  have hlog : Program.log (h ++ [(m, (interleave config s m).1)]) = Program.log h ++
      (interleave config s m).1.toList := by
    rw [log_append]
    cases (interleave config s m).1 <;> rfl
  rw [hlog]
  exact inv_interleave hinv m

/-- A call that has returned has nothing to write and nothing to take out. -/
theorem room_of_ended (h : Inv config l s) (hended : ∀ x ∈ s.calls, x.2 = .done (.ok ())) :
    inFlight s = 0 ∧ s.shared.buffer.length < max 1 config.bufferSize := by
  constructor
  · refine List.sum_eq_zero fun y hy => ?_
    obtain ⟨x, hx, rfl⟩ := List.mem_map.1 hy
    rw [hended x hx]
    rfl
  · rcases h.room with hroom | ⟨x, hx, hflush⟩
    · exact hroom
    · rw [hended x hx] at hflush
      cases hflush

/-- Nothing that is logged is lost or written twice, however the calls come in between each other: it is written, or
about to be written by one flush, or in the buffer, and it was taken out in the order in which it was logged. Once all
calls have returned, fewer than `buffer_size` are left in the buffer. -/
theorem accounted_run (config : BufferConfig) (ms : List (Move (Call α) OutputEnv)) :
    drained (Program.log (Machine.trace (interleave config) Calls.new ms)) ++
        (Machine.final (interleave config) Calls.new ms).shared.buffer =
      pushed (Program.log (Machine.trace (interleave config) Calls.new ms)) ∧
    (attempted (Program.log (Machine.trace (interleave config) Calls.new ms)) : Multiset α) +
        inFlight (Machine.final (interleave config) Calls.new ms) =
      drained (Program.log (Machine.trace (interleave config) Calls.new ms)) ∧
    (Machine.final (interleave config) Calls.new ms).shared.lines =
      written (Program.log (Machine.trace (interleave config) Calls.new ms)) ∧
    ((∀ x ∈ (Machine.final (interleave config) Calls.new ms).calls, x.2 = .done (.ok ())) →
      inFlight (Machine.final (interleave config) Calls.new ms) = 0 ∧
        (Machine.final (interleave config) Calls.new ms).shared.buffer.length < max 1 config.bufferSize) :=
  have h := inv_run config ms
  ⟨h.buffered, h.accounted, h.lines, room_of_ended h⟩

/-- A query looks at what was logged and not taken out. -/
theorem look_run {ms : List (Move (Call α) OutputEnv)} {l₁ l₂ : List (Event α)} {xs : List α}
    (hlog : Program.log (Machine.trace (interleave config) Calls.new ms) = l₁ ++ ⟨i, c, e, .read, xs⟩ :: l₂) :
    drained l₁ ++ xs = pushed l₁ := by
  have hstep : ∀ (l : List (Event α)) (b : Buffered α) (e : Event α), drained l ++ b.buffer = pushed l → True →
      e.answer = (perform e.outside e.op b).1 →
      drained (l ++ [e]) ++ (perform e.outside e.op b).2.buffer = pushed (l ++ [e]) := by
    rintro l b ⟨i, c, env, op, r⟩ hb - hanswer
    obtain rfl : r = (perform env op b).1 := hanswer
    rw [drained_append, pushed_append, ← hb, List.append_assoc, List.append_assoc]
    congr 1
    cases op with
    | write output x =>
      unfold perform
      dsimp only
      split <;> simp [drained, pushed]
    | _ => simp [drained, pushed, perform]
  obtain ⟨b, hb, hanswer⟩ := Pool.answered_run hstep rfl ms (fun _ _ _ _ => trivial) hlog
  obtain rfl : xs = b.buffer := hanswer
  exact hb

/-- A query finds events among those that were logged after the last flush. -/
theorem query_run {ms : List (Move (Call (AuditEvent F)) OutputEnv)} {l₁ l₂ : List (Event (AuditEvent F))}
    {c : Call (AuditEvent F)} {xs : List (AuditEvent F)}
    (hlog : Program.log (Machine.trace (interleave config) Calls.new ms) = l₁ ++ ⟨i, c, e, .read, xs⟩ :: l₂)
    (filter : AuditFilter) : filter.select xs = filter.select ((pushed l₁).drop (drained l₁).length) := by
  rw [← look_run hlog, List.drop_left]

end

end GmKms.Audit.Buffer
