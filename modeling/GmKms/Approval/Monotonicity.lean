import GmKms.Approval.Engine
/-!
# Stronger approvers

What a sequence of `approve` calls makes of a new request, and when giving one approver a higher role
keeps the request from completing.
-/

namespace GmKms.Approval

open ApprovalEngine

/-- An `approve` call on the request. -/
structure Vote where
  clock : Clock
  approverId : String
  role : Role
  comment : Option String

namespace Vote

def level (v : Vote) : ApprovalLevel := determineApprovalLevel v.role

def cast (requestId : Uuid) (e : ApprovalEngine) (v : Vote) : ApprovalEngine :=
  (e.approve v.clock requestId v.approverId v.role v.comment).2

/-- The call comes before the request expires. -/
def timely (expiresAt : DateTime) (v : Vote) : Bool := v.clock 0 ≤ expiresAt

end Vote

/-- What `create_request` is called with. -/
structure Creation where
  id : Uuid
  now : DateTime
  operation : OperationType
  resourceId : String
  resourceType : String
  tenantId : String
  requestorId : String
  justification : Option String
  requiredLevel : ApprovalLevel

/-- `check_approval_complete` on the levels of the approvals. -/
def completeWith (required : ApprovalLevel) (levels : List ApprovalLevel) : Bool :=
  match required with
  | .none => true
  | .single => !levels.isEmpty
  | .double => 2 ≤ levels.length
  | .triple => 3 ≤ levels.length
  | .manager => .manager ∈ levels
  | .admin => .admin ∈ levels

/-- How many votes the level asks for. -/
def needed : ApprovalLevel → ℕ
  | .double => 2
  | .triple => 3
  | _ => 1

namespace Creation

variable (c : Creation)

def engine (e : ApprovalEngine) : ApprovalEngine :=
  (e.createRequest c.id c.now c.operation c.resourceId c.resourceType c.tenantId c.requestorId c.justification
    c.requiredLevel).2

def expiresAt : DateTime := c.now + DateTime.hours (timeoutHours c.requiredLevel)

/-- The new request has been approved after the votes. -/
def Completes (e : ApprovalEngine) (votes : List Vote) : Prop :=
  ∃ r, (votes.foldl (Vote.cast c.id) (c.engine e)).pendingRequests[c.id]? = some r ∧ r.status = .approved

/-- The new request is still open after them. -/
def StaysPending (e : ApprovalEngine) (votes : List Vote) : Prop :=
  ∃ r, (votes.foldl (Vote.cast c.id) (c.engine e)).pendingRequests[c.id]? = some r ∧ r.status = .pending

/-- The requestor's own votes are refused whenever they come. -/
def others (votes : List Vote) : List Vote := votes.filter (·.approverId ≠ c.requestorId)

/-- The votes that count: those of the others up to the first that is late. -/
def counted (votes : List Vote) : List Vote := (c.others votes).takeWhile (Vote.timely c.expiresAt)

/-- A vote of the others came after the request had expired. -/
def SomeLate (votes : List Vote) : Prop := ∃ v ∈ c.others votes, v.timely c.expiresAt = false

/-- They are enough. -/
def Enough (votes : List Vote) : Prop :=
  c.counted votes ≠ [] ∧ completeWith c.requiredLevel ((c.counted votes).map Vote.level) = true

end Creation

theorem checkApprovalComplete_eq (r : ApprovalRequestEntity) :
    checkApprovalComplete r = completeWith r.requiredLevel (r.approvals.map (·.level)) := by
  rw [Bool.eq_iff_iff]
  unfold checkApprovalComplete completeWith
  cases r.requiredLevel <;> simp

theorem completeWith_append {required : ApprovalLevel} {levels more : List ApprovalLevel}
    (h : completeWith required levels = true) : completeWith required (levels ++ more) = true := by
  cases required with
  | none => rfl
  | single =>
    simp only [completeWith, Bool.not_eq_true', List.isEmpty_eq_false_iff] at h ⊢
    exact List.append_ne_nil_of_left_ne_nil h more
  | double | triple =>
    simp only [completeWith, decide_eq_true_eq, List.length_append] at h ⊢
    omega
  | manager | admin =>
    simp only [completeWith, decide_eq_true_eq] at h ⊢
    exact List.mem_append_left more h

/-- With votes that passed the level gate only the level Manager cares who cast them. -/
theorem completeWith_congr {required : ApprovalLevel} {levels levels' : List ApprovalLevel} (hne : required ≠ .manager)
    (hlevels : ∀ l ∈ levels, required ≤ l) (hlevels' : ∀ l ∈ levels', required ≤ l)
    (hlength : levels.length = levels'.length) :
    completeWith required levels = completeWith required levels' := by
  have hadmin : ∀ ls : List ApprovalLevel, (∀ l ∈ ls, ApprovalLevel.admin ≤ l) →
      (ApprovalLevel.admin ∈ ls ↔ 0 < ls.length) := by
    intro ls hls
    rw [List.length_pos_iff_exists_mem]
    refine ⟨fun h => ⟨_, h⟩, ?_⟩
    rintro ⟨l, hl⟩
    have hle := hls l hl
    have htop : l = .admin := by
      cases l with
      | admin => rfl
      | _ => exact absurd hle (by decide)
    rwa [htop] at hl
  cases required with
  | none => rfl
  | single =>
    rw [Bool.eq_iff_iff]
    simp only [completeWith, Bool.not_eq_true', List.isEmpty_eq_false_iff, ← List.length_pos_iff, hlength]
  | double => simp only [completeWith, hlength]
  | triple => simp only [completeWith, hlength]
  | manager => exact absurd rfl hne
  | admin => simp only [completeWith, hadmin levels hlevels, hadmin levels' hlevels', hlength]

namespace Creation

variable {c : Creation}

theorem others_append (votes : List Vote) (v : Vote) : c.others (votes ++ [v]) =
    if v.approverId = c.requestorId then c.others votes else c.others votes ++ [v] := by
  unfold others
  rw [List.filter_append]
  split <;> simp_all

theorem counted_append (votes : List Vote) (v : Vote) : c.counted (votes ++ [v]) =
    if v.approverId ≠ c.requestorId ∧ v.timely c.expiresAt = true ∧ ∀ w ∈ c.others votes, w.timely c.expiresAt = true
      then
      c.counted votes ++ [v] else c.counted votes := by
  unfold counted
  rw [others_append]
  by_cases hid : v.approverId = c.requestorId
  · rw [if_pos hid, if_neg fun h => h.1 hid]
  · rw [if_neg hid]
    by_cases hall : ∀ w ∈ c.others votes, w.timely c.expiresAt = true
    · rw [List.takeWhile_append_of_pos hall, List.takeWhile_eq_self_iff.2 hall]
      cases htimely : v.timely c.expiresAt with
      | true => rw [if_pos ⟨hid, rfl, hall⟩, List.takeWhile_cons_of_pos htimely, List.takeWhile_nil]
      | false => simp [htimely]
    · rw [if_neg fun h => hall h.2.2, List.takeWhile_append, if_neg]
      intro hlength
      have heq := (List.takeWhile_prefix (Vote.timely c.expiresAt)).eq_of_length hlength
      exact hall (List.takeWhile_eq_self_iff.1 heq)

theorem Enough.append {votes : List Vote} (h : c.Enough votes) (v : Vote) : c.Enough (votes ++ [v]) := by
  unfold Enough at *
  rw [counted_append]
  split
  · rw [List.map_append]
    exact ⟨by simp, completeWith_append h.2⟩
  · exact h

theorem counted_subset (votes : List Vote) : c.counted votes ⊆ votes := fun _ hv =>
  List.filter_sublist.subset (List.takeWhile_subset _ hv)

/-! ## The request after the votes -/

structure Tally (c : Creation) (votes : List Vote) (r : ApprovalRequestEntity) : Prop where
  requestorId : r.requestorId = c.requestorId
  requiredLevel : r.requiredLevel = c.requiredLevel
  expiresAt : r.expiresAt = c.expiresAt
  rejections : r.rejections = []
  ids : r.status = .pending → r.approvals.map (·.approverId) = (c.counted votes).map (·.approverId)
  levels : r.status = .pending → r.approvals.map (·.level) = (c.counted votes).map Vote.level
  status : r.status = .pending ∧ (∀ v ∈ c.others votes, v.timely c.expiresAt = true) ∧ ¬ c.Enough votes ∨
    r.status = .approved ∧ c.Enough votes ∨ r.status = .expired ∧ c.SomeLate votes ∧ ¬ c.Enough votes

theorem tally_new (e : ApprovalEngine) : ∃ r, (c.engine e).pendingRequests[c.id]? = some r ∧ c.Tally [] r := by
  refine ⟨_, by rw [engine, createRequest, pendingRequests_putRequest, if_pos rfl], rfl, rfl, rfl, rfl, fun _ => rfl,
    fun _ => rfl, .inl ⟨rfl, by simp [others], fun h => h.1 rfl⟩⟩

theorem tally_recordApproval {votes : List Vote} {r : ApprovalRequestEntity} {v : Vote} (ht : c.Tally votes r)
    (hpending : r.status = .pending) (hothers : c.others (votes ++ [v]) = c.others votes ++ [v])
    (hcounted : c.counted (votes ++ [v]) = c.counted votes ++ [v]) (htimely : v.timely c.expiresAt = true) :
    c.Tally (votes ++ [v]) (recordApproval r v.clock v.approverId v.level v.comment) := by
  obtain ⟨hrequestor, hrequired, hexpires, hrejections, hids, hlevels, hstatus⟩ := ht
  have halltimely : ∀ w ∈ c.others (votes ++ [v]), w.timely c.expiresAt = true := by
    rcases hstatus with ⟨-, hall, -⟩ | ⟨happroved, -⟩ | ⟨hexpired, -⟩
    · rw [hothers]
      exact List.forall_mem_append.2 ⟨hall, by simpa using htimely⟩
    · rw [hpending] at happroved
      cases happroved
    · rw [hpending] at hexpired
      cases hexpired
  have hcomplete : completeWith r.requiredLevel ((r.approvals ++
      [(⟨v.approverId, v.level, v.clock 1, v.comment⟩ : ApprovalRecord)]).map (·.level)) = true ↔
        c.Enough (votes ++ [v]) := by
    rw [Enough, hcounted, List.map_append, List.map_append, hlevels hpending, hrequired]
    simp
  unfold recordApproval
  simp only [checkApprovalComplete_eq]
  split
  · rename_i hdone
    exact ⟨hrequestor, hrequired, hexpires, hrejections, by rintro ⟨⟩, by rintro ⟨⟩,
      .inr (.inl ⟨rfl, hcomplete.1 hdone⟩)⟩
  · rename_i hopen
    refine ⟨hrequestor, hrequired, hexpires, hrejections, fun _ => ?_, fun _ => ?_,
      .inl ⟨hpending, halltimely, fun henough => hopen (hcomplete.2 henough)⟩⟩
    · simp [hcounted, hids hpending]
    · simp [hcounted, hlevels hpending]

theorem Tally.vote {votes : List Vote} {r : ApprovalRequestEntity} {v : Vote} {e : ApprovalEngine}
    (ht : c.Tally votes r)
    (hr : e.pendingRequests[c.id]? = some r) (hlevel : c.requiredLevel ≤ v.level)
    (hnew : v.approverId ∉ votes.map (·.approverId)) :
    ∃ r', (v.cast c.id e).pendingRequests[c.id]? = some r' ∧ c.Tally (votes ++ [v]) r' := by
  obtain ⟨hrequestor, hrequired, hexpires, hrejections, hids, hlevels, hstatus⟩ := ht
  have hgate : ¬ determineApprovalLevel v.role < r.requiredLevel := by
    rw [hrequired]
    exact not_lt_of_ge hlevel
  unfold Vote.cast approve
  simp only [hr, hrequestor, if_neg hgate]
  by_cases hself : c.requestorId = v.approverId
  · -- refused, late or not
    rw [if_pos hself]
    have hothers : c.others (votes ++ [v]) = c.others votes := by rw [others_append, if_pos hself.symm]
    have hcounted : c.counted (votes ++ [v]) = c.counted votes := by rw [counted, hothers, counted]
    refine ⟨r, hr, hrequestor, hrequired, hexpires, hrejections, ?_, ?_, ?_⟩
    · rwa [hcounted]
    · rwa [hcounted]
    · rwa [Enough, SomeLate, hcounted, hothers]
  · rw [if_neg hself]
    have hother : v.approverId ≠ c.requestorId := Ne.symm hself
    have hothers : c.others (votes ++ [v]) = c.others votes ++ [v] := by rw [others_append, if_neg hother]
    rcases hstatus with ⟨hpending, htimely, hnot⟩ | ⟨happroved, henough⟩ | ⟨hexpired, ⟨w, hw, hlate⟩, hnot⟩
    · rw [if_neg (by rw [hpending]; decide), hexpires]
      by_cases hlate : v.clock 0 > c.expiresAt
      · have hlate' : v.timely c.expiresAt = false := by simpa [Vote.timely] using hlate
        have hcounted : c.counted (votes ++ [v]) = c.counted votes := by
          rw [counted_append, if_neg]
          rintro ⟨-, htimely', -⟩
          rw [hlate'] at htimely'
          cases htimely'
        rw [if_pos hlate]
        refine ⟨expire r (v.clock 1), by rw [pendingRequests_putRequest, if_pos rfl], hrequestor, hrequired, hexpires,
          hrejections, by rintro ⟨⟩, by rintro ⟨⟩, .inr (.inr ⟨rfl, ⟨v, ?_, hlate'⟩, ?_⟩)⟩
        · rw [hothers]
          exact List.mem_append_right _ (List.mem_singleton_self v)
        · rwa [Enough, hcounted]
      · have htimely' : v.timely c.expiresAt = true := by simpa [Vote.timely] using hlate
        have hcounted : c.counted (votes ++ [v]) = c.counted votes ++ [v] := by
          rw [counted_append, if_pos ⟨hother, htimely', htimely⟩]
        have hfresh : ¬ (r.approvals.any (·.approverId = v.approverId)) = true := by
          simp only [List.any_eq_true, decide_eq_true_eq]
          rintro ⟨a, ha, hid⟩
          have hmem : v.approverId ∈ (c.counted votes).map (·.approverId) := by
            rw [← hids hpending, ← hid]
            exact List.mem_map_of_mem ha
          obtain ⟨w, hw, hwid⟩ := List.mem_map.1 hmem
          exact hnew (hwid ▸ List.mem_map_of_mem (counted_subset votes hw))
        rw [if_neg hlate, if_neg hfresh, hrejections, if_neg (by simp)]
        refine ⟨_, by rw [pendingRequests_putRequest, if_pos rfl], ?_⟩
        exact tally_recordApproval ⟨hrequestor, hrequired, hexpires, hrejections, hids, hlevels,
          .inl ⟨hpending, htimely, hnot⟩⟩
          hpending hothers hcounted htimely'
    · rw [if_pos (by rw [happroved]; rfl)]
      refine ⟨r, hr, hrequestor, hrequired, hexpires, hrejections, ?_, ?_, .inr (.inl ⟨happroved, henough.append v⟩)⟩
      · rw [happroved]
        rintro ⟨⟩
      · rw [happroved]
        rintro ⟨⟩
    · rw [if_pos (by rw [hexpired]; rfl)]
      have hcounted : c.counted (votes ++ [v]) = c.counted votes := by
        rw [counted_append, if_neg]
        rintro ⟨-, -, hall⟩
        rw [hall w hw] at hlate
        cases hlate
      refine ⟨r, hr, hrequestor, hrequired, hexpires, hrejections, ?_, ?_, .inr (.inr ⟨hexpired, ⟨w, ?_, hlate⟩, ?_⟩)⟩
      · rw [hexpired]
        rintro ⟨⟩
      · rw [hexpired]
        rintro ⟨⟩
      · rw [hothers]
        exact List.mem_append_left _ hw
      · rwa [Enough, hcounted]

theorem tally_votes (e : ApprovalEngine) {votes : List Vote} (hlevels : ∀ v ∈ votes, c.requiredLevel ≤ v.level)
    (hids : (votes.map (·.approverId)).Nodup) :
    ∃ r, (votes.foldl (Vote.cast c.id) (c.engine e)).pendingRequests[c.id]? = some r ∧ c.Tally votes r := by
  induction votes using List.reverseRecOn with
  | nil => exact tally_new e
  | append_singleton votes v ih =>
    rw [List.map_append, List.nodup_append] at hids
    obtain ⟨r, hr, ht⟩ := ih (fun w hw => hlevels w (List.mem_append_left _ hw)) hids.1
    rw [List.foldl_append]
    refine ht.vote hr (hlevels v (by simp)) fun hmem => ?_
    exact hids.2.2 v.approverId hmem v.approverId (by simp) rfl

/-- A new request is approved exactly by enough votes that count. -/
theorem completes_iff (e : ApprovalEngine) {votes : List Vote} (hlevels : ∀ v ∈ votes, c.requiredLevel ≤ v.level)
    (hids : (votes.map (·.approverId)).Nodup) : c.Completes e votes ↔ c.Enough votes := by
  obtain ⟨r, hr, ht⟩ := tally_votes e hlevels hids
  unfold Completes
  simp only [hr, Option.some.injEq, exists_eq_left']
  rcases ht.status with ⟨hpending, -, hnot⟩ | ⟨happroved, henough⟩ | ⟨hexpired, -, hnot⟩
  · simp [hpending, hnot]
  · simp [happroved, henough]
  · simp [hexpired, hnot]

theorem staysPending_iff (e : ApprovalEngine) {votes : List Vote} (hlevels : ∀ v ∈ votes, c.requiredLevel ≤ v.level)
    (hids : (votes.map (·.approverId)).Nodup) : c.StaysPending e votes ↔ ¬ c.Enough votes ∧ ¬ c.SomeLate votes := by
  obtain ⟨r, hr, ht⟩ := tally_votes e hlevels hids
  unfold StaysPending
  simp only [hr, Option.some.injEq, exists_eq_left']
  rcases ht.status with ⟨hpending, htimely, hnot⟩ | ⟨happroved, henough⟩ | ⟨hexpired, hlate, -⟩
  · have hlate : ¬ c.SomeLate votes := by
      rintro ⟨v, hv, hlate⟩
      rw [htimely v hv] at hlate
      cases hlate
    simp [hpending, hnot, hlate]
  · simp [happroved, henough]
  · simp [hexpired, hlate]

/-! ## A stronger approver -/

/-- The vote counts under either role, or under none. -/
theorem counted_replace (before after : List Vote) (v : Vote) (role : Role) :
    c.counted (before ++ { v with role } :: after) = c.counted (before ++ v :: after) ∧
      (∀ w ∈ c.counted (before ++ v :: after), w ∈ before ++ after) ∨
    ∃ b a, c.counted (before ++ v :: after) = b ++ v :: a ∧ b ⊆ before ∧ a ⊆ after ∧
      c.counted (before ++ { v with role } :: after) = b ++ { v with role } :: a := by
  have hsub := counted_subset (c := c)
  have hrole : ({ v with role } : Vote).timely c.expiresAt = v.timely c.expiresAt := rfl
  unfold counted others at hsub ⊢
  simp only [List.filter_append, List.filter_cons]
  by_cases hid : v.approverId = c.requestorId
  · refine .inl ⟨by simp [hid], fun w hw => ?_⟩
    rw [if_neg (by simp [hid]), ← List.filter_append] at hw
    exact hsub (before ++ after) hw
  · rw [if_pos (by simp [hid]), if_pos (by simp [hid])]
    by_cases hall : ∀ w ∈ before.filter (·.approverId ≠ c.requestorId), w.timely c.expiresAt = true
    · rw [List.takeWhile_append_of_pos hall, List.takeWhile_append_of_pos hall]
      cases htimely : v.timely c.expiresAt with
      | true =>
        rw [List.takeWhile_cons_of_pos htimely, List.takeWhile_cons_of_pos (hrole.trans htimely)]
        exact .inr ⟨_, _, rfl, List.filter_sublist.subset, hsub after, rfl⟩
      | false =>
        have hstop : ∀ w : Vote, w.timely c.expiresAt = false →
            ∀ ws, (w :: ws).takeWhile (Vote.timely c.expiresAt) = [] :=
          fun w hw ws => List.takeWhile_cons_of_neg (by simp [hw])
        rw [hstop _ htimely, hstop _ (hrole.trans htimely)]
        refine .inl ⟨rfl, fun w hw => ?_⟩
        rw [List.append_nil] at hw
        exact List.mem_append_left _ (List.filter_sublist.subset hw)
    · have hstop : ∀ rest, (before.filter (·.approverId ≠ c.requestorId) ++ rest).takeWhile (Vote.timely c.expiresAt) =
          (before.filter (·.approverId ≠ c.requestorId)).takeWhile (Vote.timely c.expiresAt) := by
        intro rest
        rw [List.takeWhile_append, if_neg]
        intro hlength
        exact hall (List.takeWhile_eq_self_iff.1 ((List.takeWhile_prefix _).eq_of_length hlength))
      rw [hstop, hstop]
      exact .inl ⟨rfl, fun w hw => List.mem_append_left _ (hsub before hw)⟩

theorem manager_of_lt {v : Vote} {role : Role} (hv : ApprovalLevel.manager ≤ v.level)
    (hhigher : v.level < determineApprovalLevel role) :
    v.level = .manager ∧ determineApprovalLevel role = .admin := by
  unfold Vote.level at *
  cases hrole : v.role <;> cases role <;> rw [hrole] at hv hhigher <;> first
    | exact absurd hv (by decide)
    | exact absurd hhigher (by decide)
    | exact ⟨rfl, rfl⟩

theorem levels_replace {before after : List Vote} {v : Vote} {role : Role}
    (hlevels : ∀ w ∈ before ++ v :: after, c.requiredLevel ≤ w.level)
    (hhigher : v.level < determineApprovalLevel role) :
    ∀ w ∈ before ++ { v with role } :: after, c.requiredLevel ≤ w.level := by
  intro w hw
  rcases List.mem_append.1 hw with hw | hw
  · exact hlevels w (List.mem_append_left _ hw)
  · rcases List.mem_cons.1 hw with rfl | hw
    · exact (hlevels v (by simp)).trans hhigher.le
    · exact hlevels w (List.mem_append_right _ (List.mem_cons_of_mem _ hw))

theorem ids_replace (before after : List Vote) (v : Vote) (role : Role) :
    (before ++ { v with role } :: after).map (·.approverId) = (before ++ v :: after).map (·.approverId) := by
  simp only [List.map_append, List.map_cons]

theorem someLate_replace (before after : List Vote) (v : Vote) (role : Role) :
    c.SomeLate (before ++ { v with role } :: after) ↔ c.SomeLate (before ++ v :: after) := by
  have htimely : ({ v with role } : Vote).timely c.expiresAt = v.timely c.expiresAt := rfl
  simp [SomeLate, others, or_and_right, exists_or, htimely]

/-- Only a request that needs the level Manager can lose enough votes to a stronger approver: when no other counted vote
is of exactly that level. -/
theorem enough_replace_iff {before after : List Vote} {v : Vote} {role : Role}
    (hlevels : ∀ w ∈ before ++ v :: after, c.requiredLevel ≤ w.level)
    (hids : ((before ++ v :: after).map (·.approverId)).Nodup) (hhigher : v.level < determineApprovalLevel role) :
    (c.Enough (before ++ v :: after) → c.Enough (before ++ { v with role } :: after)) ↔
      (c.requiredLevel = .manager → v ∈ c.counted (before ++ v :: after) →
        ∃ w ∈ c.counted (before ++ v :: after), w ≠ v ∧ w.level = .manager) := by
  have hv : c.requiredLevel ≤ v.level := hlevels v (by simp)
  have hlevels' := levels_replace hlevels hhigher
  have hothers : ∀ w ∈ before ++ after, w ≠ v := by
    rintro w hw rfl
    rw [List.map_append, List.map_cons, List.nodup_middle, List.nodup_cons, ← List.map_append] at hids
    exact hids.1 (List.mem_map_of_mem hw)
  unfold Enough
  rcases counted_replace (c := c) before after v role with ⟨hsame, hmem⟩ | ⟨b, a, hcounted, hb, ha, hcounted'⟩
  · rw [hsame]
    exact ⟨fun _ _ hv => absurd rfl (hothers v (hmem v hv)), fun _ henough => henough⟩
  · have hsub : ∀ w ∈ b ++ a, w ∈ before ++ after := by
      intro w hw
      rcases List.mem_append.1 hw with hw | hw
      · exact List.mem_append_left _ (hb hw)
      · exact List.mem_append_right _ (ha hw)
    rw [hcounted, hcounted']
    by_cases hmanager : c.requiredLevel = .manager
    · have hlevel : v.level = .manager ∧ determineApprovalLevel role = .admin := manager_of_lt (hmanager ▸ hv) hhigher
      have hothers' : (∃ w ∈ b ++ v :: a, w ≠ v ∧ w.level = .manager) ↔ ∃ w ∈ b ++ a, w.level = .manager := by
        constructor
        · rintro ⟨w, hw, hne, hw'⟩
          exact ⟨w, by simpa [hne] using hw, hw'⟩
        · rintro ⟨w, hw, hw'⟩
          refine ⟨w, ?_, hothers w (hsub w hw), hw'⟩
          rcases List.mem_append.1 hw with hw | hw
          · exact List.mem_append_left _ hw
          · exact List.mem_append_right _ (List.mem_cons_of_mem _ hw)
      have hvote : ({ v with role } : Vote).level = .admin := hlevel.2
      have hmem : ∀ ws : List Vote, ApprovalLevel.manager ∈ ws.map Vote.level ↔ ∃ w ∈ ws, w.level = .manager :=
        fun ws => List.mem_map
      have hbefore : ∃ w ∈ b ++ v :: a, w.level = .manager := ⟨v, by simp, hlevel.1⟩
      have hafter : (∃ w ∈ b ++ { v with role } :: a, w.level = .manager) ↔ ∃ w ∈ b ++ a, w.level = .manager := by
        simp [or_and_right, exists_or, hvote]
      rw [hothers', hmanager]
      simp only [completeWith, decide_eq_true_eq, hmem, hbefore, hafter]
      simp
    · refine ⟨fun _ hreq => absurd hreq hmanager, fun _ henough => ⟨by simp, ?_⟩⟩
      rw [← completeWith_congr hmanager ?_ ?_ ?_]
      · exact henough.2
      · rw [← hcounted]
        rintro l hl
        obtain ⟨w, hw, rfl⟩ := List.mem_map.1 hl
        exact hlevels w (counted_subset _ hw)
      · rw [← hcounted']
        rintro l hl
        obtain ⟨w, hw, rfl⟩ := List.mem_map.1 hl
        exact hlevels' w (counted_subset _ hw)
      · simp

/-- With as many votes as the level asks for, all past the gate, only the level Manager can still be missing. -/
theorem enough_of_needed {votes : List Vote} (hlevels : ∀ v ∈ votes, c.requiredLevel ≤ v.level)
    (hneeded : needed c.requiredLevel ≤ (c.counted votes).length) :
    c.Enough votes ↔ (c.requiredLevel = .manager → ∃ w ∈ c.counted votes, w.level = .manager) := by
  have hne : c.counted votes ≠ [] := by
    intro hnil
    rw [hnil] at hneeded
    revert hneeded
    cases c.requiredLevel <;> simp [needed]
  have htop : ∀ w ∈ c.counted votes, c.requiredLevel = .admin → w.level = .admin := by
    intro w hw hadmin
    have hle := hlevels w (counted_subset votes hw)
    rw [hadmin] at hle
    revert hle
    cases w.level <;> simp <;> decide
  unfold Enough
  obtain ⟨w, hw⟩ := List.exists_mem_of_ne_nil _ hne
  cases hreq : c.requiredLevel <;> rw [hreq] at hneeded <;> simp only [needed] at hneeded
  case manager => simp [completeWith, hne]
  case admin => simpa [completeWith, hne] using ⟨w, hw, htop w hw hreq⟩
  all_goals simp [completeWith, hne, hneeded]

/-- A stronger approver keeps a completed request from staying open, and votes past the gate count, unless the level
Manager is required: there only a vote of exactly that level counts. -/
theorem staysPending_replace_iff (c : Creation) (e : ApprovalEngine) (before after : List Vote) (v : Vote) (role : Role)
    (hlevels : ∀ w ∈ before ++ v :: after, c.requiredLevel ≤ w.level)
    (hids : ((before ++ v :: after).map (·.approverId)).Nodup) (hhigher : v.level < determineApprovalLevel role) :
    ((c.Completes e (before ++ v :: after) → ¬ c.StaysPending e (before ++ { v with role } :: after)) ↔
      (c.requiredLevel = .manager → v ∈ c.counted (before ++ v :: after) →
        (∃ w ∈ c.counted (before ++ v :: after), w ≠ v ∧ w.level = .manager) ∨ c.SomeLate (before ++ v :: after))) ∧
    (needed c.requiredLevel ≤ (c.counted (before ++ v :: after)).length →
      (c.Completes e (before ++ v :: after) ↔
        (c.requiredLevel = .manager → ∃ w ∈ c.counted (before ++ v :: after), w.level = .manager))) := by
  have hids' : ((before ++ { v with role } :: after).map (·.approverId)).Nodup := by rwa [ids_replace]
  rw [completes_iff e hlevels hids, staysPending_iff e (levels_replace hlevels hhigher) hids', someLate_replace]
  refine ⟨?_, enough_of_needed hlevels⟩
  have hiff := enough_replace_iff hlevels hids hhigher
  by_cases hlate : c.SomeLate (before ++ v :: after)
  · simp [hlate]
  · simp only [hlate, or_false, not_false_eq_true, and_true, not_not]
    exact hiff

/-- A request of "alice" to create a key of high value. -/
def highValueKey (requiredLevel : ApprovalLevel) : Creation where
  id := 7
  now := 0
  operation := .highValueKeyCreate
  resourceId := "k"
  resourceType := "key"
  tenantId := "t"
  requestorId := "alice"
  justification := none
  requiredLevel

def voteOf (approverId : String) (role : Role) : Vote := ⟨fun _ => 0, approverId, role, none⟩

theorem staysPending_replace_double :
    ¬ (highValueKey .double).StaysPending .new [voteOf "bob" .manager, voteOf "carol" .admin] := by
  have h := staysPending_replace_iff (highValueKey .double) .new [voteOf "bob" .manager] [] (voteOf "carol" .operator)
    .admin
    (by decide) (by decide) (by decide)
  have hcompletes : (highValueKey .double).Completes .new [voteOf "bob" .manager, voteOf "carol" .operator] :=
    (h.2 (by decide)).2 fun hreq => nomatch hreq
  exact h.1.2 (fun hreq => nomatch hreq) hcompletes

/-- Where the level Manager is required a security officer is enough and an administrator is not. -/
theorem not_staysPending_replace_manager :
    ¬ ∀ (c : Creation) (e : ApprovalEngine) (before after : List Vote) (v : Vote) (role : Role),
      (∀ w ∈ before ++ v :: after, c.requiredLevel ≤ w.level) → ((before ++ v :: after).map (·.approverId)).Nodup →
        v.level < determineApprovalLevel role → c.Completes e (before ++ v :: after) →
          ¬ c.StaysPending e (before ++ { v with role } :: after) := by
  intro h
  have hlevels : ∀ w ∈ [voteOf "bob" .admin], (highValueKey .manager).requiredLevel ≤ w.level := by decide
  have hcompletes : (highValueKey .manager).Completes .new [voteOf "bob" .securityOfficer] :=
    (completes_iff _ (by decide) (by decide)).2 ⟨by decide, by decide⟩
  have hpending : (highValueKey .manager).StaysPending .new [voteOf "bob" .admin] := by
    refine (staysPending_iff _ hlevels (by decide)).2 ⟨fun henough => absurd henough.2 (by decide), ?_⟩
    rintro ⟨w, hw, hlate⟩
    obtain rfl : w = voteOf "bob" .admin := by simpa [others, voteOf, highValueKey] using hw
    exact absurd hlate (by decide)
  exact h (highValueKey .manager) .new [] [] (voteOf "bob" .securityOfficer) .admin (by decide) (by decide) (by decide)
    hcompletes hpending

end Creation

end GmKms.Approval
