import GmKms.Secret.Numbering
/-!
# The active version

What a rotation that fails and a rollback that succeeds do to the version that `get_active` returns. The flags are
cleared before the rotation can fail, and before the rollback looks for the version that was active.
-/

namespace GmKms.Secret

open Lib

namespace SecretRotationManager

/-! ## Lists of versions -/

theorem deactivated_eq_self_iff {versions : List SecretVersion} :
    deactivated versions = versions ↔ ∀ v ∈ versions, v.active = false := by
  conv_lhs => rw [deactivated, ← List.map_id versions, List.map_map]
  rw [List.map_inj_left]
  constructor
  · intro h v hv
    exact (congrArg SecretVersion.active (h v hv)).symm
  · intro h v hv
    exact congrArg (fun active => { v with active }) (h v hv).symm

theorem findActive_of_inactive {versions : List SecretVersion} (h : ∀ v ∈ versions, v.active = false) (checked : Clock)
    (k : ℕ) : findActive checked k versions = none := by
  induction versions with
  | nil => rfl
  | cons v versions ih =>
    rw [List.forall_mem_cons] at h
    rw [findActive, h.1]
    exact ih h.2

theorem mem_deactivated_active {versions : List SecretVersion} {v : SecretVersion} (hv : v ∈ deactivated versions) :
    v.active = false := by
  obtain ⟨v', -, rfl⟩ := List.mem_map.1 hv
  rfl

theorem activateAt_zero (v : SecretVersion) (versions : List SecretVersion) :
    activateAt 0 (v :: versions) = { v with active := true } :: deactivated versions := rfl

theorem activateAt_succ (index : ℕ) (v : SecretVersion) (versions : List SecretVersion) :
    activateAt (index + 1) (v :: versions) = { v with active := false } :: activateAt index versions := rfl

/-- The version at the index is the only one that can be found, and its expiry the only one that is checked. -/
theorem findActive_activateAt (checked : Clock) (k : ℕ) {index : ℕ} {versions : List SecretVersion} {v : SecretVersion}
    (hv : versions[index]? = some v) : findActive checked k (activateAt index versions) =
      if v.isExpired (checked k) then none else some { v with active := true } := by
  induction versions generalizing index with
  | nil => cases hv
  | cons w versions ih =>
    cases index with
    | zero =>
      rw [List.getElem?_cons_zero, Option.some.injEq] at hv
      subst hv
      rw [activateAt_zero, findActive, findActive_of_inactive fun v => mem_deactivated_active]
      rfl
    | succ index =>
      rw [List.getElem?_cons_succ] at hv
      rw [activateAt_succ, findActive]
      exact ih hv

/-- No version but the one at the index is active. -/
theorem find?_activateAt {index : ℕ} {versions : List SecretVersion} {v : SecretVersion}
    (hv : versions[index]? = some v) :
    ((activateAt index versions).find? fun w => w.active ∧ w.version ≠ v.version) = none := by
  induction versions generalizing index with
  | nil => cases hv
  | cons w versions ih =>
    cases index with
    | zero =>
      rw [List.getElem?_cons_zero, Option.some.injEq] at hv
      subst hv
      rw [activateAt_zero, List.find?_eq_none]
      intro w' hw' hactive
      rcases List.mem_cons.1 hw' with rfl | hmem
      · exact (of_decide_eq_true hactive).2 rfl
      · have hinactive := mem_deactivated_active hmem
        rw [hinactive] at hactive
        exact absurd (of_decide_eq_true hactive).1 Bool.false_ne_true
    | succ index =>
      rw [List.getElem?_cons_succ] at hv
      rw [activateAt_succ, List.find?_cons_of_neg (by simp)]
      exact ih hv

/-! ## A rotation that fails -/

section

variable (plusSeconds : DateTime → UInt64 → Except String DateTime)

/-- If the rotation returns an error, the secret's versions and the history are as before, and so is what
`get_active` returns. -/
def Harmless (m : SecretRotationManager) : Call → Prop
  | .rotate env name => ∀ e, (m.rotate plusSeconds env name).1 = .error (.error e) →
      (m.rotate plusSeconds env name).2.secrets[name]? = m.secrets[name]? ∧
        (m.rotate plusSeconds env name).2.rotations = m.rotations ∧
          ∀ checked, (m.rotate plusSeconds env name).2.getActive checked name = m.getActive checked name
  | _ => True

/-- The random generator gives its bytes; or the secret is not registered, or none of its versions is active. -/
def NothingToLose (m : SecretRotationManager) : Call → Prop
  | .rotate env name => (∃ secret, env.random = .ok secret) ∨ m.configs[name]? = none ∨
      ∀ versions, m.secrets[name]? = some versions → ∀ v ∈ versions, v.active = false
  | _ => True

variable {plusSeconds}

theorem rotations_deactivate (m : SecretRotationManager) (name : String) :
    (m.deactivate name).rotations = m.rotations := by
  unfold deactivate
  split <;> rfl

theorem secrets_deactivate_eq_iff (m : SecretRotationManager) (name : String) :
    (m.deactivate name).secrets[name]? = m.secrets[name]? ↔
      ∀ versions, m.secrets[name]? = some versions → ∀ v ∈ versions, v.active = false := by
  rw [secrets_deactivate, if_pos rfl]
  cases m.secrets[name]? with
  | none => simp
  | some versions => simp [deactivated_eq_self_iff]

variable (plusSeconds) in
/-- A rotation returns an error where the secret is not registered, and where the generator fails. -/
theorem rotate_cases (m : SecretRotationManager) (env : SecretEnv) (name : String) :
    (m.configs[name]? = none ∧ (m.rotate plusSeconds env name).2 = m) ∨
      ((∃ e, env.random = .error e) ∧ (∃ e, (m.rotate plusSeconds env name).1 = .error (.error e)) ∧
        m.configs[name]? ≠ none ∧ (m.rotate plusSeconds env name).2 = m.deactivate name) ∨
      ((∃ secret, env.random = .ok secret) ∧ ∀ e, (m.rotate plusSeconds env name).1 ≠ .error (.error e)) := by
  unfold rotate
  cases hconfig : m.configs[name]? with
  | none => exact .inl ⟨rfl, rfl⟩
  | some config =>
    cases hrandom : env.random with
    | error e => exact .inr (.inl ⟨⟨e, rfl⟩, ⟨_, rfl⟩, by simp, rfl⟩)
    | ok secret =>
      refine .inr (.inr ⟨⟨secret, rfl⟩, ?_⟩)
      dsimp only
      cases plusSeconds env.now config.ttlSeconds with
      | error message => simp
      | ok expiresAt => simp

theorem harmless_iff (m : SecretRotationManager) (c : Call) : Harmless plusSeconds m c ↔ NothingToLose m c := by
  cases c with
  | register => exact Iff.rfl
  | rollback => exact Iff.rfl
  | rotate env name =>
    rcases rotate_cases plusSeconds m env name with
      ⟨hconfig, hsame⟩ | ⟨⟨e, hrandom⟩, ⟨e', hfailed⟩, hconfig, hleft⟩ | ⟨hrandom, hnot⟩
    · refine iff_of_true ?_ (.inr (.inl hconfig))
      intro e he
      rw [hsame]
      exact ⟨rfl, rfl, fun _ => rfl⟩
    · have hnone : ¬ ∃ secret, env.random = .ok secret := by simp [hrandom]
      simp only [Harmless, NothingToLose, hleft, hfailed, hnone, hconfig, false_or, rotations_deactivate,
        ← secrets_deactivate_eq_iff]
      constructor
      · intro h
        exact (h e' rfl).1
      · intro hsecrets e _
        refine ⟨hsecrets, trivial, fun checked => ?_⟩
        rw [getActive, getActive, hsecrets]
    · exact iff_of_true (fun e he => absurd he (hnot e)) (.inl hrandom)

/-- Exactly in the runs in which the generator only fails where nothing is active, rotations that fail are harmless. -/
theorem harmless_along_iff (plusSeconds : DateTime → UInt64 → Except String DateTime) (calls : List Call) :
    (call plusSeconds).Along (fun _ m c => Harmless plusSeconds m c) [] new calls ↔
      (call plusSeconds).Along (fun _ m c => NothingToLose m c) [] new calls :=
  Machine.along_congr fun _ m c => harmless_iff m c

end

/-- Registered, then rotated while the random generator fails. -/
def failingRun : List Call :=
  [.register (sampleEnv 0 1) "db_password" [1] sampleConfig,
    .rotate { sampleEnv 10 2 with random := .error "entropy source unavailable" } "db_password"]

theorem not_harmless_failingRun :
    ¬ ∀ (plusSeconds : DateTime → UInt64 → Except String DateTime) (calls : List Call),
      (call plusSeconds).Along (fun _ m c => Harmless plusSeconds m c) [] new calls := by
  intro h
  have hcalls := (harmless_along_iff sumSeconds failingRun).1 (h sumSeconds failingRun)
  rcases hcalls.2.1 with ⟨secret, hsecret⟩ | hconfig | hinactive
  · cases hsecret
  · exact absurd hconfig (by decide +kernel)
  · exact absurd (hinactive _ (by rfl) _ (List.mem_singleton_self _)) (by decide)

/-! ## A rollback -/

/-- If the rollback succeeds, `get_active` right after it returns the version, and the record names it and the version
that `get_active` returned right before. -/
def TakesEffect (before after : Clock) (m : SecretRotationManager) : Call → Prop
  | .rollback env name version => ∀ rotation, (m.rollback env name version).1 = .ok rotation →
      (∃ v, (m.rollback env name version).2.getActive after name = some v ∧ v.version = version) ∧
        (m.rollback env name version).2.rotations = m.rotations ++ [rotation] ∧
          rotation.newVersion = some version ∧ rotation.oldVersion = (m.getActive before name).map (·.version)
  | _ => True

/-- The version is not expired right after the call, and right before it none was active. -/
def Recoverable (before after : Clock) (m : SecretRotationManager) : Call → Prop
  | .rollback _ name version => ∀ versions v, m.secrets[name]? = some versions →
      (versions.find? fun v => v.version = version) = some v →
        v.isExpired (after 0) = false ∧ m.getActive before name = none
  | _ => True

/-- A rollback is refused, or activates the first version with the number and records no old one. -/
theorem rollback_cases (m : SecretRotationManager) (env : SecretEnv) (name : String) (version : UInt32) :
    ((∀ rotation, (m.rollback env name version).1 ≠ .ok rotation) ∧
        ∀ versions, m.secrets[name]? = some versions → (versions.find? fun v => v.version = version) = none) ∨
      ∃ versions index v rotation, m.secrets[name]? = some versions ∧
        (versions.find? fun v => v.version = version) = some v ∧ versions[index]? = some v ∧ v.version = version ∧
          m.rollback env name version = (.ok rotation,
            { m with
              secrets := m.secrets.insert name (activateAt index versions)
              rotations := m.rotations ++ [rotation] }) ∧
            rotation.newVersion = some version ∧ rotation.oldVersion = none := by
  unfold rollback
  cases hstored : m.secrets[name]? with
  | none => exact .inl ⟨by simp, by simp⟩
  | some versions =>
    dsimp only
    cases hindex : versions.findIdx? fun v => v.version = version with
    | none =>
      refine .inl ⟨by simp, ?_⟩
      rintro _ ⟨⟩
      have hfind := List.findIdx?_eq_none_iff.1 hindex
      exact List.find?_eq_none.2 fun v hv => Bool.eq_false_iff.1 (hfind v hv)
    | some index =>
      obtain ⟨hlt, hversion, hfirst⟩ := List.findIdx?_eq_some_iff_getElem.1 hindex
      have hfind : (versions.find? fun v => v.version = version) = some versions[index] :=
        List.find?_eq_some_iff_getElem.2 ⟨hversion, index, hlt, rfl, fun j hj => by simpa using hfirst j hj⟩
      have hat : versions[index]? = some versions[index] := List.getElem?_eq_getElem hlt
      have hold := find?_activateAt hat
      rw [of_decide_eq_true hversion] at hold
      refine .inr ⟨versions, index, versions[index], _, rfl, hfind, hat, of_decide_eq_true hversion, rfl, rfl, ?_⟩
      dsimp only
      rw [hold]
      rfl

theorem takesEffect_iff (before after : Clock) (m : SecretRotationManager) (c : Call) :
    TakesEffect before after m c ↔ Recoverable before after m c := by
  cases c with
  | register => exact Iff.rfl
  | rotate => exact Iff.rfl
  | rollback env name version =>
    rcases rollback_cases m env name version with ⟨hrefused, hnone⟩ |
      ⟨versions, index, v, rotation, hstored, hfind, hat, hversion, hrollback, hnew, hold⟩
    · refine iff_of_true (fun rotation h => absurd h (hrefused rotation)) fun versions v hstored hfind => ?_
      rw [hnone versions hstored] at hfind
      cases hfind
    · have hactive : (m.rollback env name version).2.getActive after name =
          if v.isExpired (after 0) then none else some { v with active := true } := by
        rw [hrollback, getActive, HashMap.getElem?_insert, if_pos rfl, Option.bind_some,
          findActive_activateAt after 0 hat]
      constructor
      · intro h versions' v' hstored' hfind'
        rw [hstored, Option.some.injEq] at hstored'
        subst hstored'
        rw [hfind, Option.some.injEq] at hfind'
        subst hfind'
        obtain ⟨⟨w, hw, -⟩, -, -, hbefore⟩ := h rotation (by rw [hrollback])
        refine ⟨?_, ?_⟩
        · rw [hactive] at hw
          split at hw
          · cases hw
          · exact Bool.eq_false_iff.2 ‹_›
        · rw [hold] at hbefore
          exact Option.map_eq_none_iff.1 hbefore.symm
      · intro h rotation' hrotation
        obtain ⟨hexpired, hbefore⟩ := h versions v hstored hfind
        have hrotation' : rotation' = rotation := by
          rw [hrollback] at hrotation
          exact (Except.ok.inj hrotation).symm
        subst hrotation'
        refine ⟨⟨{ v with active := true }, ?_, hversion⟩, by rw [hrollback], hnew, ?_⟩
        · rw [hactive, hexpired]
          rfl
        · rw [hold, hbefore]
          rfl

/-- Exactly in the runs whose rollbacks find no active version and one to go back to that is not expired, rollbacks
take effect and are recorded. `before` and `after` are the readings of `get_active` around the call that follows a
history. -/
theorem takesEffect_along_iff (plusSeconds : DateTime → UInt64 → Except String DateTime)
    (before after : History Call Reply → Clock) (calls : List Call) :
    (call plusSeconds).Along (fun h m c => TakesEffect (before h) (after h) m c) [] new calls ↔
      (call plusSeconds).Along (fun h m c => Recoverable (before h) (after h) m c) [] new calls :=
  Machine.along_congr fun h m c => takesEffect_iff (before h) (after h) m c

/-- In `rolledBackRun` the second version is active when the first one is restored, which the record does not say. -/
theorem not_takesEffect_rolledBackRun :
    ¬ ∀ (plusSeconds : DateTime → UInt64 → Except String DateTime) (before after : History Call Reply → Clock)
      (calls : List Call), (call plusSeconds).Along (fun h m c => TakesEffect (before h) (after h) m c)
      [] new calls := by
  intro h
  have hcalls := (takesEffect_along_iff sumSeconds _ _ rolledBackRun).1
    (h sumSeconds (fun _ _ => 20000000000) (fun _ _ => 20000000000) rolledBackRun)
  obtain ⟨-, -, hrollback, -⟩ := hcalls
  have hnone := (hrollback _ _ (by rfl) (by rfl)).2
  exact absurd hnone (by decide +kernel)

end SecretRotationManager

end GmKms.Secret
