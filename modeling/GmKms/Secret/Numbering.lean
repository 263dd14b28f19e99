import GmKms.Secret.Manager
/-!
# The numbers of a secret's versions

Where a rotation finds the version with the highest number active and not expired, the
next number is new. A rollback, an expiry or a second registration takes that away, and a
failed rotation leaves no version active.
-/

namespace GmKms.Secret

open Lib

/-- A number given to a value of a secret, by a rotation or a registration. -/
structure Issue where
  name : String
  number : UInt32
  secret : Bytes
  rotated : Bool

namespace SecretRotationManager

/-- What a call with this reply issued. -/
def issuedBy : Call × Reply → Option Issue
  | (.register _ name secret _, .registered (.ok number)) => some ⟨name, number, secret, false⟩
  | (.rotate env name, .rotated (.ok rotation)) =>
    match rotation.newVersion, env.random with
    | some number, .ok secret => some ⟨name, number, secret, true⟩
    | _, _ => none
  | _ => none

def issues (h : History Call Reply) : List Issue := h.filterMap issuedBy

/-- Every secret has one active version and numbers its versions apart; no number is used for two
values; and a rotation uses a number above all that were used before. -/
structure WellFormed (h : History Call Reply) (m : SecretRotationManager) : Prop where
  distinct : ∀ (name : String) (versions : List SecretVersion), m.secrets[name]? = some versions →
    (versions.map (·.version)).Nodup
  oneActive : ∀ (name : String) (versions : List SecretVersion), m.secrets[name]? = some versions →
    versions.countP (·.active) = 1
  unique : (issues h).Pairwise fun a b => a.name = b.name → a.number = b.number → a.secret = b.secret
  increasing : (issues h).Pairwise fun a b => a.name = b.name → b.rotated = true → a.number < b.number

/-- The configuration keeps at least one version. -/
def Keeps : Call → Prop
  | .register _ _ _ config => 1 ≤ config.keepVersions.toNat
  | _ => True

section

variable (plusSeconds : DateTime → UInt64 → Except String DateTime)

/-- A secret is registered again with the value of its first version only; and a rotation finds a
version that is active, not expired and has the highest number so far, which is not the last one,
and it gets new material and an expiry in range. -/
def Numbered (h : History Call Reply) (m : SecretRotationManager) : Call → Prop
  | .register env name secret config => ∀ expiresAt, plusSeconds env.now config.ttlSeconds = .ok expiresAt →
    ∀ i ∈ issues h, i.name = name → i.number = 1 → i.secret = secret
  | .rotate env name => ∀ config, m.configs[name]? = some config →
    (∃ secret, env.random = .ok secret) ∧ (∃ expiresAt, plusSeconds env.now config.ttlSeconds = .ok expiresAt) ∧
      ∃ v, m.getActive env.checked name = some v ∧ v.version.toNat + 1 < 2 ^ 32 ∧
        ∀ i ∈ issues h, i.name = name → i.number ≤ v.version
  | .rollback .. => True

/-! ## What a call does -/

/-- How a call can change the manager, and what it then answers. -/
inductive Step (m : SecretRotationManager) : Call → Reply → SecretRotationManager → Prop where
  | refused {c : Call} {reply : Reply} (none_issued : issuedBy (c, reply) = none)
      (not_rotation : ∀ env name, c = .rotate env name → m.configs[name]? = none)
      (not_registration : ∀ env name secret config expiresAt, c = .register env name secret config →
        plusSeconds env.now config.ttlSeconds ≠ .ok expiresAt) : Step m c reply m
  | registered {env : SecretEnv} {name : String} {secret : Bytes} {config : RotationConfig} {expiresAt : DateTime}
      (expiry : plusSeconds env.now config.ttlSeconds = .ok expiresAt) :
      Step m (.register env name secret config) (.registered (.ok 1))
        { m with
          secrets := m.secrets.insert name [⟨1, secret, env.now, expiresAt, true⟩]
          configs := m.configs.insert name config }
  | failed {env : SecretEnv} {name : String} {config : RotationConfig} {e : Abort}
      (configured : m.configs[name]? = some config)
      (failure : ¬ ((∃ secret, env.random = .ok secret) ∧
        ∃ expiresAt, plusSeconds env.now config.ttlSeconds = .ok expiresAt)) :
      Step m (.rotate env name) (.rotated (.error e)) (m.deactivate name)
  | rotated {env : SecretEnv} {name : String} {config : RotationConfig} {secret : Bytes} {expiresAt : DateTime}
      {rotation : SecretRotation} (configured : m.configs[name]? = some config) (material : env.random = .ok secret)
      (expiry : plusSeconds env.now config.ttlSeconds = .ok expiresAt)
      (number : rotation.newVersion = some (((m.getActive env.checked name).map (·.version)).getD 0 + 1)) :
      Step m (.rotate env name) (.rotated (.ok rotation))
        { m.deactivate name with
          secrets := (m.deactivate name).secrets.insert name
            ((⟨((m.getActive env.checked name).map (·.version)).getD 0 + 1, secret, env.now, expiresAt, true⟩ ::
              (m.deactivate name).secrets[name]?.getD []).take config.keepVersions.toNat)
          rotations := (m.deactivate name).rotations ++ [rotation] }
  | rolledBack {env : SecretEnv} {name : String} {version : UInt32} {versions : List SecretVersion} {index : ℕ}
      {rotation : SecretRotation} (stored : m.secrets[name]? = some versions) (inside : index < versions.length) :
      Step m (.rollback env name version) (.rotated (.ok rotation))
        { m with
          secrets := m.secrets.insert name (activateAt index versions)
          rotations := m.rotations ++ [rotation] }

/-- Every call, whatever it reads from outside. -/
theorem call_step (m : SecretRotationManager) (c : Call) :
    Step plusSeconds m c (call plusSeconds m c).1 (call plusSeconds m c).2 := by
  cases c with
  | register env name secret config =>
    simp only [call, register]
    cases hexpiry : plusSeconds env.now config.ttlSeconds with
    | error message =>
      refine .refused rfl (fun _ _ h => by cases h) ?_
      rintro _ _ _ _ expiresAt ⟨⟩
      rw [hexpiry]
      rintro ⟨⟩
    | ok expiresAt => exact .registered hexpiry
  | rotate env name =>
    simp only [call, rotate]
    cases hconfig : m.configs[name]? with
    | none =>
      refine .refused rfl ?_ (fun _ _ _ _ _ h => by cases h)
      rintro _ _ ⟨⟩
      exact hconfig
    | some config =>
      cases hrandom : env.random with
      | error e => exact .failed hconfig (by simp [hrandom])
      | ok secret =>
        cases hexpiry : plusSeconds env.now config.ttlSeconds with
        | error message =>
          simp only [hexpiry]
          exact .failed hconfig (by simp [hexpiry])
        | ok expiresAt =>
          simp only [hexpiry]
          exact .rotated hconfig hrandom hexpiry rfl
  | rollback env name version =>
    simp only [call, rollback]
    cases hstored : m.secrets[name]? with
    | none => exact .refused rfl (fun _ _ h => by cases h) (fun _ _ _ _ _ h => by cases h)
    | some versions =>
      dsimp only
      cases hindex : versions.findIdx? fun v => v.version = version with
      | none => exact .refused rfl (fun _ _ h => by cases h) (fun _ _ _ _ _ h => by cases h)
      | some index => exact .rolledBack hstored (List.findIdx?_eq_some_iff_getElem.1 hindex).1

end

/-! ## Lists of versions -/

theorem map_version_deactivated (versions : List SecretVersion) :
    (deactivated versions).map (·.version) = versions.map (·.version) := by
  simp [deactivated, Function.comp_def]

theorem countP_deactivated (versions : List SecretVersion) : (deactivated versions).countP (·.active) = 0 := by
  simp [deactivated]

theorem map_version_activateAt (index : ℕ) (versions : List SecretVersion) :
    (activateAt index versions).map (·.version) = versions.map (·.version) := by
  rw [← map_version_deactivated versions, activateAt]
  generalize deactivated versions = l
  induction l generalizing index with
  | nil => simp
  | cons v l ih =>
    cases index with
    | zero => simp
    | succ n => simp [ih]

theorem countP_activateAt {index : ℕ} {versions : List SecretVersion} (h : index < versions.length) :
    (activateAt index versions).countP (·.active) = 1 := by
  unfold activateAt deactivated
  induction versions generalizing index with
  | nil => simp at h
  | cons v versions ih =>
    cases index with
    | zero =>
      have hrest := countP_deactivated versions
      simp only [deactivated] at hrest
      simp [hrest]
    | succ n => simpa using ih (Nat.lt_of_succ_lt_succ h)

/-- Trimming keeps the new version, and nothing else that is active. -/
theorem countP_take_cons {v : SecretVersion} (hv : v.active = true) (versions : List SecretVersion) {keep : ℕ}
    (hkeep : 1 ≤ keep) : ((v :: deactivated versions).take keep).countP (·.active) = 1 := by
  obtain ⟨n, rfl⟩ := Nat.exists_eq_add_of_le' hkeep
  have hrest : ((deactivated versions).take n).countP (·.active) = 0 :=
    Nat.le_zero.1 ((countP_deactivated versions) ▸ (List.take_sublist n _).countP_le)
  rw [List.take_succ_cons, List.countP_cons, hrest, hv]
  rfl

/-! ## What is stored was issued -/

theorem secrets_deactivate (m : SecretRotationManager) (name n : String) :
    (m.deactivate name).secrets[n]? = if n = name then m.secrets[n]?.map deactivated else m.secrets[n]? := by
  unfold deactivate
  cases hstored : m.secrets[name]? with
  | none =>
    by_cases hn : n = name
    · subst hn
      simp [hstored]
    · rw [if_neg hn]
  | some versions =>
    dsimp only
    rw [HashMap.getElem?_insert]
    by_cases hn : n = name
    · subst hn
      simp [hstored]
    · rw [if_neg hn, if_neg hn]

structure Recorded (h : History Call Reply) (m : SecretRotationManager) : Prop where
  stored : ∀ (name : String) (versions : List SecretVersion), m.secrets[name]? = some versions →
    ∀ v ∈ versions, ∃ i ∈ issues h, i.name = name ∧ i.number = v.version
  first : ∀ (name : String) (config : RotationConfig), m.configs[name]? = some config →
    ∃ i ∈ issues h, i.name = name ∧ i.number = 1
  present : ∀ (name : String) (config : RotationConfig), m.configs[name]? = some config →
    ∃ versions, m.secrets[name]? = some versions
  keeps : ∀ (name : String) (config : RotationConfig), m.configs[name]? = some config →
    1 ≤ config.keepVersions.toNat

theorem issues_snoc (h : History Call Reply) (e : Call × Reply) :
    issues (h ++ [e]) = issues h ++ (issuedBy e).toList := by
  simp [issues, List.filterMap_append, List.filterMap_cons]
  cases issuedBy e <;> rfl

theorem mem_issues_snoc {h : History Call Reply} {e : Call × Reply} {i : Issue} (hi : i ∈ issues h) :
    i ∈ issues (h ++ [e]) := by
  rw [issues_snoc]
  exact List.mem_append_left _ hi

theorem Recorded.grow {h h' : History Call Reply} {m : SecretRotationManager} (hm : Recorded h m)
    (hgrown : ∀ i ∈ issues h, i ∈ issues h') : Recorded h' m where
  stored name versions hversions v hv := by
    obtain ⟨i, hi, hin⟩ := hm.stored name versions hversions v hv
    exact ⟨i, hgrown i hi, hin⟩
  first name config hconfig := by
    obtain ⟨i, hi, hin⟩ := hm.first name config hconfig
    exact ⟨i, hgrown i hi, hin⟩
  present := hm.present
  keeps := hm.keeps

/-- One secret gets other versions, whose numbers are issued. -/
theorem recorded_of_insert {h : History Call Reply} {m m' : SecretRotationManager} (hm : Recorded h m) {name : String}
    {versions : List SecretVersion}
    (hsecrets : ∀ n : String, m'.secrets[n]? = if n = name then some versions else m.secrets[n]?)
    (hconfigs : m'.configs = m.configs)
    (hversions : ∀ v ∈ versions, ∃ i ∈ issues h, i.name = name ∧ i.number = v.version) : Recorded h m' where
  stored n vs hvs v hv := by
    rw [hsecrets] at hvs
    split at hvs
    · rename_i hn
      cases hvs
      subst hn
      exact hversions v hv
    · exact hm.stored n vs hvs v hv
  first n config hconfig := hm.first n config (hconfigs ▸ hconfig)
  present n config hconfig := by
    obtain ⟨vs, hvs⟩ := hm.present n config (hconfigs ▸ hconfig)
    rw [hsecrets]
    split
    · exact ⟨_, rfl⟩
    · exact ⟨vs, hvs⟩
  keeps n config hconfig := hm.keeps n config (hconfigs ▸ hconfig)

theorem mem_deactivated {versions : List SecretVersion} {v : SecretVersion} (hv : v ∈ deactivated versions) :
    ∃ v' ∈ versions, v'.version = v.version := by
  obtain ⟨v', hv', rfl⟩ := List.mem_map.1 hv
  exact ⟨v', hv', rfl⟩

theorem deactivate_of_stored {m : SecretRotationManager} {name : String} {versions : List SecretVersion}
    (hversions : m.secrets[name]? = some versions) :
    m.deactivate name = { m with secrets := m.secrets.insert name (deactivated versions) } := by
  rw [deactivate, hversions]

theorem recorded_deactivate {h : History Call Reply} {m : SecretRotationManager} (hm : Recorded h m) {name : String}
    {versions : List SecretVersion} (hversions : m.secrets[name]? = some versions) :
    Recorded h (m.deactivate name) := by
  rw [deactivate_of_stored hversions]
  refine recorded_of_insert hm (HashMap.getElem?_insert _ _ · _) rfl fun v hv => ?_
  obtain ⟨v', hv', hsame⟩ := mem_deactivated hv
  obtain ⟨i, hi, hin, hnumber⟩ := hm.stored name versions hversions v' hv'
  exact ⟨i, hi, hin, hnumber.trans hsame⟩

theorem recorded_call (plusSeconds : DateTime → UInt64 → Except String DateTime) {h : History Call Reply}
    {m : SecretRotationManager} {c : Call} (hc : Keeps c) (hm : Recorded h m) :
    Recorded (h ++ [(c, (call plusSeconds m c).1)]) (call plusSeconds m c).2 := by
  have hstep := call_step plusSeconds m c
  generalize (call plusSeconds m c).1 = reply at hstep ⊢
  generalize (call plusSeconds m c).2 = m' at hstep ⊢
  have hgrown : Recorded (h ++ [(c, reply)]) m := hm.grow fun _ => mem_issues_snoc
  cases hstep with
  | refused => exact hgrown
  | @registered env name secret config expiresAt hexpiry =>
    have hissued : ∃ i ∈ issues (h ++ [(Call.register env name secret config, Reply.registered (.ok 1))]),
        i.name = name ∧ i.number = 1 := by
      rw [issues_snoc]
      exact ⟨⟨name, 1, secret, false⟩, List.mem_append_right _ (List.mem_singleton_self _), rfl, rfl⟩
    refine ⟨?_, ?_, ?_, ?_⟩
    · intro n vs hvs v hv
      rw [HashMap.getElem?_insert] at hvs
      split at hvs
      · rename_i hn
        cases hvs
        subst hn
        rw [List.mem_singleton.1 hv]
        exact hissued
      · exact hgrown.stored n vs hvs v hv
    · intro n config' hconfig
      rw [HashMap.getElem?_insert] at hconfig
      split at hconfig
      · rename_i hn
        subst hn
        exact hissued
      · exact hgrown.first n config' hconfig
    · intro n config' hconfig
      rw [HashMap.getElem?_insert] at hconfig ⊢
      split at hconfig
      · rename_i hn
        rw [if_pos hn]
        exact ⟨_, rfl⟩
      · rename_i hn
        rw [if_neg hn]
        exact hgrown.present n config' hconfig
    · intro n config' hconfig
      rw [HashMap.getElem?_insert] at hconfig
      split at hconfig
      · cases hconfig
        exact hc
      · exact hgrown.keeps n config' hconfig
  | @failed env name config e hconfig =>
    obtain ⟨versions, hversions⟩ := hm.present name config hconfig
    exact recorded_deactivate hgrown hversions
  | @rotated env name config secret expiresAt rotation hconfig hmaterial hexpiry hnumber =>
    obtain ⟨versions, hversions⟩ := hm.present name config hconfig
    have hkept := recorded_deactivate hgrown hversions
    refine recorded_of_insert hkept (HashMap.getElem?_insert _ _ · _) rfl fun v hv => ?_
    rcases List.mem_cons.1 (List.mem_of_mem_take hv) with rfl | hold
    · refine ⟨⟨name, _, secret, true⟩, ?_, rfl, rfl⟩
      rw [issues_snoc]
      refine List.mem_append_right _ ?_
      simp [issuedBy, hnumber, hmaterial]
    · rw [secrets_deactivate, if_pos rfl, hversions] at hold
      obtain ⟨v', hv', hsame⟩ := mem_deactivated hold
      obtain ⟨i, hi, hin, hn⟩ := hgrown.stored name versions hversions v' hv'
      exact ⟨i, hi, hin, hn.trans hsame⟩
  | @rolledBack env name version versions index rotation hstored hinside =>
    refine recorded_of_insert hgrown (HashMap.getElem?_insert _ _ · _) rfl fun v hv => ?_
    have hmem : v.version ∈ versions.map (·.version) := by
      rw [← map_version_activateAt index versions]
      exact List.mem_map_of_mem hv
    obtain ⟨v', hv', hsame⟩ := List.mem_map.1 hmem
    obtain ⟨i, hi, hin, hnumber⟩ := hgrown.stored name versions hstored v' hv'
    exact ⟨i, hi, hin, hnumber.trans hsame⟩

/-! ## Well-formedness, step by step -/

theorem wellFormed_of_insert {h h' : History Call Reply} {m m' : SecretRotationManager} (hm : WellFormed h m)
    {name : String} {versions : List SecretVersion}
    (hsecrets : ∀ n : String, m'.secrets[n]? = if n = name then some versions else m.secrets[n]?)
    (hdistinct : (versions.map (·.version)).Nodup) (hactive : versions.countP (·.active) = 1)
    (hunique : (issues h').Pairwise fun a b => a.name = b.name → a.number = b.number → a.secret = b.secret)
    (hincreasing : (issues h').Pairwise fun a b => a.name = b.name → b.rotated = true → a.number < b.number) :
    WellFormed h' m' where
  distinct n vs hvs := by
    rw [hsecrets] at hvs
    split at hvs
    · cases hvs
      exact hdistinct
    · exact hm.distinct n vs hvs
  oneActive n vs hvs := by
    rw [hsecrets] at hvs
    split at hvs
    · cases hvs
      exact hactive
    · exact hm.oneActive n vs hvs
  unique := hunique
  increasing := hincreasing

theorem findActive_mem {checked : Clock} {k : ℕ} {versions : List SecretVersion} {v : SecretVersion}
    (h : findActive checked k versions = some v) : v ∈ versions := by
  induction versions generalizing k with
  | nil => cases h
  | cons w versions ih =>
    rw [findActive] at h
    split at h
    · split at h
      · exact List.mem_cons_of_mem _ (ih h)
      · cases h
        exact List.mem_cons_self
    · exact List.mem_cons_of_mem _ (ih h)

/-- The next number is above the highest one, unless that is the last one. -/
theorem lt_add_one_iff {n v : UInt32} (hv : v.toNat + 1 < 2 ^ 32) : n < v + 1 ↔ n ≤ v := by
  have hnext : (v + 1).toNat = v.toNat + 1 := by
    rw [UInt32.toNat_add, UInt32.toNat_one, Nat.mod_eq_of_lt hv]
  rw [UInt32.lt_iff_toNat_lt, hnext, UInt32.le_iff_toNat_le, Nat.lt_succ_iff]

theorem not_lt_add_one {v : UInt32} (hv : ¬ v.toNat + 1 < 2 ^ 32) : ¬ v < v + 1 := by
  have hlast : v.toNat + 1 = 2 ^ 32 := by
    have hlt := v.toNat_lt
    omega
  have hnext : (v + 1).toNat = 0 := by
    rw [UInt32.toNat_add, UInt32.toNat_one, hlast, Nat.mod_self]
  rw [UInt32.lt_iff_toNat_lt, hnext]
  exact Nat.not_lt_zero _

/-- A rotation numbers above all before it where it finds the highest version. -/
theorem above_iff {h : History Call Reply} {m : SecretRotationManager} (hm : Recorded h m) {checked : Clock}
    {name : String}
    {config : RotationConfig} (hconfig : m.configs[name]? = some config) :
    (∀ i ∈ issues h, i.name = name → i.number < ((m.getActive checked name).map (·.version)).getD 0 + 1) ↔
      ∃ v, m.getActive checked name = some v ∧ v.version.toNat + 1 < 2 ^ 32 ∧
        ∀ i ∈ issues h, i.name = name → i.number ≤ v.version := by
  cases hactive : m.getActive checked name with
  | none =>
    obtain ⟨i, hi, hin, hnumber⟩ := hm.first name config hconfig
    constructor
    · intro hall
      have hone := hall i hi hin
      rw [hnumber] at hone
      exact absurd hone (by decide)
    · rintro ⟨v, ⟨⟩, -⟩
  | some v =>
    obtain ⟨versions, hversions, hfound⟩ := Option.bind_eq_some_iff.1 hactive
    obtain ⟨i, hi, hin, hnumber⟩ := hm.stored name versions hversions v (findActive_mem hfound)
    simp only [Option.map_some, Option.getD_some, Option.some.injEq, exists_eq_left']
    by_cases hfits : v.version.toNat + 1 < 2 ^ 32
    · simp only [lt_add_one_iff hfits, hfits, true_and]
    · constructor
      · intro hall
        have hself := hall i hi hin
        rw [hnumber] at hself
        exact absurd hself (not_lt_add_one hfits)
      · rintro ⟨hlt, -⟩
        exact absurd hlt hfits

/-- A call that issues nothing and changes no stored version. -/
theorem wellFormed_congr {h h' : History Call Reply} {m m' : SecretRotationManager} (hissues : issues h' = issues h)
    (hsecrets : m'.secrets = m.secrets) : WellFormed h' m' ↔ WellFormed h m := by
  constructor
  · intro hm
    exact ⟨hsecrets ▸ hm.distinct, hsecrets ▸ hm.oneActive, hissues ▸ hm.unique, hissues ▸ hm.increasing⟩
  · intro hm
    exact ⟨hsecrets ▸ hm.distinct, hsecrets ▸ hm.oneActive, hissues ▸ hm.unique, hissues ▸ hm.increasing⟩

/-- One more number after well-formed ones. -/
theorem pairwise_snoc_iff {h : History Call Reply} {e : Call × Reply} {i : Issue} (hissued : issuedBy e = some i)
    {R : Issue → Issue → Prop} (hbefore : (issues h).Pairwise R) :
    (issues (h ++ [e])).Pairwise R ↔ ∀ j ∈ issues h, R j i := by
  rw [issues_snoc, hissued, Option.toList_some, List.pairwise_append]
  simp [hbefore]

theorem wellFormed_registered_iff {h : History Call Reply} {m : SecretRotationManager} (hm : WellFormed h m)
    {env : SecretEnv} {name : String} {secret : Bytes} {config : RotationConfig} {expiresAt : DateTime} :
    WellFormed (h ++ [(.register env name secret config, .registered (.ok 1))])
        { m with
          secrets := m.secrets.insert name [⟨1, secret, env.now, expiresAt, true⟩]
          configs := m.configs.insert name config } ↔
      ∀ i ∈ issues h, i.name = name → i.number = 1 → i.secret = secret := by
  have hissued : issuedBy (.register env name secret config, .registered (.ok 1)) = some ⟨name, 1, secret, false⟩ := rfl
  constructor
  · intro hm'
    exact (pairwise_snoc_iff hissued hm.unique).1 hm'.unique
  · intro hfirst
    refine wellFormed_of_insert hm (HashMap.getElem?_insert _ _ · _) (by simp) (by simp)
      ((pairwise_snoc_iff hissued hm.unique).2 hfirst)
      ((pairwise_snoc_iff hissued hm.increasing).2 ?_)
    rintro _ _ _ ⟨⟩

/-- A failed rotation has deactivated every version already. -/
theorem not_wellFormed_deactivate {h h' : History Call Reply} {m : SecretRotationManager} (hrecorded : Recorded h m)
    {name : String} {config : RotationConfig} (hconfig : m.configs[name]? = some config) :
    ¬ WellFormed h' (m.deactivate name) := by
  intro hm
  obtain ⟨versions, hversions⟩ := hrecorded.present name config hconfig
  have hone := hm.oneActive name (deactivated versions) (by rw [secrets_deactivate, if_pos rfl, hversions]; rfl)
  rw [countP_deactivated] at hone
  cases hone

theorem wellFormed_rotated_iff {h : History Call Reply} {m m' : SecretRotationManager} (hrecorded : Recorded h m)
    (hm : WellFormed h m) {c : Call} {reply : Reply} {name : String} {config : RotationConfig}
    (hconfig : m.configs[name]? = some config) {v : SecretVersion} (hv : v.active = true)
    (hissued : issuedBy (c, reply) = some ⟨name, v.version, v.secret, true⟩)
    (hsecrets : m'.secrets = (m.deactivate name).secrets.insert name
      ((v :: (m.deactivate name).secrets[name]?.getD []).take config.keepVersions.toNat)) :
    WellFormed (h ++ [(c, reply)]) m' ↔ ∀ i ∈ issues h, i.name = name → i.number < v.version := by
  constructor
  · intro hm' i hi hin
    exact (pairwise_snoc_iff hissued hm.increasing).1 hm'.increasing i hi hin rfl
  · intro habove
    obtain ⟨versions, hversions⟩ := hrecorded.present name config hconfig
    have hlookup : ∀ n : String, m'.secrets[n]? =
        if n = name then some ((v :: deactivated versions).take config.keepVersions.toNat) else m.secrets[n]? := by
      intro n
      rw [hsecrets, HashMap.getElem?_insert, secrets_deactivate, secrets_deactivate, if_pos rfl, hversions]
      split <;> rfl
    -- the new number is above every number that is stored
    have hnew : v.version ∉ versions.map (·.version) := by
      intro hmem
      obtain ⟨w, hw, hsame⟩ := List.mem_map.1 hmem
      obtain ⟨i, hi, hin, hnumber⟩ := hrecorded.stored name versions hversions w hw
      have hlt := habove i hi hin
      rw [hnumber, hsame] at hlt
      exact absurd hlt (UInt32.lt_irrefl _)
    have hnodup : ((v :: deactivated versions).map (·.version)).Nodup := by
      rw [List.map_cons, map_version_deactivated, List.nodup_cons]
      exact ⟨hnew, hm.distinct name versions hversions⟩
    have hdistinct : (((v :: deactivated versions).take config.keepVersions.toNat).map (·.version)).Nodup :=
      hnodup.sublist ((List.take_sublist _ _).map _)
    have hactive := countP_take_cons hv versions (hrecorded.keeps name config hconfig)
    have hunique := (pairwise_snoc_iff hissued hm.unique).2 fun i hi hin hsame =>
      absurd (hsame ▸ habove i hi hin) (UInt32.lt_irrefl _)
    have hincreasing := (pairwise_snoc_iff hissued hm.increasing).2 fun i hi hin _ => habove i hi hin
    exact wellFormed_of_insert hm hlookup hdistinct hactive hunique hincreasing

theorem wellFormed_call_iff (plusSeconds : DateTime → UInt64 → Except String DateTime) {h : History Call Reply}
    {m : SecretRotationManager} {c : Call} (hrecorded : Recorded h m) (hm : WellFormed h m) :
    WellFormed (h ++ [(c, (call plusSeconds m c).1)]) (call plusSeconds m c).2 ↔ Numbered plusSeconds h m c := by
  have hstep := call_step plusSeconds m c
  generalize (call plusSeconds m c).1 = reply at hstep ⊢
  generalize (call plusSeconds m c).2 = m' at hstep ⊢
  cases hstep with
  | refused hnone hrotation hregistration =>
    have hissues : issues (h ++ [(c, reply)]) = issues h := by
      rw [issues_snoc, hnone, Option.toList_none, List.append_nil]
    rw [wellFormed_congr hissues rfl]
    refine iff_of_true hm ?_
    cases c with
    | register env name secret config =>
      intro expiresAt hexpiry
      exact absurd hexpiry (hregistration env name secret config expiresAt rfl)
    | rotate env name =>
      intro config hconfig
      rw [hrotation env name rfl] at hconfig
      cases hconfig
    | rollback env name version => trivial
  | @registered env name secret config expiresAt hexpiry =>
    rw [wellFormed_registered_iff hm]
    exact ⟨fun hfirst _ _ => hfirst, fun hfirst => hfirst expiresAt hexpiry⟩
  | @failed env name config e hconfig hfailure =>
    refine iff_of_false (not_wellFormed_deactivate hrecorded hconfig) ?_
    intro hnumbered
    obtain ⟨hmaterial, hexpiry, -⟩ := hnumbered config hconfig
    exact hfailure ⟨hmaterial, hexpiry⟩
  | @rotated env name config secret expiresAt rotation hconfig hmaterial hexpiry hnumber =>
    rw [wellFormed_rotated_iff hrecorded hm hconfig rfl (by simp [issuedBy, hnumber, hmaterial]) rfl,
      above_iff hrecorded hconfig]
    constructor
    · intro habove config' hconfig'
      rw [hconfig] at hconfig'
      cases hconfig'
      exact ⟨⟨secret, hmaterial⟩, ⟨expiresAt, hexpiry⟩, habove⟩
    · intro hnumbered
      exact (hnumbered config hconfig).2.2
  | @rolledBack env name version versions index rotation hstored hinside =>
    have hissues : issues (h ++ [(Call.rollback env name version, Reply.rotated (.ok rotation))]) = issues h := by
      rw [issues_snoc]
      exact List.append_nil _
    have hdistinct : ((activateAt index versions).map (·.version)).Nodup := by
      rw [map_version_activateAt]
      exact hm.distinct name versions hstored
    refine iff_of_true ?_ trivial
    exact wellFormed_of_insert hm (HashMap.getElem?_insert _ _ · _) hdistinct (countP_activateAt hinside)
      (hissues ▸ hm.unique) (hissues ▸ hm.increasing)

theorem recorded_new : Recorded [] new := by
  refine ⟨?_, ?_, ?_, ?_⟩ <;> intro name _ h <;> simp [new] at h

theorem wellFormed_new : WellFormed [] new := by
  refine ⟨?_, ?_, List.Pairwise.nil, List.Pairwise.nil⟩ <;> intro name _ h <;> simp [new] at h

/-- The secrets stay well-formed in exactly the runs whose registrations and rotations all number
as they should. -/
theorem wellFormed_iff_numbered (plusSeconds : DateTime → UInt64 → Except String DateTime) (calls : List Call)
    (hkeeps : ∀ c ∈ calls, Keeps c) :
    (call plusSeconds).Throughout WellFormed [] new calls ↔ (call plusSeconds).Along (Numbered plusSeconds)
    [] new calls :=
  Machine.throughout_iff_along_of (fun _ _ _ => recorded_call plusSeconds)
    (fun _ _ _ _ => wellFormed_call_iff plusSeconds) recorded_new wellFormed_new hkeeps

/-- `now + Duration::seconds(ttl)` for a time to live that fits. -/
def sumSeconds (now : DateTime) (ttl : UInt64) : Except String DateTime := .ok (now + ttl.toNat * 1000000000)

/-- The call made at second `t`, whose random bytes are all `byte`. -/
def sampleEnv (t : ℕ) (byte : UInt8) : SecretEnv :=
  let now := t * 1000000000
  { checked := fun _ => now, now, completed := now, random := .ok (List.replicate 32 byte), uuid := t }

/-- A password with a time to live of an hour, of which five versions are kept. -/
def sampleConfig : RotationConfig := ⟨3600, 5⟩

/-- Registered, rotated, rolled back before anything newer than it, and rotated once more. -/
def plainRun : List Call :=
  [.register (sampleEnv 0 1) "db_password" [1] sampleConfig, .rotate (sampleEnv 10 2) "db_password",
    .rollback (sampleEnv 20 3) "db_password" 2, .rotate (sampleEnv 30 4) "db_password"]

theorem keeps_plainRun : ∀ c ∈ plainRun, Keeps c := by
  simp [plainRun, Keeps, sampleConfig]

theorem wellFormed_plainRun : (call sumSeconds).Throughout WellFormed [] new plainRun := by
  refine (wellFormed_iff_numbered sumSeconds plainRun keeps_plainRun).2 ⟨?_, ?_, trivial, ?_, trivial⟩
  · intro expiresAt _ i hi
    cases hi
  · intro config _
    refine ⟨⟨_, rfl⟩, ⟨_, rfl⟩, ⟨1, [1], 0, 3600000000000, true⟩, by decide +kernel, by decide, ?_⟩
    decide +kernel
  · intro config _
    refine ⟨⟨_, rfl⟩, ⟨_, rfl⟩, ⟨2, List.replicate 32 2, 10000000000, 3610000000000, true⟩,
      by decide +kernel, by decide, ?_⟩
    decide +kernel

/-- Rolled back to its first version while its second one is stored. -/
def rolledBackRun : List Call :=
  [.register (sampleEnv 0 1) "db_password" [1] sampleConfig, .rotate (sampleEnv 10 2) "db_password",
    .rollback (sampleEnv 20 3) "db_password" 1, .rotate (sampleEnv 30 4) "db_password"]

/-- The rotation after the rollback gives the number 2 to another value, and stores both. -/
theorem not_wellFormed_rolledBackRun :
    (∀ c ∈ rolledBackRun, Keeps c) ∧ ¬ (call sumSeconds).Throughout WellFormed [] new rolledBackRun ∧
      ((call sumSeconds).final new rolledBackRun).secrets["db_password"]?.map (·.map (·.version)) = some [2, 2, 1] := by
  refine ⟨by simp [rolledBackRun, Keeps, sampleConfig], ?_, by decide +kernel⟩
  intro hwell
  obtain ⟨hdistinct, -, -, -⟩ := hwell.final
  have hstored := hdistinct "db_password" _ (by rfl)
  exact absurd hstored (by decide +kernel)

end SecretRotationManager

end GmKms.Secret
