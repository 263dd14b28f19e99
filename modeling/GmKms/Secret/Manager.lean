import GmKms.Core.Error
import GmKms.Core.Types
import GmKms.Lib.Machine
/-!
# Versioned secrets

`SecretRotationManager`: every secret has numbered versions, one of them active, and is
rotated to new ones and rolled back to stored ones.
-/

namespace GmKms.Secret

open Lib

instance transOrd_name : Std.TransOrd String := inferInstance

structure SecretVersion where
  version : UInt32
  secret : Bytes
  createdAt : DateTime
  expiresAt : DateTime
  active : Bool
  deriving DecidableEq

def SecretVersion.isExpired (v : SecretVersion) (now : DateTime) : Bool := v.expiresAt < now

/-- `RotationConfig`, less the grace period, which only `needs_rotation` reads, and the type and the
validation hooks, which nothing reads. -/
structure RotationConfig where
  ttlSeconds : UInt64
  keepVersions : UInt32

inductive RotationState where
  | idle | pending | rotating | validating | rollingBack | completed | failed
  deriving DecidableEq

structure SecretRotation where
  id : Uuid
  secretName : String
  tenantId : String
  state : RotationState
  oldVersion : Option UInt32
  newVersion : Option UInt32
  error : Option String
  startedAt : DateTime
  completedAt : Option DateTime
  deriving DecidableEq

structure SecretRotationManager where
  secrets : HashMap String (List SecretVersion)
  configs : HashMap String RotationConfig
  rotations : List SecretRotation

/-- What a call reads from outside: the clock, once for each expiry it checks and at its start and
end, `csprng::random_bytes` and a fresh id. -/
structure SecretEnv where
  checked : Clock
  now : DateTime
  completed : DateTime
  random : Except String Bytes
  uuid : Uuid

namespace SecretRotationManager

def new : SecretRotationManager := ⟨∅, ∅, []⟩

def notFound (name : String) : Abort := .error (.internal s!"Secret {name} not found")

/-- The first active version that is not expired; the `k`-th expiry check reads `checked k`. -/
def findActive (checked : Clock) : ℕ → List SecretVersion → Option SecretVersion
  | _, [] => none
  | k, v :: versions =>
    if v.active then if v.isExpired (checked k) then findActive checked (k + 1) versions else some v
    else findActive checked k versions

def getActive (m : SecretRotationManager) (checked : Clock) (name : String) : Option SecretVersion :=
  m.secrets[name]?.bind (findActive checked 0)

def deactivated (versions : List SecretVersion) : List SecretVersion :=
  versions.map fun v => { v with active := false }

section

/- `now + Duration::seconds(ttl)`: the sum, or the message of the panic when it is out of range. -/
variable (plusSeconds : DateTime → UInt64 → Except String DateTime)

def register (m : SecretRotationManager) (env : SecretEnv) (name : String) (initialSecret : Bytes)
    (config : RotationConfig) : Except Abort UInt32 × SecretRotationManager :=
  match plusSeconds env.now config.ttlSeconds with
  | .error message => (.error (.panic message), m)
  | .ok expiresAt =>
    let version := { version := 1, secret := initialSecret, createdAt := env.now, expiresAt, active := true }
    (.ok 1, { m with
      secrets := m.secrets.insert name [version]
      configs := m.configs.insert name config })

/-- The old versions of a secret are deactivated before anything can fail. -/
def deactivate (m : SecretRotationManager) (name : String) : SecretRotationManager :=
  match m.secrets[name]? with
  | none => m
  | some versions => { m with secrets := m.secrets.insert name (deactivated versions) }

def rotate (m : SecretRotationManager) (env : SecretEnv) (name : String) :
    Except Abort SecretRotation × SecretRotationManager :=
  match m.configs[name]? with
  | none => (.error (notFound name), m)
  | some config =>
    let oldVersion := (m.getActive env.checked name).map (·.version)
    let m := m.deactivate name
    match env.random with
    | .error e => (.error (.error (.internal s!"CSPRNG failure: {e}")), m)
    | .ok newSecret =>
      match plusSeconds env.now config.ttlSeconds with
      | .error message => (.error (.panic message), m)
      | .ok expiresAt =>
        let newVersionNum := oldVersion.getD 0 + 1
        let newVersion :=
          { version := newVersionNum, secret := newSecret, createdAt := env.now, expiresAt, active := true }
        -- trimming pops from the end
        let versions := (newVersion :: m.secrets[name]?.getD []).take config.keepVersions.toNat
        let rotation :=
          { id := env.uuid
            secretName := name
            tenantId := "default"
            state := .completed
            oldVersion
            newVersion := some newVersionNum
            error := none
            startedAt := env.now
            completedAt := some env.completed }
        (.ok rotation, { m with
          secrets := m.secrets.insert name versions
          rotations := m.rotations ++ [rotation] })

end

/-- The versions with the one at `index` active. -/
def activateAt (index : ℕ) (versions : List SecretVersion) : List SecretVersion :=
  (deactivated versions).modify index fun v => { v with active := true }

def rollback (m : SecretRotationManager) (env : SecretEnv) (name : String) (version : UInt32) :
    Except Abort SecretRotation × SecretRotationManager :=
  match m.secrets[name]? with
  | none => (.error (notFound name), m)
  | some versions =>
    match versions.findIdx? fun v => v.version = version with
    | none =>
      let n := version.toNat
      (.error (.error (.internal s!"Version {n} not found")), m)
    | some targetIdx =>
      let versions := activateAt targetIdx versions
      let oldVersion := (versions.find? fun v => v.active ∧ v.version ≠ version).map (·.version)
      let rotation :=
        { id := env.uuid
          secretName := name
          tenantId := "default"
          state := .completed
          oldVersion
          newVersion := some version
          error := none
          startedAt := env.now
          completedAt := some env.now }
      (.ok rotation, { m with
        secrets := m.secrets.insert name versions
        rotations := m.rotations ++ [rotation] })

/-! ## Calls -/

inductive Call where
  | register (env : SecretEnv) (name : String) (initialSecret : Bytes) (config : RotationConfig)
  | rotate (env : SecretEnv) (name : String)
  | rollback (env : SecretEnv) (name : String) (version : UInt32)

inductive Reply where
  | registered (r : Except Abort UInt32)
  | rotated (r : Except Abort SecretRotation)

/-- The manager as a machine that answers calls. -/
def call (plusSeconds : DateTime → UInt64 → Except String DateTime) : Machine SecretRotationManager Call Reply
  | m, .register env name initialSecret config =>
    (m.register plusSeconds env name initialSecret config).map .registered id
  | m, .rotate env name => (m.rotate plusSeconds env name).map .rotated id
  | m, .rollback env name version => (m.rollback env name version).map .rotated id

end SecretRotationManager

end GmKms.Secret
