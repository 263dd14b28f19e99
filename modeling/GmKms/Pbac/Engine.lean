import GmKms.Audit.Formats
import GmKms.Core.Error
import GmKms.Core.UuidText
import GmKms.Lib.Machine
/-!
# The policy engine and its store

`PBACEngine` decides out of an in-memory map and writes every change through to a
`PolicyRepository`. The repository is any implementation whose calls are atomic: a
call that fails changes nothing.
-/

namespace GmKms.Pbac

open Audit (Value IterOrder)

instance transOrd_string : Std.TransOrd String := inferInstance

inductive PolicyEffect where
  | allow | deny
  deriving DecidableEq, Repr

/-- `kms_policy::Policy`. -/
structure Policy (F : Type) where
  id : Uuid
  name : String
  effect : PolicyEffect
  condition : Value F
  resources : List String
  subjects : List String
  tenant : Option String
  enabled : Bool

inductive PolicyStoreError where
  | unavailable (message : String)
  | malformed (message : String)
  deriving DecidableEq, Repr

def PolicyStoreError.text : PolicyStoreError → String
  | unavailable message => s!"policy store unavailable: {message}"
  | malformed message => s!"stored policy is malformed: {message}"

/-! ## The repository -/

/-- The rows of a repository: one for an id. -/
structure PolicyTable (F : Type) where
  rows : HashMap Uuid (Policy F)
  ids : ∀ (id : Uuid) (p : Policy F), rows[id]? = some p → p.id = id

namespace PolicyTable

variable {F : Type}

def empty : PolicyTable F := ⟨∅, by simp⟩

/-- Insert a policy, replacing a row with the same id. -/
def save (t : PolicyTable F) (policy : Policy F) : PolicyTable F where
  rows := t.rows.insert policy.id policy
  ids id p h := by
    rw [Std.ExtTreeMap.getElem?_insert] at h
    split at h
    · rename_i heq
      cases h
      exact Std.compare_eq_iff_eq.1 heq
    · exact t.ids id p h

def delete (t : PolicyTable F) (id : Uuid) : PolicyTable F where
  rows := t.rows.erase id
  ids id' p h := by
    rw [Std.ExtTreeMap.getElem?_erase] at h
    split at h
    · cases h
    · exact t.ids id' p h

/-- The rows, in the order in which the repository returns them. -/
def loadAll (order : IterOrder (Policy F)) (t : PolicyTable F) : List (Policy F) :=
  order.arrange (t.rows.toList.map (·.2))

end PolicyTable

/-! ## The engine -/

/-- The engine's policies by the text of their ids, and the repository it writes through to. -/
structure PBACEngine (F : Type) where
  policies : HashMap String (Policy F)
  repository : Option (PolicyTable F)

namespace PBACEngine

variable {F : Type}

def new : PBACEngine F := ⟨∅, none⟩

def withRepository (e : PBACEngine F) (t : PolicyTable F) : PBACEngine F := { e with repository := some t }

/-- `replace_all`. -/
def replaceAll (e : PBACEngine F) (policies : List (Policy F)) : PBACEngine F :=
  { e with policies := Std.ExtTreeMap.ofList (policies.map fun p => (p.id.text, p)) compare }

/-- `load_from_repository`, on a repository that may fail. -/
def loadFromRepository (order : IterOrder (Policy F)) (fault : Option PolicyStoreError) (e : PBACEngine F) :
    Except Error (ℕ × PBACEngine F) :=
  match e.repository with
  | none => .error (.internal "no policy repository is configured")
  | some t =>
    match fault with
    | some err => .error (.internal s!"load policies: {err.text}")
    | none => .ok ((t.loadAll order).length, e.replaceAll (t.loadAll order))

end PBACEngine

/-! ## Calls that change policies -/

inductive PolicyCall (F : Type) where
  | addPolicy (policy : Policy F)
  | removePolicy (id : Uuid)

namespace PolicyCall

variable {F : Type}

def id : PolicyCall F → Uuid
  | addPolicy policy => policy.id
  | removePolicy id => id

/-- What the call writes under the id. -/
def effect : PolicyCall F → Option (Policy F)
  | addPolicy policy => some policy
  | removePolicy _ => none

/-- The step on the repository, if there is one. -/
def persist (fault : Option PolicyStoreError) (e : PBACEngine F) : PolicyCall F → Except Error (PBACEngine F)
  | addPolicy policy =>
    match e.repository, fault with
    | none, _ => .ok e
    | some _, some err => .error (.internal s!"persist policy: {err.text}")
    | some t, none => .ok { e with repository := some (t.save policy) }
  | removePolicy id =>
    match e.repository, fault with
    | none, _ => .ok e
    | some _, some err => .error (.internal s!"delete policy: {err.text}")
    | some t, none => .ok { e with repository := some (t.delete id) }

/-- The step on the map, under its lock. -/
def install (e : PBACEngine F) : PolicyCall F → PBACEngine F
  | addPolicy policy => { e with policies := e.policies.insert policy.id.text policy }
  | removePolicy id => { e with policies := e.policies.erase id.text }

end PolicyCall

/-- How far a call has come. -/
inductive CallPhase (F : Type) where
  | called (c : PolicyCall F)
  | persisted (c : PolicyCall F)

structure EngineRun (F : Type) where
  engine : PBACEngine F
  calls : ℕ → Option (CallPhase F)

/-- A call starts, or takes its next step on a repository that may fail. -/
inductive EngineInput (F : Type) where
  | call (n : ℕ) (c : PolicyCall F)
  | next (n : ℕ) (fault : Option PolicyStoreError)

namespace EngineRun

variable {F : Type}

def setCall (n : ℕ) (phase : Option (CallPhase F)) (s : EngineRun F) : EngineRun F :=
  { s with calls := Function.update s.calls n phase }

/-- Any number of calls at once. The answer is what a call returns with the step. -/
def step : Lib.Machine (EngineRun F) (EngineInput F) (Option (Except Error Unit)) := fun s i =>
  match i with
  | .call n c =>
    match s.calls n with
    | some _ => (none, s)
    | none => (none, s.setCall n (some (.called c)))
  | .next n fault =>
    match s.calls n with
    | none => (none, s)
    | some (.called c) =>
      match c.persist fault s.engine with
      | .error err => (some (.error err), s.setCall n none)
      | .ok engine => (none, ({ s with engine } : EngineRun F).setCall n (some (.persisted c)))
    | some (.persisted c) =>
      (some (.ok ()), ({ s with engine := c.install s.engine } : EngineRun F).setCall n none)

end EngineRun

end GmKms.Pbac
