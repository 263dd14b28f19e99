import GmKms.Core.Types
import Mathlib
/-!
# Approval requests and break-glass requests

The data of `kms-approval`: what a request records, its states, and the levels
and roles that votes are weighed by.
-/

namespace GmKms.Approval

inductive OperationType where
  | keyDelete | keyExport | keyRotate | policyChange | highValueKeyCreate | auditAccess | mfaChange
  | tenantAdmin
  deriving DecidableEq, Repr

inductive ApprovalStatus where
  | pending | approved | rejected | cancelled | expired | emergencyActivated | emergencyExpired
  deriving DecidableEq, Repr

/-- `ApprovalStatus::isTerminal`. The two emergency states do not count. -/
def ApprovalStatus.isTerminal : ApprovalStatus → Bool
  | .approved | .rejected | .cancelled | .expired => true
  | _ => false

inductive ApprovalLevel where
  | none | single | double | triple | manager | admin
  deriving DecidableEq, Repr

namespace ApprovalLevel

/-- The discriminant, which the derived order compares. -/
def rank : ApprovalLevel → ℕ
  | none => 0
  | single => 1
  | double => 2
  | triple => 3
  | manager => 4
  | admin => 5

theorem rank_injective : Function.Injective rank := by
  intro a b h
  cases a <;> cases b <;> simp_all [rank]

instance : LinearOrder ApprovalLevel := LinearOrder.lift' rank rank_injective

end ApprovalLevel

/-- `OperationType::default_required_level`. -/
def OperationType.defaultRequiredLevel : OperationType → ApprovalLevel
  | .keyDelete => .double
  | .keyExport => .triple
  | .highValueKeyCreate => .manager
  | .keyRotate => .double
  | .policyChange => .double
  | .auditAccess => .single
  | .mfaChange => .single
  | .tenantAdmin => .admin

inductive Role where
  | user | operator | manager | admin | securityOfficer
  deriving DecidableEq, Repr

structure ApprovalRecord where
  approverId : String
  level : ApprovalLevel
  approvedAt : DateTime
  comment : Option String
  deriving DecidableEq

structure RejectionRecord where
  rejectorId : String
  level : ApprovalLevel
  rejectedAt : DateTime
  reason : String
  deriving DecidableEq

/-- An approval request. The `metadata` field is left out: `create_request`
sets it to the empty object and nothing reads it. -/
structure ApprovalRequestEntity where
  id : Uuid
  operation : OperationType
  resourceId : String
  resourceType : String
  tenantId : String
  requestorId : String
  justification : Option String
  status : ApprovalStatus
  requiredLevel : ApprovalLevel
  currentLevel : ApprovalLevel
  approvals : List ApprovalRecord
  rejections : List RejectionRecord
  createdAt : DateTime
  expiresAt : DateTime
  completedAt : Option DateTime
  deriving DecidableEq

inductive BreakGlassStatus where
  | pendingDualApproval | activated | expired | cancelled
  deriving DecidableEq, Repr

structure BreakGlassRequest where
  id : Uuid
  operation : OperationType
  resourceId : String
  resourceType : String
  tenantId : String
  requestorId : String
  emergencyReason : String
  firstApproverId : String
  secondApproverId : String
  durationMinutes : ℕ
  status : BreakGlassStatus
  createdAt : DateTime
  expiresAt : DateTime
  deriving DecidableEq

/-- The errors of `kms-approval` that the engine raises. -/
inductive ApprovalError where
  | requestNotFound
  | requestAlreadyCompleted
  | requestExpired
  | alreadyVoted
  | insufficientApprovalLevel
  | notAuthorized
  | selfApproval
  | invalidConfig (reason : String)
  | workflowError (reason : String)
  deriving DecidableEq, Repr

end GmKms.Approval
