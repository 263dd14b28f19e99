import GmKms.Core.Error
import GmKms.Lib.Text
/-!
# API keys and what they may do

The roles of API keys with their permissions, the identity that authentication attaches
to a request, and the outcome of a policy decision.
-/

namespace GmKms.Api

/-- The bits of `Permission`. -/
inductive Permission where
  | listKeys | getKey
  | encrypt | decrypt | sign | verify | hash | dhDerive
  | createKey | deleteKey | rotateKey | importKey | exportKey
  | managePolicy | viewAudit | exportAudit | manageApiKeys | manageMfa | approveAction
  deriving DecidableEq, Repr

/-- The `Debug` text that `bitflags` writes. -/
def Permission.debug : Permission → String
  | listKeys => "Permission(LIST_KEYS)"
  | getKey => "Permission(GET_KEY)"
  | encrypt => "Permission(ENCRYPT)"
  | decrypt => "Permission(DECRYPT)"
  | sign => "Permission(SIGN)"
  | verify => "Permission(VERIFY)"
  | hash => "Permission(HASH)"
  | dhDerive => "Permission(DH_DERIVE)"
  | createKey => "Permission(CREATE_KEY)"
  | deleteKey => "Permission(DELETE_KEY)"
  | rotateKey => "Permission(ROTATE_KEY)"
  | importKey => "Permission(IMPORT_KEY)"
  | exportKey => "Permission(EXPORT_KEY)"
  | managePolicy => "Permission(MANAGE_POLICY)"
  | viewAudit => "Permission(VIEW_AUDIT)"
  | exportAudit => "Permission(EXPORT_AUDIT)"
  | manageApiKeys => "Permission(MANAGE_API_KEYS)"
  | manageMfa => "Permission(MANAGE_MFA)"
  | approveAction => "Permission(APPROVE_ACTION)"

/-- The role of an API key. -/
inductive ApiKeyPermission where
  | readOnly | operator | keyAdmin | securityOfficer | auditAdmin | tenantAdmin
  deriving DecidableEq, Repr

/-- `str::to_lowercase` as a comparison with an ASCII text sees it: the Kelvin sign is the one character besides
the ASCII letters whose lower case is one. -/
def toLowercase (s : String) : String := s.map fun c => if c = '\u212A' then 'k' else c.toLower

namespace ApiKeyPermission

def fromRoleName (name : String) : Option ApiKeyPermission :=
  let trimmed := (name.toList.dropWhile Lib.Text.isWhiteSpace).rdropWhile Lib.Text.isWhiteSpace
  let normalized := (toLowercase (String.ofList trimmed)).map fun c => if c = '_' then '-' else c
  match normalized with
  | "read-only" | "readonly" | "reader" => some readOnly
  | "operator" => some operator
  | "key-admin" | "keyadmin" => some keyAdmin
  | "security-officer" | "securityofficer" | "officer" => some securityOfficer
  | "audit-admin" | "auditadmin" | "auditor" => some auditAdmin
  | "tenant-admin" | "tenantadmin" => some tenantAdmin
  | _ => none

def permissions : ApiKeyPermission → List Permission
  | readOnly => [.listKeys, .getKey]
  | operator => [.listKeys, .getKey, .encrypt, .decrypt, .sign, .verify, .hash, .dhDerive]
  | keyAdmin =>
    [.listKeys, .getKey, .encrypt, .decrypt, .sign, .verify, .hash, .dhDerive, .createKey, .deleteKey, .rotateKey,
      .importKey, .exportKey]
  | securityOfficer => [.listKeys, .getKey, .viewAudit, .managePolicy, .manageApiKeys, .manageMfa, .approveAction]
  | auditAdmin => [.viewAudit, .exportAudit]
  | tenantAdmin => [.listKeys, .getKey, .approveAction]

def satisfies (role : ApiKeyPermission) (required : Permission) : Bool := role.permissions.contains required

/-- A role may read keys or not, whichever of the two permissions is asked for. -/
theorem satisfies_getKey (role : ApiKeyPermission) : role.satisfies .getKey = role.satisfies .listKeys := by
  cases role <;> rfl

/-- A role with one of the permissions for data has them all. -/
theorem satisfies_crypto (role : ApiKeyPermission) {p : Permission} (hp : p ∈ [.decrypt, .sign, .verify]) :
    role.satisfies p = role.satisfies .encrypt := by
  simp only [List.mem_cons, List.not_mem_nil, or_false] at hp
  rcases hp with rfl | rfl | rfl <;> cases role <;> rfl

/-- A role that may create keys may do all that the life of a key needs. -/
theorem satisfies_lifecycle (role : ApiKeyPermission) {p : Permission}
    (hp : p ∈ [.deleteKey, .rotateKey, .importKey, .exportKey]) : role.satisfies p = role.satisfies .createKey := by
  simp only [List.mem_cons, List.not_mem_nil, or_false] at hp
  rcases hp with rfl | rfl | rfl | rfl <;> cases role <;> rfl

end ApiKeyPermission

/-- What authentication attaches to a request: role, id and bound tenant of the API key. -/
structure Caller where
  role : ApiKeyPermission
  keyId : String
  tenantId : Option String

inductive PbacOutcome where
  | allowed | denied
  deriving DecidableEq, Repr

end GmKms.Api
