import GmKms.Core.Types
/-!
# Event types

The event types of the audit log with the names under which they are written.
-/

namespace GmKms

inductive EventType where
  | keyCreated | keyAccessed | keyMaterialAccessed | keyEncrypted | keyDecrypted | keySigned | keyVerified
  | keyRotated | keyDeleted | keyDestroyed | keyImported | keyExportRequested | keyExported
  | policyCreated | policyUpdated | policyDeleted | policyChanged | policyEvaluated
  | accessGranted | accessDenied
  | systemStarted | systemStopped | healthCheck | selfTestPassed | selfTestFailed
  | adminLogin | adminLogout | configChanged
  | mfaSetup | mfaVerified | mfaFailed | mfaBackupCodeUsed
  | apiKeyCreated | apiKeyRotated | apiKeyRevoked
  | rateLimitTriggered
  | sessionCreated | sessionExpired
  | backupCreated | backupRestored
  | approvalRequested | approvalGranted | approvalDenied
  deriving DecidableEq, Repr

namespace EventType

/-- The name in `SCREAMING_SNAKE_CASE`. -/
def name : EventType → String
  | keyCreated => "KEY_CREATED"
  | keyAccessed => "KEY_ACCESSED"
  | keyMaterialAccessed => "KEY_MATERIAL_ACCESSED"
  | keyEncrypted => "KEY_ENCRYPTED"
  | keyDecrypted => "KEY_DECRYPTED"
  | keySigned => "KEY_SIGNED"
  | keyVerified => "KEY_VERIFIED"
  | keyRotated => "KEY_ROTATED"
  | keyDeleted => "KEY_DELETED"
  | keyDestroyed => "KEY_DESTROYED"
  | keyImported => "KEY_IMPORTED"
  | keyExportRequested => "KEY_EXPORT_REQUESTED"
  | keyExported => "KEY_EXPORTED"
  | policyCreated => "POLICY_CREATED"
  | policyUpdated => "POLICY_UPDATED"
  | policyDeleted => "POLICY_DELETED"
  | policyChanged => "POLICY_CHANGED"
  | policyEvaluated => "POLICY_EVALUATED"
  | accessGranted => "ACCESS_GRANTED"
  | accessDenied => "ACCESS_DENIED"
  | systemStarted => "SYSTEM_STARTED"
  | systemStopped => "SYSTEM_STOPPED"
  | healthCheck => "HEALTH_CHECK"
  | selfTestPassed => "SELF_TEST_PASSED"
  | selfTestFailed => "SELF_TEST_FAILED"
  | adminLogin => "ADMIN_LOGIN"
  | adminLogout => "ADMIN_LOGOUT"
  | configChanged => "CONFIG_CHANGED"
  | mfaSetup => "MFA_SETUP"
  | mfaVerified => "MFA_VERIFIED"
  | mfaFailed => "MFA_FAILED"
  | mfaBackupCodeUsed => "MFA_BACKUP_CODE_USED"
  | apiKeyCreated => "API_KEY_CREATED"
  | apiKeyRotated => "API_KEY_ROTATED"
  | apiKeyRevoked => "API_KEY_REVOKED"
  | rateLimitTriggered => "RATE_LIMIT_TRIGGERED"
  | sessionCreated => "SESSION_CREATED"
  | sessionExpired => "SESSION_EXPIRED"
  | backupCreated => "BACKUP_CREATED"
  | backupRestored => "BACKUP_RESTORED"
  | approvalRequested => "APPROVAL_REQUESTED"
  | approvalGranted => "APPROVAL_GRANTED"
  | approvalDenied => "APPROVAL_DENIED"

def all : List EventType :=
  [keyCreated, keyAccessed, keyMaterialAccessed, keyEncrypted, keyDecrypted, keySigned, keyVerified, keyRotated,
   keyDeleted, keyDestroyed, keyImported, keyExportRequested, keyExported, policyCreated, policyUpdated,
   policyDeleted, policyChanged, policyEvaluated, accessGranted, accessDenied, systemStarted, systemStopped,
   healthCheck, selfTestPassed, selfTestFailed, adminLogin, adminLogout, configChanged, mfaSetup, mfaVerified,
   mfaFailed, mfaBackupCodeUsed, apiKeyCreated, apiKeyRotated, apiKeyRevoked, rateLimitTriggered, sessionCreated,
   sessionExpired, backupCreated, backupRestored, approvalRequested, approvalGranted, approvalDenied]

def ofName? (s : String) : Option EventType := all.find? (·.name = s)

theorem ofName?_name (t : EventType) : ofName? t.name = some t := by
  cases t <;> decide +kernel

end EventType

end GmKms
