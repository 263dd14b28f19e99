import GmKms.Lib.Machine
import GmKms.Core.Types
import GmKms.Approval.Workflow
import GmKms.Approval.Engine
import GmKms.Approval.BreakGlass
import GmKms.Approval.Soundness
import GmKms.Core.Error
import GmKms.Core.Key
import GmKms.Keystore.Validation
import GmKms.Keystore.Software
import GmKms.Keystore.SoftwareRotation
import GmKms.Lib.Effect
import GmKms.Lib.Json
import GmKms.Keystore.Crypto
import GmKms.Keystore.BoundedCache
import GmKms.Keystore.Repository
import GmKms.Keystore.Postgres
import GmKms.Keystore.PostgresCalls
import GmKms.Keystore.Destruction
import GmKms.Keystore.Coherence
import GmKms.Keystore.Reload
import GmKms.Keystore.Transparency
import GmKms.Lib.Text
import GmKms.Lib.JsonText
import GmKms.Lib.JsonRoundTrip
import GmKms.Lib.Sha256
import GmKms.Core.Event
import GmKms.Audit.Formats
import GmKms.Audit.Entry
import GmKms.Audit.Storage
import GmKms.Audit.PlainFormats
import GmKms.Audit.Survival
import GmKms.Lib.HashChain
import GmKms.Audit.HonestLog
import GmKms.Audit.Verifier
import GmKms.Audit.Directory
import GmKms.Audit.Worm
import GmKms.Audit.Logger
import GmKms.Lib.InFlight
import GmKms.Audit.LoggerChain
import GmKms.Audit.LogRun
import GmKms.Audit.WormVerify
import GmKms.Keystore.Rotation
import GmKms.Core.UuidText
import GmKms.Lib.WriteThrough
import GmKms.Pbac.Engine
import GmKms.Pbac.WriteThrough
import GmKms.Keystore.Sm2KexMessage
import GmKms.Lib.Window
import GmKms.Keystore.Sm2KexSession
import GmKms.Keystore.Sm2KexManager
import GmKms.Keystore.Sm2KexReplay
import GmKms.Keystore.Sm2KexDistributed
import GmKms.Lib.Bytes
import GmKms.Lib.Interpolation
import GmKms.Shamir.Field
import GmKms.Shamir.Scheme
import GmKms.Shamir.Reconstruct
import GmKms.Shamir.Secrecy
import GmKms.Shamir.Verify
import GmKms.Lib.Program
import GmKms.Lib.Base64
import GmKms.Lib.Deduction
import GmKms.Keystore.SoftwareUse
import GmKms.Keystore.Backend
import GmKms.Keystore.SoftwareSteps
import GmKms.Keystore.Retention
import GmKms.Keystore.ContextBinding
import GmKms.Api.Error
import GmKms.Api.Service
import GmKms.Api.CryptoService
import GmKms.Api.EnvelopeService
import GmKms.Api.KeyService
import GmKms.Api.KeyOperation
import GmKms.Api.CrossTenant
import GmKms.Api.ExportRecovery
import GmKms.Api.Calls
import GmKms.Api.Lifecycle
import GmKms.Api.Verification
import GmKms.Api.WrappedDek
import GmKms.Api.Labels
import GmKms.Api.Rewrapping
import GmKms.Secret.Manager
import GmKms.Secret.Numbering
import GmKms.Sm9.RotationAdapter
import GmKms.Sm9.Registry
import GmKms.Keystore.KeyAgreement
import GmKms.Mfa.BackupCodes
import GmKms.Mfa.Lockout
import GmKms.Mfa.LockoutAgreement
import GmKms.Mfa.Totp
import GmKms.Keystore.RedisCache
import GmKms.Lib.ExceptRel
import GmKms.Api.Auth
import GmKms.Api.Validation
import GmKms.Api.KeyImport
import GmKms.Api.Server
import GmKms.Api.Rest
import GmKms.Api.Grpc
import GmKms.Api.Channels
import GmKms.Api.ChannelAgreement
import GmKms.Api.CallerAad
import GmKms.Backup.Service
import GmKms.Backup.PlainPrimitives
import GmKms.Backup.History
import GmKms.Lib.Glob
import GmKms.Lib.TextSlice
import GmKms.Pbac.Glob
import GmKms.Pbac.Evaluate
import GmKms.Api.ApiKeys
import GmKms.Api.ApiKeyRights
import GmKms.Api.Authentication
import GmKms.Hsm.Tpm
import GmKms.Hsm.TpmSteps
import GmKms.Hsm.PcrBinding
import GmKms.Hsm.TpmRules
import GmKms.Keystore.ValidMaterial
import GmKms.Keystore.SoftwareUsable
import GmKms.Keystore.PostgresMaterial
import GmKms.Keystore.PostgresValid
import GmKms.Keystore.PostgresUsable
import GmKms.Mfa.Verification
import GmKms.Mfa.Counters
import GmKms.Mfa.GuessBound
import GmKms.Keystore.CacheRun
import GmKms.Pbac.CoreGlob
import GmKms.Pbac.DenyOverrides
import GmKms.Approval.Monotonicity
import GmKms.Keystore.Sm2KeyRange
import GmKms.Keystore.MetadataRoundTrip
import GmKms.Keystore.RateLimiter
import GmKms.Keystore.SlidingWindow
import GmKms.Keystore.RateLimiterRace
import GmKms.Lib.ProgramPool
import GmKms.Lib.Utf8
import GmKms.Lib.Der
import GmKms.Audit.GenTime
import GmKms.Audit.GenTimeRange
import GmKms.Audit.DerCursor
import GmKms.Audit.Timestamp
import GmKms.Audit.DerWalk
import GmKms.Audit.TokenDigest
import GmKms.Audit.ParserPanics
import GmKms.Audit.TokenExtraction
import GmKms.Audit.TimestampRequest
import GmKms.Api.EnvelopePanics
import GmKms.Api.MacInput
import GmKms.Api.PemImport
import GmKms.Api.JwkImport
import GmKms.Shamir.Coefficients
import GmKms.Pbac.Conditions
import GmKms.Pbac.Identity
import GmKms.Pbac.TimeOfDay
import GmKms.Mfa.TotpChecked
import GmKms.Secret.ActiveVersion
import GmKms.Mfa.SecretMigration
import GmKms.Api.Rotation
import GmKms.Lib.MapEntries
import GmKms.Api.Anomaly
import GmKms.Api.AnomalyCounts
import GmKms.Keystore.Listing
import GmKms.Api.RateLimit
import GmKms.Mfa.BackupCodeGenerator
import GmKms.Lib.Base32
import GmKms.Lib.Uri
import GmKms.Mfa.Provisioning
import GmKms.Sm9.FailedCalls
import GmKms.Keystore.KeySpecs
import GmKms.Api.Sm9Rotation
import GmKms.Mfa.StoredConfig
import GmKms.Audit.Archive
import GmKms.Hsm.TpmSignatures
import GmKms.Approval.TenantViews
import GmKms.Operator.Reconciler
import GmKms.Operator.Steps
import GmKms.Operator.ManualRotation
import GmKms.Operator.OneKey
import GmKms.Cli.Report
import GmKms.Api.Metrics
import GmKms.Api.StatusGauges
import GmKms.Keystore.EvictionOrder
import GmKms.Audit.UnixTime
import GmKms.Audit.Buffer
import GmKms.Api.Approvals
import GmKms.Api.MultiParty
import GmKms.Api.KeyQuota
import GmKms.Api.RequestQuota
import GmKms.Api.TenantIsolation
import GmKms.Keystore.Sm2KexStore
import GmKms.Keystore.Durability
import GmKms.Core.Csprng
import GmKms.Api.Startup
