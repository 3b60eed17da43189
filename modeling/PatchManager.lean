import PatchManager.Verified.AuditChain
import PatchManager.Verified.Lifecycle
import PatchManager.Verified.WindowOpen
import PatchManager.Verified.Rollup
import PatchManager.Verified.EventAttribution
import PatchManager.Verified.Plain
import PatchManager.Verified.Passive
import PatchManager.Verified.Dispatch
import PatchManager.Verified.AtMostOnce
import PatchManager.Verified.Cancellation
import PatchManager.Engine.Keys
import PatchManager.Verified.WindowCompliance
import PatchManager.Verified.AttemptAttribution
import PatchManager.Verified.RollUpDuty
import PatchManager.Verified.ParentAgreement
import PatchManager.Verified.ReportPaths
import PatchManager.Verified.FaithfulDispatch
import PatchManager.Verified.BackOff
import PatchManager.Verified.CompletionMail
import PatchManager.Verified.Creation
import PatchManager.Verified.Coverage
import PatchManager.Verified.UpgradeVerdict
import PatchManager.Verified.RetryAccounting
import PatchManager.Conc.Schedule
import PatchManager.Verified.HandoffCodes
import PatchManager.Verified.Tickets
import PatchManager.Verified.Rotation
import PatchManager.Verified.ForcedLogout
import PatchManager.Verified.BruteForce
import PatchManager.Verified.RenewalPairs
import PatchManager.Verified.ClientDownload
import PatchManager.Verified.LostUpdates
import PatchManager.Verified.CidrScan
import PatchManager.Verified.RefreshErrors
import PatchManager.Verified.Lockout
import PatchManager.Verified.AutoJobs
import PatchManager.Verified.Repair
import PatchManager.Verified.SerialAppends
import PatchManager.Verified.ForwardedFor
import PatchManager.Verified.Allowlist
import PatchManager.Verified.Delivery
import PatchManager.Verified.Approval
import PatchManager.Verified.SuiteMaps
import PatchManager.Web.Enrollment
import PatchManager.Verified.RepoPaths
import PatchManager.Repo.Sync
import PatchManager.Verified.Catalogue
import PatchManager.Verified.Revocation
import PatchManager.Verified.SmtpSettings
import PatchManager.Verified.SecretMigration
import PatchManager.Verified.HealthStatus
import PatchManager.Web.Hosts
import PatchManager.Verified.HostList
import PatchManager.Verified.ReconnectEnds
import PatchManager.Verified.RelayEnds
import PatchManager.Verified.TimeoutSweep
import PatchManager.Verified.AttemptTimeout
import PatchManager.Verified.VersionOrder
import PatchManager.Verified.UpgradeFlag
import PatchManager.Verified.SyncTwice
import PatchManager.Web.ApiClient
import PatchManager.Verified.TokenRefresh
import PatchManager.Calendar.Months
import PatchManager.Calendar.Stepping
import PatchManager.Web.MaintenanceWindows
import PatchManager.Web.CalendarPage
import PatchManager.Verified.CalendarView
import PatchManager.Conc.Published
import PatchManager.Repo.Generators
import PatchManager.Verified.IndexAgreement
import PatchManager.Verified.UpgradeTrigger
import PatchManager.Repo.PkgInfo
import PatchManager.Verified.Dependencies
import PatchManager.Verified.PacmanDatabase
import PatchManager.Verified.Pruning
import PatchManager.Verified.HealthGate
import PatchManager.Verified.RebootGate
import PatchManager.Verified.Concurrency
import PatchManager.Verified.LandedUpgrade
import PatchManager.Verified.DnfMetadata
import PatchManager.Verified.ArArchive
import PatchManager.Verified.GzipMembers
import PatchManager.Verified.Resigning
import PatchManager.Verified.RpmHeaders
import PatchManager.Verified.AptPackages
import PatchManager.Verified.PackageDeletion
import PatchManager.Verified.SkippedDownloads
import PatchManager.Verified.OneAutoJob
import PatchManager.Verified.OriginCheck
import PatchManager.Verified.Hysteresis
import PatchManager.Web.HealthChecks
import PatchManager.Verified.PartialUpdate
import PatchManager.Verified.RelayClaims
import PatchManager.Reports.Csv
import PatchManager.Verified.TerminalNotice
import PatchManager.Verified.PackageCounts
import PatchManager.Verified.Privileges
import PatchManager.Verified.Pkce
import PatchManager.Verified.FirstPassword
import PatchManager.Verified.Snapshots
import PatchManager.Verified.JobWebSocket
import PatchManager.Verified.KeyFiles
import PatchManager.Verified.CheckResults
