import Mathlib.Logic.Basic

/-! # Audit actions

The categories of audit events and their names, which are the values of the SQL type
`audit_action`.
-/

namespace PatchManager

inductive AuditAction where
  | userLogin
  | userLogout
  | userLoginFailed
  | userCreated
  | userDeleted
  | userUpdated
  | hostRegistered
  | hostRemoved
  | hostUpdated
  | groupCreated
  | groupDeleted
  | groupMembershipChanged
  | patchJobCreated
  | patchJobCancelled
  | patchJobRollback
  | maintenanceWindowCreated
  | maintenanceWindowUpdated
  | maintenanceWindowDeleted
  | certificateIssued
  | certificateRenewed
  | certificateRevoked
  | certificateDownloaded
  | configChanged
  | discoveryScanStarted
  | auditIntegrityVerified
  | emailNotificationSent
  | patchJobCompleted
  | patchJobFailed
  | maintenanceWindowReminder
  | healthCheckCreated
  | healthCheckUpdated
  | healthCheckDeleted
  | certificateReissued
  | oidcConfigUpdated
  | smtpConfigUpdated
  | ipWhitelistUpdated
  | oidcTestPerformed
  | oidcDiscoverPerformed
  | crlStatusChanged
  | crlStaleDetected
  | crlInvalid
  | upgradeTriggered
  | batchUpgradeTriggered
  | auditChainRepaired
  | rebootRefused
deriving DecidableEq, Repr

def AuditAction.asStr : AuditAction → String
  | .userLogin => "user_login"
  | .userLogout => "user_logout"
  | .userLoginFailed => "user_login_failed"
  | .userCreated => "user_created"
  | .userDeleted => "user_deleted"
  | .userUpdated => "user_updated"
  | .hostRegistered => "host_registered"
  | .hostRemoved => "host_removed"
  | .hostUpdated => "host_updated"
  | .groupCreated => "group_created"
  | .groupDeleted => "group_deleted"
  | .groupMembershipChanged => "group_membership_changed"
  | .patchJobCreated => "patch_job_created"
  | .patchJobCancelled => "patch_job_cancelled"
  | .patchJobRollback => "patch_job_rollback"
  | .maintenanceWindowCreated => "maintenance_window_created"
  | .maintenanceWindowUpdated => "maintenance_window_updated"
  | .maintenanceWindowDeleted => "maintenance_window_deleted"
  | .certificateIssued => "certificate_issued"
  | .certificateRenewed => "certificate_renewed"
  | .certificateRevoked => "certificate_revoked"
  | .certificateDownloaded => "certificate_downloaded"
  | .configChanged => "config_changed"
  | .discoveryScanStarted => "discovery_scan_started"
  | .auditIntegrityVerified => "audit_integrity_verified"
  | .emailNotificationSent => "email_notification_sent"
  | .patchJobCompleted => "patch_job_completed"
  | .patchJobFailed => "patch_job_failed"
  | .maintenanceWindowReminder => "maintenance_window_reminder"
  | .healthCheckCreated => "health_check_created"
  | .healthCheckUpdated => "health_check_updated"
  | .healthCheckDeleted => "health_check_deleted"
  | .certificateReissued => "certificate_reissued"
  | .oidcConfigUpdated => "oidc_config_updated"
  | .smtpConfigUpdated => "smtp_config_updated"
  | .ipWhitelistUpdated => "ip_whitelist_updated"
  | .oidcTestPerformed => "oidc_test_performed"
  | .oidcDiscoverPerformed => "oidc_discover_performed"
  | .crlStatusChanged => "crl_status_changed"
  | .crlStaleDetected => "crl_stale_detected"
  | .crlInvalid => "crl_invalid"
  | .upgradeTriggered => "upgrade_triggered"
  | .batchUpgradeTriggered => "batch_upgrade_triggered"
  | .auditChainRepaired => "audit_chain_repaired"
  | .rebootRefused => "reboot_refused"

end PatchManager
