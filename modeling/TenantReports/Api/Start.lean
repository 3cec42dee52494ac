import TenantReports.Settings.Backends
import TenantReports.Settings.Form
import TenantReports.Tenant.Directory

/-!
The start of the application.
-/

namespace TenantReports.Api

/-- Builds the table cache and the store of files that the settings call for, and makes the shared
schema where they ask for it. -/
def start : Work (TableCache × FileStore) := do
  let settings ← Work.settings
  let backends ← Action.ofResult settings.startBackends
  if settings.database.createsSharedSchema then Directory.createSchema sharedSchema
  return backends

end TenantReports.Api
