import TenantReports.Settings.Basic
import TenantReports.Validation.Form

/-!
Settings as answers carry them.
-/

namespace TenantReports

/-- The part of every path that leads to the application. -/
def apiRoot : String := "/api"

/-- The schema of the tables that all tenants share. -/
def sharedSchema : String := "shared"

def intForm (n : Int) : Form := .value (.int n)

def flagForm (b : Bool) : Form := .value (.bool b)

def ApiSettings.form (api : ApiSettings) : Form :=
  .record
    [("title", .text api.title), ("description", .text api.description),
     ("version", .text api.version), ("host", .text api.host), ("port", intForm api.port),
     ("prefix", .text apiRoot)]

def DatabaseSettings.form (database : DatabaseSettings) : Form :=
  .record
    [("url", .text database.url), ("pool_size", intForm database.poolSize),
     ("max_overflow", intForm database.maxOverflow),
     ("pool_recycle", intForm database.poolRecycle), ("shared_schema", .text sharedSchema),
     ("auto_create_shared_schema", flagForm database.createsSharedSchema)]

def LoggingSettings.form (logging : LoggingSettings) : Form :=
  .record
    [("level", .text logging.level), ("format", .text logging.format),
     ("file_enabled", flagForm logging.toFile), ("file_path", .text logging.filePath)]

def RedisSettings.form (redis : RedisSettings) : Form :=
  .record
    [("host", .text redis.host), ("port", intForm redis.port), ("db", intForm redis.db),
     ("password", .orNull .text (secretText redis.password)),
     ("max_connections", intForm redis.maxConnections)]

def CacheSettings.form (cache : CacheSettings) : Form :=
  .record
    [("backend", .text cache.backend), ("ttl", intForm cache.ttl),
     ("enabled", flagForm cache.enabled)]

def StorageSettings.form (storage : StorageSettings) : Form :=
  .record
    [("backend", .text storage.backend), ("local_path", .text storage.localPath),
     ("public_url", .text storage.publicUrl),
     ("http_endpoint", .orNull .text storage.httpEndpoint),
     ("http_token", .orNull .text (secretText storage.httpToken))]

def ReportSettings.form (reports : ReportSettings) : Form :=
  .record
    [("timezone", .text reports.timezone), ("scheduler_batch_limit", intForm reports.batchLimit),
     ("snapshot_trend_days", intForm reports.trendDays),
     ("comparison_days", intForm reports.comparisonDays),
     ("tenant_migrations_dir", .orNull .text reports.migrationsDirectory),
     ("manager_roles", .texts reports.managerRoles)]

def Settings.form (settings : Settings) : Form :=
  .record
    [("environment", .text settings.environment.name), ("debug", flagForm settings.debug),
     ("api", settings.api.form), ("logging", settings.logging.form),
     ("database", settings.database.form), ("redis", settings.redis.form),
     ("cache", settings.cache.form), ("storage", settings.storage.form),
     ("reports", settings.reports.form)]

end TenantReports
