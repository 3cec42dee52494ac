/-!
The settings of the application.
-/

namespace TenantReports

inductive Environment
  | development
  | testing
  | staging
  | production
deriving DecidableEq, Repr

namespace Environment

def ofName? : String → Option Environment
  | "development" => some development
  | "testing" => some testing
  | "staging" => some staging
  | "production" => some production
  | _ => none

def name : Environment → String
  | development => "development"
  | testing => "testing"
  | staging => "staging"
  | production => "production"

end Environment

/-- Which defaults and further tests the settings have. -/
inductive Profile
  | plain
  | development
  | testing
  | production
deriving DecidableEq, Repr

structure ApiSettings where
  title : String
  description : String
  version : String
  host : String
  port : Int

structure DatabaseSettings where
  url : String
  poolSize : Int
  maxOverflow : Int
  poolRecycle : Int
  createsSharedSchema : Bool

structure LoggingSettings where
  level : String
  format : String
  toFile : Bool
  filePath : String

structure RedisSettings where
  host : String
  port : Int
  db : Int
  password : Option String
  maxConnections : Int

structure CacheSettings where
  backend : String
  ttl : Int
  enabled : Bool

structure StorageSettings where
  backend : String
  localPath : String
  publicUrl : String
  httpEndpoint : Option String
  httpToken : Option String

structure ReportSettings where
  timezone : String
  batchLimit : Int
  trendDays : Int
  comparisonDays : Int
  migrationsDirectory : Option String
  managerRoles : List String

structure Settings where
  profile : Profile
  environment : Environment
  debug : Bool
  api : ApiSettings
  database : DatabaseSettings
  logging : LoggingSettings
  redis : RedisSettings
  cache : CacheSettings
  storage : StorageSettings
  reports : ReportSettings

/-- A secret that is set: an empty one counts as none. -/
def secretText (secret : Option String) : Option String := secret.filter (· ≠ "")

namespace ReportSettings

/-- Whether a role may author SQL that runs verbatim. -/
def isManager (settings : ReportSettings) : Option String → Bool
  | some role => settings.managerRoles.contains role
  | none => false

end ReportSettings

end TenantReports
