import TenantReports.Cache.TableCache
import TenantReports.Settings.Basic
import TenantReports.Storage.Steps

/-!
The table cache and the store of files that settings call for.
-/

namespace TenantReports

/-- A store of files, as it is set up. -/
inductive FileStore
  | served (store : LocalStore)
  | remote (store : RemoteStore) (authorization : Option String)

namespace Settings

def buildCache (settings : Settings) : Result TableCache :=
  if settings.cache.backend = "redis" then
    if settings.redis.maxConnections < 0 then .error .negativePool else .ok (.shared .empty)
  else .ok (.memory .empty)

/-- The header that authorizes requests to a remote store. -/
def authorization (settings : Settings) : Option String :=
  (secretText settings.storage.httpToken).map ("Bearer " ++ ·)

/-- A remote store needs an endpoint, and a header holds ASCII characters only. -/
def buildStore (settings : Settings) : Result FileStore :=
  if settings.storage.backend = "http" then
    match secretText settings.storage.httpEndpoint with
    | some endpoint =>
        if settings.authorization.all Text.isAscii then
          .ok (.remote (.ofEndpoint endpoint) settings.authorization)
        else .error .headerEncoding
    | none => .error .noStoreEndpoint
  else .ok (.served (.empty settings.storage.publicUrl))

/-- The cache and then the store, as the settings call for them. -/
def buildBackends (settings : Settings) : Result (TableCache × FileStore) := do
  let cache ← settings.buildCache
  return (cache, ← settings.buildStore)

/-- What is built when the application starts; a cache that is switched off is none. -/
def startBackends (settings : Settings) : Result (TableCache × FileStore) := do
  let cache ← if settings.cache.enabled then settings.buildCache else pure .disabled
  return (cache, ← settings.buildStore)

end Settings

end TenantReports
