import TenantReports.Storage.Local
import TenantReports.Storage.Remote

/-!
Steps of work on a store of files.
-/

namespace TenantReports

inductive StoreStep
  | put (key content contentType : String) (status : Nat)
  | delete (key : String) (status : Nat)

namespace StoreStep

/-- What a step on a local store answers, and the store after it. -/
def performLocal (step : StoreStep) (store : LocalStore) : Result (Option String) × LocalStore :=
  match step with
  | put key content _ _ =>
      let (outcome, store) := store.put key content
      (outcome.map some, store)
  | delete key _ =>
      let (outcome, store) := store.delete key
      (outcome.map fun _ => none, store)

def performAllLocal : List StoreStep → LocalStore → List (Result (Option String) × LocalStore)
  | [], _ => []
  | step :: steps, store =>
      let (outcome, store) := step.performLocal store
      (outcome, store) :: performAllLocal steps store

/-- What a step on a remote store answers, and the requests that it sends. -/
def performRemote (store : RemoteStore) :
    StoreStep → Result (Option String) × List StoreRequest
  | put key content contentType status =>
      let (outcome, requests) := store.put key content contentType status
      (outcome.map some, requests)
  | delete key status =>
      let (outcome, requests) := store.delete key status
      (outcome.map fun _ => none, requests)

end StoreStep

end TenantReports
