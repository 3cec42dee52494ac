import TenantReports.Storage.Key
import TenantReports.Url.Basic

/-!
A store of files behind an HTTP endpoint. A file is stored and deleted by one request each, and
any answer but success is a failure; a file that is not there is deleted already.
-/

namespace TenantReports

structure RemoteStore where
  endpoint : String
deriving DecidableEq, Repr

/-- A request to the endpoint. -/
structure StoreRequest where
  method : String
  url : String
  contentType : Option String
  body : String
deriving DecidableEq, Repr

namespace RemoteStore

def ofEndpoint (endpoint : String) : RemoteStore := ⟨withoutTrailingSlashes endpoint⟩

def urlOf (store : RemoteStore) (key : String) : String := store.endpoint ++ "/" ++ key

/-- The address to which a request for a key goes. -/
def addressOf (store : RemoteStore) (key : String) : Result Url := do
  let _ ← FilePath.ofKey? key
  match (Url.ofChars? (store.urlOf key).toList).bind (Url.resolve? .blank) with
  | some url => return url
  | none => throw .badAddress

def isSuccess (status : Nat) : Bool := 200 ≤ status && status < 300

def isGone (status : Nat) : Bool := status == 404

/-- How a request ends that the endpoint answers with `status`. What an address without a host
answers cannot be taken in. -/
def outcome (url : Url) (isAccepted : Bool) (status : Nat) : Result Unit :=
  if url.scheme = [] then .error (.unknownAddress url.toText)
  else if isAccepted then .ok ()
  else .error (.storeStatus status)

/-- Stores a file under a key, where the endpoint answers `status`; the request that is sent, if
any, and the file's URL. -/
def put (store : RemoteStore) (key content contentType : String) (status : Nat) :
    Result String × List StoreRequest :=
  match store.addressOf key with
  | .error fault => (.error fault, [])
  | .ok url =>
      if Text.isAscii contentType then
        ((outcome url (isSuccess status) status).map fun _ => store.urlOf key,
          [⟨"PUT", url.toText, some contentType, content⟩])
      else (.error .headerEncoding, [])

/-- Deletes the file under a key, where the endpoint answers `status`. -/
def delete (store : RemoteStore) (key : String) (status : Nat) :
    Result Unit × List StoreRequest :=
  match store.addressOf key with
  | .error fault => (.error fault, [])
  | .ok url =>
      (outcome url (isSuccess status || isGone status) status,
        [⟨"DELETE", url.toText, none, ""⟩])

end RemoteStore

end TenantReports
