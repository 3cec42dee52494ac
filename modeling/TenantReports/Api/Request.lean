import TenantReports.Text.Basic
import TenantReports.Url.Basic
import TenantReports.Validation.Reader
import TenantReports.Value.Plain

/-!
Requests to the API, and what is read from their parts. Names of headers may be in letters of any
case; of a query parameter that is given more than once, the last value counts.
-/

namespace TenantReports

open Validated (issue)

structure ApiRequest where
  method : String
  path : String
  query : List (String × String)
  headers : List (String × String)
  /-- A body that is null counts as none. -/
  body : Option Value

namespace ApiRequest

/-! Targets -/

def plusAsBlank (c : Char) : Char := if c = '+' then ' ' else c

/-- A query parameter, with its name and its value decoded. -/
def parameter (cs : List Char) : String × String :=
  let name := cs.takeWhile (· ≠ '=')
  let value := (cs.drop name.length).tail
  (Text.percentDecoded (name.map plusAsBlank), Text.percentDecoded (value.map plusAsBlank))

def parametersOf (query : List Char) : List (String × String) :=
  ((Text.split '&' query).filter (· ≠ [])).map parameter

/-- The application's own address, below which targets are found. -/
def home : Url := .ofHost "test"

def addressOf? (target : String) : Option Url :=
  (Url.ofChars? target.toList).bind (Url.resolve? home)

/-! Headers -/

def lowerCase (s : String) : String := String.ofList (s.toList.map Char.toLower)

def upperCase (s : String) : String := String.ofList (s.toList.map Char.toUpper)

/-- Names and values of headers are ASCII texts. -/
def checkHeader (header : String × Value) : Result (String × String) :=
  match header.2 with
  | .text value =>
      if Text.isAscii header.1 && Text.isAscii value then .ok (header.1, value)
      else .error .headerEncoding
  | _ => .error (if Text.isAscii header.1 then .mistyped else .headerEncoding)

/-- The value of a header; of several the first. -/
def headerIn? (headers : List (String × String)) (name : String) : Option String :=
  (headers.find? fun header => lowerCase header.1 == name).map (·.2)

/-- Whether a content type says that the body is JSON. -/
def isJsonType (contentType : String) : Bool :=
  let type := Text.trim ((lowerCase contentType).toList.takeWhile (· ≠ ';'))
  match Text.split '/' type with
  | [main, sub] =>
      main = "application".toList && (sub = "json".toList || "+json".toList.isSuffixOf sub)
  | _ => false

/-- A body as it arrives: what is not said to be JSON is bytes. -/
def bodyIn (headers : List (String × String)) : Value → Option Value
  | .null => none
  | v =>
      match headerIn? headers "content-type" with
      | none | some "" => some v
      | some contentType => some (if isJsonType contentType then v else .bytes [])

/-- The request that is sent to a target; a method may be named in small letters. -/
def ofTarget (method target : String) (headers : List (String × Value)) (body : Value) :
    Result ApiRequest := do
  let some url := addressOf? target | throw .badAddress
  let headers ← headers.mapM checkHeader
  unless body.isFinite do throw .unwritable
  return {
    method := upperCase method
    path := url.decodedPath
    query := (url.query.map parametersOf).getD []
    headers
    body := bodyIn headers body }

/-! Parts -/

def header? (request : ApiRequest) (name : String) : Option String :=
  headerIn? request.headers name

def parameter? (request : ApiRequest) (name : String) : Option String :=
  request.query.reverse.lookup name

/-- A part of a request, with its place on the path of every issue. -/
def placed {α : Type} (place name : String) (part : Validated α) : Validated α :=
  (part.under (.field name)).under (.field place)

def requiredHeader {α : Type} (request : ApiRequest) (name : String) (reader : Reader α) :
    Validated α :=
  placed "header" name <|
    match request.header? name with
    | some s => reader (.text s)
    | none => issue .missing

def optionalHeader {α : Type} (request : ApiRequest) (name : String) (reader : Reader α) :
    Validated (Option α) :=
  match request.header? name with
  | some s => (placed "header" name (reader (.text s))).map some
  | none => .valid none

/-- The tenant for which the request acts. -/
def tenant (request : ApiRequest) : Validated Uuid := request.requiredHeader "x-tenant-id" Read.uuid

/-- The user who makes the request. -/
def user (request : ApiRequest) : Validated (Option Uuid) :=
  request.optionalHeader "x-user-id" Read.uuid

/-- The role of that user. -/
def role (request : ApiRequest) : Option String := request.header? "x-user-role"

def optionalParameter {α : Type} (request : ApiRequest) (name : String) (reader : Reader α) :
    Validated (Option α) :=
  match request.parameter? name with
  | some s => (placed "query" name (reader (.text s))).map some
  | none => .valid none

/-- A whole number between bounds, with a default. -/
def wholeParameter (request : ApiRequest) (name : String) (low high : Option Int)
    (default : Int) : Validated Int :=
  (request.optionalParameter name (Read.wholeIn low high)).map (·.getD default)

def readBody {α : Type} (request : ApiRequest) (reader : Reader α) : Validated α :=
  match request.body with
  | none => (issue .missing).under (.field "body")
  | some v =>
      match reader v with
      | .valid a => .valid a
      | .invalid issues => .invalid (issues.map fun i => (i.inBody).under (.field "body"))

/-- An identifier in the path. -/
def idInPath (name argument : String) : Validated Uuid :=
  placed "path" name (Read.uuid (.text argument))

end ApiRequest

end TenantReports
