import TenantReports.Validation.Issue
import TenantReports.Value.Basic

/-!
Why an operation fails. A fault holds its cause; `Fault.message` words it.
-/

namespace TenantReports

/-- What a custom report specification lacks or gets wrong. -/
inductive SpecFault (Column : Type)
  | noDataSource
  | noSelectedColumn
  | aggregate (name : String)
  | join (name : String)
  | operator (name : String)
  | direction (name : String)
  /-- A choice among no values. -/
  | emptyChoice (column : Column)
  /-- A range that is not given by two bounds. -/
  | rangeBounds (column : Column)
  | nullComparison (operator : String) (column : Column)
  | unknownTable (name : String)

/-- What a schedule gets wrong. -/
inductive ScheduleFault
  | time (given : Value)
  | cron (given : Value)
  | weekday (given : Int)
  | monthDay (given : Int)
  | type (name : String)

/-- A value that is no number of the kind asked for, one outside the range of that kind, or one that
nothing can be divided by. -/
inductive NumberFault
  | notWhole (given : Value)
  | notReal (given : Value)
  | undefinedFloat
  | undefinedNumeric
  | infiniteFloat
  | infiniteNumeric
  | signaling
  | tooLargeForFloat
  | tooManyDigits (count : Nat)
  | tooManyDigitsToShow
  | zeroDivisor

/-- A point in time or a span outside the calendar. -/
inductive CalendarFault
  | outsideCalendar
  | year (n : Nat)
  | span (days : Int)

inductive RecordKind
  | tenant
  | definition
  | customReport
  | execution
  | schedule
deriving DecidableEq, Repr

/-- The two moments at which a connection's search path changes. -/
inductive PathChange
  | set
  | reset
deriving DecidableEq, Repr

/-- The kinds of failure that come from outside: of work on a connection, and of the database. -/
inductive OutsideKind
  | value
  | key
  | runtime
  | database
deriving DecidableEq, Repr

/-- Why a file cannot be written or deleted. -/
inductive FileFault
  | fileExists
  | notDirectory
  | isDirectory
  | nameTooLong
  | zeroInPath
deriving DecidableEq, Repr

/-- Why a variable of the environment cannot be set. -/
inductive VariableFault
  | zeroInText
  | equalsSignInName
deriving DecidableEq, Repr

/-- Why a request to the API is refused. -/
inductive Refusal
  /-- The request cannot be read. -/
  | unreadable (issues : List Issue)
  /-- What the request asks for is not possible. -/
  | badInput (text : String)
  | queryFailed (text : String) (execution : Uuid)
  | forbidden
  | missing (kind : RecordKind)
  | notReady (text : String)
  | schemaInUse
  | notProvisioned (text : String)
  /-- The database refuses what a request wants to store. -/
  | databaseError
  | noStorage
  | noConnection
  | noRoute
  | wrongMethod

inductive Fault
  | invalidIdentifier (name : Value)
  | spec (fault : SpecFault String)
  | schedule (fault : ScheduleFault)
  | number (fault : NumberFault)
  | calendar (fault : CalendarFault)
  | exportFormat (name : String)
  | parameter (typeName : String)
  | untrusted (role typeName : String)
  | missingKey (key : Value)
  /-- A value of a type that an operation is not made for. -/
  | mistyped
  /-- A value without the operation that is asked of it. -/
  | noOperation
  | noItem
  | queryRejected (text : String) (execution : Uuid)
  | searchPath (change : PathChange) (schema : String)
  | notFound (kind : RecordKind) (id : Uuid)
  | tenantNotReady (id : Uuid) (status : String)
  | joinsForbidden (role : Value)
  | reportForbidden (role : Value) (report : String)
  | outside (kind : OutsideKind) (text : String)
  | cancelled
  | integrity
  | file (fault : FileFault)
  | storeStatus (status : Nat)
  | noStoreEndpoint
  /-- A pool of connections with a negative size. -/
  | negativePool
  /-- A header with characters that are not ASCII. -/
  | headerEncoding
  /-- A body with a number that JSON has no text for. -/
  | unwritable
  /-- The address of a request cannot be read. -/
  | badAddress
  /-- The address of a request names no host. -/
  | unknownAddress (url : String)
  /-- A file is to be stored, but there is no store. -/
  | noStore
  /-- The region whose clock is asked for is not known. -/
  | unknownRegion (name : String)
  | settings
  | environment (fault : VariableFault)
  | response
  | invalid (issues : List Issue)
  | refused (refusal : Refusal)
  /-- A connection failed after the answer was given. -/
  | lateFailure
  /-- A request was cancelled before it had an answer. -/
  | noAnswer

abbrev Result := Except Fault

namespace SpecFault

/-- The same fault, with its column written in another way. -/
def map {α β : Type} (f : α → β) : SpecFault α → SpecFault β
  | noDataSource => noDataSource
  | noSelectedColumn => noSelectedColumn
  | aggregate name => aggregate name
  | join name => join name
  | operator name => operator name
  | direction name => direction name
  | emptyChoice column => emptyChoice (f column)
  | rangeBounds column => rangeBounds (f column)
  | nullComparison name column => nullComparison name (f column)
  | unknownTable name => unknownTable name

def message : SpecFault String → String
  | noDataSource => "At least one data source is required"
  | noSelectedColumn => "At least one selected column is required"
  | aggregate name => "Unsupported aggregate: " ++ Text.quote name
  | join name => "Unsupported join type: " ++ Text.quote name
  | operator name => "Unsupported filter operator: " ++ Text.quote name
  | direction name => "Unsupported sort direction: " ++ Text.quote name
  | emptyChoice column => "IN filter on " ++ column ++ " needs at least one value"
  | rangeBounds column => "BETWEEN filter on " ++ column ++ " needs exactly two values"
  | nullComparison name column =>
      name ++ " filter on " ++ column ++ " cannot compare with NULL"
  | unknownTable name => "Table not found: " ++ name

end SpecFault

namespace ScheduleFault

def message : ScheduleFault → String
  | time given => "Invalid schedule time: " ++ given.shown
  | cron given => "Unsupported cron expression: " ++ given.shown
  | weekday given => "Invalid day_of_week: " ++ Decimal.intText given
  | monthDay given => "Invalid day_of_month: " ++ Decimal.intText given
  | type name => "Unknown schedule type: " ++ name

end ScheduleFault

namespace NumberFault

/-- The most digits that a whole number is read from or written with. -/
def digitLimit : Nat := 4300

def limitText : String :=
  "Exceeds the limit (" ++ Decimal.natText digitLimit ++ " digits) for integer string conversion"

def raiseLimitText : String := "; use sys.set_int_max_str_digits() to increase the limit"

def message : NumberFault → String
  | notWhole given => "invalid literal for int() with base 10: " ++ given.shown
  | notReal given => "could not convert string to float: " ++ given.shown
  | undefinedFloat => "cannot convert float NaN to integer"
  | undefinedNumeric => "cannot convert NaN to integer"
  | infiniteFloat => "cannot convert float infinity to integer"
  | infiniteNumeric => "cannot convert Infinity to integer"
  | signaling => "cannot convert signaling NaN to float"
  | tooLargeForFloat => "int too large to convert to float"
  | tooManyDigits count =>
      limitText ++ ": value has " ++ Decimal.natText count ++ " digits" ++ raiseLimitText
  | tooManyDigitsToShow => limitText ++ raiseLimitText
  | zeroDivisor => "float division by zero"

/-- Whether the number exists but lies outside the range. -/
def isOverflow : NumberFault → Bool
  | infiniteFloat | infiniteNumeric | tooLargeForFloat => true
  | _ => false

end NumberFault

namespace CalendarFault

/-- Whether a number of days is beyond the words that spans are counted in. -/
def isBeyondWord (days : Int) : Bool := days < -2147483648 || 2147483647 < days

def message : CalendarFault → String
  | outsideCalendar => "date value out of range"
  | year n => "year " ++ Decimal.natText n ++ " is out of range"
  | span days =>
      if isBeyondWord days then "Python int too large to convert to C int"
      else "days=" ++ Decimal.intText days ++ "; must have magnitude <= 999999999"

/-- Whether the fault is of arithmetic and not of a date's fields. -/
def isOverflow : CalendarFault → Bool
  | year _ => false
  | _ => true

end CalendarFault

namespace FileFault

def message : FileFault → String
  | fileExists => "file exists"
  | notDirectory => "not a directory"
  | isDirectory => "is a directory"
  | nameTooLong => "file name too long"
  | zeroInPath => "embedded null byte"

def isInput : FileFault → Bool
  | zeroInPath => true
  | _ => false

end FileFault

def VariableFault.message : VariableFault → String
  | zeroInText => "embedded null byte"
  | equalsSignInName => "illegal environment variable name"

def RecordKind.title : RecordKind → String
  | tenant => "Tenant"
  | definition => "Report definition"
  | customReport => "Custom report"
  | execution => "Report execution"
  | schedule => "Scheduled report"

def PathChange.message (schema : String) : PathChange → String
  | set => "Failed to set search_path to schema " ++ schema
  | reset => "Failed to reset search_path after work on schema " ++ schema

namespace Fault

def message : Fault → String
  | invalidIdentifier name => "Invalid identifier: " ++ name.shown
  | spec fault => fault.message
  | schedule fault => fault.message
  | number fault => fault.message
  | calendar fault => fault.message
  | exportFormat name => "Unsupported export format: " ++ name
  | parameter typeName => "Unsupported report parameter value: " ++ typeName
  | untrusted role typeName => role ++ " must be a TrustedSqlFragment, got " ++ typeName
  | missingKey key => key.shown
  | mistyped => "unsupported type"
  | noOperation => "unsupported operation"
  | noItem => "index out of range"
  | queryRejected text _ => text
  | searchPath change schema => change.message schema
  | notFound kind id => kind.title ++ " not found: " ++ id.toText
  | tenantNotReady id status =>
      "Tenant " ++ id.toText ++ " is not ready (status: " ++ status ++ ")"
  | joinsForbidden role => "Role " ++ role.shown ++ " may not author join predicates"
  | reportForbidden role report => "Role " ++ role.shown ++ " may not run report " ++ report
  | outside .key text => Text.quote text
  | outside _ text => text
  | cancelled => ""
  | integrity => "<database error>"
  | file fault => fault.message
  | storeStatus status => "status " ++ Decimal.natText status
  | noStoreEndpoint => "STORAGE_HTTP_ENDPOINT must be set for the http storage backend"
  | negativePool => "\"max_connections\" must be a positive integer"
  | headerEncoding => "header is not ASCII"
  | unwritable => "Out of range float values are not JSON compliant"
  | badAddress => "bad address"
  | unknownAddress url => "unknown url type: " ++ Text.quote url
  | noStore => "'NoneType' object has no attribute 'put'"
  | unknownRegion name => Text.quote ("No time zone found with key " ++ name)
  | settings => "invalid settings"
  | environment fault => fault.message
  | response => "invalid response"
  | invalid _ => "<ValidationError>"
  | refused _ => "refused"
  | lateFailure => "Caught handled exception, but response already started."
  | noAnswer => "No response returned."

/-- Whether what the caller sent is at fault. -/
def isInput : Fault → Bool
  | invalidIdentifier _ | spec _ | schedule _ | exportFormat _ | parameter _ => true
  | outside .value _ | noStoreEndpoint | negativePool | headerEncoding | unwritable
  | unknownAddress _ | environment _ | invalid _ => true
  | number .zeroDivisor => false
  | number fault => !fault.isOverflow
  | calendar fault => !fault.isOverflow
  | file fault => fault.isInput
  | _ => false

end Fault

end TenantReports
