import TenantReports.Report.Request

/-!
What requests about schedules carry.
-/

namespace TenantReports

def scheduleTypes : List String := ["daily", "weekly", "monthly", "custom"]

/-- When a schedule runs, as requests give it. -/
structure ScheduleConfig where
  cron : Option String
  dayOfWeek : Option Int
  dayOfMonth : Option Int
  time : Option String
deriving DecidableEq, Repr

namespace ScheduleConfig

def empty : ScheduleConfig := ⟨none, none, none, none⟩

/-- One or two digits, a colon, and two digits. -/
def isTimePattern (cs : List Char) : Bool :=
  let hours := cs.takeWhile Text.isAnyDigit
  match cs.dropWhile Text.isAnyDigit with
  | ':' :: minutes =>
      (hours.length == 1 || hours.length == 2) && minutes.length == 2 &&
        minutes.all Text.isAnyDigit
  | _ => false

def read : Reader ScheduleConfig :=
  Read.record fun given =>
    mk <$> Read.orNull "cron" Read.text given
      <*> Read.orNull "day_of_week" (Read.wholeIn (some 0) (some 6)) given
      <*> Read.orNull "day_of_month" (Read.wholeIn (some 1) (some 31)) given
      <*> Read.orNull "time" (Read.ruledText { pattern := isTimePattern }) given

def form (config : ScheduleConfig) : Form :=
  .record
    [("cron", .orNull .text config.cron),
     ("day_of_week", .orNull (fun n => .value (.int n)) config.dayOfWeek),
     ("day_of_month", .orNull (fun n => .value (.int n)) config.dayOfMonth),
     ("time", .orNull .text config.time)]

end ScheduleConfig

/-- A schedule that is to be created. -/
structure ScheduleDraft where
  definition : Uuid
  name : String
  type : String
  config : ScheduleConfig
  parameters : Entries
  exportFormat : String
  recipients : List String

namespace ScheduleDraft

def read : Reader ScheduleDraft :=
  Read.record fun given =>
    mk <$> Read.required "report_definition_id" Read.uuid given
      <*> Read.required "name" recordName given
      <*> Read.required "schedule_type" (Read.choice scheduleTypes) given
      <*> Read.optional "schedule_config" ScheduleConfig.read .empty given
      <*> Read.optional "parameters" Read.anyMapping [] given
      <*> Read.optional "export_format" (Read.choice exportFormats) "csv" given
      <*> Read.optional "recipients" (Read.list Read.text) [] given

def form (draft : ScheduleDraft) : Form :=
  .record
    [("report_definition_id", .value (.uuid draft.definition)), ("name", .text draft.name),
     ("schedule_type", .text draft.type), ("schedule_config", draft.config.form),
     ("parameters", .value (.mapping draft.parameters)),
     ("export_format", .text draft.exportFormat), ("recipients", .texts draft.recipients)]

end ScheduleDraft

/-- Changes to a schedule. A field that is not null is a new value; whether a null field is to be
set to null is told by what was given. -/
structure SchedulePatch where
  name : Option String
  type : Option String
  config : Option ScheduleConfig
  parameters : Option Entries
  exportFormat : Option String
  recipients : Option (List String)
  isActive : Option Bool

namespace SchedulePatch

def read : Reader SchedulePatch :=
  Read.record fun given =>
    mk <$> Read.orNull "name" Read.text given
      <*> Read.orNull "schedule_type" (Read.choice scheduleTypes) given
      <*> Read.orNull "schedule_config" ScheduleConfig.read given
      <*> Read.orNull "parameters" Read.anyMapping given
      <*> Read.orNull "export_format" (Read.choice exportFormats) given
      <*> Read.orNull "recipients" (Read.list Read.text) given
      <*> Read.orNull "is_active" Read.flag given

def form (patch : SchedulePatch) : Form :=
  .record
    [("name", .orNull .text patch.name), ("schedule_type", .orNull .text patch.type),
     ("schedule_config", .orNull ScheduleConfig.form patch.config),
     ("parameters", .orNull (fun ps => .value (.mapping ps)) patch.parameters),
     ("export_format", .orNull .text patch.exportFormat),
     ("recipients", .orNull .texts patch.recipients),
     ("is_active", .orNull (fun b => .value (.bool b)) patch.isActive)]

end SchedulePatch

/-- How the run of a schedule ended. -/
structure RunOutcome where
  schedule : Uuid
  status : String
  execution : Option Uuid
  error : Option String
deriving DecidableEq, Repr

namespace RunOutcome

def read : Reader RunOutcome :=
  Read.record fun given =>
    mk <$> Read.required "id" Read.uuid given
      <*> Read.required "status" (Read.choice ["success", "failed"]) given
      <*> Read.orNull "execution_id" Read.uuid given
      <*> Read.orNull "error" Read.text given

def form (outcome : RunOutcome) : Form :=
  .record
    [("id", .value (.uuid outcome.schedule)), ("status", .text outcome.status),
     ("execution_id", .orNull (fun id => .value (.uuid id)) outcome.execution),
     ("error", .orNull .text outcome.error)]

end RunOutcome

/-- How many runs of a batch succeeded and failed. -/
structure BatchSummary where
  processed : Nat
  succeeded : Nat
  failed : Nat
deriving DecidableEq, Repr

namespace BatchSummary

def ofStatuses (statuses : List String) : BatchSummary :=
  ⟨statuses.length, statuses.count "success", statuses.count "failed"⟩

def fields (summary : BatchSummary) : List (String × Value) :=
  [("processed", .int summary.processed), ("succeeded", .int summary.succeeded),
   ("failed", .int summary.failed)]

end BatchSummary

end TenantReports
