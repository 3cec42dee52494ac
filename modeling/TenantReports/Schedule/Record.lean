import TenantReports.Calendar.Region
import TenantReports.Schedule.Request
import TenantReports.Tenant.Record
import TenantReports.Value.Mapping

/-!
Schedules as they are stored. Configuration, parameters and recipients are documents, which
changes may set to null.
-/

namespace TenantReports

structure Schedule where
  id : Uuid
  tenant : Uuid
  definition : Uuid
  name : String
  type : String
  config : Value
  parameters : Value
  exportFormat : String
  recipients : Value
  nextRunAt : Option DateTime
  lastRunAt : Option DateTime
  isActive : Bool
  createdBy : Option Uuid
  createdAt : DateTime

namespace Schedule

def ofDraft (draft : ScheduleDraft) (tenant : Uuid) (user : Option Uuid) (nextRunAt now : DateTime)
    (id : Uuid) : Schedule :=
  { id
    tenant
    definition := draft.definition
    name := draft.name
    type := draft.type
    config := draft.config.form.withoutNulls
    parameters := .mapping draft.parameters
    exportFormat := draft.exportFormat
    recipients := .texts draft.recipients
    nextRunAt := some nextRunAt
    lastRunAt := none
    isActive := true
    createdBy := user
    createdAt := now }

/-- Whether a run is due at a point in time. -/
def isDueAt (schedule : Schedule) (now : DateTime) : Bool :=
  schedule.isActive && schedule.nextRunAt.any fun next => next.instant ≤ now.instant

/-- Schedules without a next run come first. -/
def isBefore (a b : Schedule) : Bool :=
  match a.nextRunAt, b.nextRunAt with
  | none, _ => true
  | some _, none => false
  | some x, some y => x.instant ≤ y.instant

/-- The schedule after changes, unless they set to null what must not be. The type is no part of
them. -/
def change? (schedule : Schedule) (changes : Entries) : Option Schedule := do
  let name ← Change.textColumn changes "name" schedule.name
  let exportFormat ← Change.textColumn changes "export_format" schedule.exportFormat
  let isActive ← Change.flagColumn changes "is_active" schedule.isActive
  return { schedule with
    name
    exportFormat
    isActive
    config := Change.documentColumn changes "schedule_config" schedule.config
    parameters := Change.documentColumn changes "parameters" schedule.parameters
    recipients := Change.documentColumn changes "recipients" schedule.recipients }

def timeValue (style : ClockStyle) (t : DateTime) : Value := .text (style t)

def fields (style : ClockStyle) (schedule : Schedule) : List (String × Value) :=
  [("id", .ofId schedule.id), ("tenant_id", .ofId schedule.tenant),
   ("report_definition_id", .ofId schedule.definition), ("name", .text schedule.name),
   ("schedule_type", .text schedule.type), ("schedule_config", schedule.config),
   ("parameters", schedule.parameters), ("export_format", .text schedule.exportFormat),
   ("recipients", schedule.recipients),
   ("next_run_at", .orNull (timeValue style) schedule.nextRunAt),
   ("last_run_at", .orNull (timeValue style) schedule.lastRunAt),
   ("is_active", .bool schedule.isActive)]

/-- The fields that only records show. -/
def originFields (style : ClockStyle) (schedule : Schedule) : List (String × Value) :=
  [("created_by", .orNull .ofId schedule.createdBy),
   ("created_at", .text (style schedule.createdAt))]

end Schedule

end TenantReports
