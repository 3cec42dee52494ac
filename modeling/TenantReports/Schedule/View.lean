import TenantReports.Validation.Form
import TenantReports.Validation.Moment

/-!
What answers show of a schedule, with type, format and configuration as they stand.
-/

namespace TenantReports

structure ScheduleView where
  id : Uuid
  tenant : Uuid
  definition : Uuid
  name : String
  type : String
  config : Entries
  parameters : Entries
  exportFormat : String
  recipients : List String
  nextRunAt : Option DateTime
  lastRunAt : Option DateTime
  isActive : Bool

namespace ScheduleView

def read : Reader ScheduleView :=
  Read.object fun given =>
    mk <$> Read.required "id" Read.uuid given
      <*> Read.required "tenant_id" Read.uuid given
      <*> Read.required "report_definition_id" Read.uuid given
      <*> Read.required "name" Read.text given
      <*> Read.required "schedule_type" Read.text given
      <*> Read.required "schedule_config" Read.anyMapping given
      <*> Read.required "parameters" Read.anyMapping given
      <*> Read.required "export_format" Read.text given
      <*> Read.required "recipients" (Read.list Read.text) given
      <*> Read.orNull "next_run_at" Read.dateTime given
      <*> Read.orNull "last_run_at" Read.dateTime given
      <*> Read.required "is_active" Read.flag given

def form (view : ScheduleView) : Form :=
  .record
    [("id", .value (.uuid view.id)), ("tenant_id", .value (.uuid view.tenant)),
     ("report_definition_id", .value (.uuid view.definition)), ("name", .text view.name),
     ("schedule_type", .text view.type), ("schedule_config", .value (.mapping view.config)),
     ("parameters", .value (.mapping view.parameters)),
     ("export_format", .text view.exportFormat), ("recipients", .texts view.recipients),
     ("next_run_at", .orNull (fun t => .value (.dateTime t)) view.nextRunAt),
     ("last_run_at", .orNull (fun t => .value (.dateTime t)) view.lastRunAt),
     ("is_active", .value (.bool view.isActive))]

end ScheduleView

end TenantReports
