import TenantReports.Api.Guard
import TenantReports.Schedule.Batch

/-!
Endpoints for schedules, and the one that an outside clock calls to run those that are due.
-/

namespace TenantReports.Api

open Guard

/-- Whether the documents of a schedule are what an answer may show. -/
def isShowable (schedule : Schedule) : Bool :=
  (Read.anyMapping schedule.config).isValid && (Read.anyMapping schedule.parameters).isValid &&
    (Read.list Read.text schedule.recipients).isValid

def shownSchedule (schedule : Schedule) : Work Value := do
  if isShowable schedule then return .record (schedule.fields .short) else throw .response

def scheduleId (argument : String) : Validated Uuid := ApiRequest.idInPath "scheduled_id" argument

def createSchedule (request : ApiRequest) : Work Answer :=
  let given := Prod.mk <$> request.user <*> request.readBody ScheduleDraft.read
  serveTenant request noGuard given fun tenant (user, draft) => do
    let schedule ← refusing (firstOf [missingRefusal?, inputRefusal?])
      (Schedules.create tenant.tenant draft user)
    return .created (← shownSchedule schedule)

def listSchedules (request : ApiRequest) : Work Answer :=
  serveTenant request noGuard (.valid ()) fun tenant _ => do
    return .ok (.list (← (← Schedules.list tenant.tenant).mapM shownSchedule))

def updateSchedule (request : ApiRequest) (argument : String) : Work Answer :=
  let given := Prod.mk <$> scheduleId argument <*> request.readBody SchedulePatch.read
  serveTenant request noGuard given fun tenant (id, patch) => do
    let schedule ← refusing (firstOf [missingRefusal?, inputRefusal?])
      (Schedules.update tenant.tenant id patch (request.body.getD .null))
    return .ok (← shownSchedule schedule)

def deleteSchedule (request : ApiRequest) (argument : String) : Work Answer :=
  serveTenant request noGuard (scheduleId argument) fun tenant id => do
    refusing missingRefusal? (Schedules.delete tenant.tenant id)
    return .noContent

def shownOutcome (outcome : RunOutcome) : Value :=
  .record
    [("id", .ofId outcome.schedule), ("status", .text outcome.status),
     ("execution_id", .orNull .ofId outcome.execution), ("error", .orNull .text outcome.error)]

def largestBatch : Int := 100

def processSchedules (request : ApiRequest) : Work Answer :=
  let limit := request.optionalParameter "limit" (Read.wholeIn (some 1) (some largestBatch))
  serve requireStore limit fun limit => do
    let outcomes ← Batch.processDue limit
    return .ok (.record ((Batch.summary outcomes).fields ++
      [("results", .list (outcomes.map shownOutcome))]))

end TenantReports.Api
