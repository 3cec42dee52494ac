import TenantReports.Api.CustomReports
import TenantReports.Api.Health
import TenantReports.Api.Reports
import TenantReports.Api.Route
import TenantReports.Api.Schedules
import TenantReports.Api.Tenants

/-!
The API as a whole: a request is led to its endpoint, and a refusal becomes an answer. Any other
fault is nobody's answer. An answer to HEAD has no body.
-/

namespace TenantReports.Api

/-- What an endpoint does with a request and with the open part of its path. -/
def act (request : ApiRequest) (argument : String) : Endpoint → Work Answer
  | .documentation => return documentation
  | .welcome => welcome
  | .health => return health
  | .databaseHealth => databaseHealth
  | .cacheHealth => cacheHealth
  | .provisionTenant => provisionTenant request
  | .listTenants => listTenants request
  | .getTenant => getTenant argument
  | .createDefinition => createDefinition request
  | .listDefinitions => listDefinitions request
  | .getDefinition => getDefinition request argument
  | .deactivateDefinition => deactivateDefinition request argument
  | .runDefinition => runDefinition request argument
  | .showTrend => showTrend request argument
  | .compareWithHistory => compareWithHistory request argument
  | .listExecutions => listExecutions request
  | .getExecution => getExecution request argument
  | .createCustomReport => createCustomReport request
  | .previewCustomReport => previewCustomReport request
  | .listCustomReports => listCustomReports request
  | .getCustomReport => getCustomReport request argument
  | .updateCustomReport => updateCustomReport request argument
  | .deleteCustomReport => deleteCustomReport request argument
  | .runCustomReport => runCustomReport request argument
  | .createSchedule => createSchedule request
  | .listSchedules => listSchedules request
  | .updateSchedule => updateSchedule request argument
  | .deleteSchedule => deleteSchedule request argument
  | .processSchedules => processSchedules request

def dispatch (request : ApiRequest) : Work Answer :=
  match Route.targetOf request.method request.path with
  | .endpoint endpoint argument => act request argument endpoint
  | .wrongMethod => Guard.refuse .wrongMethod
  | .elsewhere => return .redirect
  | .nowhere => Guard.refuse .noRoute

/-- Answers a request. -/
def serve (request : ApiRequest) : Work Answer := do
  match ← Action.attempt (dispatch request) with
  | .ok answer => return answer.sentTo request.method
  | .error (.refused refusal) => return refusal.answer.sentTo request.method
  | .error .cancelled => throw .noAnswer
  | .error fault => throw fault

end TenantReports.Api
