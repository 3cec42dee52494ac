import TenantReports.Api.Reports

/-!
Endpoints for custom reports.
-/

namespace TenantReports.Api

open Guard

/-- A custom report, with every part of its specification. -/
def shownCustomReport (report : CustomReport) : Work Value := do
  match ReportSpec.read (.mapping report.spec.entries) with
  | .invalid _ => throw .response
  | .valid spec =>
      let parts := spec.fields.map fun field => (field.1, field.2.toValue)
      return .record (report.metaFields .short ++ parts)

def customReportId (argument : String) : Validated Uuid :=
  ApiRequest.idInPath "custom_report_id" argument

def withUser (request : ApiRequest) (argument : String) : Validated (Option Uuid × Uuid) :=
  Prod.mk <$> request.user <*> customReportId argument

def createCustomReport (request : ApiRequest) : Work Answer :=
  let given := Prod.mk <$> request.user <*> request.readBody CustomReportDraft.read
  serveInSchema request noGuard given fun tenant (user, draft) => do
    let report ← refusing (firstOf [roleRefusal?, inputRefusal?])
      (CustomReports.create tenant.schemaName tenant.tenant draft user request.role)
    return .created (← shownCustomReport report)

def previewCustomReport (request : ApiRequest) : Work Answer :=
  serveInSchema request noGuard (request.readBody ReportSpec.read) fun tenant spec => do
    let sql ← refusing (firstOf [roleRefusal?, inputRefusal?])
      (CustomReports.preview tenant.schemaName spec request.role)
    return .ok (.record [("sql", .text sql)])

def listCustomReports (request : ApiRequest) : Work Answer :=
  serveInSchema request noGuard request.user fun tenant user => do
    let reports ← CustomReports.list tenant.tenant user
    return .ok (.list (← reports.mapM shownCustomReport))

def getCustomReport (request : ApiRequest) (argument : String) : Work Answer :=
  serveInSchema request noGuard (withUser request argument) fun tenant (user, id) => do
    let report ← refusing missingRefusal? (CustomReports.get id tenant.tenant user)
    return .ok (← shownCustomReport report)

def updateCustomReport (request : ApiRequest) (argument : String) : Work Answer :=
  let given := Prod.mk <$> withUser request argument <*> request.readBody CustomReportPatch.read
  serveInSchema request noGuard given fun tenant ((user, id), patch) => do
    let report ← refusing (firstOf [missingRefusal?, inputRefusal?])
      (CustomReports.update tenant.schemaName tenant.tenant id patch (request.body.getD .null)
        user)
    return .ok (← shownCustomReport report)

def deleteCustomReport (request : ApiRequest) (argument : String) : Work Answer :=
  serveInSchema request noGuard (withUser request argument) fun tenant (user, id) => do
    refusing missingRefusal? (CustomReports.delete tenant.tenant id user)
    return .noContent

def runCustomReport (request : ApiRequest) (argument : String) : Work Answer :=
  serveInSchema request noGuard (withUser request argument) fun tenant (user, id) => do
    let result ← refusing (firstOf [missingRefusal?, queryRefusal?])
      (Runs.runCustom tenant.schemaName tenant.tenant id user)
    return .ok (shownResult result)

end TenantReports.Api
