import TenantReports.Api.Answer
import TenantReports.Api.CustomReports
import TenantReports.Api.Guard
import TenantReports.Api.Health
import TenantReports.Api.Reports
import TenantReports.Api.Request
import TenantReports.Api.Route
import TenantReports.Api.Schedules
import TenantReports.Api.Serve
import TenantReports.Api.Start
import TenantReports.Api.Tenants
import TenantReports.Cache.Memory
import TenantReports.Cache.Shared
import TenantReports.Cache.TableCache
import TenantReports.Calendar.Date
import TenantReports.Calendar.DateTime
import TenantReports.Calendar.Iso
import TenantReports.Calendar.Region
import TenantReports.Calendar.Span
import TenantReports.Connection.Action
import TenantReports.Connection.Basic
import TenantReports.Connection.Run
import TenantReports.Connection.Scope
import TenantReports.Database.Basic
import TenantReports.Decimal.Binary64
import TenantReports.Decimal.Digits
import TenantReports.Decimal.FloatText
import TenantReports.Decimal.Numeral
import TenantReports.Decimal.Numeric
import TenantReports.Export.Render
import TenantReports.Fault
import TenantReports.Json.Reader
import TenantReports.Json.Writer
import TenantReports.Metrics.Request
import TenantReports.Metrics.Snapshot
import TenantReports.Metrics.Snapshots
import TenantReports.Metrics.Summary
import TenantReports.Platform.Basic
import TenantReports.Platform.Direct
import TenantReports.Proofs.Api.Acting
import TenantReports.Proofs.Api.Audit
import TenantReports.Proofs.Api.Authorship
import TenantReports.Proofs.Api.Endpoints
import TenantReports.Proofs.Api.Exports
import TenantReports.Proofs.Api.Files
import TenantReports.Proofs.Api.Guard
import TenantReports.Proofs.Api.History
import TenantReports.Proofs.Api.Isolation
import TenantReports.Proofs.Api.Private
import TenantReports.Proofs.Api.Rejected
import TenantReports.Proofs.Api.Runs
import TenantReports.Proofs.Api.Serve
import TenantReports.Proofs.Api.Services
import TenantReports.Proofs.Api.Step
import TenantReports.Proofs.Api.Tables
import TenantReports.Proofs.Cache.Memory
import TenantReports.Proofs.Cache.Recall
import TenantReports.Proofs.Cache.Shared
import TenantReports.Proofs.Calendar.Date
import TenantReports.Proofs.Calendar.Region
import TenantReports.Proofs.Calendar.Span
import TenantReports.Proofs.Connection.Action
import TenantReports.Proofs.Connection.Isolation
import TenantReports.Proofs.Connection.Outcome
import TenantReports.Proofs.Connection.Scope
import TenantReports.Proofs.Database.Table
import TenantReports.Proofs.Decimal.Constant
import TenantReports.Proofs.Decimal.Nearest
import TenantReports.Proofs.Decimal.Unsigned
import TenantReports.Proofs.Decimal.Written
import TenantReports.Proofs.Export.ReadBack
import TenantReports.Proofs.Json.RoundTrip
import TenantReports.Proofs.Json.Scalars
import TenantReports.Proofs.Latest
import TenantReports.Proofs.Metrics.Change
import TenantReports.Proofs.Metrics.Columns
import TenantReports.Proofs.Metrics.LookBack
import TenantReports.Proofs.Metrics.Snapshots
import TenantReports.Proofs.Metrics.Summary
import TenantReports.Proofs.Platform.Aside
import TenantReports.Proofs.Platform.Session
import TenantReports.Proofs.Platform.Uninterrupted
import TenantReports.Proofs.Platform.Work
import TenantReports.Proofs.Report.AsChecked
import TenantReports.Proofs.Report.Checked
import TenantReports.Proofs.Report.Checking
import TenantReports.Proofs.Report.ColumnName
import TenantReports.Proofs.Report.Creatable
import TenantReports.Proofs.Report.Exporting
import TenantReports.Proofs.Report.Filter
import TenantReports.Proofs.Report.Hidden
import TenantReports.Proofs.Report.Literals
import TenantReports.Proofs.Report.Output
import TenantReports.Proofs.Report.Patch
import TenantReports.Proofs.Report.Query
import TenantReports.Proofs.Report.Rendered
import TenantReports.Proofs.Report.Returned
import TenantReports.Proofs.Report.Roles
import TenantReports.Proofs.Report.RoundTrip
import TenantReports.Proofs.Report.Substitution
import TenantReports.Proofs.Report.Template
import TenantReports.Proofs.Report.Told
import TenantReports.Proofs.Report.Unaware
import TenantReports.Proofs.Report.Uncancelled
import TenantReports.Proofs.Report.Uniform
import TenantReports.Proofs.Report.WellFormed
import TenantReports.Proofs.Report.Words
import TenantReports.Proofs.Result
import TenantReports.Proofs.Schedule.Batch
import TenantReports.Proofs.Schedule.Blame
import TenantReports.Proofs.Schedule.Documents
import TenantReports.Proofs.Schedule.Given
import TenantReports.Proofs.Schedule.InStep
import TenantReports.Proofs.Schedule.Malformed
import TenantReports.Proofs.Schedule.Patch
import TenantReports.Proofs.Schedule.Readable
import TenantReports.Proofs.Schedule.Recurrence
import TenantReports.Proofs.Schedule.Report
import TenantReports.Proofs.Schedule.Retimed
import TenantReports.Proofs.Schedule.Run
import TenantReports.Proofs.Schedule.Slot
import TenantReports.Proofs.Schedule.Steps
import TenantReports.Proofs.Schedule.Timed
import TenantReports.Proofs.Schedule.Turn
import TenantReports.Proofs.Sql.Basic
import TenantReports.Proofs.Sql.Lexing
import TenantReports.Proofs.Sql.Script
import TenantReports.Proofs.Sql.Statements
import TenantReports.Proofs.Storage.Files
import TenantReports.Proofs.Storage.Map
import TenantReports.Proofs.Storage.Paths
import TenantReports.Proofs.Tenant.Catalog
import TenantReports.Proofs.Tenant.Lookups
import TenantReports.Proofs.Tenant.Migration
import TenantReports.Proofs.Tenant.Preparation
import TenantReports.Proofs.Tenant.Provisioning
import TenantReports.Proofs.Tenant.Schemas
import TenantReports.Proofs.Tenant.SchoolTables
import TenantReports.Proofs.Tenant.Slug
import TenantReports.Proofs.Text.Runs
import TenantReports.Proofs.Uuid
import TenantReports.Proofs.Validation.Form
import TenantReports.Proofs.Value.Mapping
import TenantReports.Proofs.Value.Plain
import TenantReports.Proofs.Value.Settled
import TenantReports.Report.Compile
import TenantReports.Report.Custom
import TenantReports.Report.CustomReports
import TenantReports.Report.Definition
import TenantReports.Report.Definitions
import TenantReports.Report.Execution
import TenantReports.Report.Given
import TenantReports.Report.Permission
import TenantReports.Report.Query
import TenantReports.Report.Request
import TenantReports.Report.Runs
import TenantReports.Report.Spec
import TenantReports.Report.Template
import TenantReports.Report.View
import TenantReports.Schedule.Batch
import TenantReports.Schedule.Record
import TenantReports.Schedule.Recurrence
import TenantReports.Schedule.Request
import TenantReports.Schedule.Schedules
import TenantReports.Schedule.View
import TenantReports.Settings.Backends
import TenantReports.Settings.Basic
import TenantReports.Settings.Form
import TenantReports.Settings.Reader
import TenantReports.Sql.Basic
import TenantReports.Sql.Script
import TenantReports.Storage.Key
import TenantReports.Storage.Local
import TenantReports.Storage.Remote
import TenantReports.Storage.Steps
import TenantReports.Tenant.Directory
import TenantReports.Tenant.Migration
import TenantReports.Tenant.Record
import TenantReports.Tenant.Request
import TenantReports.Tenant.SchoolTables
import TenantReports.Tenant.Slug
import TenantReports.Tenant.View
import TenantReports.Text.Basic
import TenantReports.Text.Digit
import TenantReports.Text.Hex
import TenantReports.Text.Quoted
import TenantReports.Url.Basic
import TenantReports.Url.Host
import TenantReports.Url.Punycode
import TenantReports.Uuid
import TenantReports.Validation.Form
import TenantReports.Validation.Issue
import TenantReports.Validation.Moment
import TenantReports.Validation.Reader
import TenantReports.Validation.Spelled
import TenantReports.Value.Basic
import TenantReports.Value.Mapping
import TenantReports.Value.Number
import TenantReports.Value.Plain
