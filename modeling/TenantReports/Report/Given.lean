import TenantReports.Report.Spec
import TenantReports.Validation.Form

/-!
Specifications from fields as they are given, without the tests of a request: any name may stand
for an aggregate, a join type, an operator or a direction.
-/

namespace TenantReports

open Form (itemsOf entriesOf)

/-- The text in a field, if there is one. -/
def givenText? (given : Entries) (name : String) : Option String :=
  match given.field name with
  | .null => none
  | v => some v.plainText

def givenText (given : Entries) (name : String) : String := (givenText? given name).getD ""

def givenItems (given : Entries) (name : String) : List Entries :=
  (itemsOf (given.field name)).map entriesOf

def givenTexts (given : Entries) (name : String) : List String :=
  (itemsOf (given.field name)).map Value.plainText

/-- An empty name of an aggregate is none. -/
def SelectedColumn.ofGiven (given : Entries) : SelectedColumn :=
  { table := givenText given "table"
    column := givenText given "column"
    outputAlias := givenText? given "alias"
    aggregate := ((givenText? given "aggregate").filter (· ≠ "")).map Aggregate.ofName }

def JoinSpec.ofGiven (given : Entries) : JoinSpec :=
  ⟨.ofName (givenText given "type"), givenText given "table", .untrusted (given.field "on")⟩

def FilterSpec.ofGiven (given : Entries) : FilterSpec :=
  ⟨givenText given "column", .ofName (givenText given "operator"), given.field "value"⟩

def OrderSpec.ofGiven (given : Entries) : OrderSpec :=
  ⟨givenText given "column", .ofName ((givenText? given "direction").getD "ASC")⟩

def ReportSpec.ofGiven (given : Value) : ReportSpec :=
  let given := entriesOf given
  { dataSources := givenTexts given "data_sources"
    joins := (givenItems given "joins").map JoinSpec.ofGiven
    selectedColumns := (givenItems given "selected_columns").map SelectedColumn.ofGiven
    filters := (givenItems given "filters").map FilterSpec.ofGiven
    groupBy := givenTexts given "group_by"
    orderBy := (givenItems given "order_by").map OrderSpec.ofGiven }

end TenantReports
