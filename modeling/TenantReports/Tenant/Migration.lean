import TenantReports.Connection.Scope
import TenantReports.Sql.Script
import TenantReports.Text.Basic

/-!
Migrations of tenant schemas: files of statements that are applied in the order of their names.
-/

namespace TenantReports

structure MigrationFile where
  name : String
  content : String
deriving DecidableEq, Repr

namespace Migration

/-- What stands for the schema's name in a file. -/
def schemaMark : List Char := "\x7b\x7bschema\x7d\x7d".toList

/-- Whether the last extension of a file name is `sql`. A leading dot begins no extension. -/
def isScript (file : MigrationFile) : Bool :=
  ".sql".toList.isSuffixOf file.name.toList && 4 < file.name.length

/-- The files that a directory holds: of several with one name, the last. -/
def latest : List MigrationFile → List MigrationFile
  | [] => []
  | file :: files =>
      if files.any (·.name == file.name) then latest files else file :: latest files

/-- The scripts among files, in the order of their names. -/
def scripts (files : List MigrationFile) : List MigrationFile :=
  ((latest files).filter isScript).mergeSort fun a b => a.name ≤ b.name

/-- The statements of a script in one tenant's schema. -/
def statementsOf (schemaName : String) (file : MigrationFile) : List String :=
  Sql.splitStatements (String.ofList
    (Text.replaceAll schemaMark schemaName.toList (Text.unifyLineEnds file.content.toList)))

def statements (schemaName : String) (files : List MigrationFile) : List String :=
  (scripts files).flatMap (statementsOf schemaName)

variable {σ : Type} [Connected σ]

/-- Applies the scripts among the files of a directory to a schema and answers how many
statements were executed. Where there is no directory, nothing is done. -/
def apply (schema : Value) (directory : Option (List MigrationFile)) : Action σ Nat := do
  let schemaName ← Action.ofResult (Sql.identifierOf schema)
  match directory with
  | none => return 0
  | some files =>
      Action.scopedTo schema do
        (statements schemaName files).forM Action.migrate
        return (statements schemaName files).length

end Migration

end TenantReports
