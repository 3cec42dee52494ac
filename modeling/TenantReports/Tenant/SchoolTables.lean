import TenantReports.Tenant.Migration

/-!
The tables that every school's schema starts with.
-/

namespace TenantReports.Migration

def schoolTables : List String :=
  ["CREATE TABLE IF NOT EXISTS \x7b\x7bschema\x7d\x7d.classes (",
   "    id UUID PRIMARY KEY DEFAULT gen_random_uuid(),",
   "    name VARCHAR(100) NOT NULL,",
   "    grade_level VARCHAR(20),",
   "    capacity INTEGER,",
   "    created_at TIMESTAMPTZ NOT NULL DEFAULT NOW()",
   ");",
   "",
   "CREATE TABLE IF NOT EXISTS \x7b\x7bschema\x7d\x7d.students (",
   "    id UUID PRIMARY KEY DEFAULT gen_random_uuid(),",
   "    first_name VARCHAR(100) NOT NULL,",
   "    last_name VARCHAR(100) NOT NULL,",
   "    admission_number VARCHAR(50) UNIQUE,",
   "    class_id UUID REFERENCES \x7b\x7bschema\x7d\x7d.classes(id) ON DELETE SET NULL,",
   "    enrollment_status VARCHAR(20) NOT NULL DEFAULT 'active',",
   "    created_at TIMESTAMPTZ NOT NULL DEFAULT NOW()",
   ");",
   "",
   "CREATE TABLE IF NOT EXISTS \x7b\x7bschema\x7d\x7d.attendance_records (",
   "    id UUID PRIMARY KEY DEFAULT gen_random_uuid(),",
   "    student_id UUID NOT NULL REFERENCES \x7b\x7bschema\x7d\x7d.students(id) ON DELETE CASCADE,",
   "    class_id UUID REFERENCES \x7b\x7bschema\x7d\x7d.classes(id) ON DELETE SET NULL,",
   "    attendance_date DATE NOT NULL,",
   "    status VARCHAR(20) NOT NULL,",
   "    created_at TIMESTAMPTZ NOT NULL DEFAULT NOW()",
   ");",
   "",
   "CREATE TABLE IF NOT EXISTS \x7b\x7bschema\x7d\x7d.grades (",
   "    id UUID PRIMARY KEY DEFAULT gen_random_uuid(),",
   "    student_id UUID NOT NULL REFERENCES \x7b\x7bschema\x7d\x7d.students(id) ON DELETE CASCADE,",
   "    subject VARCHAR(100) NOT NULL,",
   "    term VARCHAR(20) NOT NULL,",
   "    score NUMERIC(5, 2) NOT NULL,",
   "    created_at TIMESTAMPTZ NOT NULL DEFAULT NOW()",
   ");",
   "",
   "CREATE TABLE IF NOT EXISTS \x7b\x7bschema\x7d\x7d.invoices (",
   "    id UUID PRIMARY KEY DEFAULT gen_random_uuid(),",
   "    student_id UUID REFERENCES \x7b\x7bschema\x7d\x7d.students(id) ON DELETE SET NULL,",
   "    amount NUMERIC(12, 2) NOT NULL,",
   "    status VARCHAR(20) NOT NULL DEFAULT 'pending',",
   "    due_date DATE,",
   "    created_at TIMESTAMPTZ NOT NULL DEFAULT NOW()",
   ");",
   "",
   "CREATE INDEX IF NOT EXISTS idx_attendance_date ON \x7b\x7bschema\x7d\x7d.attendance_records (attendance_date);",
   "CREATE INDEX IF NOT EXISTS idx_invoices_status ON \x7b\x7bschema\x7d\x7d.invoices (status);",
   ""]

/-- The directory of migrations that applies where no other is given. -/
def defaultDirectory : List MigrationFile :=
  [⟨"001_school_core.sql", "\n".intercalate schoolTables⟩]

end TenantReports.Migration
