import TenantReports.Fault

/-!
Moving dates and times by spans. A span has a limit of its own, and where it leads to has to be in
the calendar.
-/

namespace TenantReports

/-- The most days that a span holds, in either direction. -/
def longestSpan : Nat := 999999999

namespace Duration

def check (span : Duration) : Result Unit :=
  if longestSpan < span.days.natAbs then .error (.calendar (.span span.days)) else .ok ()

end Duration

def ofCalendar {α : Type} : Option α → Result α
  | some a => .ok a
  | none => .error (.calendar .outsideCalendar)

/-- The wall clock moved on by a span. -/
def DateTime.moved (t : DateTime) (span : Duration) : Result DateTime := do
  span.check
  ofCalendar (t.add? span)

/-- The date some days before another. -/
def Date.daysBefore (date : Date) (days : Int) : Result Date := do
  (Duration.ofParts days 0 0).check
  ofCalendar (date.addDays? (-days))

end TenantReports
