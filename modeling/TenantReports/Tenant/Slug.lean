import TenantReports.Text.Basic

/-!
Schema names derived from the names of schools.
-/

namespace TenantReports

namespace Slug

/-- The small form of a character, as far as it holds ASCII letters. Beside the ASCII capitals,
the dotted capital I and the Kelvin sign have such a form. -/
def lower (c : Char) : List Char :=
  if c = '\u0130' then ['i', '\u0307']
  else if c = '\u212a' then ['k']
  else [c.toLower]

/-- Small ASCII letters and digits. -/
def isSlugChar (c : Char) : Bool := ('a' ≤ c && c ≤ 'z') || ('0' ≤ c && c ≤ '9')

/-- The runs of letters and digits of a name, in small letters, with underscores between them. -/
def body (name : List Char) : List Char :=
  List.intercalate ['_'] (Text.runs isSlugChar (name.flatMap lower))

end Slug

/-- The schema name derived from a school's name. -/
def schemaSlug (name : String) : String := "tenant_" ++ String.ofList (Slug.body name.toList)

end TenantReports
