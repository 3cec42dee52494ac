import TenantReports.Fault
import TenantReports.Text.Basic

/-!
Keys of stored files: relative paths that never leave the root.
-/

namespace TenantReports

/-- The parts of a path, from the root downwards. -/
abbrev FilePath := List String

namespace FilePath

def ofKey (key : String) : FilePath := (Text.split '/' key.toList).map String.ofList

/-- Whether a part names an entry of the directory that it is looked up in. -/
def isEntryName (part : String) : Bool := part != "" && part != "." && part != ".."

/-- The path that a key means. -/
def ofKey? (key : String) : Result FilePath :=
  let path := ofKey key
  if path.all isEntryName then .ok path else .error (.invalidIdentifier (.text key))

def toKey (path : FilePath) : String := "/".intercalate path

/-- The longest name that a directory can hold, in bytes. -/
def nameLimit : Nat := 255

def isNameTooLong (part : String) : Bool := nameLimit < part.utf8ByteSize

/-- The longest path below the root, in bytes. -/
def pathLimit : Nat := 4078

def isTooLong (path : FilePath) : Bool := pathLimit < path.toKey.utf8ByteSize

def hasZero (part : String) : Bool := part.toList.contains '\x00'

end FilePath

/-- A URL without the slashes at its end. -/
def withoutTrailingSlashes (url : String) : String :=
  String.ofList (url.toList.reverse.dropWhile (· == '/')).reverse

end TenantReports
