import TenantReports.Value.Mapping

/-!
Validated data on its way out: records with named fields, tables of parts by name, lists of parts,
and values that stay as they are. Fields of records may be left out: those that were not given,
and those that are null.
-/

namespace TenantReports

inductive Form
  | record (fields : List (String × Form))
  /-- Parts by a name that is data: none of them is left out. -/
  | table (entries : List (String × Form))
  | list (items : List Form)
  | value (v : Value)

namespace Form

mutual

/-- The whole form, with every field. -/
def toValue : Form → Value
  | record fields => .mapping (fieldValues fields)
  | table entries => .mapping (fieldValues entries)
  | list items => .list (itemValues items)
  | value v => v

def fieldValues : List (String × Form) → List (Value × Value)
  | [] => []
  | (name, form) :: fields => (.text name, toValue form) :: fieldValues fields

def itemValues : List Form → List Value
  | [] => []
  | form :: items => toValue form :: itemValues items

end

def isNull : Form → Bool
  | value .null => true
  | _ => false

mutual

/-- The form without the fields of records that are null. -/
def dropNulls : Form → Form
  | record fields => record (filledFields fields)
  | table entries => table (filledEntries entries)
  | list items => list (filledItems items)
  | value v => value v

def filledFields : List (String × Form) → List (String × Form)
  | [] => []
  | (name, form) :: fields =>
      if form.isNull then filledFields fields else (name, dropNulls form) :: filledFields fields

def filledEntries : List (String × Form) → List (String × Form)
  | [] => []
  | (name, form) :: entries => (name, dropNulls form) :: filledEntries entries

def filledItems : List Form → List Form
  | [] => []
  | form :: items => dropNulls form :: filledItems items

end

/-- The value of a form without the fields of records that are null. -/
def withoutNulls (form : Form) : Value := form.dropNulls.toValue

def entriesOf : Value → Entries
  | .mapping entries => entries
  | _ => []

def itemsOf : Value → List Value
  | .list items | .tuple items => items
  | _ => []

/-- What was given last under a name, which bytes may spell as well. -/
def partNamed (given : Entries) (name : String) : Value :=
  ((given.reverse.find? fun entry => entry.1.spelled? == some name).map (·.2)).getD .null

mutual

/-- The form with the fields of records that `given` names, where `given` is what the form was
read from. -/
def restrictTo (given : Value) : Form → Form
  | record fields => record (givenFields (entriesOf given) fields)
  | table entries => table (givenEntries (entriesOf given) entries)
  | list items => list (givenItems (itemsOf given) items)
  | value v => value v

def givenFields (given : Entries) : List (String × Form) → List (String × Form)
  | [] => []
  | (name, form) :: fields =>
      match given.field? name with
      | some v => (name, restrictTo v form) :: givenFields given fields
      | none => givenFields given fields

def givenEntries (given : Entries) : List (String × Form) → List (String × Form)
  | [] => []
  | (name, form) :: entries =>
      (name, restrictTo (partNamed given name) form) :: givenEntries given entries

def givenItems (given : List Value) : List Form → List Form
  | [] => []
  | form :: items => restrictTo (given.headD .null) form :: givenItems given.tail items

end

/-- The value of a form with the fields that `given` names. -/
def givenIn (given : Value) (form : Form) : Value := (form.restrictTo given).toValue

def text (s : String) : Form := value (.text s)

def texts (items : List String) : Form := value (.list (items.map .text))

/-- A field that may be null. -/
def orNull {α : Type} (f : α → Form) : Option α → Form
  | some a => f a
  | none => value .null

end Form

end TenantReports
