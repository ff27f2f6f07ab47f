/-
The format of settings files: a TOML table with a line for each field that is not null.
-/
import RdmRegistry.Settings.Fields
import RdmRegistry.Toml.Document
import RdmRegistry.Toml.Written

namespace RdmRegistry

/-- The value as settings can use it. -/
def Toml.Value.field : Toml.Value → Field
  | .string text => .text text
  | .boolean value => .flag value
  | _ => .other

/-- A field as it is written, unless it is absent. -/
def Field.written? : Field → Option String
  | .flag b => some (if b then "true" else "false")
  | .text s => some (Toml.writtenString s)
  | _ => none

namespace Toml

def fieldsOf (entries : Entries) : Fields :=
  entries.map fun (key, value) => (key, value.field)

/-- The line of a field, unless it is left out. -/
def writtenLine? (field : String × Field) : Option String :=
  field.2.written?.map fun text => field.1 ++ " = " ++ text ++ "\n"

/-- The fields as a text, a line for each that is not left out. -/
def writtenFields (fields : Fields) : String :=
  "".intercalate (fields.filterMap writtenLine?)

def format : Format where
  write := writtenFields
  read? text := (Document.parse? text).map fieldsOf

end Toml

end RdmRegistry
