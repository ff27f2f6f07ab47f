/-
Settings as fields under names, the form they have in data formats.

`Settings.ofFields?` takes the fields it knows by name and passes over the others. One that is absent
has its default; one that is of the wrong kind, or that stands twice, spoils the whole.
`Settings.ofItems?` takes the values alone, in the order of the fields.

A `Format` writes fields as a text and reads the fields of a text.
-/
import RdmRegistry.Settings

namespace RdmRegistry

/-- The value of a field, as far as settings can use it. -/
inductive Field where
  | null
  | flag (value : Bool)
  | text (value : String)
  | other
  deriving DecidableEq

namespace Field

def flag? : Field → Option Bool
  | flag b => some b
  | _ => none

def text? : Field → Option String
  | text s => some s
  | _ => none

/-- A directory, which may be absent. -/
def directory? : Field → Option (Option Path)
  | null => some none
  | text s => some (some (.ofString s))
  | _ => none

/-- The field of a directory: null where there is none, and nothing for a path that is no text. -/
def ofDirectory? : Option Path → Option Field
  | none => some null
  | some path => path.text?.map text

/-- What a field gives, or the default where there is no field. -/
def read {α : Type} (field : Option Field) (default : α) (take : Field → Option α) : Option α :=
  match field with
  | none => some default
  | some f => take f

end Field

/-- Fields under names, as they stand one after another. -/
abbrev Fields := List (String × Field)

/-- The one field under a name, if there is any. Of a name that stands twice there is nothing to
read. -/
def Fields.only? (fields : Fields) (name : String) : Option (Option Field) :=
  match fields.filter (·.1 == name) with
  | [] => some none
  | [(_, field)] => some (some field)
  | _ => none

/-- A data format: how fields are written as a text, and which fields a text gives. -/
structure Format where
  write : Fields → String
  read? : String → Option Fields

namespace Settings

/-- The settings from the four fields, each of which may be absent. -/
def ofParts? (validate dataDir fileExtension overridesFile : Option Field) : Option Settings := do
  return {
    validate := ← Field.read validate defaultTrue Field.flag?
    dataDir := ← Field.read dataDir none Field.directory?
    fileExtension := ← Field.read fileExtension defaultFileExtension Field.text?
    overridesFile := ← Field.read overridesFile defaultOverridesFile Field.text? }

def ofFields? (fields : Fields) : Option Settings := do
  ofParts? (← fields.only? "validate") (← fields.only? "data_dir")
    (← fields.only? "file_extension") (← fields.only? "overrides_file")

/-- The settings from values in the order of the fields; the last ones may be left out. -/
def ofItems? (items : List Field) : Option Settings :=
  if items.length ≤ 4 then ofParts? items[0]? items[1]? items[2]? items[3]?
  else none

/-- The settings as fields, unless the directory is no text. -/
def toFields? (settings : Settings) : Option Fields := do
  return [("validate", .flag settings.validate),
    ("data_dir", ← Field.ofDirectory? settings.dataDir),
    ("file_extension", .text settings.fileExtension),
    ("overrides_file", .text settings.overridesFile)]

/-- The settings that a text of the format gives. -/
def ofText (format : Format) (text : String) : Except SettingsFault Settings :=
  match (format.read? text).bind ofFields? with
  | some settings => .ok settings
  | none => .error .malformed

/-- The settings as a text of the format. -/
def toText? (format : Format) (settings : Settings) : Option String :=
  settings.toFields?.map format.write

end Settings

end RdmRegistry
