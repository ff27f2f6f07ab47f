/-
The rules that a definition has to keep beyond free values and names: parameter names are single
words, ESTA stays out of the range of manufacturer values, and a manufacturer has an identifier,
a name, and values inside that range.

`Definition.validate` reports the first violation: ESTA parameters as listed, then manufacturers
as listed, of each the identifier, the name, and its parameters, of each the name before the value.
-/
import RdmRegistry.Definition
import RdmRegistry.Registry
import RdmRegistry.Text.Blank

namespace RdmRegistry

/-- A broken rule. -/
inductive Violation where
  /-- A parameter name is empty or has white space in it. -/
  | unusableName (name : String) (value : UInt16)
  /-- An ESTA parameter has a value of the manufacturers. -/
  | estaInManufacturerRange (name : String) (value : UInt16)
  /-- A manufacturer has the identifier of ESTA. -/
  | reservedId
  /-- A manufacturer has no name, or a blank one. -/
  | namelessManufacturer (id : UInt16)
  /-- A manufacturer parameter has a value of ESTA. -/
  | outsideManufacturerRange (id : UInt16) (name : String) (value : UInt16)
  /-- A rule of the caller is broken; the text is the caller's. -/
  | reported (text : String)
  deriving DecidableEq

def Violation.message : Violation → String
  | unusableName name value =>
    "invalid PID name " ++ Text.quoted name ++ " for " ++ Text.word value
  | estaInManufacturerRange name value =>
    "ESTA PID " ++ Parameter.title name value ++ " is in the manufacturer range"
  | reservedId => "manufacturer id " ++ Text.word estaId ++ " is reserved for ESTA"
  | namelessManufacturer id => "manufacturer " ++ Text.word id ++ " has no name"
  | outsideManufacturerRange id name value =>
    "manufacturer " ++ Text.word id ++ " PID " ++ Parameter.title name value ++
      " is outside the manufacturer range"
  | reported text => text

/-- The first value that belongs to manufacturers. -/
def firstManufacturerValue : UInt16 := 0x8000

/-- The last value that belongs to manufacturers. -/
def lastManufacturerValue : UInt16 := 0xFFDF

def isManufacturerValue (value : UInt16) : Bool :=
  firstManufacturerValue ≤ value && value ≤ lastManufacturerValue

/-- The name is one word: not empty, and without white space. -/
def isWord (name : String) : Bool :=
  !name.isEmpty && !name.toList.any Text.isBlank

/-- The name says nothing: it is empty or all white space. -/
def isBlankName (name : String) : Bool :=
  (Text.trim name.toList).isEmpty

variable {φ : Type}

def Parameter.validateEsta (p : Parameter φ) : Except Violation Unit :=
  if !isWord p.name then .error (.unusableName p.name p.value)
  else if isManufacturerValue p.value then .error (.estaInManufacturerRange p.name p.value)
  else .ok ()

/-- The rules for one parameter of a manufacturer. -/
def Parameter.validateFor (id : UInt16) (p : Parameter φ) : Except Violation Unit :=
  if !isWord p.name then .error (.unusableName p.name p.value)
  else if !isManufacturerValue p.value then .error (.outsideManufacturerRange id p.name p.value)
  else .ok ()

/-- The rules for a manufacturer and its parameters. -/
def Manufacturer.validate (id : UInt16) (m : Manufacturer φ) : Except Violation Unit :=
  if id = estaId then .error .reservedId
  else if isBlankName m.name then .error (.namelessManufacturer id)
  else m.parameters.forM (Parameter.validateFor id)

/-- The rules for a definition. -/
def Definition.validate (definition : Definition φ) : Except Violation Unit := do
  definition.esta.forM Parameter.validateEsta
  definition.manufacturers.forM fun (id, m) => m.validate id

end RdmRegistry
