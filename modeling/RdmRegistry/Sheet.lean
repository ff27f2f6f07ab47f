/-
Data sheets: parameters as they are listed by hand, with addressing rules still spelled as words.

A sheet becomes a parameter, a definition or a registry unless one of its words stands for no
rule. Words are read in the listed order, ESTA first for a definition, and manufacturers first for
a registry, which also refuses the first scope that repeats a value or a name.
-/
import RdmRegistry.Failure

namespace RdmRegistry

variable {φ : Type}

/-- Why a request is refused: by a word, by a scope, by the loader, or because what it needs is
not there. -/
inductive Refusal where
  | unknownAddressing (unknown : UnknownAddressing)
  | clash (clash : Clash)
  | failure (failure : Failure)
  | blocked (obstacle : Obstacle)
  | noRegistry
  | notASource
  deriving DecidableEq

/-- One thing said of a parameter. -/
inductive Remark (φ : Type) where
  | get (request response : Option φ)
  | set (request response : Option φ)
  | getDestinations (word : String)
  | setDestinations (word : String)

/-- The parameter with a remark taken into account. -/
def Remark.apply (p : Parameter φ) : Remark φ → Except UnknownAddressing (Parameter φ)
  | get request response => .ok (p.mapGet (·.withFormats request response))
  | set request response => .ok (p.mapSet (·.withFormats request response))
  | getDestinations word => do
    let rule ← Addressing.ofToken word
    return p.mapGet (·.withDestinations rule)
  | setDestinations word => do
    let rule ← Addressing.ofToken word
    return p.mapSet (·.withDestinations rule)

/-- A parameter and what is said of it, in order. -/
structure ParameterSheet (φ : Type) where
  name : String
  value : UInt16
  remarks : List (Remark φ) := []

def ParameterSheet.parameter (sheet : ParameterSheet φ) :
    Except UnknownAddressing (Parameter φ) :=
  sheet.remarks.foldlM Remark.apply { name := sheet.name, value := sheet.value }

/-- The manufacturer part of a sheet. -/
structure ManufacturerSheet (φ : Type) where
  id : UInt16
  name : String
  parameters : List (ParameterSheet φ) := []

/-- A whole sheet. -/
structure DefinitionSheet (φ : Type) where
  version : Nat := 0
  esta : List (ParameterSheet φ) := []
  manufacturers : List (ManufacturerSheet φ) := []

namespace DefinitionSheet

def definition (sheet : DefinitionSheet φ) : Except UnknownAddressing (Definition φ) := do
  let esta ← sheet.esta.mapM ParameterSheet.parameter
  let manufacturers ← sheet.manufacturers.mapM fun m => do
    return (m.id, { name := m.name, parameters := ← m.parameters.mapM ParameterSheet.parameter })
  return { version := sheet.version, esta, manufacturers }

def catalog (parameters : List (ParameterSheet φ)) : Except Refusal (Catalog φ) :=
  match parameters.mapM ParameterSheet.parameter with
  | .error unknown => .error (.unknownAddressing unknown)
  | .ok found =>
    match Catalog.ofList found with
    | .error clash => .error (.clash clash)
    | .ok catalog => .ok catalog

/-- The registry of a sheet, without merging or validation; every manufacturer gets a catalog. -/
def registry (sheet : DefinitionSheet φ) : Except Refusal (Registry φ) := do
  let manufacturers ← sheet.manufacturers.mapM fun m => do
    return (m.id, ← catalog m.parameters)
  let esta ← catalog sheet.esta
  return .ofCatalogs sheet.version esta manufacturers

end DefinitionSheet

end RdmRegistry
