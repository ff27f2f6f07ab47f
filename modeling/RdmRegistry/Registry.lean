/-
The registry: the catalog of ESTA and the catalogs of the manufacturers under one data version.
A look-up for a manufacturer searches its own catalog first and then that of ESTA, so standard
parameters are found from every scope.
-/
import Std.Data.ExtTreeMap
import RdmRegistry.Catalog

namespace RdmRegistry

/-- The identifier of ESTA, which no manufacturer has. -/
def estaId : UInt16 := 0

/-- All catalogs, and the version of the data; of two versions the higher is the more recent. -/
structure Registry (φ : Type) where
  version : Nat
  esta : Catalog φ
  manufacturers : Std.ExtTreeMap UInt16 (Catalog φ)

namespace Registry

variable {φ : Type}

/-- The registry of ESTA and of a list of manufacturers; of one identifier the last entry counts. -/
def ofCatalogs (version : Nat) (esta : Catalog φ) (manufacturers : List (UInt16 × Catalog φ)) :
    Registry φ :=
  { version, esta, manufacturers := .ofList manufacturers }

def manufacturer? (registry : Registry φ) (id : UInt16) : Option (Catalog φ) :=
  registry.manufacturers[id]?

/-- The manufacturers with a catalog, in ascending order. -/
def manufacturerIds (registry : Registry φ) : List UInt16 :=
  registry.manufacturers.keys

/-- The number of parameters in all scopes. -/
def size (registry : Registry φ) : Nat :=
  registry.esta.size +
    registry.manufacturers.toList.foldr (fun entry total => entry.2.size + total) 0

def findValue? (registry : Registry φ) (value : UInt16) : Option (Parameter φ) :=
  registry.esta.findValue? value

def findName? (registry : Registry φ) (name : String) : Option (Parameter φ) :=
  registry.esta.findName? name

/-- The parameter with a value, as a manufacturer means it. -/
def findValueFor? (registry : Registry φ) (value : UInt16) (id : UInt16) : Option (Parameter φ) :=
  ((registry.manufacturer? id).bind (·.findValue? value)).or (registry.findValue? value)

/-- The parameter with a name, as a manufacturer means it. -/
def findNameFor? (registry : Registry φ) (name : String) (id : UInt16) : Option (Parameter φ) :=
  ((registry.manufacturer? id).bind (·.findName? name)).or (registry.findName? name)

/-- The registry in a debug listing, by its counts. -/
def outline (registry : Registry φ) : Text.Outline :=
  .record "RootPidStore"
    [("version", .ofNat registry.version),
      ("esta_pids", .ofNat registry.esta.size),
      ("manufacturers", .list (registry.manufacturerIds.map fun id => .ofNat id.toNat))]

end Registry

end RdmRegistry
