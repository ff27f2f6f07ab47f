/-
Definitions: the parameters that one data file lists, for ESTA and for manufacturers.
-/
import RdmRegistry.Parameter

namespace RdmRegistry

/-- What is known of a manufacturer besides its identifier. -/
structure Manufacturer (φ : Type) where
  name : String
  parameters : List (Parameter φ) := []
  deriving DecidableEq

/-- The content of a data file, with manufacturers under their identifiers in the listed order. -/
structure Definition (φ : Type) where
  version : Nat := 0
  esta : List (Parameter φ) := []
  manufacturers : List (UInt16 × Manufacturer φ) := []
  deriving DecidableEq

/-- The first item that an earlier one, or one already seen, equals. -/
def firstRepeatAfter? (seen : List UInt16) : List UInt16 → Option UInt16
  | [] => none
  | id :: rest => if seen.contains id then some id else firstRepeatAfter? (id :: seen) rest

/-- The first manufacturer that is listed again. -/
def Definition.repeatedId? {φ : Type} (definition : Definition φ) : Option UInt16 :=
  firstRepeatAfter? [] (definition.manufacturers.map (·.1))

end RdmRegistry
