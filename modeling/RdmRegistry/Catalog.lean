/-
The parameters of one scope: of ESTA, or of one manufacturer. They keep the order in which they
were listed, and two indices lead from a value and from a name to a position of that list.

`Catalog.ofList` builds the indices while it looks for repeats. `Clash.first?` finds the first
repeat on the list alone, for lists that are merged and not kept.
-/
import Std.Data.TreeMap
import RdmRegistry.Parameter

namespace RdmRegistry

/-- What a parameter shares with an earlier one of its scope. -/
inductive Clash where
  | value (value : UInt16)
  | name (name : String)
  deriving DecidableEq

namespace Clash

def message : Clash → String
  | value v => "duplicate PID value " ++ Text.word v
  | name n => "duplicate PID name " ++ n

def outline : Clash → Text.Outline
  | value v => .record "DuplicateValue" [("value", .ofNat v.toNat)]
  | name n => .record "DuplicateName" [("name", .atom (Text.quoted n))]

variable {φ : Type}

/-- The first clash of a list with itself or with the parameters already seen. A parameter that
repeats both a value and a name is reported for its value. -/
def firstAfter? (seen : List (Parameter φ)) : List (Parameter φ) → Option Clash
  | [] => none
  | p :: rest =>
    if seen.any (·.value == p.value) then some (.value p.value)
    else if seen.any (·.name == p.name) then some (.name p.name)
    else firstAfter? (p :: seen) rest

/-- The first clash inside a list. -/
def first? (parameters : List (Parameter φ)) : Option Clash :=
  firstAfter? [] parameters

end Clash

/-- Where the parameters of a list stand, by value and by name. -/
structure Index where
  byValue : Std.TreeMap UInt16 Nat := ∅
  byName : Std.TreeMap String Nat := ∅

namespace Index

variable {φ : Type}

/-- Enters a parameter at a position, unless its value or its name has been entered before. -/
def enter (index : Index) (p : Parameter φ) (position : Nat) : Except Clash Index :=
  if index.byValue.contains p.value then .error (.value p.value)
  else if index.byName.contains p.name then .error (.name p.name)
  else .ok {
    byValue := index.byValue.insert p.value position
    byName := index.byName.insert p.name position }

/-- The index of a list. -/
def ofList (parameters : List (Parameter φ)) : Except Clash Index :=
  parameters.zipIdx.foldlM (fun index (p, position) => index.enter p position) {}

end Index

/-- The parameters of one scope. -/
structure Catalog (φ : Type) where
  parameters : List (Parameter φ)
  index : Index

namespace Catalog

variable {φ : Type}

def empty : Catalog φ :=
  { parameters := [], index := {} }

/-- The catalog of a list, unless a value or a name repeats. -/
def ofList (parameters : List (Parameter φ)) : Except Clash (Catalog φ) := do
  let index ← Index.ofList parameters
  return { parameters, index }

def size (catalog : Catalog φ) : Nat :=
  catalog.parameters.length

def isEmpty (catalog : Catalog φ) : Bool :=
  catalog.parameters.isEmpty

def findValue? (catalog : Catalog φ) (value : UInt16) : Option (Parameter φ) :=
  catalog.index.byValue[value]?.bind (catalog.parameters[·]?)

def findName? (catalog : Catalog φ) (name : String) : Option (Parameter φ) :=
  catalog.index.byName[name]?.bind (catalog.parameters[·]?)

/-- The parameters in the order of their names. -/
def sortedByName (catalog : Catalog φ) : List (Parameter φ) :=
  catalog.parameters.mergeSort fun p q => (Parameter.compareNames p.name q.name).isLE

def outline (catalog : Catalog φ) : Text.Outline :=
  .record "PidStore" [("pids", .list (catalog.parameters.map Parameter.outline))]

end Catalog

end RdmRegistry
