/-
Drafts: the merged content of several definitions, before a registry is built from it.

`Draft.add` puts the parameters of a data file after those already there. `Draft.applyOverrides`
lets each parameter of an overrides file take the place of those that share its value or name.
`Draft.build` makes the catalogs; a scope of a manufacturer without parameters gets none.
-/
import RdmRegistry.Failure
import RdmRegistry.Journal

namespace RdmRegistry

/-- Manufacturers under their identifiers, in ascending order. -/
abbrev Manufacturers (φ : Type) := Std.ExtTreeMap UInt16 (Manufacturer φ)

/-- The merged content of definitions. -/
structure Draft (φ : Type) where
  version : Nat := 0
  esta : List (Parameter φ) := []
  manufacturers : Manufacturers φ := ∅

variable {φ : Type}

/-- Puts the parameters of a manufacturer after those it already has. The name that came first
stays. -/
def Manufacturers.extend (held : Manufacturers φ) (entry : UInt16 × Manufacturer φ) :
    Manufacturers φ :=
  let (id, listed) := entry
  match held[id]? with
  | some known => held.insert id { known with parameters := known.parameters ++ listed.parameters }
  | none => held.insert id listed

/-- Puts a parameter in place of all those that collide with it. -/
def supersede (parameters : List (Parameter φ)) (p : Parameter φ) : List (Parameter φ) :=
  parameters.filter (fun q => !q.collides p) ++ [p]

/-- Supersedes with one parameter after another; each that takes the place of others is logged. -/
def supersedeAll (parameters overrides : List (Parameter φ)) :
    Traced Failure (List (Parameter φ)) :=
  overrides.foldlM (fun held p => do
    if held.any (·.collides p) then Traced.emit (.replacing p.name p.value)
    return supersede held p) parameters

/-- Supersedes inside manufacturers in the listed order. None may be listed twice, and none may
list two parameters that collide. -/
def Manufacturers.supersedeAll (held : Manufacturers φ) (seen : List UInt16) :
    List (UInt16 × Manufacturer φ) → Traced Failure (Manufacturers φ)
  | [] => pure held
  | (id, listed) :: rest =>
    if seen.contains id then .fail (.repeatedManufacturer id)
    else match Clash.first? listed.parameters with
      | some clash => .fail (.manufacturer id clash)
      | none => do
        let known := held[id]?.getD { name := listed.name }
        let parameters ← RdmRegistry.supersedeAll known.parameters listed.parameters
        Manufacturers.supersedeAll (held.insert id { known with parameters }) (id :: seen) rest

/-- Builds the catalog of a manufacturer beside those already built. -/
def addCatalog (built : Std.ExtTreeMap UInt16 (Catalog φ)) (entry : UInt16 × Manufacturer φ) :
    Traced Failure (Std.ExtTreeMap UInt16 (Catalog φ)) :=
  let (id, m) := entry
  if m.parameters.isEmpty then do
    Traced.emit (.noParameters id)
    return built
  else do
    let catalog ← Traced.liftError (.manufacturer id) (Catalog.ofList m.parameters)
    return built.insert id catalog

namespace Draft

/-- Adds a data file. Colliding parameters are left for the catalogs to refuse. -/
def add (draft : Draft φ) (definition : Definition φ) : Except Failure (Draft φ) :=
  match definition.repeatedId? with
  | some id => .error (.repeatedManufacturer id)
  | none => .ok {
      version := max draft.version definition.version
      esta := draft.esta ++ definition.esta
      manufacturers := definition.manufacturers.foldl Manufacturers.extend draft.manufacturers }

/-- Applies an overrides file. -/
def applyOverrides (draft : Draft φ) (definition : Definition φ) : Traced Failure (Draft φ) :=
  match Clash.first? definition.esta with
  | some clash => .fail (.esta clash)
  | none => do
    let esta ← supersedeAll draft.esta definition.esta
    let manufacturers ← draft.manufacturers.supersedeAll [] definition.manufacturers
    return { version := max draft.version definition.version, esta, manufacturers }

/-- The content as one definition, with manufacturers in ascending order. -/
def definition (draft : Draft φ) : Definition φ :=
  { version := draft.version
    esta := draft.esta
    manufacturers := draft.manufacturers.toList }

/-- Builds the registry: validation first if it is asked for, then the catalog of ESTA, then those
of the manufacturers in ascending order. -/
def build (draft : Draft φ) (validate : Bool) : Traced Failure (Registry φ) := do
  if validate then Traced.liftError .invalid draft.definition.validate
  let esta ← Traced.liftError .esta (Catalog.ofList draft.esta)
  let manufacturers ← draft.definition.manufacturers.foldlM addCatalog ∅
  let registry : Registry φ := { version := draft.version, esta, manufacturers }
  Traced.emit (.built registry.version registry.esta.size registry.manufacturerIds.length
    registry.size)
  return registry

end Draft

end RdmRegistry
