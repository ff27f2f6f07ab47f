/-
A workspace: a file tree with data and settings files, the registry in use, and snapshots of it
under names.

An action changes the workspace only if it succeeds; `Workspace.perform` gives the answer, the
workspace after it, and what happened on the way.
-/
import RdmRegistry.FileTree
import RdmRegistry.Live
import RdmRegistry.Settings.File
import RdmRegistry.Sheet

namespace RdmRegistry

variable {φ : Type}

/-- The content of a file: a definition, a data file that its reader rejects with a message, or
other bytes. -/
inductive Content (φ : Type) where
  | definition (definition : Definition φ)
  | rejected (message : String)
  | bytes (bytes : List UInt8)

/-- The content of a data file that is written as a sheet. -/
def Content.ofSheet (sheet : DefinitionSheet φ) : Content φ :=
  match sheet.definition with
  | .ok found => .definition found
  | .error unknown => .rejected unknown.message

/-- Where a registry is to come from. -/
inductive Origin (φ : Type) where
  | memory (sheet : DefinitionSheet φ)
  | file (path : Path)
  | directory (path : Path)
  | configured (settings : Settings)
  | direct (sheet : DefinitionSheet φ)

/-- What a workspace can be asked to do. -/
inductive Action (φ : Type) where
  | write (path : Path) (content : Content φ)
  | makeDirectory (path : Path)
  | remove (path : Path)
  | link (path target : Path)
  | load (origin : Origin φ) (validate : Bool)
  | readSettings (path : Path)
  | loadSettings (path : Path)
  | install (origin : Origin φ) (validate : Bool)
  | replace (origin : Origin φ) (validate : Bool)
  | reload (origin : Origin φ) (validate : Bool)
  | inspect
  | keep (name : String)
  | recall (name : Option String)
  | describe (origin : Origin φ)

/-- What an action answers. -/
inductive Answer (φ : Type) where
  | done
  | registry (registry : Registry φ)
  | replaced (previous : Registry φ)
  | settings (settings : Settings)
  | live (live : Live φ)
  | text (text : String)

/-- Files, the registry in use, and snapshots, the latest of a name first. -/
structure Workspace (φ : Type) where
  files : FileTree (Content φ) := {}
  live : Option (Live φ) := none
  snapshots : List (String × Registry φ) := []

namespace Workspace

/-- The definition in a data file. -/
def readDefinition (workspace : Workspace φ) : Reader φ := fun path =>
  match workspace.files.read path with
  | .error obstacle => .error (.unreadable path obstacle)
  | .ok (.definition definition) => .ok definition
  | .ok (.rejected message) => .error (.malformed path message)
  | .ok (.bytes _) => .error (.malformed path "not a definition")

/-- The settings in a file, checked. -/
def readSettings (workspace : Workspace φ) (path : Path) : Except Failure Settings :=
  match workspace.files.read path with
  | .error obstacle => .error (.unreadable path obstacle)
  | .ok (.bytes bytes) =>
    match Text.Utf8.decode? bytes with
    | none => .error (.unreadable path .notText)
    | some text =>
      match Settings.ofText Toml.format text with
      | .error fault => .error (.misconfigured fault)
      | .ok settings =>
        match settings.check with
        | .error fault => .error (.misconfigured fault)
        | .ok () => .ok settings
  | .ok _ => .error (.misconfigured .malformed)

/-- A failure of the loader as a refusal. -/
def refuse {α : Type} (traced : Traced Failure α) : Traced Refusal α :=
  ⟨traced.outcome.mapError .failure, traced.events⟩

def loadConfigured (workspace : Workspace φ) (settings : Settings) :
    Traced Failure (Registry φ) :=
  RdmRegistry.loadConfigured workspace.files.listing workspace.readDefinition settings

/-- The single source that an origin names. -/
def source (workspace : Workspace φ) : Origin φ → Except Refusal (Source φ)
  | .memory sheet => (sheet.definition.map Source.memory).mapError .unknownAddressing
  | .file path => .ok (.file path workspace.readDefinition)
  | _ => .error .notASource

def loadOrigin (workspace : Workspace φ) (origin : Origin φ) (validate : Bool) :
    Traced Refusal (Registry φ) :=
  match origin with
  | .memory _ | .file _ => do
    let source ← Traced.ofExcept (workspace.source origin)
    refuse (RdmRegistry.load source validate)
  | .directory path =>
    refuse (loadDirectory workspace.files.listing workspace.readDefinition path validate)
  | .configured settings => refuse (workspace.loadConfigured settings)
  | .direct sheet => Traced.ofExcept sheet.registry

def inUse (workspace : Workspace φ) : Except Refusal (Live φ) :=
  match workspace.live with
  | some live => .ok live
  | none => .error .noRegistry

def withFiles (workspace : Workspace φ) (files : Except Obstacle (FileTree (Content φ))) :
    Traced Refusal (Answer φ × Workspace φ) := do
  let files ← Traced.liftError .blocked files
  return (.done, { workspace with files })

/-- Puts another registry in use and answers with the one before it. -/
def settle (workspace : Workspace φ) (update : Traced Failure (Registry φ × Live φ)) :
    Traced Refusal (Answer φ × Workspace φ) := do
  let (previous, live) ← refuse update
  return (.replaced previous, { workspace with live := some live })

/-- Does an action. What an action brings is read before the registry in use is looked for, so a
fault in it is the one that is told. -/
def perform (workspace : Workspace φ) : Action φ → Traced Refusal (Answer φ × Workspace φ)
  | .write path content => workspace.withFiles (workspace.files.write path content)
  | .makeDirectory path => workspace.withFiles (workspace.files.makeDirectory path)
  | .remove path => workspace.withFiles (workspace.files.remove path)
  | .link path target => workspace.withFiles (workspace.files.link path target)
  | .load origin validate => do
    return (.registry (← workspace.loadOrigin origin validate), workspace)
  | .readSettings path => do
    let settings ← Traced.liftError .failure (workspace.readSettings path)
    return (.settings settings, workspace)
  | .loadSettings path => do
    let settings ← Traced.liftError .failure (workspace.readSettings path)
    return (.registry (← refuse (workspace.loadConfigured settings)), workspace)
  | .install origin validate => do
    let registry ← workspace.loadOrigin origin validate
    return (.done, { workspace with live := some ⟨registry⟩ })
  | .replace origin validate => do
    let registry ← workspace.loadOrigin origin validate
    let live ← Traced.ofExcept workspace.inUse
    workspace.settle (live.replace registry)
  | .reload origin validate => do
    let source ← Traced.ofExcept (workspace.source origin)
    let live ← Traced.ofExcept workspace.inUse
    workspace.settle (live.reload source validate)
  | .inspect => do
    return (.live (← Traced.ofExcept workspace.inUse), workspace)
  | .keep name => do
    let live ← Traced.ofExcept workspace.inUse
    return (.done, { workspace with snapshots := (name, live.current) :: workspace.snapshots })
  | .recall none => do
    return (.registry (← Traced.ofExcept workspace.inUse).current, workspace)
  | .recall (some name) =>
    match workspace.snapshots.lookup name with
    | some registry => return (.registry registry, workspace)
    | none => .fail .noRegistry
  | .describe origin => do
    return (.text (← Traced.ofExcept (workspace.source origin)).describe, workspace)

/-- The workspace after an action, which a refused action leaves as it was. -/
def after (workspace : Workspace φ) (action : Action φ) : Workspace φ :=
  match (workspace.perform action).outcome with
  | .ok (_, next) => next
  | .error _ => workspace

end Workspace

end RdmRegistry
