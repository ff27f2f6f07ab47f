/-
Loading: from a definition or a file to a registry, and from a directory of data files. Either the
whole registry is built or nothing is.

A directory load checks the settings, then lists the directory, then parses and merges the data
files in the order of their names, then the overrides, and builds last. Nothing is parsed after a
failure.
-/
import RdmRegistry.Directory
import RdmRegistry.Draft

namespace RdmRegistry

variable {φ : Type}

/-- A reader of data files: what a path leads to. -/
abbrev Reader (φ : Type) := Path → Except Failure (Definition φ)

/-- Where a single definition comes from. -/
inductive Source (φ : Type) where
  | memory (definition : Definition φ)
  | file (path : Path) (reader : Reader φ)

/-- Gives a file to the reader. -/
def parse (reader : Reader φ) (path : Path) : Traced Failure (Definition φ) := do
  Traced.emit (.parsing path)
  Traced.ofExcept (reader path)

namespace Source

def describe : Source φ → String
  | memory definition => "in-memory definition v" ++ toString definition.version
  | file path _ => path.display

def read : Source φ → Traced Failure (Definition φ)
  | memory definition => pure definition
  | file path reader => parse reader path

end Source

/-- The registry of a single source. -/
def load (source : Source φ) (validate : Bool) : Traced Failure (Registry φ) := do
  Traced.emit (.loading source.describe)
  let definition ← source.read
  let draft ← Traced.ofExcept (Draft.add {} definition)
  draft.build validate

/-- Parses the data files of a directory one after another and merges them. -/
def mergeFiles (reader : Reader φ) (paths : List Path) : Traced Failure (Draft φ) :=
  paths.foldlM (fun draft path => do
    Traced.emit (.loadingFile path)
    let definition ← parse reader path
    Traced.ofExcept (draft.add definition)) {}

/-- Parses the overrides file, if there is one, and applies it. -/
def mergeOverrides (reader : Reader φ) (draft : Draft φ) :
    Option Path → Traced Failure (Draft φ)
  | none => pure draft
  | some path => do
    Traced.emit (.applyingOverrides path)
    let definition ← parse reader path
    draft.applyOverrides definition

/-- The registry of a directory, as the settings say. `listingOf` tells what comes of listing the
directory at a path. -/
def loadConfigured (listingOf : Path → Listing) (reader : Reader φ) (settings : Settings) :
    Traced Failure (Registry φ) := do
  Traced.liftError .misconfigured settings.check
  let directory := settings.location
  let entries ← Traced.ofExcept ((listingOf directory).entries directory)
  let selection := Selection.ofEntries settings entries
  let pathOf (name : String) : Path := directory.join (.ofString name)
  let merged ← mergeFiles reader (selection.data.map pathOf)
  let draft ← mergeOverrides reader merged (selection.overrides.map pathOf)
  let registry ← draft.build settings.validate
  Traced.emit (.loadedDirectory selection.data.length directory)
  return registry

/-- The registry of a directory under the default names; the empty path means the installed
location. -/
def loadDirectory (listingOf : Path → Listing) (reader : Reader φ) (directory : Path)
    (validate : Bool) : Traced Failure (Registry φ) :=
  loadConfigured listingOf reader
    { validate, dataDir := if directory.bytes = [] then none else some directory }

end RdmRegistry
