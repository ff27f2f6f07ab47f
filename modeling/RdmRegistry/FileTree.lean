/-
A tree of directories, files and symbolic links, as much of a file system as loading can see.

A node stands at the list of names that leads to it from a base: the working directory, where paths
begin, a directory above it, or the top of all files, where absolute paths begin. Paths are walked
step by step: a step up leaves the directory that was really reached, a link continues at its
target, and only the last step may reach a file.
-/
import RdmRegistry.Directory
import RdmRegistry.Failure

namespace RdmRegistry

/-- One step of a path. -/
inductive Step where
  | here
  | up
  | name (name : List UInt8)
  deriving DecidableEq

/-- The parts of a text between separators. -/
def splitAtSeparators : List UInt8 → List (List UInt8)
  | [] => [[]]
  | b :: rest =>
    match splitAtSeparators rest with
    | [] => [[b]]
    | part :: parts => if b = Path.separator then [] :: part :: parts else (b :: part) :: parts

/-- The step that a part of a path asks for. -/
def Step.ofPart (part : List UInt8) : Step :=
  if part = [] ∨ part = [0x2E] then .here
  else if part = [0x2E, 0x2E] then .up
  else .name part

namespace Path

/-- The path begins at the top of all files. -/
def isAbsolute (path : Path) : Bool :=
  path.bytes.head? == some separator

/-- The steps of a path. A separator at its end asks to stay, so that a file cannot stand there. -/
def steps (path : Path) : List Step :=
  (splitAtSeparators path.bytes).map Step.ofPart

end Path

/-- A directory that is there from the start, known by its place and not by its name: the top of all
files, or the one so many levels above the working directory, which is itself at level 0. -/
inductive Base where
  | top
  | above (levels : Nat)
  deriving DecidableEq

/-- The directory above; the top has none but itself. -/
def Base.up : Base → Base
  | .top => .top
  | .above levels => .above (levels + 1)

/-- Where a node stands: the names that lead to it from a base. -/
structure Location where
  base : Base
  names : List (List UInt8) := []
  deriving DecidableEq

namespace Location

/-- The directory in which paths begin. -/
def working : Location :=
  { base := .above 0 }

/-- The place of a name inside the directory. -/
def child (location : Location) (name : List UInt8) : Location :=
  { location with names := location.names ++ [name] }

def up (location : Location) : Location :=
  if location.names = [] then { base := location.base.up }
  else { location with names := location.names.dropLast }

/-- The other location is this one or lies below it. -/
def covers (location other : Location) : Bool :=
  location.base == other.base && location.names.isPrefixOf other.names

end Location

/-- Where a path begins that stands in a directory. -/
def Path.start (path : Path) (directory : Location) : Location :=
  if path.isAbsolute then { base := .top } else directory

/-- What stands at a location. -/
inductive Node (γ : Type) where
  | directory
  | file (content : γ)
  | link (target : Path)

/-- Directories, files and links by location. -/
structure FileTree (γ : Type) where
  nodes : List (Location × Node γ) := []

namespace FileTree

variable {γ : Type}

/-- The node at a location. -/
def node? (tree : FileTree γ) (location : Location) : Option (Node γ) :=
  if location.names = [] then some .directory else tree.nodes.lookup location

/-- The number of links that a walk follows before it gives up. -/
def linkLimit : Nat := 40

/-- The number of bytes in the longest name. -/
def nameLimit : Nat := 255

/-- The number of bytes past that of the longest path. -/
def pathLimit : Nat := 4096

/-- How far a walk comes before it meets a link. -/
inductive Reached where
  | location (location : Location)
  | link (directory : Location) (target : Path) (rest : List Step)
  | obstacle (obstacle : Obstacle)

/-- Walks steps from a directory up to the first link. When `fresh` is set the last name need not
exist. -/
def descend (tree : FileTree γ) (fresh : Bool) (location : Location) : List Step → Reached
  | [] => .location location
  | .here :: rest => descend tree fresh location rest
  | .up :: rest => descend tree fresh location.up rest
  | .name n :: rest =>
    if nameLimit < n.length then .obstacle .nameTooLong
    else match tree.node? (location.child n) with
      | none => if fresh && rest.isEmpty then .location (location.child n) else .obstacle .missing
      | some .directory => descend tree fresh (location.child n) rest
      | some (.file _) =>
        if rest.isEmpty then .location (location.child n) else .obstacle .notADirectory
      | some (.link target) => .link location target rest

/-- Walks steps from a directory, with so many links left to follow. -/
def walk (tree : FileTree γ) (fresh : Bool) (links : Nat) (location : Location)
    (steps : List Step) : Except Obstacle Location :=
  match tree.descend fresh location steps with
  | .location reached => .ok reached
  | .obstacle obstacle => .error obstacle
  | .link directory target rest =>
    match links with
    | 0 => .error .tooManyLinks
    | links + 1 => walk tree fresh links (target.start directory) (target.steps ++ rest)

/-- The location that a path leads to. -/
def resolve (tree : FileTree γ) (path : Path) : Except Obstacle Location :=
  if path.bytes.contains 0 then .error .nulInPath
  else if pathLimit ≤ path.bytes.length then .error .nameTooLong
  else if path.bytes = [] then .error .missing
  else tree.walk false linkLimit (path.start .working) path.steps

/-- The content of the file that a path leads to. -/
def read (tree : FileTree γ) (path : Path) : Except Obstacle γ := do
  match tree.node? (← tree.resolve path) with
  | some (.file content) => return content
  | some .directory => throw .isADirectory
  | _ => throw .missing

/-- The path leads to a file. The whole of it is walked at once, so the links on the way to its
directory and those at its last name count together. -/
def isFile (tree : FileTree γ) (path : Path) : Bool :=
  match tree.resolve path with
  | .error _ => false
  | .ok location =>
    match tree.node? location with
    | some (.file _) => true
    | _ => false

/-- The names in a directory. -/
def namesIn (tree : FileTree γ) (directory : Location) : List (List UInt8) :=
  tree.nodes.filterMap fun (location, _) =>
    location.names.getLast?.filter fun name => location == directory.child name

/-- What comes of listing the directory at a path: a directory that is there gives all its entries.
An entry is a file if the path of its name inside the directory leads to one. -/
def listing (tree : FileTree γ) (path : Path) : Listing :=
  match tree.resolve path with
  | .error _ => .absent
  | .ok location =>
    match tree.node? location with
    | some .directory =>
      .complete ((tree.namesIn location).map fun name =>
        { name, isFile := tree.isFile (path.join ⟨name⟩) })
    | _ => .absent

/-- The tree with a node at a location, in place of what stood there. -/
def put (tree : FileTree γ) (location : Location) (node : Node γ) : FileTree γ :=
  { nodes := tree.nodes.filter (fun entry => entry.1 != location) ++ [(location, node)] }

/-- Walks steps from a directory and makes each directory that is missing on the way. -/
def makeDirectories (tree : FileTree γ) (location : Location) :
    List Step → Except Obstacle (FileTree γ × Location)
  | [] => .ok (tree, location)
  | step :: rest =>
    match tree.walk true linkLimit location [step] with
    | .error obstacle => .error obstacle
    | .ok next =>
      match tree.node? next with
      | none => makeDirectories (tree.put next .directory) next rest
      | some .directory => makeDirectories tree next rest
      | some _ => .error .notADirectory

/-- The directory of a path, made where it is missing, and the last step of the path. -/
def makeParent (tree : FileTree γ) (path : Path) :
    Except Obstacle (FileTree γ × Location × Step) :=
  match path.steps.reverse with
  | [] => .error .missing
  | last :: before => do
    let (tree, directory) ← tree.makeDirectories (path.start .working) before.reverse
    return (tree, directory, last)

/-- Writes a file and makes the directories above it; a link at its place is written through. -/
def write (tree : FileTree γ) (path : Path) (content : γ) : Except Obstacle (FileTree γ) := do
  let (tree, directory, last) ← tree.makeParent path
  let location ← tree.walk true linkLimit directory [last]
  match tree.node? location with
  | some .directory => throw .isADirectory
  | _ => return tree.put location (.file content)

/-- Makes a directory and those above it. -/
def makeDirectory (tree : FileTree γ) (path : Path) : Except Obstacle (FileTree γ) := do
  let (tree, _) ← tree.makeDirectories (path.start .working) path.steps
  return tree

/-- Makes a symbolic link, and the directories above it. -/
def link (tree : FileTree γ) (path target : Path) : Except Obstacle (FileTree γ) := do
  let (tree, directory, last) ← tree.makeParent path
  match last with
  | .name n => return tree.put (directory.child n) (.link target)
  | _ => throw .isADirectory

/-- Removes what stands at a path with everything below it; a link goes, its target stays. -/
def remove (tree : FileTree γ) (path : Path) : Except Obstacle (FileTree γ) := do
  match path.steps.reverse.dropWhile (· == .here) with
  | .name n :: before =>
    let directory ← tree.walk false linkLimit (path.start .working) before.reverse
    return { nodes := tree.nodes.filter fun entry => !(directory.child n).covers entry.1 }
  | _ => throw .isADirectory

end FileTree

end RdmRegistry
