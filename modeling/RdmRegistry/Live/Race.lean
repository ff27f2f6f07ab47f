/-
Several callers replace the registry in use at once. Each first reads the cell and then tries: it
gives up when its registry is older than the one it saw last, and otherwise swaps its registry in
if the cell still holds the very allocation that it saw. A swap that fails shows it what the cell
holds now, and it tries again. Reading and swapping are single steps; a schedule says who goes next.
Readers may look on: a snapshot of the cell is a single step too.
-/
import RdmRegistry.Live

namespace RdmRegistry

variable {φ : Type}

/-- A registry in an allocation of its own, made by a caller or by none for the first one. Two
allocations are the same when their makers are. -/
structure Allocation (φ : Type) where
  maker : Option Nat
  registry : Registry φ

/-- The allocations are one and the same. -/
def Allocation.isSame (a b : Allocation φ) : Bool :=
  a.maker == b.maker

/-- How far a caller has come; `attempts` counts the swaps it has tried. -/
inductive Caller (φ : Type) where
  | waiting (offered : Registry φ)
  | trying (offered : Registry φ) (seen : Allocation φ) (attempts : Nat)
  | replaced (previous : Allocation φ) (attempts : Nat)
  | refused (current offered : Nat) (attempts : Nat)

def Caller.isDone : Caller φ → Bool
  | .replaced .. | .refused .. => true
  | _ => false

/-- The cell and the callers. -/
structure Race (φ : Type) where
  cell : Allocation φ
  callers : List (Caller φ)

namespace Race

/-- The race before its first step. -/
def start (initial : Registry φ) (offers : List (Registry φ)) : Race φ :=
  { cell := ⟨none, initial⟩, callers := offers.map .waiting }

/-- One step of the caller at a position, who stands as given: the cell and the caller after it. -/
def advance (cell : Allocation φ) (position : Nat) : Caller φ → Allocation φ × Caller φ
  | .waiting offered => (cell, .trying offered cell 0)
  | .trying offered seen attempts =>
    if offered.version < seen.registry.version then
      (cell, .refused seen.registry.version offered.version attempts)
    else if cell.isSame seen then (⟨some position, offered⟩, .replaced seen (attempts + 1))
    else (cell, .trying offered cell (attempts + 1))
  | done => (cell, done)

/-- One step of the caller at a position; nothing happens where there is none. -/
def step (race : Race φ) (position : Nat) : Race φ :=
  match race.callers[position]? with
  | none => race
  | some caller =>
    let (cell, next) := advance race.cell position caller
    { cell, callers := race.callers.set position next }

/-- The steps of a schedule. -/
def run (race : Race φ) (schedule : List Nat) : Race φ :=
  schedule.foldl step race

def isDone (race : Race φ) : Bool :=
  race.callers.all Caller.isDone

end Race

/-- Who goes next in a race that is watched. -/
inductive Turn where
  | caller (position : Nat)
  | reader (name : Nat)

/-- A race and the snapshots of its cell that readers took, in the order in which they took them. -/
structure Watched (φ : Type) where
  race : Race φ
  snapshots : List (Nat × Allocation φ)

namespace Watched

/-- The race before its first step, of which nobody has a snapshot. -/
def start (initial : Registry φ) (offers : List (Registry φ)) : Watched φ :=
  { race := .start initial offers, snapshots := [] }

/-- A step of a caller, or a snapshot for a reader. -/
def step (watched : Watched φ) : Turn → Watched φ
  | .caller position => { watched with race := watched.race.step position }
  | .reader name => { watched with snapshots := watched.snapshots ++ [(name, watched.race.cell)] }

/-- The turns of callers and readers. -/
def run (watched : Watched φ) (turns : List Turn) : Watched φ :=
  turns.foldl step watched

/-- The snapshots of one reader, in the order in which it took them. -/
def snapshotsOf (watched : Watched φ) (name : Nat) : List (Allocation φ) :=
  (watched.snapshots.filter (·.1 == name)).map (·.2)

end Watched

end RdmRegistry
