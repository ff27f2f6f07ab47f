/-
The registry in use. It gives way to data of the same or a higher version, and never to older data;
a request that fails leaves it as it was.
-/
import RdmRegistry.Load

namespace RdmRegistry

variable {φ : Type}

/-- The holder of the registry in use. -/
structure Live (φ : Type) where
  current : Registry φ

namespace Live

/-- Puts a registry in use unless it is older. The result is the registry that was in use, and the
holder of the new one. -/
def replace (live : Live φ) (offered : Registry φ) :
    Traced Failure (Registry φ × Live φ) :=
  if offered.version < live.current.version then do
    Traced.emit (.refused live.current.version offered.version)
    Traced.fail (.stale live.current.version offered.version)
  else do
    Traced.emit (.swapped live.current.version offered.version)
    return (live.current, ⟨offered⟩)

theorem outcome_replace_of_older {live : Live φ} {offered : Registry φ}
    (hlt : offered.version < live.current.version) :
    (live.replace offered).outcome = .error (.stale live.current.version offered.version) := by
  rw [replace, if_pos hlt]
  rfl

theorem outcome_replace_of_newer {live : Live φ} {offered : Registry φ}
    (hle : live.current.version ≤ offered.version) :
    (live.replace offered).outcome = .ok (live.current, ⟨offered⟩) := by
  rw [replace, if_neg (Nat.not_lt.mpr hle)]
  rfl

/-- Loads a source and puts its registry in use. -/
def reload (live : Live φ) (source : Source φ) (validate : Bool) :
    Traced Failure (Registry φ × Live φ) := do
  let registry ← load source validate
  live.replace registry

def outline (live : Live φ) : Text.Outline :=
  .record "SharedPidStore" [("current", live.current.outline)]

/-- What can be asked of the holder. -/
inductive Request (φ : Type) where
  | replace (offered : Registry φ)
  | reload (source : Source φ) (validate : Bool)
  | snapshot

/-- The answer to a request and the holder after it. A replacement answers with the registry that
was in use, a snapshot with the one in use. -/
def serve (live : Live φ) (request : Request φ) : Except Failure (Registry φ) × Live φ :=
  let settle (update : Traced Failure (Registry φ × Live φ)) :=
    match update.outcome with
    | .ok (previous, next) => (.ok previous, next)
    | .error failure => (.error failure, live)
  match request with
  | .replace offered => settle (live.replace offered)
  | .reload source validate => settle (live.reload source validate)
  | .snapshot => (.ok live.current, live)

end Live

end RdmRegistry
