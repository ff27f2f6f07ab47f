/-
Computations that leave a trace: every file that is parsed and every log record, in order.

A traced computation is its outcome together with its events. When one step fails, the events up
to it remain and nothing after it happens.
-/
import RdmRegistry.Path

namespace RdmRegistry

/-- How important a log record is. -/
inductive Level where
  | debug
  | info
  | warn
  deriving DecidableEq

def Level.label : Level → String
  | debug => "debug"
  | info => "info"
  | warn => "warn"

/-- Something that happens on the way. -/
inductive Event where
  /-- A file is given to the parser. -/
  | parsing (path : Path)
  /-- A single source is about to be read. -/
  | loading (source : String)
  /-- A data file is about to be read. -/
  | loadingFile (path : Path)
  /-- The overrides file is about to be read. -/
  | applyingOverrides (path : Path)
  /-- A parameter takes the place of others. -/
  | replacing (name : String) (value : UInt16)
  /-- A manufacturer gets no catalog. -/
  | noParameters (id : UInt16)
  /-- A registry is built; its counts are given. -/
  | built (version estaSize manufacturers size : Nat)
  /-- A directory is loaded from so many data files. -/
  | loadedDirectory (files : Nat) (directory : Path)
  /-- An older registry is refused. -/
  | refused (current offered : Nat)
  /-- A registry takes the place of the one in use. -/
  | swapped (old new : Nat)
  deriving DecidableEq

namespace Event

/-- The file that is parsed in the event. -/
def parsed? : Event → Option Path
  | parsing path => some path
  | _ => none

/-- The log record of the event. -/
def record? : Event → Option (Level × String)
  | parsing _ => none
  | loading source => some (.debug, "loading PID data from " ++ source)
  | loadingFile path => some (.debug, "loading PID data file " ++ path.display)
  | applyingOverrides path => some (.debug, "applying PID overrides from " ++ path.display)
  | replacing name value =>
    some (.debug, "override replaces " ++ name ++ " (" ++ Text.word value ++ ")")
  | noParameters id =>
    some (.debug, "manufacturer " ++ Text.word id ++ " has no PIDs, no store created")
  | built version estaSize manufacturers size =>
    some (.info, "built PID store v" ++ toString version ++ ": " ++ toString estaSize ++
      " ESTA PIDs, " ++ toString manufacturers ++ " manufacturers, " ++ toString size ++
      " PIDs total")
  | loadedDirectory files directory =>
    some (.info, "loaded " ++ toString files ++ " PID data file(s) from " ++ directory.display)
  | refused current offered =>
    some (.warn, "ignoring PID data v" ++ toString offered ++ ", current store is v" ++
      toString current)
  | swapped old new =>
    some (.info, "PID store v" ++ toString old ++ " -> v" ++ toString new)

end Event

/-- Two steps succeed when the first one does and the second one does with its value. -/
theorem except_bind_eq_ok_iff {ε α β : Type} {first : Except ε α} {next : α → Except ε β} {b : β} :
    first >>= next = .ok b ↔ ∃ a, first = .ok a ∧ next a = .ok b := by
  cases first with
  | error e => simp [bind, Except.bind]
  | ok a => simp [bind, Except.bind]

/-- An outcome and the events on the way to it. -/
structure Traced (ε α : Type) where
  outcome : Except ε α
  events : List Event

namespace Traced

variable {ε α β : Type}

def fail (e : ε) : Traced ε α :=
  ⟨.error e, []⟩

def emit (event : Event) : Traced ε Unit :=
  ⟨.ok (), [event]⟩

def ofExcept (outcome : Except ε α) : Traced ε α :=
  ⟨outcome, []⟩

/-- An outcome without events, whose error is a case of a wider type. -/
def liftError {δ : Type} (wrap : δ → ε) : Except δ α → Traced ε α
  | .ok a => ⟨.ok a, []⟩
  | .error e => ⟨.error (wrap e), []⟩

/-- Goes on with the value of a computation, unless it failed. -/
protected def bind (first : Traced ε α) (next : α → Traced ε β) : Traced ε β :=
  match first.outcome with
  | .ok a => ⟨(next a).outcome, first.events ++ (next a).events⟩
  | .error e => ⟨.error e, first.events⟩

instance : Monad (Traced ε) where
  pure a := ⟨.ok a, []⟩
  bind := Traced.bind

theorem pure_eq (a : α) : (pure a : Traced ε α) = ⟨.ok a, []⟩ := rfl

theorem bind_ok {a : α} {events : List Event} {next : α → Traced ε β} :
    ((⟨.ok a, events⟩ : Traced ε α) >>= next) =
      ⟨(next a).outcome, events ++ (next a).events⟩ := rfl

theorem events_bind_of_ok {first : Traced ε α} {a : α} (h : first.outcome = .ok a)
    (next : α → Traced ε β) : (first >>= next).events = first.events ++ (next a).events := by
  obtain ⟨outcome, events⟩ := first
  cases h
  rfl

theorem events_bind_of_error {first : Traced ε α} {e : ε} (h : first.outcome = .error e)
    (next : α → Traced ε β) : (first >>= next).events = first.events := by
  obtain ⟨outcome, events⟩ := first
  cases h
  rfl

/-- The outcome of two steps is that of the outcomes of each. -/
theorem outcome_bind (first : Traced ε α) (next : α → Traced ε β) :
    (first >>= next).outcome = first.outcome >>= fun a => (next a).outcome := by
  obtain ⟨outcome, events⟩ := first
  cases outcome <;> rfl

theorem outcome_bind_eq_ok_iff {first : Traced ε α} {next : α → Traced ε β} {b : β} :
    (first >>= next).outcome = .ok b ↔
      ∃ a, first.outcome = .ok a ∧ (next a).outcome = .ok b := by
  rw [outcome_bind, except_bind_eq_ok_iff]

theorem outcome_bind_of_error {first : Traced ε α} {e : ε} (h : first.outcome = .error e)
    (next : α → Traced ε β) : (first >>= next).outcome = .error e := by
  rw [outcome_bind, h]
  rfl

theorem outcome_bind_of_ok {first : Traced ε α} {a : α} (h : first.outcome = .ok a)
    (next : α → Traced ε β) : (first >>= next).outcome = (next a).outcome := by
  rw [outcome_bind, h]
  rfl

theorem outcome_liftError {δ : Type} (wrap : δ → ε) (outcome : Except δ α) :
    (liftError wrap outcome).outcome = outcome.mapError wrap := by
  cases outcome <;> rfl

theorem outcome_liftError_eq_ok_iff {δ : Type} {wrap : δ → ε} {outcome : Except δ α} {a : α} :
    (liftError wrap outcome).outcome = .ok a ↔ outcome = .ok a := by
  cases outcome <;> simp [liftError]

instance : LawfulMonad (Traced ε) := LawfulMonad.mk' _
  (fun ⟨outcome, events⟩ => by
    cases outcome <;> simp [Functor.map, Traced.bind])
  (fun a next => by simp [bind, Traced.bind, pure])
  (fun ⟨outcome, events⟩ f g => by
    cases outcome with
    | error e => rfl
    | ok a =>
      simp only [bind, Traced.bind]
      cases h : (f a).outcome <;> simp)

def parsed (traced : Traced ε α) : List Path :=
  traced.events.filterMap Event.parsed?

def records (traced : Traced ε α) : List (Level × String) :=
  traced.events.filterMap Event.record?

end Traced

end RdmRegistry
