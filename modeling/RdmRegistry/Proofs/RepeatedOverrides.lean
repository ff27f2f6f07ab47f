/-
The same overrides applied again. On the way the overrides are taken out of every scope and put back
at its end, one by one; but what they spared the first time they spare again, and they stand in their
own order at the end (`spared_overridden`).

`overrides_again_change_nothing`: the draft is the same as before.
-/
import RdmRegistry.Proofs.Naming

namespace RdmRegistry

variable {φ : Type}

theorem Parameter.collides_self (p : Parameter φ) : p.collides p = true :=
  collides_iff.mpr (.inl rfl)

/-- Overrides spare none of themselves. -/
theorem spared_self (overrides : List (Parameter φ)) : spared overrides overrides = [] := by
  refine List.filter_eq_nil_iff.mpr fun p hp => ?_
  simpa using ⟨p, hp, p.collides_self⟩

theorem spared_overridden (parameters overrides : List (Parameter φ)) :
    spared (spared parameters overrides ++ overrides) overrides = spared parameters overrides := by
  rw [spared_append, spared_self, List.append_nil]
  exact spared_eq_self fun _ hp => (mem_spared.mp hp).2

/-- A draft that is overridden is overridden already. -/
theorem Draft.overriddenBy_overriddenBy (draft : Draft φ) {definition : Definition φ}
    (h : definition.NoRepeats) :
    (draft.overriddenBy definition).overriddenBy definition = draft.overriddenBy definition := by
  refine ext_of_names ?_ (fun id => ?_) fun scope => ?_
  · rw [version_overriddenBy, version_overriddenBy, Nat.max_assoc, Nat.max_self]
  · rw [name?_overriddenBy, name?_overriddenBy, Option.or_assoc, Option.or_self]
  · rw [parametersOf_overriddenBy _ h, parametersOf_overriddenBy _ h, spared_overridden]

/-- **Overrides that are applied again change nothing**, whatever repeats in the draft: they leave what
they spared the first time, and stand after it in their own order. -/
theorem overrides_again_change_nothing {draft next : Draft φ} {overrides : Definition φ}
    (h : (draft.applyOverrides overrides).outcome = .ok next) :
    (next.applyOverrides overrides).outcome = .ok next ∧
    ∀ scope, next.parametersOf scope =
      spared (draft.parametersOf scope) (overrides.parametersOf scope) ++
        overrides.parametersOf scope := by
  obtain ⟨hno, rfl⟩ := Draft.applyOverrides_eq_ok_iff.mp h
  refine ⟨Draft.applyOverrides_eq_ok_iff.mpr ⟨hno, ?_⟩, draft.parametersOf_overriddenBy hno⟩
  exact (draft.overriddenBy_overriddenBy hno).symm

/-- A data file that repeats a value and a name of ESTA. -/
def repeatingFile : Definition Unit :=
  { version := 5
    esta := [{ name := "A", value := 0x50 }, { name := "B", value := 0x60 },
      { name := "C", value := 0x50 }, { name := "B", value := 0x70 }, { name := "E", value := 0x80 }]
    manufacturers := [(0x7A70, { name := "M", parameters := [{ name := "X", value := 0x8000 }] })] }

/-- Overrides in another order than what they take the place of. -/
def crossingOverrides : Definition Unit :=
  { version := 3
    esta := [{ name := "B", value := 0x90 }, { name := "D", value := 0x50 }]
    manufacturers :=
      [(0x7A71, { name := "N" }),
        (0x7A70, { name := "renamed", parameters := [{ name := "Y", value := 0x8000 }] })] }

theorem overrides_again_change_nothing_crossing :
    let draft := ({} : Draft Unit).plus repeatingFile
    let next := draft.overriddenBy crossingOverrides
    Draft.add {} repeatingFile = .ok draft ∧
      (draft.applyOverrides crossingOverrides).outcome = .ok next ∧
      (next.applyOverrides crossingOverrides).outcome = .ok next ∧
      draft.esta.map (·.name) = ["A", "B", "C", "B", "E"] ∧
      next.esta.map (·.name) = ["E", "B", "D"] := by
  intro draft next
  have happlied : (draft.applyOverrides crossingOverrides).outcome = .ok next := rfl
  exact ⟨rfl, happlied, (overrides_again_change_nothing happlied).1, rfl, rfl⟩

end RdmRegistry
