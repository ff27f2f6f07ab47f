/-
Why a registry is not built. Building judges in a fixed order and stops at the first fault: a
violation, if validation is asked for (`Draft.outcome_build_of_violation`), then the clash of ESTA
(`Draft.outcome_build_of_estaClash`), then the clash of the lowest manufacturer that has one
(`Draft.exists_lowest_clash`).
-/
import RdmRegistry.Proofs.Building

namespace RdmRegistry

variable {φ : Type}

theorem Catalog.exists_clash_of_not_distinct {parameters : List (Parameter φ)}
    (h : ¬ Distinct parameters) : ∃ clash, ofList parameters = .error clash := by
  cases hc : ofList parameters with
  | ok catalog => exact absurd (exists_ofList_iff.mp ⟨catalog, hc⟩) h
  | error clash => exact ⟨clash, rfl⟩

theorem outcome_addCatalog_of_clash (built : Std.ExtTreeMap UInt16 (Catalog φ)) (id : UInt16)
    {m : Manufacturer φ} {clash : Clash} (h : Catalog.ofList m.parameters = .error clash) :
    (addCatalog built (id, m)).outcome = .error (.manufacturer id clash) := by
  have hne : ¬ m.parameters.isEmpty = true := by
    intro hempty
    rw [List.isEmpty_iff.mp hempty] at h
    cases h
  rw [addCatalog, if_neg hne, Traced.outcome_bind, h]
  rfl

/-- Among manufacturers in ascending order, the first whose parameters collide has the lowest
identifier of all that have such. -/
theorem exists_first_not_distinct {entries : List (UInt16 × Manufacturer φ)}
    (hsorted : entries.Pairwise fun a b => a.1 < b.1)
    (h : ¬ ∀ entry ∈ entries, Distinct entry.2.parameters) :
    ∃ before id m after, entries = before ++ (id, m) :: after ∧
      (∀ entry ∈ before, Distinct entry.2.parameters) ∧ ¬ Distinct m.parameters ∧
      ∀ entry ∈ entries, ¬ Distinct entry.2.parameters → id ≤ entry.1 := by
  induction entries with
  | nil => exact absurd (by simp) h
  | cons entry rest ih =>
    obtain ⟨hlower, hrest⟩ := List.pairwise_cons.mp hsorted
    by_cases hd : Distinct entry.2.parameters
    · obtain ⟨before, id, m, after, rfl, hb, hm, hlowest⟩ :=
        ih hrest fun hall => h (List.forall_mem_cons.mpr ⟨hd, hall⟩)
      refine ⟨entry :: before, id, m, after, rfl, List.forall_mem_cons.mpr ⟨hd, hb⟩, hm, ?_⟩
      exact List.forall_mem_cons.mpr ⟨fun hnot => absurd hd hnot, hlowest⟩
    · refine ⟨[], entry.1, entry.2, rest, rfl, by simp, hd, ?_⟩
      exact List.forall_mem_cons.mpr
        ⟨fun _ => UInt16.le_refl _, fun other ho _ => UInt16.le_of_lt (hlower other ho)⟩

namespace Draft

theorem pairwise_manufacturers (draft : Draft φ) :
    draft.definition.manufacturers.Pairwise fun a b => a.1 < b.1 := by
  refine (Std.ExtTreeMap.ordered_keys_toList (t := draft.manufacturers)).imp fun {a b} h => ?_
  rwa [Std.compare_eq_lt] at h

theorem outcome_build_of_violation {draft : Draft φ} {violation : Violation}
    (h : draft.definition.validate = .error violation) :
    (draft.build true).outcome = .error (.invalid violation) := by
  rw [build_true, Traced.outcome_bind, h]
  rfl

theorem outcome_build_of_valid {draft : Draft φ} {validate : Bool}
    (h : validate = true → draft.definition.validate = .ok ()) :
    (draft.build validate).outcome = (draft.build false).outcome := by
  cases validate with
  | false => rfl
  | true =>
    rw [build_true, Traced.outcome_bind, h rfl]
    rfl

/-- Without validation, the catalog of ESTA comes first, and then those of the manufacturers. -/
theorem outcome_build_false (draft : Draft φ) :
    (draft.build false).outcome = do
      let esta ← (Catalog.ofList draft.esta).mapError .esta
      let manufacturers ← (draft.definition.manufacturers.foldlM addCatalog ∅).outcome
      return { version := draft.version, esta, manufacturers } := by
  simp only [build, Bool.false_eq_true, if_false, Traced.outcome_bind, Traced.outcome_liftError]
  rfl

theorem outcome_build_of_estaClash {draft : Draft φ} {clash : Clash}
    (h : Catalog.ofList draft.esta = .error clash) :
    (draft.build false).outcome = .error (.esta clash) := by
  rw [outcome_build_false, h]
  rfl

/-- Catalogs are made in ascending order up to the first clash. -/
theorem outcome_build_of_manufacturerClash {draft : Draft φ} {id : UInt16} {m : Manufacturer φ}
    {before after : List (UInt16 × Manufacturer φ)} {clash : Clash} (he : Distinct draft.esta)
    (hm : draft.definition.manufacturers = before ++ (id, m) :: after)
    (hb : ∀ entry ∈ before, Distinct entry.2.parameters)
    (h : Catalog.ofList m.parameters = .error clash) :
    (draft.build false).outcome = .error (.manufacturer id clash) := by
  obtain ⟨esta, hesta⟩ := Catalog.exists_ofList_iff.mpr he
  obtain ⟨built, hbuilt⟩ := (exists_foldlM_addCatalog_iff ∅ before).mpr hb
  have hcatalogs : (draft.definition.manufacturers.foldlM addCatalog ∅).outcome =
      .error (.manufacturer id clash) := by
    simp only [hm, List.foldlM_append, List.foldlM_cons, Traced.outcome_bind, hbuilt,
      outcome_addCatalog_of_clash _ id h]
    rfl
  rw [outcome_build_false, hesta, hcatalogs]
  rfl

/-- Where ESTA has no collision, the lowest manufacturer that has one is reported. -/
theorem exists_lowest_clash {draft : Draft φ} (he : Distinct (draft.parametersOf .esta))
    (h : ¬ ∀ scope, Distinct (draft.parametersOf scope)) :
    ∃ id clash,
      (∀ other, ¬ Distinct (draft.parametersOf (.manufacturer other)) → id ≤ other) ∧
      Catalog.ofList (draft.parametersOf (.manufacturer id)) = .error clash ∧
      (draft.build false).outcome = .error (.manufacturer id clash) := by
  have hsome : ¬ ∀ entry ∈ draft.definition.manufacturers, Distinct entry.2.parameters :=
    fun hall => h (forall_distinct_iff.mpr ⟨he, hall⟩)
  obtain ⟨before, id, m, after, hsplit, hbefore, hm, hlowest⟩ :=
    exists_first_not_distinct draft.pairwise_manufacturers hsome
  obtain ⟨clash, hclash⟩ := Catalog.exists_clash_of_not_distinct hm
  have hid : (id, m) ∈ draft.definition.manufacturers := by simp [hsplit]
  refine ⟨id, clash, fun other hother => ?_, by rwa [parametersOf_of_mem hid],
    outcome_build_of_manufacturerClash he hsplit hbefore hclash⟩
  -- An identifier that the draft does not know has no parameters, so nothing collides there.
  obtain ⟨known, hknown⟩ : ∃ known, (other, known) ∈ draft.definition.manufacturers :=
    exists_mem_of_parametersOf_ne_nil fun hnil => hother (by rw [hnil]; exact Distinct.nil)
  rw [parametersOf_of_mem hknown] at hother
  exact hlowest (other, known) hknown hother

/-- Building fails for a violation, if validation is asked for, or for the clash of a scope. -/
theorem fault_of_build {draft : Draft φ} {validate : Bool} {failure : Failure}
    (h : (draft.build validate).outcome = .error failure) :
    (validate = true ∧ ∃ violation, draft.definition.validate = .error violation ∧
        failure = .invalid violation) ∨
      (∃ clash, Catalog.ofList (draft.parametersOf .esta) = .error clash ∧
        failure = .esta clash) ∨
      ∃ id clash, Catalog.ofList (draft.parametersOf (.manufacturer id)) = .error clash ∧
        failure = .manufacturer id clash := by
  by_cases hv : validate = true → draft.definition.validate = .ok ()
  · rw [outcome_build_of_valid hv] at h
    by_cases he : Distinct (draft.parametersOf .esta)
    · by_cases hd : ∀ scope, Distinct (draft.parametersOf scope)
      · obtain ⟨registry, hbuilt⟩ := exists_builtFrom_iff.mpr hd
        rw [build_false_eq_ok_iff.mpr hbuilt] at h
        cases h
      · obtain ⟨id, clash, -, hclash, hfault⟩ := exists_lowest_clash he hd
        rw [hfault] at h
        exact .inr (.inr ⟨id, clash, hclash, (Except.error.inj h).symm⟩)
    · obtain ⟨clash, hclash⟩ := Catalog.exists_clash_of_not_distinct he
      rw [outcome_build_of_estaClash hclash] at h
      exact .inr (.inl ⟨clash, hclash, (Except.error.inj h).symm⟩)
  · obtain ⟨rfl, hinvalid⟩ : validate = true ∧ draft.definition.validate ≠ .ok () := by
      simpa using hv
    cases hviolation : draft.definition.validate with
    | ok _ => exact absurd hviolation hinvalid
    | error violation =>
      rw [outcome_build_of_violation hviolation] at h
      exact .inl ⟨rfl, violation, rfl, (Except.error.inj h).symm⟩

end Draft

end RdmRegistry
