/-
Loading one definition, and which fault is reported. The manufacturers of a definition are put in
ascending order before anything is judged (`perm_manufacturers_plus`), and the judgements stop at
the first that fails: a manufacturer that is listed twice, a violation, a clash of ESTA, a clash of
the lowest manufacturer that has one. `Definition.JudgedAs` says this of an outcome, and
`load_memory_judgedAs` that it is the outcome of a load.
-/
import RdmRegistry.Proofs.BuildFault
import RdmRegistry.Proofs.DefinitionLoad
import RdmRegistry.Proofs.Validity

namespace RdmRegistry

variable {φ : Type}

/-! ## The manufacturer that is listed again -/

/-- What the search finds is the first item that stands before itself, or was seen already. -/
theorem exists_of_firstRepeatAfter?_eq_some {seen ids : List UInt16} {id : UInt16}
    (h : firstRepeatAfter? seen ids = some id) :
    ∃ before after, ids = before ++ id :: after ∧ before.Nodup ∧ (∀ j ∈ before, j ∉ seen) ∧
      (id ∈ seen ∨ id ∈ before) := by
  induction ids generalizing seen with
  | nil => cases h
  | cons j rest ih =>
    rw [firstRepeatAfter?] at h
    split at h
    · next hj =>
      cases h
      exact ⟨[], rest, rfl, List.nodup_nil, by simp, .inl (by simpa using hj)⟩
    next hj =>
    -- The head is seen from here on, so what the rest repeats may be the head itself.
    obtain ⟨before, after, rfl, hn, hnew, hid⟩ := ih h
    simp only [List.mem_cons, not_or] at hnew
    refine ⟨j :: before, after, rfl, ?_, ?_, ?_⟩
    · exact List.nodup_cons.mpr ⟨fun hm => (hnew j hm).1 rfl, hn⟩
    · exact List.forall_mem_cons.mpr ⟨by simpa using hj, fun k hk => (hnew k hk).2⟩
    · rcases hid with hid | hid
      · rcases List.mem_cons.mp hid with rfl | hid
        · exact .inr (List.mem_cons_self ..)
        · exact .inl hid
      · exact .inr (List.mem_cons_of_mem _ hid)

/-! ## The draft of one definition -/

theorem nodup_of_nodup_ids {entries : List (UInt16 × Manufacturer φ)}
    (h : (entries.map (·.1)).Nodup) : entries.Nodup :=
  List.Pairwise.of_map _ (fun _ _ hne he => hne (congrArg _ he)) h

/-- The draft of a definition that repeats no manufacturer has the manufacturers it lists. -/
theorem perm_manufacturers_plus {definition : Definition φ}
    (hn : (definition.manufacturers.map (·.1)).Nodup) :
    (({} : Draft φ).plus definition).definition.manufacturers.Perm definition.manufacturers := by
  have hdraft := nodup_of_nodup_ids (({} : Draft φ).plus definition).nodup_ids
  refine (List.perm_ext_iff_of_nodup hdraft (nodup_of_nodup_ids hn)).mpr fun entry => ?_
  obtain ⟨id, m⟩ := entry
  rw [Draft.mem_definition_manufacturers, Draft.plus,
    Manufacturers.getElem?_foldl_extend_eq_some_iff hn (by simp)]
  simp

theorem validate_plus_eq_ok_iff {definition : Definition φ}
    (hn : (definition.manufacturers.map (·.1)).Nodup) :
    (({} : Draft φ).plus definition).definition.validate = .ok () ↔
      definition.validate = .ok () :=
  Definition.validate_eq_ok_iff_of_perm (perm_manufacturers_plus hn)

theorem parametersOf_empty_plus (definition : Definition φ) (scope : Scope) :
    (({} : Draft φ).plus definition).parametersOf scope = definition.parametersOf scope := by
  rw [Draft.parametersOf_plus, Draft.parametersOf_empty, List.nil_append]

/-! ## The judgement of a definition -/

/-- The outcome is a registry if all is in order with the definition, and otherwise the first fault
in this order: a manufacturer that is listed again, a violation, a clash of ESTA, and the clash of
the lowest manufacturer that has one. -/
structure Definition.JudgedAs (definition : Definition φ) (validate : Bool)
    (outcome : Except Failure (Registry φ)) : Prop where
  ok : (∃ registry, outcome = .ok registry) ↔
    (definition.manufacturers.map (·.1)).Nodup ∧
      (validate = true → definition.validate = .ok ()) ∧
      ∀ scope, Distinct (definition.parametersOf scope)
  repeatedManufacturer : ¬ (definition.manufacturers.map (·.1)).Nodup →
    ∃ before id after, definition.manufacturers.map (·.1) = before ++ id :: after ∧
      before.Nodup ∧ id ∈ before ∧ outcome = .error (.repeatedManufacturer id)
  /-- The violation is the first one with the manufacturers in ascending order. -/
  invalid : (definition.manufacturers.map (·.1)).Nodup →
    ¬ (validate = true → definition.validate = .ok ()) →
    ∃ manufacturers violation, manufacturers.Perm definition.manufacturers ∧
      manufacturers.Pairwise (fun a b => a.1 < b.1) ∧
      { definition with manufacturers }.validate = .error violation ∧
      outcome = .error (.invalid violation)
  esta : (definition.manufacturers.map (·.1)).Nodup →
    (validate = true → definition.validate = .ok ()) → ¬ Distinct (definition.parametersOf .esta) →
    ∃ clash, Catalog.ofList (definition.parametersOf .esta) = .error clash ∧
      outcome = .error (.esta clash)
  manufacturer : (definition.manufacturers.map (·.1)).Nodup →
    (validate = true → definition.validate = .ok ()) → Distinct (definition.parametersOf .esta) →
    ¬ (∀ scope, Distinct (definition.parametersOf scope)) →
    ∃ id clash,
      (∀ other, ¬ Distinct (definition.parametersOf (.manufacturer other)) → id ≤ other) ∧
      Catalog.ofList (definition.parametersOf (.manufacturer id)) = .error clash ∧
      outcome = .error (.manufacturer id clash)

theorem exists_load_memory_iff {definition : Definition φ} {validate : Bool} :
    (∃ registry, (load (.memory definition) validate).outcome = .ok registry) ↔
      (definition.manufacturers.map (·.1)).Nodup ∧
        (validate = true → definition.validate = .ok ()) ∧
        ∀ scope, Distinct (definition.parametersOf scope) := by
  simp only [outcome_load_memory, loadDefinitions_none_eq_ok_iff, List.forall_mem_singleton,
    exists_and_left]
  refine and_congr_right fun hn => and_congr ?_ ?_
  · exact imp_congr_right fun _ => validate_plus_eq_ok_iff hn
  · refine Draft.exists_builtFrom_iff.trans (forall_congr' fun scope => ?_)
    rw [← parametersOf_empty_plus definition scope]
    rfl

theorem outcome_load_memory_eq_bind (definition : Definition φ) (validate : Bool) :
    (load (.memory definition) validate).outcome =
      Draft.add {} definition >>= fun draft => (draft.build validate).outcome := by
  simp only [load, Source.read, Traced.outcome_bind, Traced.ofExcept]
  rfl

theorem outcome_load_of_repeatedId {definition : Definition φ} {id : UInt16}
    (h : definition.repeatedId? = some id) (validate : Bool) :
    (load (.memory definition) validate).outcome = .error (.repeatedManufacturer id) := by
  have hadd : Draft.add {} definition = .error (.repeatedManufacturer id) := by
    rw [Draft.add, h]
  rw [outcome_load_memory_eq_bind, hadd]
  rfl

theorem outcome_load_of_nodup {definition : Definition φ}
    (hn : (definition.manufacturers.map (·.1)).Nodup) (validate : Bool) :
    (load (.memory definition) validate).outcome =
      ((({} : Draft φ).plus definition).build validate).outcome := by
  rw [outcome_load_memory_eq_bind, Draft.add_of_nodup {} hn]
  rfl

theorem outcome_load_of_valid {definition : Definition φ} {validate : Bool}
    (hn : (definition.manufacturers.map (·.1)).Nodup)
    (hv : validate = true → definition.validate = .ok ()) :
    (load (.memory definition) validate).outcome =
      ((({} : Draft φ).plus definition).build false).outcome := by
  rw [outcome_load_of_nodup hn]
  exact Draft.outcome_build_of_valid fun hval => (validate_plus_eq_ok_iff hn).mpr (hv hval)

/-- **Every load of a definition is judged in that order**, whatever is wrong with it besides. -/
theorem load_memory_judgedAs (definition : Definition φ) (validate : Bool) :
    definition.JudgedAs validate (load (.memory definition) validate).outcome where
  ok := exists_load_memory_iff
  repeatedManufacturer hn := by
    cases hid : definition.repeatedId? with
    | none => exact absurd (Definition.repeatedId?_eq_none_iff.mp hid) hn
    | some id =>
      obtain ⟨before, after, hsplit, hb, -, hmem⟩ := exists_of_firstRepeatAfter?_eq_some hid
      exact ⟨before, id, after, hsplit, hb, by simpa using hmem,
        outcome_load_of_repeatedId hid validate⟩
  invalid hn hv := by
    obtain ⟨rfl, hinvalid⟩ : validate = true ∧ definition.validate ≠ .ok () := by simpa using hv
    let draft := ({} : Draft φ).plus definition
    cases hviolation : draft.definition.validate with
    | ok _ => exact absurd ((validate_plus_eq_ok_iff hn).mp hviolation) hinvalid
    | error violation =>
      refine ⟨_, violation, perm_manufacturers_plus hn, draft.pairwise_manufacturers,
        hviolation, ?_⟩
      rw [outcome_load_of_nodup hn]
      exact Draft.outcome_build_of_violation hviolation
  esta hn hv he := by
    obtain ⟨clash, hclash⟩ := Catalog.exists_clash_of_not_distinct he
    refine ⟨clash, hclash, ?_⟩
    rw [outcome_load_of_valid hn hv]
    exact Draft.outcome_build_of_estaClash hclash
  manufacturer hn hv he h := by
    simp only [← parametersOf_empty_plus definition] at he h ⊢
    rw [outcome_load_of_valid hn hv]
    exact Draft.exists_lowest_clash he h

/-- Two manufacturers that each have a value twice: the lower one is reported, though it is listed
last. -/
example :
    (load (.memory { manufacturers :=
      [(2, { name := "M", parameters :=
          [{ name := "X", value := 0x8000 }, { name := "Y", value := 0x8000 }] }),
        (1, { name := "N", parameters :=
          [{ name := "X", value := 0x8000 }, { name := "Y", value := 0x8000 }] })] } :
      Source Unit) true).outcome = .error (.manufacturer 1 (.value 0x8000)) := rfl

end RdmRegistry
