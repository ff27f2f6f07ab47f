/-
Building a registry from a draft. `Registry.BuiltFrom` says what the registry holds: the version,
the catalog of ESTA, and a catalog for every manufacturer with a parameter. A draft determines that
registry (`BuiltFrom.unique`), and `Draft.build_eq_ok_iff` says that it is built exactly when no
scope has a collision and, if asked for, the content is valid.
-/
import Mathlib.Algebra.GroupWithZero.Nat
import RdmRegistry.Proofs.Overriding

namespace RdmRegistry

variable {φ : Type}

/-! ## The catalogs of manufacturers -/

theorem outcome_addCatalog_eq_ok_iff {built next : Std.ExtTreeMap UInt16 (Catalog φ)}
    {entry : UInt16 × Manufacturer φ} :
    (addCatalog built entry).outcome = .ok next ↔
      (entry.2.parameters = [] ∧ next = built) ∨
        (entry.2.parameters ≠ [] ∧ ∃ catalog, Catalog.ofList entry.2.parameters = .ok catalog ∧
          next = built.insert entry.1 catalog) := by
  obtain ⟨id, m⟩ := entry
  rw [addCatalog]
  by_cases h : m.parameters = []
  · simp [h, Traced.emit, Traced.pure_eq, Traced.bind_ok, eq_comm]
  · rw [if_neg (by simpa using h)]
    simp only [Traced.outcome_bind_eq_ok_iff, Traced.outcome_liftError_eq_ok_iff, Traced.pure_eq,
      Except.ok.injEq, h, false_and, false_or, ne_eq, not_false_eq_true, true_and]
    simp only [eq_comm]

theorem exists_foldlM_addCatalog_iff (built : Std.ExtTreeMap UInt16 (Catalog φ))
    (entries : List (UInt16 × Manufacturer φ)) :
    (∃ all, (entries.foldlM addCatalog built).outcome = .ok all) ↔
      ∀ entry ∈ entries, Distinct entry.2.parameters := by
  induction entries generalizing built with
  | nil => simp [Traced.pure_eq]
  | cons entry rest ih =>
    simp only [List.foldlM_cons, Traced.outcome_bind_eq_ok_iff, outcome_addCatalog_eq_ok_iff,
      List.forall_mem_cons]
    constructor
    · intro hgiven
      obtain ⟨all, next, h, hr⟩ := hgiven
      refine ⟨?_, (ih next).mp ⟨all, hr⟩⟩
      rcases h with ⟨hp, -⟩ | ⟨-, catalog, hc, -⟩
      · rw [hp]
        exact Distinct.nil
      · exact Catalog.exists_ofList_iff.mp ⟨catalog, hc⟩
    · intro hgiven
      obtain ⟨hd, hr⟩ := hgiven
      by_cases hp : entry.2.parameters = []
      · obtain ⟨all, ha⟩ := (ih built).mpr hr
        exact ⟨all, built, .inl ⟨hp, rfl⟩, ha⟩
      · obtain ⟨catalog, hc⟩ := Catalog.exists_ofList_iff.mpr hd
        obtain ⟨all, ha⟩ := (ih (built.insert entry.1 catalog)).mpr hr
        exact ⟨all, _, .inr ⟨hp, catalog, hc, rfl⟩, ha⟩

/-- A catalog stands under the identifier of an entry with parameters, or stood there before. -/
theorem getElem?_foldlM_addCatalog {built all : Std.ExtTreeMap UInt16 (Catalog φ)}
    {entries : List (UInt16 × Manufacturer φ)} (hn : (entries.map (·.1)).Nodup)
    (h : (entries.foldlM addCatalog built).outcome = .ok all) (id : UInt16) (catalog : Catalog φ) :
    all[id]? = some catalog ↔
      (∃ m, (id, m) ∈ entries ∧ m.parameters ≠ [] ∧ Catalog.ofList m.parameters = .ok catalog) ∨
        (built[id]? = some catalog ∧ ∀ m, (id, m) ∈ entries → m.parameters = []) := by
  induction entries generalizing built with
  | nil =>
    simp only [List.foldlM_nil, Traced.pure_eq, Except.ok.injEq] at h
    subst h
    simp
  | cons entry rest ih =>
    obtain ⟨j, m⟩ := entry
    rw [List.map_cons, List.nodup_cons] at hn
    simp only [List.foldlM_cons, Traced.outcome_bind_eq_ok_iff, outcome_addCatalog_eq_ok_iff] at h
    obtain ⟨next, hnext, hr⟩ := h
    rw [ih hn.2 hr]
    by_cases hj : j = id
    · -- The identifier is not listed again, so the first entry alone decides.
      subst hj
      have hno : ∀ m', (j, m') ∉ rest := fun m' hm => hn.1 (List.mem_map.mpr ⟨_, hm, rfl⟩)
      rcases hnext with ⟨hp, rfl⟩ | ⟨hp, made, hc, rfl⟩
      · simp [hno, hp]
      · simp [hno, hp, hc]
    · have hb : next[id]? = built[id]? := by
        rcases hnext with ⟨-, rfl⟩ | ⟨-, made, -, rfl⟩
        · rfl
        · rw [Std.ExtTreeMap.getElem?_insert, if_neg (by simpa using hj)]
      simp [hb, Ne.symm hj]

/-! ## The registry of a draft -/

/-- The registry holds what the draft has: a catalog for each scope, except that manufacturers
without parameters have none. -/
structure Registry.BuiltFrom (registry : Registry φ) (draft : Draft φ) : Prop where
  version : registry.version = draft.version
  distinct : ∀ scope, Distinct (draft.parametersOf scope)
  esta : Catalog.ofList draft.esta = .ok registry.esta
  manufacturers : ∀ (id : UInt16) (catalog : Catalog φ),
    registry.manufacturers[id]? = some catalog ↔
      ∃ m : Manufacturer φ, draft.manufacturers[id]? = some m ∧ m.parameters ≠ [] ∧
        Catalog.ofList m.parameters = .ok catalog

theorem Registry.BuiltFrom.unique {r s : Registry φ} {draft : Draft φ} (hr : r.BuiltFrom draft)
    (hs : s.BuiltFrom draft) : r = s := by
  obtain ⟨version, esta, manufacturers⟩ := r
  obtain ⟨version', esta', manufacturers'⟩ := s
  have he : esta = esta' := by simpa using hr.esta.symm.trans hs.esta
  have hm : manufacturers = manufacturers' := by
    refine Std.ExtTreeMap.ext_getElem? fun id => Option.ext fun catalog => ?_
    exact (hr.manufacturers id catalog).trans (hs.manufacturers id catalog).symm
  have hv : version = version' := hr.version.trans hs.version.symm
  rw [he, hm, hv]

theorem Draft.nodup_ids (draft : Draft φ) : (draft.definition.manufacturers.map (·.1)).Nodup := by
  rw [definition, show (fun entry : UInt16 × Manufacturer φ => entry.1) = Prod.fst from rfl,
    Std.ExtTreeMap.map_fst_toList_eq_keys]
  exact Std.ExtTreeMap.nodup_keys

theorem Draft.mem_definition_manufacturers {draft : Draft φ} {id : UInt16} {m : Manufacturer φ} :
    (id, m) ∈ draft.definition.manufacturers ↔ draft.manufacturers[id]? = some m :=
  Std.ExtTreeMap.mem_toList_iff_getElem?_eq_some

theorem Draft.parametersOf_of_mem {draft : Draft φ} {id : UInt16} {m : Manufacturer φ}
    (h : (id, m) ∈ draft.definition.manufacturers) :
    draft.parametersOf (.manufacturer id) = m.parameters := by
  rw [parametersOf, Manufacturers.parametersUnder, mem_definition_manufacturers.mp h]
  rfl

/-- A draft knows every manufacturer of which it has a parameter. -/
theorem Draft.exists_mem_of_parametersOf_ne_nil {draft : Draft φ} {id : UInt16}
    (h : draft.parametersOf (.manufacturer id) ≠ []) :
    ∃ m, (id, m) ∈ draft.definition.manufacturers := by
  rw [parametersOf, Manufacturers.parametersUnder] at h
  cases hm : draft.manufacturers[id]? with
  | none =>
    rw [hm] at h
    exact absurd rfl h
  | some m => exact ⟨m, mem_definition_manufacturers.mpr hm⟩

/-- A manufacturer of which a draft has parameters is known by those alone. -/
theorem Draft.exists_manufacturer_iff {draft : Draft φ} {id : UInt16} {catalog : Catalog φ} :
    (∃ m : Manufacturer φ, draft.manufacturers[id]? = some m ∧ m.parameters ≠ [] ∧
        Catalog.ofList m.parameters = .ok catalog) ↔
      draft.parametersOf (.manufacturer id) ≠ [] ∧
        Catalog.ofList (draft.parametersOf (.manufacturer id)) = .ok catalog := by
  rw [parametersOf, Manufacturers.parametersUnder]
  cases draft.manufacturers[id]? with
  | none => simp
  | some m => simp

/-- Every scope of a draft is distinct when ESTA and every manufacturer it knows are. -/
theorem Draft.forall_distinct_iff {draft : Draft φ} :
    (∀ scope, Distinct (draft.parametersOf scope)) ↔ Distinct draft.esta ∧
      ∀ entry ∈ draft.definition.manufacturers, Distinct entry.2.parameters := by
  constructor
  · refine fun h => ⟨h .esta, fun entry he => ?_⟩
    have hd := h (.manufacturer entry.1)
    rwa [parametersOf, Manufacturers.parametersUnder, mem_definition_manufacturers.mp he] at hd
  · intro hgiven scope
    obtain ⟨he, hm⟩ := hgiven
    cases scope with
    | esta => exact he
    | manufacturer id =>
      rw [parametersOf, Manufacturers.parametersUnder]
      cases hid : draft.manufacturers[id]? with
      | none => exact Distinct.nil
      | some m => exact hm (id, m) (mem_definition_manufacturers.mpr hid)

namespace Draft

/-- Validation, where it is asked for, comes before everything else. -/
theorem build_true (draft : Draft φ) :
    draft.build true =
      Traced.liftError .invalid draft.definition.validate >>= fun _ => draft.build false := rfl

/-- The catalogs that building makes are those of the draft. -/
theorem builtFrom_of_catalogs {draft : Draft φ} {esta : Catalog φ}
    {all : Std.ExtTreeMap UInt16 (Catalog φ)} (he : Catalog.ofList draft.esta = .ok esta)
    (hm : (draft.definition.manufacturers.foldlM addCatalog ∅).outcome = .ok all) :
    Registry.BuiltFrom { version := draft.version, esta, manufacturers := all } draft := by
  refine ⟨rfl, forall_distinct_iff.mpr ⟨?_, ?_⟩, he, fun id catalog => ?_⟩
  · exact Catalog.exists_ofList_iff.mp ⟨esta, he⟩
  · exact (exists_foldlM_addCatalog_iff ∅ _).mp ⟨all, hm⟩
  · rw [getElem?_foldlM_addCatalog draft.nodup_ids hm id catalog]
    simp [mem_definition_manufacturers]

theorem exists_catalogs {draft : Draft φ} (h : ∀ scope, Distinct (draft.parametersOf scope)) :
    ∃ esta all, Catalog.ofList draft.esta = .ok esta ∧
      (draft.definition.manufacturers.foldlM addCatalog ∅).outcome = .ok all := by
  obtain ⟨he, hm⟩ := forall_distinct_iff.mp h
  obtain ⟨esta, hesta⟩ := Catalog.exists_ofList_iff.mpr he
  obtain ⟨all, hall⟩ := (exists_foldlM_addCatalog_iff ∅ _).mpr hm
  exact ⟨esta, all, hesta, hall⟩

/-- Every draft without collisions has its registry. -/
theorem exists_builtFrom_iff {draft : Draft φ} :
    (∃ registry : Registry φ, registry.BuiltFrom draft) ↔
      ∀ scope, Distinct (draft.parametersOf scope) := by
  refine ⟨fun ⟨_, h⟩ => h.distinct, fun h => ?_⟩
  obtain ⟨esta, all, he, hm⟩ := exists_catalogs h
  exact ⟨_, builtFrom_of_catalogs he hm⟩

theorem build_false_eq_ok_iff {draft : Draft φ} {registry : Registry φ} :
    (draft.build false).outcome = .ok registry ↔ registry.BuiltFrom draft := by
  simp only [build, Bool.false_eq_true, if_false, Traced.outcome_bind_eq_ok_iff,
    Traced.outcome_liftError_eq_ok_iff, Traced.emit, Traced.pure_eq, Except.ok.injEq]
  constructor
  · intro hgiven
    obtain ⟨esta, he, all, hm, -, -, rfl⟩ := hgiven
    exact builtFrom_of_catalogs he hm
  · intro h
    obtain ⟨esta, all, he, hm⟩ := exists_catalogs h.distinct
    exact ⟨esta, he, all, hm, (), trivial, (builtFrom_of_catalogs he hm).unique h⟩

/-- A registry is built exactly when no scope has a collision and the content is valid, if that is
asked for; it is the registry of the draft. -/
theorem build_eq_ok_iff {draft : Draft φ} {validate : Bool} {registry : Registry φ} :
    (draft.build validate).outcome = .ok registry ↔
      (validate = true → draft.definition.validate = .ok ()) ∧ registry.BuiltFrom draft := by
  cases validate with
  | false => simp [build_false_eq_ok_iff]
  | true =>
    rw [build_true, Traced.outcome_bind_eq_ok_iff]
    simp only [Traced.outcome_liftError_eq_ok_iff, build_false_eq_ok_iff, forall_const]
    exact ⟨fun ⟨(), h⟩ => h, fun h => ⟨(), h⟩⟩

end Draft

/-! ## What a built registry answers -/

namespace Registry

/-- A manufacturer has a catalog exactly when the draft has a parameter of it. -/
theorem BuiltFrom.manufacturer? {registry : Registry φ} {draft : Draft φ}
    (h : registry.BuiltFrom draft) (id : UInt16) (catalog : Catalog φ) :
    registry.manufacturer? id = some catalog ↔
      draft.parametersOf (.manufacturer id) ≠ [] ∧
        Catalog.ofList (draft.parametersOf (.manufacturer id)) = .ok catalog := by
  rw [Registry.manufacturer?, h.manufacturers, Draft.exists_manufacturer_iff]

theorem BuiltFrom.parametersOf {registry : Registry φ} {draft : Draft φ}
    (h : registry.BuiltFrom draft) (scope : Scope) :
    registry.parametersOf scope = draft.parametersOf scope := by
  cases scope with
  | esta => exact Catalog.parameters_of_ofList h.esta
  | manufacturer id =>
    rw [Registry.parametersOf]
    cases hc : registry.manufacturer? id with
    | some catalog => exact Catalog.parameters_of_ofList ((h.manufacturer? id catalog).mp hc).2
    | none =>
      -- Only a scope without parameters is left out, since every other one has a catalog.
      obtain ⟨catalog, hok⟩ := Catalog.exists_ofList_iff.mpr (h.distinct (.manufacturer id))
      by_cases hp : draft.parametersOf (.manufacturer id) = []
      · rw [hp]
        rfl
      · have hsome := (h.manufacturer? id catalog).mpr ⟨hp, hok⟩
        rw [hc] at hsome
        cases hsome

/-- A registry is that of every draft with its version and its parameters, whatever the names of
the manufacturers. -/
theorem BuiltFrom.of_parametersOf {registry : Registry φ} {first second : Draft φ}
    (h : registry.BuiltFrom first) (hversion : second.version = first.version)
    (hparameters : ∀ scope, second.parametersOf scope = first.parametersOf scope) :
    registry.BuiltFrom second where
  version := h.version.trans hversion.symm
  distinct scope := (hparameters scope).symm ▸ h.distinct scope
  esta := by
    have hesta : second.esta = first.esta := hparameters .esta
    rw [hesta]
    exact h.esta
  manufacturers id catalog := by
    rw [h.manufacturers, Draft.exists_manufacturer_iff, Draft.exists_manufacturer_iff, hparameters]

theorem mem_manufacturerIds {registry : Registry φ} {id : UInt16} :
    id ∈ registry.manufacturerIds ↔ ∃ catalog, registry.manufacturer? id = some catalog := by
  rw [manufacturerIds, Std.ExtTreeMap.mem_keys, Std.ExtTreeMap.mem_iff_isSome_getElem?,
    Option.isSome_iff_exists]
  rfl

theorem manufacturerIds_pairwise (registry : Registry φ) :
    registry.manufacturerIds.Pairwise (· < ·) := by
  refine (Std.ExtTreeMap.ordered_keys (t := registry.manufacturers)).imp fun {a b} h => ?_
  rwa [Std.compare_eq_lt] at h

theorem nodup_manufacturerIds (registry : Registry φ) : registry.manufacturerIds.Nodup :=
  registry.manufacturerIds_pairwise.imp UInt16.ne_of_lt

theorem BuiltFrom.mem_manufacturerIds {registry : Registry φ} {draft : Draft φ}
    (h : registry.BuiltFrom draft) {id : UInt16} :
    id ∈ registry.manufacturerIds ↔ draft.parametersOf (.manufacturer id) ≠ [] := by
  rw [Registry.mem_manufacturerIds]
  simp only [h.manufacturer?]
  constructor
  · intro hgiven
    obtain ⟨catalog, hne, -⟩ := hgiven
    exact hne
  · intro hne
    obtain ⟨catalog, hok⟩ := Catalog.exists_ofList_iff.mpr (h.distinct (.manufacturer id))
    exact ⟨catalog, hne, hok⟩

/-- The size of a registry is the sum of the lengths of its scopes. -/
theorem size_eq (registry : Registry φ) :
    registry.size = (registry.parametersOf .esta).length +
      (registry.manufacturerIds.map fun id =>
        (registry.parametersOf (.manufacturer id)).length).sum := by
  have hlength : registry.manufacturers.toList.map
      ((fun id => (registry.parametersOf (.manufacturer id)).length) ∘ Prod.fst) =
      registry.manufacturers.toList.map (·.2.size) := by
    refine List.map_congr_left fun entry he => ?_
    rw [Std.ExtTreeMap.mem_toList_iff_getElem?_eq_some] at he
    rw [Function.comp_apply, parametersOf, manufacturer?, he]
    rfl
  rw [size, manufacturerIds, ← Std.ExtTreeMap.map_fst_toList_eq_keys, List.map_map, hlength,
    List.sum, List.foldr_map]
  rfl

end Registry

end RdmRegistry
