/-
Two ways to a registry. A load merges a definition into a draft, and a manufacturer without
parameters gets no catalog; `Definition.directRegistry` makes a catalog for everything that is
listed. The first registry is the second one without its empty catalogs (`Registry.TrimOf`), and an
empty catalog finds nothing, so no look-up tells the two apart.

`load_agrees_with_direct_build`: one way succeeds exactly when the other does, and the registries
differ on the manufacturers without parameters alone.
-/
import Mathlib.Data.List.Sort
import RdmRegistry.Proofs.OverridesLoad
import RdmRegistry.Proofs.SourceLoad

namespace RdmRegistry

variable {φ : Type}

/-! ## Registries without empty catalogs -/

theorem Catalog.findValue?_of_isEmpty {catalog : Catalog φ} (h : catalog.isEmpty = true)
    (v : UInt16) : catalog.findValue? v = none := by
  have hnil : catalog.parameters = [] := List.isEmpty_iff.mp h
  simp [findValue?, hnil]

theorem Catalog.findName?_of_isEmpty {catalog : Catalog φ} (h : catalog.isEmpty = true)
    (n : String) : catalog.findName? n = none := by
  have hnil : catalog.parameters = [] := List.isEmpty_iff.mp h
  simp [findName?, hnil]

/-- What is not found in empty catalogs is found alike without them. -/
theorem bind_filter_eq_bind {α β : Type} {keep : α → Bool} {find : α → Option β}
    (h : ∀ a, keep a = false → find a = none) (a? : Option α) :
    (a?.filter keep).bind find = a?.bind find := by
  cases a? with
  | none => rfl
  | some a =>
    by_cases hkeep : keep a = true
    · simp [Option.filter, hkeep]
    · simp [Option.filter, hkeep, h a (by simpa using hkeep)]

theorem sum_map_filter {α : Type} {keep : α → Bool} {size : α → Nat}
    (h : ∀ a, keep a = false → size a = 0) (items : List α) :
    ((items.filter keep).map size).sum = (items.map size).sum := by
  induction items with
  | nil => rfl
  | cons a rest ih =>
    by_cases hkeep : keep a = true
    · simp [hkeep, ih]
    · simp [hkeep, ih, h a (by simpa using hkeep)]

namespace Registry

/-- The registry is the full one without the catalogs that have no parameters. -/
structure TrimOf (trimmed full : Registry φ) : Prop where
  version : trimmed.version = full.version
  esta : trimmed.esta = full.esta
  manufacturer? : ∀ id, trimmed.manufacturer? id = (full.manufacturer? id).filter (!·.isEmpty)

namespace TrimOf

variable {trimmed full : Registry φ}

theorem findValueFor?_eq (h : trimmed.TrimOf full) (v id : UInt16) :
    trimmed.findValueFor? v id = full.findValueFor? v id := by
  rw [findValueFor?, findValueFor?, findValue?, findValue?, h.esta, h.manufacturer?,
    bind_filter_eq_bind fun catalog hempty =>
      Catalog.findValue?_of_isEmpty (by simpa using hempty) v]

theorem findNameFor?_eq (h : trimmed.TrimOf full) (n : String) (id : UInt16) :
    trimmed.findNameFor? n id = full.findNameFor? n id := by
  rw [findNameFor?, findNameFor?, findName?, findName?, h.esta, h.manufacturer?,
    bind_filter_eq_bind fun catalog hempty =>
      Catalog.findName?_of_isEmpty (by simpa using hempty) n]

/-- Every scope has the same parameters. -/
theorem parametersOf_eq (h : trimmed.TrimOf full) (scope : Scope) :
    trimmed.parametersOf scope = full.parametersOf scope := by
  cases scope with
  | esta => rw [parametersOf, parametersOf, h.esta]
  | manufacturer id =>
    rw [parametersOf, parametersOf, h.manufacturer?]
    cases full.manufacturer? id with
    | none => rfl
    | some catalog =>
      by_cases hempty : catalog.isEmpty = true
      · have hnil : catalog.parameters = [] := List.isEmpty_iff.mp hempty
        simp [Option.filter, hempty, hnil]
      · simp [Option.filter, hempty]

theorem manufacturer?_ne_iff (h : trimmed.TrimOf full) {id : UInt16} :
    trimmed.manufacturer? id ≠ full.manufacturer? id ↔
      ∃ catalog, full.manufacturer? id = some catalog ∧ catalog.isEmpty = true := by
  rw [h.manufacturer?]
  cases full.manufacturer? id with
  | none => simp
  | some catalog => cases hempty : catalog.isEmpty <;> simp [Option.filter, hempty]

theorem mem_manufacturerIds_iff (h : trimmed.TrimOf full) {id : UInt16} :
    id ∈ trimmed.manufacturerIds ↔
      id ∈ full.manufacturerIds ∧ full.parametersOf (.manufacturer id) ≠ [] := by
  simp only [mem_manufacturerIds, h.manufacturer?, Option.filter_eq_some_iff, parametersOf]
  constructor
  · intro hgiven
    obtain ⟨catalog, hfull, hkeep⟩ := hgiven
    exact ⟨⟨catalog, hfull⟩, by simpa [hfull, Catalog.isEmpty] using hkeep⟩
  · intro hgiven
    obtain ⟨⟨catalog, hfull⟩, hne⟩ := hgiven
    exact ⟨catalog, hfull, by simpa [hfull, Catalog.isEmpty] using hne⟩

theorem manufacturerIds_eq (h : trimmed.TrimOf full) :
    trimmed.manufacturerIds =
      full.manufacturerIds.filter fun id => !(full.parametersOf (.manufacturer id)).isEmpty := by
  refine trimmed.manufacturerIds_pairwise.eq_of_mem_iff
    (full.manufacturerIds_pairwise.filter _) fun id => ?_
  simp [h.mem_manufacturerIds_iff]

theorem size_eq (h : trimmed.TrimOf full) : trimmed.size = full.size := by
  simp only [Registry.size_eq, h.parametersOf_eq, h.manufacturerIds_eq]
  rw [sum_map_filter]
  intro id hnil
  simpa using hnil

end TrimOf

end Registry

/-! ## The direct way -/

/-- A catalog for every manufacturer that is listed, also for one without parameters. -/
def catalogsOf (entries : List (UInt16 × Manufacturer φ)) :
    Except Clash (List (UInt16 × Catalog φ)) :=
  entries.mapM fun (id, m) => do return (id, ← Catalog.ofList m.parameters)

/-- The registry of the catalogs of a definition, without merging or validation. -/
def Definition.directRegistry (definition : Definition φ) : Except Clash (Registry φ) := do
  let esta ← Catalog.ofList definition.esta
  let catalogs ← catalogsOf definition.manufacturers
  return .ofCatalogs definition.version esta catalogs

section Catalogs

variable {entries : List (UInt16 × Manufacturer φ)} {catalogs : List (UInt16 × Catalog φ)}

theorem catalogsOf_cons_eq_ok_iff {entry : UInt16 × Manufacturer φ} :
    catalogsOf (entry :: entries) = .ok catalogs ↔ ∃ catalog tail,
      Catalog.ofList entry.2.parameters = .ok catalog ∧ catalogsOf entries = .ok tail ∧
        catalogs = (entry.1, catalog) :: tail := by
  rw [catalogsOf, mapM_cons_eq_ok_iff, ← catalogsOf]
  simp only [except_bind_eq_ok_iff]
  constructor
  · intro hgiven
    obtain ⟨_, tail, ⟨catalog, hcatalog, hpair⟩, htail, rfl⟩ := hgiven
    cases hpair
    exact ⟨catalog, tail, hcatalog, htail, rfl⟩
  · intro hgiven
    obtain ⟨catalog, tail, hcatalog, htail, rfl⟩ := hgiven
    exact ⟨_, tail, ⟨catalog, hcatalog, rfl⟩, htail, rfl⟩

theorem exists_catalogsOf_iff :
    (∃ catalogs, catalogsOf entries = .ok catalogs) ↔
      ∀ entry ∈ entries, ∃ catalog, Catalog.ofList entry.2.parameters = .ok catalog := by
  induction entries with
  | nil => simp [catalogsOf, pure, Except.pure]
  | cons entry rest ih =>
    rw [List.forall_mem_cons, ← ih]
    simp only [catalogsOf_cons_eq_ok_iff]
    constructor
    · intro hgiven
      obtain ⟨_, catalog, tail, hcatalog, htail, -⟩ := hgiven
      exact ⟨⟨catalog, hcatalog⟩, tail, htail⟩
    · intro hgiven
      obtain ⟨⟨catalog, hcatalog⟩, tail, htail⟩ := hgiven
      exact ⟨_, catalog, tail, hcatalog, htail, rfl⟩

theorem ids_catalogsOf (h : catalogsOf entries = .ok catalogs) :
    catalogs.map (·.1) = entries.map (·.1) := by
  induction entries generalizing catalogs with
  | nil =>
    cases h
    rfl
  | cons entry rest ih =>
    obtain ⟨catalog, tail, -, htail, rfl⟩ := catalogsOf_cons_eq_ok_iff.mp h
    rw [List.map_cons, List.map_cons, ih htail]

theorem mem_catalogsOf (h : catalogsOf entries = .ok catalogs) {id : UInt16}
    {catalog : Catalog φ} :
    (id, catalog) ∈ catalogs ↔
      ∃ m, (id, m) ∈ entries ∧ Catalog.ofList m.parameters = .ok catalog := by
  induction entries generalizing catalogs with
  | nil =>
    cases h
    simp
  | cons entry rest ih =>
    obtain ⟨made, tail, hmade, htail, rfl⟩ := catalogsOf_cons_eq_ok_iff.mp h
    obtain ⟨j, listed⟩ := entry
    simp only [List.mem_cons, Prod.mk.injEq, or_and_right, exists_or, ih htail]
    refine or_congr_left ?_
    constructor
    · intro hgiven
      obtain ⟨rfl, rfl⟩ := hgiven
      exact ⟨listed, ⟨rfl, rfl⟩, hmade⟩
    · intro hgiven
      obtain ⟨_, ⟨rfl, rfl⟩, hcatalog⟩ := hgiven
      exact ⟨rfl, Except.ok.inj (hcatalog.symm.trans hmade)⟩

end Catalogs

/-- Where no identifier is listed twice, every catalog that is listed is kept. -/
theorem Registry.manufacturer?_ofCatalogs {version : Nat} {esta : Catalog φ}
    {catalogs : List (UInt16 × Catalog φ)} (hn : (catalogs.map (·.1)).Nodup) {id : UInt16}
    {catalog : Catalog φ} :
    (ofCatalogs version esta catalogs).manufacturer? id = some catalog ↔
      (id, catalog) ∈ catalogs := by
  have hdistinct : catalogs.Pairwise fun a b => ¬ compare a.1 b.1 = .eq := by
    refine (List.pairwise_map.mp hn).imp fun {a b} hne => ?_
    rwa [Std.compare_eq_iff_eq]
  rw [ofCatalogs, manufacturer?]
  constructor
  · intro h
    by_cases hid : id ∈ catalogs.map (·.1)
    · obtain ⟨⟨_, found⟩, hmem, rfl⟩ := List.mem_map.mp hid
      rw [Std.ExtTreeMap.getElem?_ofList_of_mem Std.compare_self hdistinct hmem] at h
      obtain rfl := Option.some.inj h
      exact hmem
    · rw [Std.ExtTreeMap.getElem?_ofList_of_contains_eq_false (by simpa using hid)] at h
      cases h
  · exact fun hmem => Std.ExtTreeMap.getElem?_ofList_of_mem Std.compare_self hdistinct hmem

namespace Definition

variable {definition : Definition φ}

theorem directRegistry_eq_ok_iff {direct : Registry φ} :
    definition.directRegistry = .ok direct ↔ ∃ esta catalogs,
      Catalog.ofList definition.esta = .ok esta ∧
        catalogsOf definition.manufacturers = .ok catalogs ∧
        direct = .ofCatalogs definition.version esta catalogs := by
  simp only [directRegistry, except_bind_eq_ok_iff, pure, Except.pure, Except.ok.injEq,
    exists_and_left, eq_comm (a := direct)]

theorem exists_directRegistry_iff :
    (∃ direct, definition.directRegistry = .ok direct) ↔
      (∃ esta, Catalog.ofList definition.esta = .ok esta) ∧
        ∀ entry ∈ definition.manufacturers,
          ∃ catalog, Catalog.ofList entry.2.parameters = .ok catalog := by
  rw [← exists_catalogsOf_iff]
  simp only [directRegistry_eq_ok_iff]
  constructor
  · intro hgiven
    obtain ⟨_, esta, catalogs, hesta, hcatalogs, -⟩ := hgiven
    exact ⟨⟨esta, hesta⟩, catalogs, hcatalogs⟩
  · intro hgiven
    obtain ⟨⟨esta, hesta⟩, catalogs, hcatalogs⟩ := hgiven
    exact ⟨_, esta, catalogs, hesta, hcatalogs, rfl⟩

/-- The direct way gives every manufacturer that is listed its catalog. -/
theorem manufacturer?_directRegistry (hn : (definition.manufacturers.map (·.1)).Nodup)
    {direct : Registry φ} (h : definition.directRegistry = .ok direct) {id : UInt16}
    {catalog : Catalog φ} :
    direct.manufacturer? id = some catalog ↔
      ∃ m, (id, m) ∈ definition.manufacturers ∧ Catalog.ofList m.parameters = .ok catalog := by
  obtain ⟨esta, catalogs, -, hcatalogs, rfl⟩ := directRegistry_eq_ok_iff.mp h
  rw [Registry.manufacturer?_ofCatalogs (by rwa [ids_catalogsOf hcatalogs]),
    mem_catalogsOf hcatalogs]

theorem mem_manufacturerIds_directRegistry (hn : (definition.manufacturers.map (·.1)).Nodup)
    {direct : Registry φ} (h : definition.directRegistry = .ok direct) {id : UInt16} :
    id ∈ direct.manufacturerIds ↔ id ∈ definition.manufacturers.map (·.1) := by
  have hcatalogs := (exists_directRegistry_iff.mp ⟨direct, h⟩).2
  rw [Registry.mem_manufacturerIds]
  simp only [manufacturer?_directRegistry hn h]
  constructor
  · intro hgiven
    obtain ⟨_, m, hm, -⟩ := hgiven
    exact List.mem_map.mpr ⟨(id, m), hm, rfl⟩
  · intro hid
    obtain ⟨entry, hentry, rfl⟩ := List.mem_map.mp hid
    obtain ⟨catalog, hcatalog⟩ := hcatalogs entry hentry
    exact ⟨catalog, entry.2, hentry, hcatalog⟩

end Definition

/-! ## Both ways -/

/-- The load has what the direct way makes, except for the empty catalogs. -/
theorem Registry.BuiltFrom.trimOf_directRegistry {definition : Definition φ}
    (hn : (definition.manufacturers.map (·.1)).Nodup) {registry direct : Registry φ}
    (hbuilt : registry.BuiltFrom (({} : Draft φ).plus definition))
    (hdirect : definition.directRegistry = .ok direct) : registry.TrimOf direct := by
  obtain ⟨esta, catalogs, hesta, -, hofCatalogs⟩ :=
    Definition.directRegistry_eq_ok_iff.mp hdirect
  refine ⟨?version, ?esta, fun id => Option.ext fun catalog => ?catalog⟩
  case version =>
    rw [hbuilt.version, hofCatalogs]
    exact Nat.zero_max definition.version
  case esta =>
    have hbuiltEsta : Catalog.ofList definition.esta = .ok registry.esta := hbuilt.esta
    rw [hofCatalogs]
    exact Except.ok.inj (hbuiltEsta.symm.trans hesta)
  case catalog =>
    rw [Registry.manufacturer?, hbuilt.manufacturers, Option.filter_eq_some_iff,
      Definition.manufacturer?_directRegistry hn hdirect]
    simp only [← Draft.mem_definition_manufacturers, (perm_manufacturers_plus hn).mem_iff,
      Catalog.isEmpty, Bool.not_eq_true', List.isEmpty_eq_false_iff]
    constructor
    · intro hgiven
      obtain ⟨m, hm, hne, hcatalog⟩ := hgiven
      rw [← Catalog.parameters_of_ofList hcatalog] at hne
      exact ⟨⟨m, hm, hcatalog⟩, hne⟩
    · intro hgiven
      obtain ⟨⟨m, hm, hcatalog⟩, hne⟩ := hgiven
      rw [Catalog.parameters_of_ofList hcatalog] at hne
      exact ⟨m, hm, hne, hcatalog⟩

/-- The registries answer every look-up alike. Manufacturers without parameters have an empty catalog
in the direct one and none in the other, and there is no other difference. -/
structure Definition.LoadedAsDirect (definition : Definition φ) (loaded direct : Registry φ) :
    Prop where
  version : loaded.version = direct.version
  size : loaded.size = direct.size
  esta : loaded.esta = direct.esta
  findValue? : ∀ value, loaded.findValue? value = direct.findValue? value
  findName? : ∀ name, loaded.findName? name = direct.findName? name
  findValueFor? : ∀ value id, loaded.findValueFor? value id = direct.findValueFor? value id
  findNameFor? : ∀ name id, loaded.findNameFor? name id = direct.findNameFor? name id
  manufacturer? : ∀ id, loaded.manufacturer? id ≠ direct.manufacturer? id ↔
    ∃ m, (id, m) ∈ definition.manufacturers ∧ m.parameters = []
  missing : ∀ id m, (id, m) ∈ definition.manufacturers → m.parameters = [] →
    loaded.manufacturer? id = none ∧ direct.manufacturer? id = some .empty
  listed : ∀ id, id ∈ direct.manufacturerIds ↔ id ∈ definition.manufacturers.map (·.1)
  manufacturerIds : loaded.manufacturerIds = direct.manufacturerIds.filter fun id =>
    !(definition.parametersOf (.manufacturer id)).isEmpty

theorem Registry.BuiltFrom.loadedAsDirect {definition : Definition φ}
    (hn : (definition.manufacturers.map (·.1)).Nodup) {loaded direct : Registry φ}
    (hbuilt : loaded.BuiltFrom (({} : Draft φ).plus definition))
    (hdirect : definition.directRegistry = .ok direct) :
    definition.LoadedAsDirect loaded direct := by
  have htrim := hbuilt.trimOf_directRegistry hn hdirect
  have hmade {id : UInt16} {m : Manufacturer φ} (hm : (id, m) ∈ definition.manufacturers)
      (hnil : m.parameters = []) : direct.manufacturer? id = some .empty := by
    refine (Definition.manufacturer?_directRegistry hn hdirect).mpr ⟨m, hm, ?_⟩
    rw [hnil]
    rfl
  have hparameters (scope : Scope) : direct.parametersOf scope = definition.parametersOf scope := by
    rw [← htrim.parametersOf_eq, hbuilt.parametersOf, parametersOf_empty_plus]
  refine {
    version := htrim.version
    size := htrim.size_eq
    esta := htrim.esta
    findValue? := fun value => by rw [findValue?, findValue?, htrim.esta]
    findName? := fun name => by rw [findName?, findName?, htrim.esta]
    findValueFor? := htrim.findValueFor?_eq
    findNameFor? := htrim.findNameFor?_eq
    manufacturer? := fun id => ?differs
    missing := fun id m hm hnil => ⟨?lost, hmade hm hnil⟩
    listed := fun id => Definition.mem_manufacturerIds_directRegistry hn hdirect
    manufacturerIds := ?ids }
  case differs =>
    rw [htrim.manufacturer?_ne_iff]
    constructor
    · intro hgiven
      obtain ⟨catalog, hcatalog, hempty⟩ := hgiven
      obtain ⟨m, hm, hlist⟩ := (Definition.manufacturer?_directRegistry hn hdirect).mp hcatalog
      refine ⟨m, hm, ?_⟩
      rw [← Catalog.parameters_of_ofList hlist]
      exact List.isEmpty_iff.mp hempty
    · intro hgiven
      obtain ⟨m, hm, hnil⟩ := hgiven
      exact ⟨.empty, hmade hm hnil, rfl⟩
  case lost =>
    rw [htrim.manufacturer?, hmade hm hnil]
    rfl
  case ids =>
    rw [htrim.manufacturerIds_eq]
    simp only [hparameters]

/-- **A load agrees with building directly**: it succeeds exactly when every list has a catalog, and
then its registry is the direct one without the manufacturers that have no parameters. -/
theorem load_agrees_with_direct_build {definition : Definition φ}
    (hn : (definition.manufacturers.map (·.1)).Nodup) :
    ((∃ loaded, (load (.memory definition) false).outcome = .ok loaded) ↔
      (∃ esta, Catalog.ofList definition.esta = .ok esta) ∧
        ∀ entry ∈ definition.manufacturers,
          ∃ catalog, Catalog.ofList entry.2.parameters = .ok catalog) ∧
    ∀ loaded, (load (.memory definition) false).outcome = .ok loaded →
      ∃ direct, definition.directRegistry = .ok direct ∧
        definition.LoadedAsDirect loaded direct := by
  have hsome : (∃ loaded, (load (.memory definition) false).outcome = .ok loaded) ↔
      ∃ direct, definition.directRegistry = .ok direct := by
    rw [exists_load_memory_iff, Definition.distinct_scopes_iff hn,
      Definition.exists_directRegistry_iff]
    simp [hn, Catalog.exists_ofList_iff]
  refine ⟨hsome.trans Definition.exists_directRegistry_iff, fun loaded hload => ?_⟩
  obtain ⟨direct, hdirect⟩ := hsome.mp ⟨loaded, hload⟩
  rw [outcome_load_of_nodup hn, Draft.build_false_eq_ok_iff] at hload
  exact ⟨direct, hdirect, hload.loadedAsDirect hn hdirect⟩

/-- Of the two manufacturers of `crowdedBase`, the load leaves out the one without parameters, which
finds the parameters of ESTA all the same. -/
theorem load_agrees_with_direct_build_crowded :
    (crowdedBase.manufacturers.map (·.1)).Nodup ∧
    ∃ loaded direct, (load (.memory crowdedBase) false).outcome = .ok loaded ∧
      crowdedBase.directRegistry = .ok direct ∧ loaded.size = direct.size ∧
      loaded.manufacturerIds = [0x7A70] ∧ direct.manufacturerIds = [0x7A70, 0x7A71] ∧
      loaded.manufacturer? 0x7A71 ≠ direct.manufacturer? 0x7A71 ∧
      loaded.findNameFor? "A" 0x7A71 = direct.findNameFor? "A" 0x7A71 := by
  have hn : (crowdedBase.manufacturers.map (·.1)).Nodup := by decide
  obtain ⟨hsome, hagree⟩ := load_agrees_with_direct_build hn
  obtain ⟨loaded, hload⟩ := hsome.mpr ⟨⟨_, rfl⟩, List.forall_mem_cons.mpr
    ⟨⟨_, rfl⟩, List.forall_mem_singleton.mpr ⟨_, rfl⟩⟩⟩
  obtain ⟨direct, hdirect, h⟩ := hagree loaded hload
  have hids : direct.manufacturerIds = [0x7A70, 0x7A71] := by
    have hlisted : crowdedBase.directRegistry.toOption.map (·.manufacturerIds) =
        some [0x7A70, 0x7A71] := by decide +kernel
    rw [hdirect] at hlisted
    exact Option.some.inj hlisted
  have hloaded : loaded.manufacturerIds = [0x7A70] := by
    rw [h.manufacturerIds, hids]
    decide
  exact ⟨hn, loaded, direct, hload, hdirect, h.size, hloaded, hids,
    (h.manufacturer? _).mpr ⟨{ name := "N" }, by decide, rfl⟩, h.findNameFor? _ _⟩

end RdmRegistry
