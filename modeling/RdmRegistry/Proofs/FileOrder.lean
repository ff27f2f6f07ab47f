/-
The order of the data files. Another order gives the scopes of a draft in another order and changes
nothing else (`Draft.Alike.sum`), as long as a manufacturer has the same name wherever it is listed;
otherwise the file that comes first decides on its name. Registries of such drafts answer alike
(`Draft.Alike.answersAs`): what a look-up finds is decided by the parameter, not by its position.

`order_of_files_is_irrelevant`: the same data files under other names load alike.
-/
import Mathlib.Data.List.Sort
import RdmRegistry.Proofs.EntryValidity
import RdmRegistry.Proofs.NameListing
import RdmRegistry.Proofs.OverridesLoad
import RdmRegistry.Proofs.ScopedLookup

namespace RdmRegistry

variable {φ : Type}

/-! ## Lists in another order -/

theorem distinct_iff_of_perm {first second : List (Parameter φ)} (h : first.Perm second) :
    Distinct first ↔ Distinct second :=
  h.pairwise_iff fun {p q} hpq => (q.collides_comm p).trans hpq

theorem foldl_max_eq_of_perm {first second : List Nat} (h : first.Perm second) :
    first.foldl max 0 = second.foldl max 0 :=
  h.foldl_eq' (fun x _ y _ z => by omega) 0

/-- Where entries of one identifier have one name, the first name is that of any of them. -/
theorem firstName?_eq_some_iff_mem {entries : List (UInt16 × Manufacturer φ)}
    (hsame : ∀ e ∈ entries, ∀ f ∈ entries, e.1 = f.1 → e.2.name = f.2.name) {id : UInt16}
    {name : String} :
    firstName? id entries = some name ↔ ∃ m, (id, m) ∈ entries ∧ m.name = name := by
  constructor
  · intro h
    obtain ⟨before, m, after, rfl, -, hm⟩ := firstName?_eq_some_iff.mp h
    exact ⟨m, by simp, hm⟩
  · intro hgiven
    obtain ⟨m, hmem, rfl⟩ := hgiven
    cases hname : firstName? id entries with
    | none => exact absurd (List.mem_map.mpr ⟨_, hmem, rfl⟩) (firstName?_eq_none_iff.mp hname)
    | some name =>
      obtain ⟨before, m', after, hsplit, -, rfl⟩ := firstName?_eq_some_iff.mp hname
      have hmem' : (id, m') ∈ entries := by simp [hsplit]
      rw [hsame (id, m') hmem' (id, m) hmem rfl]

/-! ## Drafts that differ in order -/

/-- The drafts have the same version, the same manufacturers under the same names, and in every
scope the same parameters, in whatever order. -/
structure Draft.Alike (first second : Draft φ) : Prop where
  version : first.version = second.version
  names : ∀ id, first.manufacturers.name? id = second.manufacturers.name? id
  parameters : ∀ scope, (first.parametersOf scope).Perm (second.parametersOf scope)

namespace Draft.Alike

variable {first second : Draft φ}

theorem symm (h : first.Alike second) : second.Alike first :=
  ⟨h.version.symm, fun id => (h.names id).symm, fun scope => (h.parameters scope).symm⟩

theorem sum {bases bases' : List (Definition φ)} (h : bases.Perm bases')
    (hsame : ∀ e ∈ bases.flatMap (·.manufacturers), ∀ f ∈ bases.flatMap (·.manufacturers),
      e.1 = f.1 → e.2.name = f.2.name) : (Draft.sum bases).Alike (Draft.sum bases') where
  version := by
    rw [version_sum, version_sum]
    exact foldl_max_eq_of_perm (h.map _)
  names id := by
    have hlisted : (bases.flatMap (·.manufacturers)).Perm (bases'.flatMap (·.manufacturers)) :=
      h.flatMap_right _
    have hsame' : ∀ e ∈ bases'.flatMap (·.manufacturers), ∀ f ∈ bases'.flatMap (·.manufacturers),
        e.1 = f.1 → e.2.name = f.2.name :=
      fun e he f hf => hsame e (hlisted.mem_iff.mpr he) f (hlisted.mem_iff.mpr hf)
    rw [name?_sum, name?_sum]
    -- Which entry comes first no longer matters once every entry of the identifier has the name.
    refine Option.ext fun name => ?_
    rw [firstName?_eq_some_iff_mem hsame, firstName?_eq_some_iff_mem hsame']
    simp only [hlisted.mem_iff]
  parameters scope := by
    rw [parametersOf_sum, parametersOf_sum]
    exact h.flatMap_right _

/-- Overrides spare the same parameters in either order, and follow them. -/
theorem overriddenBy (h : first.Alike second) {definition : Definition φ}
    (hd : definition.NoRepeats) :
    (first.overriddenBy definition).Alike (second.overriddenBy definition) where
  version := by rw [version_overriddenBy, version_overriddenBy, h.version]
  names id := by rw [name?_overriddenBy, name?_overriddenBy, h.names]
  parameters scope := by
    rw [parametersOf_overriddenBy _ hd, parametersOf_overriddenBy _ hd]
    exact ((h.parameters scope).filter _).append_right _

theorem validate_iff (h : first.Alike second) :
    first.definition.validate = .ok () ↔ second.definition.validate = .ok () := by
  simp only [Draft.validate_iff_names, h.names, (h.parameters _).mem_iff]

theorem distinct_iff (h : first.Alike second) :
    (∀ scope, Distinct (first.parametersOf scope)) ↔
      ∀ scope, Distinct (second.parametersOf scope) :=
  forall_congr' fun scope => distinct_iff_of_perm (h.parameters scope)

end Draft.Alike

/-! ## Registries that answer alike -/

namespace Registry

/-- The catalog of a scope; ESTA always has one. -/
def catalog? (registry : Registry φ) : Scope → Option (Catalog φ)
  | .esta => some registry.esta
  | .manufacturer id => registry.manufacturer? id

/-- The registries have the same version, the same manufacturers and the same sizes, answer every
look-up alike, and list every scope alike by name. Only the order of the parameters may differ. -/
structure AnswersAs (r s : Registry φ) : Prop where
  version : r.version = s.version
  manufacturerIds : r.manufacturerIds = s.manufacturerIds
  size : r.size = s.size
  findValue? : ∀ value, r.findValue? value = s.findValue? value
  findName? : ∀ name, r.findName? name = s.findName? name
  findValueFor? : ∀ value id, r.findValueFor? value id = s.findValueFor? value id
  findNameFor? : ∀ name id, r.findNameFor? name id = s.findNameFor? name id
  sizes : ∀ scope, (r.catalog? scope).map (·.size) = (s.catalog? scope).map (·.size)
  sortedByName : ∀ scope,
    (r.catalog? scope).map (·.sortedByName) = (s.catalog? scope).map (·.sortedByName)
  parameters : ∀ scope, (r.parametersOf scope).Perm (s.parametersOf scope)

variable {r s : Registry φ} {first second : Draft φ}

/-- A scope has a catalog of its parameters, or is a manufacturer without any. -/
theorem BuiltFrom.catalog?_cases (h : r.BuiltFrom first) (scope : Scope) :
    (∃ catalog, r.catalog? scope = some catalog ∧
        Catalog.ofList (first.parametersOf scope) = .ok catalog) ∨
      r.catalog? scope = none ∧ first.parametersOf scope = [] ∧ scope ≠ .esta := by
  cases scope with
  | esta => exact .inl ⟨r.esta, rfl, h.esta⟩
  | manufacturer id =>
    rcases h.manufacturer?_cases id with hsome | ⟨hnone, hnil⟩
    · exact .inl hsome
    · exact .inr ⟨hnone, hnil, nofun⟩

theorem BuiltFrom.catalog?_eq_none (h : r.BuiltFrom first) {scope : Scope}
    (hnil : first.parametersOf scope = []) (hscope : scope ≠ .esta) : r.catalog? scope = none := by
  cases scope with
  | esta => exact absurd rfl hscope
  | manufacturer id =>
    refine Option.eq_none_iff_forall_ne_some.mpr fun catalog hc => ?_
    exact ((h.manufacturer? id catalog).mp hc).1 hnil

/-- What is the same of catalogs that differ in order only is the same of each scope. -/
theorem BuiltFrom.map_catalog?_eq {α : Type} {of : Catalog φ → α} (hr : r.BuiltFrom first)
    (hs : s.BuiltFrom second) (h : first.Alike second)
    (hsame : ∀ {parameters c d}, Catalog.ofList parameters = .ok c →
      c.parameters.Perm d.parameters → of c = of d) (scope : Scope) :
    (r.catalog? scope).map of = (s.catalog? scope).map of := by
  have hperm := h.parameters scope
  rcases hr.catalog?_cases scope with ⟨c, hrc, hc⟩ | ⟨hrc, hnil, hscope⟩
  · rcases hs.catalog?_cases scope with ⟨d, hsd, hd⟩ | ⟨-, hnil, hscope⟩
    · rw [hrc, hsd, Option.map_some, Option.map_some]
      rw [← Catalog.parameters_of_ofList hc, ← Catalog.parameters_of_ofList hd] at hperm
      rw [hsame hc hperm]
    · rw [hnil, List.perm_nil] at hperm
      rw [hr.catalog?_eq_none hperm hscope, hs.catalog?_eq_none hnil hscope]
  · rw [hnil, List.nil_perm] at hperm
    rw [hrc, hs.catalog?_eq_none hperm hscope]

theorem BuiltFrom.manufacturerIds_eq (hr : r.BuiltFrom first) (hs : s.BuiltFrom second)
    (h : first.Alike second) : r.manufacturerIds = s.manufacturerIds := by
  refine r.manufacturerIds_pairwise.eq_of_mem_iff s.manufacturerIds_pairwise fun id => ?_
  have hperm := h.parameters (.manufacturer id)
  rw [hr.mem_manufacturerIds, hs.mem_manufacturerIds, not_iff_not]
  exact ⟨fun hnil => by rwa [hnil, List.nil_perm] at hperm,
    fun hnil => by rwa [hnil, List.perm_nil] at hperm⟩

end Registry

/-- Registries of drafts that differ in order answer alike. -/
theorem Draft.Alike.answersAs {r s : Registry φ} {first second : Draft φ}
    (h : first.Alike second) (hr : r.BuiltFrom first) (hs : s.BuiltFrom second) :
    r.AnswersAs s := by
  have hparameters (scope : Scope) : (r.parametersOf scope).Perm (s.parametersOf scope) := by
    rw [hr.parametersOf, hs.parametersOf]
    exact h.parameters scope
  have hids : r.manufacturerIds = s.manufacturerIds := hr.manufacturerIds_eq hs h
  have hvalue (v : UInt16) : r.findValue? v = s.findValue? v := Option.ext fun p => by
    rw [hr.findValue?_eq_some_iff, hs.findValue?_eq_some_iff, (h.parameters .esta).mem_iff]
  have hname (n : String) : r.findName? n = s.findName? n := Option.ext fun p => by
    rw [hr.findName?_eq_some_iff, hs.findName?_eq_some_iff, (h.parameters .esta).mem_iff]
  have hownValue (v id : UInt16) : (r.manufacturer? id).bind (·.findValue? v) =
      (s.manufacturer? id).bind (·.findValue? v) := Option.ext fun p => by
    rw [hr.bind_findValue?_eq_some_iff, hs.bind_findValue?_eq_some_iff,
      (h.parameters (.manufacturer id)).mem_iff]
  have hownName (n : String) (id : UInt16) : (r.manufacturer? id).bind (·.findName? n) =
      (s.manufacturer? id).bind (·.findName? n) := Option.ext fun p => by
    rw [hr.bind_findName?_eq_some_iff, hs.bind_findName?_eq_some_iff,
      (h.parameters (.manufacturer id)).mem_iff]
  exact {
    version := by rw [hr.version, hs.version, h.version]
    manufacturerIds := hids
    size := by simp only [Registry.size_eq, hids, (hparameters _).length_eq]
    findValue? := hvalue
    findName? := hname
    findValueFor? := fun v id => by
      rw [Registry.findValueFor?, Registry.findValueFor?, hownValue, hvalue]
    findNameFor? := fun n id => by
      rw [Registry.findNameFor?, Registry.findNameFor?, hownName, hname]
    sizes := hr.map_catalog?_eq hs h fun _ hperm => hperm.length_eq
    sortedByName := hr.map_catalog?_eq hs h Catalog.sortedByName_eq_of_perm
    parameters := hparameters }

/-! ## Loads -/

/-- Two loads come to registries that answer alike, or both fail. -/
inductive LoadAlike : Except Failure (Registry φ) → Except Failure (Registry φ) → Prop
  | registries {r s : Registry φ} (h : r.AnswersAs s) : LoadAlike (.ok r) (.ok s)
  | failures {e f : Failure} : LoadAlike (.error e) (.error f)

/-- Loads are alike when what each comes to is matched by the other. -/
theorem LoadAlike.of_ok {x y : Except Failure (Registry φ)}
    (hx : ∀ r, x = .ok r → ∃ s, y = .ok s ∧ r.AnswersAs s)
    (hy : ∀ s, y = .ok s → ∃ r, x = .ok r) : LoadAlike x y := by
  cases x with
  | ok r =>
    obtain ⟨s, rfl, h⟩ := hx r rfl
    exact .registries h
  | error e =>
    cases y with
    | ok s =>
      obtain ⟨r, hr⟩ := hy s rfl
      cases hr
    | error f => exact .failures

theorem exists_loadDefinitions_of_alike {bases bases' : List (Definition φ)}
    {overrides : Option (Definition φ)} {validate : Bool} {r : Registry φ}
    (h : bases.Perm bases') (halike : (Draft.sum bases).Alike (Draft.sum bases'))
    (hr : (loadDefinitions bases overrides validate).outcome = .ok r) :
    ∃ s, (loadDefinitions bases' overrides validate).outcome = .ok s ∧ r.AnswersAs s := by
  obtain ⟨hids, hno, hv, hbuilt⟩ := loadDefinitions_eq_ok_iff.mp hr
  have hmerged : (mergedDraft bases (overrides.getD {})).Alike
      (mergedDraft bases' (overrides.getD {})) := halike.overriddenBy hno
  obtain ⟨s, hs⟩ := Draft.exists_builtFrom_iff.mpr (hmerged.distinct_iff.mp hbuilt.distinct)
  refine ⟨s, loadDefinitions_eq_ok_iff.mpr ⟨fun base hb => ?_, hno, fun hval => ?_, hs⟩,
    hmerged.answersAs hbuilt hs⟩
  · exact hids base (h.mem_iff.mpr hb)
  · exact hmerged.validate_iff.mp (hv hval)

/-- **The order of the data files is irrelevant**, as long as a manufacturer has the same name
wherever they list it: in any two orders, and so in any two directories that have the files under
other names, they load alike. -/
theorem order_of_files_is_irrelevant {bases bases' : List (Definition φ)} (h : bases.Perm bases')
    (hsame : ∀ e ∈ bases.flatMap (·.manufacturers), ∀ f ∈ bases.flatMap (·.manufacturers),
      e.1 = f.1 → e.2.name = f.2.name)
    (overrides : Option (Definition φ)) (validate : Bool) :
    LoadAlike (loadDefinitions bases overrides validate).outcome
      (loadDefinitions bases' overrides validate).outcome ∧
    ∀ (listingOf listingOf' : Path → Listing) (reader reader' : Reader φ)
      (settings settings' : Settings) (entries entries' : List Entry),
      settings.check = .ok () → settings'.check = .ok () →
      listingOf settings.location = .complete entries → listingOf' settings'.location = .complete entries' →
      readBases reader settings entries = .ok bases →
      readBases reader' settings' entries' = .ok bases' →
      readOverridesFile reader settings entries = .ok overrides →
      readOverridesFile reader' settings' entries' = .ok overrides →
      settings.validate = validate → settings'.validate = validate →
      LoadAlike (loadConfigured listingOf reader settings).outcome
        (loadConfigured listingOf' reader' settings').outcome := by
  have halike : (Draft.sum bases).Alike (Draft.sum bases') := .sum h hsame
  have hload : LoadAlike (loadDefinitions bases overrides validate).outcome
      (loadDefinitions bases' overrides validate).outcome := by
    refine .of_ok (fun r hr => exists_loadDefinitions_of_alike h halike hr) fun s hs => ?_
    obtain ⟨r, hr, -⟩ := exists_loadDefinitions_of_alike h.symm halike.symm hs
    exact ⟨r, hr⟩
  refine ⟨hload, ?_⟩
  intro listingOf listingOf' reader reader' settings settings' entries entries' hc hc' he he' hb hb'
    ho ho' hv hv'
  rw [outcome_loadConfigured hc he hb ho, outcome_loadConfigured hc' he' hb' ho', hv, hv']
  exact hload

/-- A data file that adds to the scopes of `crowdedBase`. -/
def addedFile : Definition Unit :=
  { version := 2
    esta := [{ name := "C", value := 0x70 }]
    manufacturers := [(0x7A71, { name := "N", parameters := [{ name := "Z", value := 0x8002 }] }),
      (0x7A70, { name := "M", parameters := [{ name := "Z", value := 0x8002 }] })] }

/-- Overrides that take one parameter of ESTA away. -/
def renumberingOverrides : Definition Unit :=
  { esta := [{ name := "A", value := 0x51 }] }

theorem order_of_files_is_irrelevant_added :
    LoadAlike
      (loadDefinitions [crowdedBase, addedFile] (some renumberingOverrides) true).outcome
      (loadDefinitions [addedFile, crowdedBase] (some renumberingOverrides) true).outcome ∧
    (loadDefinitions [crowdedBase, addedFile] (some renumberingOverrides) true).outcome.toOption.map
      (·.parametersOf .esta |>.map (·.name)) = some ["B", "C", "A"] ∧
    (loadDefinitions [addedFile, crowdedBase] (some renumberingOverrides) true).outcome.toOption.map
      (·.parametersOf .esta |>.map (·.name)) = some ["C", "B", "A"] := by
  have hswap : [crowdedBase, addedFile].Perm [addedFile, crowdedBase] := .swap ..
  have hsame : ∀ e ∈ [crowdedBase, addedFile].flatMap (·.manufacturers),
      ∀ f ∈ [crowdedBase, addedFile].flatMap (·.manufacturers),
        e.1 = f.1 → e.2.name = f.2.name := by decide
  exact ⟨(order_of_files_is_irrelevant hswap hsame (some renumberingOverrides) true).1,
    by decide +kernel, by decide +kernel⟩

end RdmRegistry
