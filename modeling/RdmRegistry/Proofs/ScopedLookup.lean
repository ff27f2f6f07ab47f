/-
Look-ups of a manufacturer, which fall back to ESTA. In a registry that was loaded with validation
the values of ESTA and of manufacturers lie apart (`Registry.ValuesApart`), so a value leads to the
scope it belongs to, whoever asks; names may be shared, and there the manufacturer comes first.

`lookups_agree_of_validated`: what is found by name is found by its value, and what a manufacturer
has under one of its values is found by its name.
-/
import RdmRegistry.Proofs.DirectoryLoad
import RdmRegistry.Proofs.Lookup
import RdmRegistry.Proofs.Validity

namespace RdmRegistry

variable {φ : Type}

/-! ## The catalogs of a built registry -/

namespace Registry

variable {registry : Registry φ} {draft : Draft φ}

theorem BuiltFrom.findValue?_eq_some_iff (h : registry.BuiltFrom draft) {v : UInt16}
    {p : Parameter φ} :
    registry.findValue? v = some p ↔ p ∈ draft.parametersOf .esta ∧ p.value = v :=
  Catalog.findValue?_eq_some_iff h.esta

theorem BuiltFrom.findName?_eq_some_iff (h : registry.BuiltFrom draft) {n : String}
    {p : Parameter φ} :
    registry.findName? n = some p ↔ p ∈ draft.parametersOf .esta ∧ p.name = n :=
  Catalog.findName?_eq_some_iff h.esta

/-- A manufacturer has a catalog of its parameters, or no parameters. -/
theorem BuiltFrom.manufacturer?_cases (h : registry.BuiltFrom draft) (id : UInt16) :
    (∃ catalog, registry.manufacturer? id = some catalog ∧
        Catalog.ofList (draft.parametersOf (.manufacturer id)) = .ok catalog) ∨
      registry.manufacturer? id = none ∧ draft.parametersOf (.manufacturer id) = [] := by
  cases hm : registry.manufacturer? id with
  | some catalog => exact .inl ⟨catalog, rfl, ((h.manufacturer? id catalog).mp hm).2⟩
  | none =>
    refine .inr ⟨rfl, ?_⟩
    rw [← h.parametersOf, Registry.parametersOf, hm]
    rfl

theorem BuiltFrom.bind_findValue?_eq_some_iff (h : registry.BuiltFrom draft) {id v : UInt16}
    {p : Parameter φ} :
    (registry.manufacturer? id).bind (·.findValue? v) = some p ↔
      p ∈ draft.parametersOf (.manufacturer id) ∧ p.value = v := by
  rcases h.manufacturer?_cases id with ⟨catalog, hm, hc⟩ | ⟨hm, hnil⟩
  · rw [hm, Option.bind_some, Catalog.findValue?_eq_some_iff hc]
  · simp [hm, hnil]

theorem BuiltFrom.bind_findName?_eq_some_iff (h : registry.BuiltFrom draft) {id : UInt16}
    {n : String} {p : Parameter φ} :
    (registry.manufacturer? id).bind (·.findName? n) = some p ↔
      p ∈ draft.parametersOf (.manufacturer id) ∧ p.name = n := by
  rcases h.manufacturer?_cases id with ⟨catalog, hm, hc⟩ | ⟨hm, hnil⟩
  · rw [hm, Option.bind_some, Catalog.findName?_eq_some_iff hc]
  · simp [hm, hnil]

/-- What a manufacturer finds by name has the name, and is its own or of ESTA. -/
theorem BuiltFrom.name_and_mem_of_findNameFor? (h : registry.BuiltFrom draft) {id : UInt16}
    {n : String} {p : Parameter φ} (hp : registry.findNameFor? n id = some p) :
    p.name = n ∧ (p ∈ draft.parametersOf (.manufacturer id) ∨ p ∈ draft.parametersOf .esta) := by
  rcases Option.or_eq_some_iff.mp hp with hown | ⟨-, hesta⟩
  · obtain ⟨hmem, hname⟩ := h.bind_findName?_eq_some_iff.mp hown
    exact ⟨hname, .inl hmem⟩
  · obtain ⟨hmem, hname⟩ := h.findName?_eq_some_iff.mp hesta
    exact ⟨hname, .inr hmem⟩

end Registry

/-! ## Values of ESTA and of manufacturers -/

/-- ESTA has no value of the manufacturers, and a manufacturer has no other. -/
structure Draft.ValuesApart (draft : Draft φ) : Prop where
  esta : ∀ p ∈ draft.parametersOf .esta, isManufacturerValue p.value = false
  manufacturer : ∀ id, ∀ p ∈ draft.parametersOf (.manufacturer id),
    isManufacturerValue p.value = true

theorem Draft.valuesApart_of_validate {draft : Draft φ}
    (h : draft.definition.validate = .ok ()) : draft.ValuesApart := by
  obtain ⟨hesta, hheld⟩ := validate_definition_eq_ok_iff.mp h
  constructor
  · exact fun p hp => (Parameter.validateEsta_eq_ok_iff.mp (hesta p hp)).2
  · intro id p hp
    obtain ⟨m, hm⟩ := exists_mem_of_parametersOf_ne_nil (List.ne_nil_of_mem hp)
    rw [parametersOf_of_mem hm] at hp
    have hvalid := hheld id m (mem_definition_manufacturers.mp hm)
    exact (Parameter.validateFor_eq_ok_iff.mp
      ((Manufacturer.validate_eq_ok_iff.mp hvalid).2.2 p hp)).2

section Apart

variable {registry : Registry φ} {draft : Draft φ}

/-- A manufacturer finds nothing of its own under a value of ESTA. -/
theorem Draft.ValuesApart.bind_findValue?_eq_none (h : draft.ValuesApart)
    (hbuilt : registry.BuiltFrom draft) {v : UInt16} (hv : isManufacturerValue v = false)
    (id : UInt16) : (registry.manufacturer? id).bind (·.findValue? v) = none := by
  refine Option.eq_none_iff_forall_ne_some.mpr fun p hp => ?_
  obtain ⟨hmem, rfl⟩ := hbuilt.bind_findValue?_eq_some_iff.mp hp
  rw [h.manufacturer id p hmem] at hv
  cases hv

/-- ESTA has nothing under a value of the manufacturers. -/
theorem Draft.ValuesApart.findValue?_eq_none (h : draft.ValuesApart)
    (hbuilt : registry.BuiltFrom draft) {v : UInt16} (hv : isManufacturerValue v = true) :
    registry.findValue? v = none := by
  refine Option.eq_none_iff_forall_ne_some.mpr fun p hp => ?_
  obtain ⟨hmem, rfl⟩ := hbuilt.findValue?_eq_some_iff.mp hp
  rw [h.esta p hmem] at hv
  cases hv

/-- Under one of its values a manufacturer finds only what it has itself. -/
theorem Draft.ValuesApart.findValueFor?_eq_bind (h : draft.ValuesApart)
    (hbuilt : registry.BuiltFrom draft) {v : UInt16} (hv : isManufacturerValue v = true)
    (id : UInt16) :
    registry.findValueFor? v id = (registry.manufacturer? id).bind (·.findValue? v) := by
  rw [Registry.findValueFor?, h.findValue?_eq_none hbuilt hv, Option.or_none]

/-- Under any other value it finds what ESTA has. -/
theorem Draft.ValuesApart.findValueFor?_eq_findValue? (h : draft.ValuesApart)
    (hbuilt : registry.BuiltFrom draft) {v : UInt16} (hv : isManufacturerValue v = false)
    (id : UInt16) : registry.findValueFor? v id = registry.findValue? v := by
  rw [Registry.findValueFor?, h.bind_findValue?_eq_none hbuilt hv, Option.none_or]

/-- What a manufacturer finds by name it finds by value: its own parameter hides the one of ESTA by
name, and the values of the two lie apart. -/
theorem Draft.ValuesApart.findValueFor?_of_findNameFor? (h : draft.ValuesApart)
    (hbuilt : registry.BuiltFrom draft) {n : String} {id : UInt16} {p : Parameter φ}
    (hp : registry.findNameFor? n id = some p) : registry.findValueFor? p.value id = some p := by
  rcases (hbuilt.name_and_mem_of_findNameFor? hp).2 with hown | hesta
  · rw [h.findValueFor?_eq_bind hbuilt (h.manufacturer id p hown)]
    exact hbuilt.bind_findValue?_eq_some_iff.mpr ⟨hown, rfl⟩
  · rw [h.findValueFor?_eq_findValue? hbuilt (h.esta p hesta)]
    exact hbuilt.findValue?_eq_some_iff.mpr ⟨hesta, rfl⟩

/-- The way back holds for the values of manufacturers only: a name of ESTA may be hidden. -/
theorem Draft.ValuesApart.findNameFor?_of_findValueFor? (h : draft.ValuesApart)
    (hbuilt : registry.BuiltFrom draft) {v id : UInt16} (hv : isManufacturerValue v = true)
    {p : Parameter φ} (hp : registry.findValueFor? v id = some p) :
    registry.findNameFor? p.name id = some p := by
  rw [h.findValueFor?_eq_bind hbuilt hv] at hp
  obtain ⟨hown, -⟩ := hbuilt.bind_findValue?_eq_some_iff.mp hp
  have hname := hbuilt.bind_findName?_eq_some_iff.mpr ⟨hown, rfl⟩
  rw [Registry.findNameFor?, hname, Option.some_or]

end Apart

/-! ## Loads with validation -/

/-- The registry comes from a load of a definition, a file or a directory, with validation or
without it. -/
inductive Registry.LoadedWith (validate : Bool) (registry : Registry φ) : Prop
  | source (source : Source φ) (h : (load source validate).outcome = .ok registry)
  | configured (listingOf : Path → Listing) (reader : Reader φ) (settings : Settings)
    (hv : settings.validate = validate)
    (h : (loadConfigured listingOf reader settings).outcome = .ok registry)
  | directory (listingOf : Path → Listing) (reader : Reader φ) (directory : Path)
    (h : (loadDirectory listingOf reader directory validate).outcome = .ok registry)

theorem exists_draft_of_load {source : Source φ} {validate : Bool} {registry : Registry φ}
    (h : (load source validate).outcome = .ok registry) :
    ∃ draft : Draft φ, (validate = true → draft.definition.validate = .ok ()) ∧
      registry.BuiltFrom draft := by
  simp only [load, Traced.outcome_bind_eq_ok_iff, Draft.build_eq_ok_iff] at h
  obtain ⟨-, -, -, -, draft, -, hbuilt⟩ := h
  exact ⟨draft, hbuilt⟩

theorem exists_draft_of_loadConfigured {listingOf : Path → Listing}
    {reader : Reader φ} {settings : Settings} {registry : Registry φ}
    (h : (loadConfigured listingOf reader settings).outcome = .ok registry) :
    ∃ draft : Draft φ, (settings.validate = true → draft.definition.validate = .ok ()) ∧
      registry.BuiltFrom draft := by
  obtain ⟨-, -, _, _, -, -, -, -, -, hv, hbuilt⟩ := loadConfigured_eq_ok_iff.mp h
  exact ⟨_, hv, hbuilt⟩

/-- Every load ends in the registry of a draft, which was valid if that was asked for. -/
theorem Registry.LoadedWith.exists_draft {validate : Bool} {registry : Registry φ}
    (h : registry.LoadedWith validate) :
    ∃ draft : Draft φ, (validate = true → draft.definition.validate = .ok ()) ∧
      registry.BuiltFrom draft := by
  cases h with
  | source source h => exact exists_draft_of_load h
  | configured listingOf reader settings hv h => exact hv ▸ exists_draft_of_loadConfigured h
  | directory listingOf reader directory h => exact exists_draft_of_loadConfigured h

theorem Registry.LoadedWith.exists_valuesApart {registry : Registry φ}
    (h : registry.LoadedWith true) :
    ∃ draft : Draft φ, draft.ValuesApart ∧ registry.BuiltFrom draft := by
  obtain ⟨draft, hv, hbuilt⟩ := h.exists_draft
  exact ⟨draft, Draft.valuesApart_of_validate (hv rfl), hbuilt⟩

/-- **Name and value look-ups agree in a validated registry**, for every manufacturer, known or not.
What it finds by name it finds by the value of that; under a value of the manufacturers it finds
what it has itself, by name too; and under any other value what ESTA has. -/
theorem lookups_agree_of_validated {registry : Registry φ} (h : registry.LoadedWith true)
    (id : UInt16) (name : String) (value : UInt16) :
    (∀ p, registry.findNameFor? name id = some p →
      p.name = name ∧ registry.findValueFor? p.value id = some p) ∧
    (0x8000 ≤ value ∧ value ≤ 0xFFDF →
      registry.findValue? value = none ∧
      registry.findValueFor? value id =
        (registry.manufacturer? id).bind (·.findValue? value) ∧
      ∀ p, registry.findValueFor? value id = some p →
        registry.findNameFor? p.name id = some p) ∧
    (¬ (0x8000 ≤ value ∧ value ≤ 0xFFDF) →
      registry.findValueFor? value id = registry.findValue? value) := by
  obtain ⟨draft, hapart, hbuilt⟩ := h.exists_valuesApart
  rw [← isManufacturerValue_iff, Bool.not_eq_true]
  refine ⟨fun p hp => ?_, fun hv => ⟨?_, ?_, fun p hp => ?_⟩, fun hv => ?_⟩
  · exact ⟨(hbuilt.name_and_mem_of_findNameFor? hp).1,
      hapart.findValueFor?_of_findNameFor? hbuilt hp⟩
  · exact hapart.findValue?_eq_none hbuilt hv
  · exact hapart.findValueFor?_eq_bind hbuilt hv id
  · exact hapart.findNameFor?_of_findValueFor? hbuilt hv hp
  · exact hapart.findValueFor?_eq_findValue? hbuilt hv id

/-- A manufacturer that uses a name of ESTA for a value of its own. -/
def sharedName : Definition Unit :=
  { esta := [{ name := "A", value := 0x50 }]
    manufacturers := [(0x7A70, { name := "M", parameters := [{ name := "A", value := 0x8000 }] })] }

/-- The name leads the manufacturer to its own parameter, and each value to the scope it is of. -/
theorem lookups_agree_of_validated_sharedName :
    ∃ registry : Registry Unit, registry.LoadedWith true ∧
      registry.findNameFor? "A" 0x7A70 = some { name := "A", value := 0x8000 } ∧
      registry.findValueFor? 0x8000 0x7A70 = some { name := "A", value := 0x8000 } ∧
      registry.findValueFor? 0x8000 0x7A71 = none ∧
      registry.findValueFor? 0x50 0x7A70 = registry.findValue? 0x50 := by
  have hname : (load (.memory sharedName) true).outcome.toOption.bind
      (·.findNameFor? "A" 0x7A70) = some { name := "A", value := 0x8000 } := by decide +kernel
  have hother : (load (.memory sharedName) true).outcome.toOption.bind
      (·.manufacturer? 0x7A71 |>.map (·.size)) = none := by decide +kernel
  cases hload : (load (.memory sharedName) true).outcome with
  | error failure =>
    rw [hload] at hname
    cases hname
  | ok registry =>
    have h : registry.LoadedWith true := .source (.memory sharedName) hload
    rw [hload] at hname hother
    have hnone : registry.manufacturer? 0x7A71 = none := by simpa [Except.toOption] using hother
    obtain ⟨hfound, -, hesta⟩ := lookups_agree_of_validated h 0x7A70 "A" 0x50
    obtain ⟨-, hrange, -⟩ := lookups_agree_of_validated h 0x7A71 "A" 0x8000
    refine ⟨registry, h, hname, (hfound _ hname).2, ?_, hesta (by decide)⟩
    rw [(hrange (by decide)).2.1, hnone]
    rfl

end RdmRegistry
