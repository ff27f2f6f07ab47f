/-
What an overrides file does to a load.

`exists_loadDefinitions_of_overrides`: overrides that are in order by themselves never make a load
fail that would succeed without them, and take no manufacturer away.

`overrides_act_as_data_file`: overrides that collide with no data file act like one more data
file, although the two are merged by different rules; so a directory with an overrides file alone
loads as that file does.
-/
import RdmRegistry.Proofs.DefinitionLoad
import RdmRegistry.Proofs.Validity

namespace RdmRegistry

variable {φ : Type}

/-! ## Overrides that are in order -/

/-- Overrides take parameters away only to put their own in their place. -/
theorem spared_append_eq_nil_iff {parameters overrides : List (Parameter φ)} :
    spared parameters overrides ++ overrides = [] ↔ parameters = [] ∧ overrides = [] := by
  rw [List.append_eq_nil_iff]
  constructor
  · intro hgiven
    obtain ⟨hspared, rfl⟩ := hgiven
    exact ⟨by rwa [spared_nil] at hspared, rfl⟩
  · intro hgiven
    obtain ⟨rfl, rfl⟩ := hgiven
    exact ⟨rfl, rfl⟩

/-- A draft without collisions has none after overrides without repeats. -/
theorem Draft.distinct_overriddenBy {draft : Draft φ} {definition : Definition φ}
    (h : ∀ scope, Distinct (draft.parametersOf scope)) (hd : definition.NoRepeats) (scope : Scope) :
    Distinct ((draft.overriddenBy definition).parametersOf scope) := by
  rw [parametersOf_overriddenBy draft hd, distinct_append]
  exact ⟨(h scope).filter _, hd.scopes scope, fun p hp => (mem_spared.mp hp).2⟩

/-- **Overrides never break a load.** If the definitions load without overrides, and nothing repeats
in the overrides, which are valid where validation is asked for, then the definitions load with
them. The manufacturers are those from before and those to which the overrides give a parameter. -/
theorem exists_loadDefinitions_of_overrides {bases : List (Definition φ)}
    {overrides : Definition φ} {validate : Bool} {base : Registry φ}
    (hbase : (loadDefinitions bases none validate).outcome = .ok base)
    (hrepeats : overrides.NoRepeats) (hvalid : validate = true → overrides.validate = .ok ()) :
    ∃ registry, (loadDefinitions bases (some overrides) validate).outcome = .ok registry ∧
      ∀ id, id ∈ registry.manufacturerIds ↔
        id ∈ base.manufacturerIds ∨ overrides.parametersOf (.manufacturer id) ≠ [] := by
  obtain ⟨hids, hv, hbuilt⟩ := loadDefinitions_none_eq_ok_iff.mp hbase
  obtain ⟨registry, hr⟩ : ∃ registry : Registry φ,
      registry.BuiltFrom ((Draft.sum bases).overriddenBy overrides) :=
    Draft.exists_builtFrom_iff.mpr (Draft.distinct_overriddenBy hbuilt.distinct hrepeats)
  refine ⟨registry, loadDefinitions_eq_ok_iff.mpr ⟨hids, hrepeats, fun hval => ?_, hr⟩, ?_⟩
  · exact Draft.validate_overriddenBy (hv hval) (hvalid hval)
  · intro id
    rw [hr.mem_manufacturerIds, hbuilt.mem_manufacturerIds,
      Draft.parametersOf_overriddenBy _ hrepeats, Ne, spared_append_eq_nil_iff,
      Classical.not_and_iff_not_or_not]

/-- A data file with parameters of ESTA and of a manufacturer, and a manufacturer without any. -/
def crowdedBase : Definition Unit :=
  { esta := [{ name := "A", value := 0x50 }, { name := "B", value := 0x60 }]
    manufacturers :=
      [(0x7A70, { name := "M", parameters :=
          [{ name := "X", value := 0x8000 }, { name := "Y", value := 0x8001 }] }),
        (0x7A71, { name := "N" })] }

/-- Overrides of which each takes away two parameters, by its value and by its name, and which bring
a new manufacturer. -/
def sweepingOverrides : Definition Unit :=
  { esta := [{ name := "A", value := 0x60 }]
    manufacturers :=
      [(0x7A72, { name := "O", parameters := [{ name := "X", value := 0x8000 }] }),
        (0x7A70, { name := "renamed", parameters := [{ name := "X", value := 0x8001 }] })] }

theorem noRepeats_sweepingOverrides : sweepingOverrides.NoRepeats := by
  refine Definition.noRepeats_iff.mpr ⟨by decide, Clash.first?_eq_none_iff.mp (by decide), ?_⟩
  intro entry he
  refine Clash.first?_eq_none_iff.mp ?_
  revert entry
  decide

theorem exists_loadDefinitions_of_overrides_sweeping :
    ∃ base registry : Registry Unit,
      (loadDefinitions [crowdedBase] none true).outcome = .ok base ∧
      sweepingOverrides.NoRepeats ∧ sweepingOverrides.validate = .ok () ∧
      (loadDefinitions [crowdedBase] (some sweepingOverrides) true).outcome = .ok registry ∧
      0x7A70 ∈ registry.manufacturerIds ∧ 0x7A71 ∉ registry.manufacturerIds ∧
      0x7A72 ∈ registry.manufacturerIds := by
  have hvalid : sweepingOverrides.validate = .ok () := rfl
  have hok : (loadDefinitions [crowdedBase] none true).outcome.toOption.isSome = true := by
    decide +kernel
  cases hbase : (loadDefinitions [crowdedBase] none true).outcome with
  | error failure =>
    rw [hbase] at hok
    cases hok
  | ok base =>
    obtain ⟨registry, hr, hids⟩ := exists_loadDefinitions_of_overrides hbase
      noRepeats_sweepingOverrides fun _ => hvalid
    have hbuilt := (loadDefinitions_none_eq_ok_iff.mp hbase).2.2
    simp only [hbuilt.mem_manufacturerIds] at hids
    exact ⟨base, registry, rfl, noRepeats_sweepingOverrides, hvalid, hr,
      (hids _).mpr (.inr (by decide)), fun h => absurd ((hids _).mp h) (by decide),
      (hids _).mpr (.inr (by decide))⟩

/-! ## Overrides that collide with nothing -/

theorem foldl_supersede_eq_append {parameters overrides : List (Parameter φ)}
    (hd : Distinct overrides) (h : ∀ p ∈ overrides, ∀ q ∈ parameters, p.collides q = false) :
    overrides.foldl supersede parameters = parameters ++ overrides := by
  rw [foldl_supersede hd,
    spared_eq_self fun q hq p hp => (q.collides_comm p).trans (h p hp q hq)]

theorem Manufacturers.override_eq_extend {held : Manufacturers φ} {entry : UInt16 × Manufacturer φ}
    (hd : Distinct entry.2.parameters)
    (h : ∀ p ∈ entry.2.parameters, ∀ q ∈ held.parametersUnder entry.1, p.collides q = false) :
    held.override entry = held.extend entry := by
  obtain ⟨id, listed⟩ := entry
  rw [parametersUnder] at h
  rw [override, extend]
  cases hk : held[id]? with
  | none =>
    rw [hk] at h
    have happend : listed.parameters.foldl supersede [] = listed.parameters :=
      foldl_supersede_eq_append hd h
    simp only [Option.getD_none, happend]
  | some known =>
    rw [hk] at h
    have happend : listed.parameters.foldl supersede known.parameters =
        known.parameters ++ listed.parameters := foldl_supersede_eq_append hd h
    simp only [Option.getD_some, happend]

theorem Manufacturers.foldl_override_eq_foldl_extend {held : Manufacturers φ}
    {entries : List (UInt16 × Manufacturer φ)} (hn : (entries.map (·.1)).Nodup)
    (hd : ∀ entry ∈ entries, Distinct entry.2.parameters)
    (h : ∀ id, ∀ p ∈ RdmRegistry.parametersUnder id entries, ∀ q ∈ held.parametersUnder id,
      p.collides q = false) :
    entries.foldl override held = entries.foldl extend held := by
  induction entries generalizing held with
  | nil => rfl
  | cons entry rest ih =>
    rw [List.map_cons, List.nodup_cons] at hn
    rw [List.forall_mem_cons] at hd
    simp only [parametersUnder_cons, List.mem_append] at h
    rw [List.foldl_cons, List.foldl_cons, override_eq_extend hd.1]
    · refine ih hn.2 hd.2 fun id p hp q hq => ?_
      by_cases hid : entry.1 = id
      · -- The identifier is not listed again, so nothing under it comes later.
        rw [parametersUnder_eq_nil (hid ▸ hn.1)] at hp
        cases hp
      · rw [parametersUnder_extend, if_neg hid, List.append_nil] at hq
        exact h id p (.inr hp) q hq
    · exact fun p hp q hq => h entry.1 p (.inl (by rwa [if_pos rfl])) q hq

/-- Overrides without repeats that collide with nothing are added like a data file. -/
theorem Draft.overriddenBy_eq_plus {draft : Draft φ} {definition : Definition φ}
    (hd : definition.NoRepeats)
    (h : ∀ scope, ∀ p ∈ definition.parametersOf scope, ∀ q ∈ draft.parametersOf scope,
      p.collides q = false) : draft.overriddenBy definition = draft.plus definition := by
  obtain ⟨hn, hdistinct, hentries⟩ := Definition.noRepeats_iff.mp hd
  have hesta : definition.esta.foldl supersede draft.esta = draft.esta ++ definition.esta :=
    foldl_supersede_eq_append hdistinct (h .esta)
  have hmanufacturers : definition.manufacturers.foldl Manufacturers.override draft.manufacturers =
      definition.manufacturers.foldl Manufacturers.extend draft.manufacturers :=
    Manufacturers.foldl_override_eq_foldl_extend hn hentries fun id => h (.manufacturer id)
  rw [overriddenBy, plus, hesta, hmanufacturers]

theorem Draft.sum_append_singleton (bases : List (Definition φ)) (definition : Definition φ) :
    Draft.sum (bases ++ [definition]) = (Draft.sum bases).plus definition := by
  rw [sum, List.foldl_append]
  rfl

/-- What has a registry as one more data file repeats nothing. -/
theorem Draft.noRepeats_of_distinct_plus {draft : Draft φ} {definition : Definition φ}
    (hn : (definition.manufacturers.map (·.1)).Nodup)
    (h : ∀ scope, Distinct ((draft.plus definition).parametersOf scope)) :
    definition.NoRepeats := by
  refine ⟨hn, fun scope => ?_⟩
  have hd := h scope
  rw [parametersOf_plus, distinct_append] at hd
  exact hd.2.1

theorem loadDefinitions_some_iff_append {bases : List (Definition φ)} {definition : Definition φ}
    (h : ∀ scope, ∀ p ∈ definition.parametersOf scope, ∀ base ∈ bases,
      ∀ q ∈ base.parametersOf scope, p.collides q = false)
    {validate : Bool} {registry : Registry φ} :
    (loadDefinitions bases (some definition) validate).outcome = .ok registry ↔
      (loadDefinitions (bases ++ [definition]) none validate).outcome = .ok registry := by
  have hfree : ∀ scope, ∀ p ∈ definition.parametersOf scope,
      ∀ q ∈ (Draft.sum bases).parametersOf scope, p.collides q = false := by
    intro scope p hp q hq
    rw [Draft.parametersOf_sum, List.mem_flatMap] at hq
    obtain ⟨base, hb, hq⟩ := hq
    exact h scope p hp base hb q hq
  rw [loadDefinitions_eq_ok_iff, loadDefinitions_none_eq_ok_iff, Option.getD_some, mergedDraft,
    Draft.sum_append_singleton, List.forall_mem_append, List.forall_mem_singleton]
  constructor
  · intro hgiven
    obtain ⟨hids, hr, hv, hbuilt⟩ := hgiven
    rw [Draft.overriddenBy_eq_plus hr hfree] at hv hbuilt
    exact ⟨⟨hids, hr.ids⟩, hv, hbuilt⟩
  · intro hgiven
    obtain ⟨⟨hids, hn⟩, hv, hbuilt⟩ := hgiven
    have hr := Draft.noRepeats_of_distinct_plus hn hbuilt.distinct
    rw [Draft.overriddenBy_eq_plus hr hfree]
    exact ⟨hids, hr, hv, hbuilt⟩

theorem toOption_eq_of_ok_iff {ε α : Type} {x y : Except ε α}
    (h : ∀ a, x = .ok a ↔ y = .ok a) : x.toOption = y.toOption := by
  cases x with
  | ok a => rw [(h a).mp rfl]
  | error e =>
    cases y with
    | ok a => cases (h a).mpr rfl
    | error e' => rfl

/-- **Overrides that collide with nothing act like one more data file.** Both ways there is the same
registry, or none. So a directory that holds an overrides file and no data file has the registry of
the definition in that file, or none if it has none. -/
theorem overrides_act_as_data_file {bases : List (Definition φ)} {definition : Definition φ}
    (h : ∀ scope, ∀ p ∈ definition.parametersOf scope, ∀ base ∈ bases,
      ∀ q ∈ base.parametersOf scope, p.collides q = false) (validate : Bool) :
    (loadDefinitions bases (some definition) validate).outcome.toOption =
      (loadDefinitions (bases ++ [definition]) none validate).outcome.toOption ∧
    ∀ (listingOf : Path → Listing) (reader : Reader φ) (settings : Settings)
      (entries : List Entry) (alone : Definition φ), settings.check = .ok () →
      listingOf settings.location = .complete entries →
      (Selection.ofEntries settings entries).data = [] →
      readOverridesFile reader settings entries = .ok (some alone) →
      (loadConfigured listingOf reader settings).outcome.toOption =
        (load (.memory alone) settings.validate).outcome.toOption := by
  constructor
  · exact toOption_eq_of_ok_iff fun registry => loadDefinitions_some_iff_append h
  · intro listingOf reader settings entries alone hc he hdata ho
    have hb : readBases reader settings entries = .ok [] := by
      rw [readBases, hdata]
      rfl
    rw [outcome_loadConfigured hc he hb ho, outcome_load_memory]
    refine toOption_eq_of_ok_iff fun registry => loadDefinitions_some_iff_append ?_
    intro scope p hp base hbase
    cases hbase

/-- A data file that shares names and values with `crowdedBase`, but in other scopes. -/
def scatteredDefinition : Definition Unit :=
  { version := 7
    esta := [{ name := "X", value := 0x8000 }]
    manufacturers :=
      [(0x7A72, { name := "O", parameters := [{ name := "X", value := 0x8000 }] }),
        (0x7A70, { name := "renamed", parameters := [{ name := "A", value := 0x50 }] }),
        (0x7A71, { name := "" })] }

theorem collides_scatteredDefinition (scope : Scope) :
    ∀ p ∈ scatteredDefinition.parametersOf scope, ∀ base ∈ [crowdedBase],
      ∀ q ∈ base.parametersOf scope, p.collides q = false := by
  cases scope with
  | esta => decide
  | manufacturer id =>
    by_cases h : id = 0x7A70
    · subst h
      decide
    · have hnone : crowdedBase.parametersOf (.manufacturer id) = [] := by
        simp [Definition.parametersOf, crowdedBase, Ne.symm h]
      intro p hp base hb q hq
      rw [List.mem_singleton.mp hb, hnone] at hq
      cases hq

theorem overrides_act_as_data_file_scattered :
    (loadDefinitions [crowdedBase] (some scatteredDefinition) false).outcome.toOption =
      (loadDefinitions [crowdedBase, scatteredDefinition] none false).outcome.toOption ∧
    (loadDefinitions [crowdedBase] (some scatteredDefinition) false).outcome.toOption.isSome ∧
    (loadConfigured
        (fun _ => .complete [{ name := Text.Utf8.encode "overrides.proto", isFile := true }])
        (fun _ => .ok scatteredDefinition) { validate := false }).outcome.toOption =
      (load (.memory scatteredDefinition) false).outcome.toOption := by
  obtain ⟨hboth, halone⟩ := overrides_act_as_data_file collides_scatteredDefinition false
  have hselected : Selection.ofEntries { validate := false }
      [{ name := Text.Utf8.encode "overrides.proto", isFile := true }] =
        { data := [], overrides := some "overrides.proto" } :=
    Selection.ofEntries_eq (by decide) .nil (by decide)
  exact ⟨hboth, by decide +kernel, halone _ _ _ _ _ rfl rfl (by rw [hselected]) rfl⟩

end RdmRegistry
