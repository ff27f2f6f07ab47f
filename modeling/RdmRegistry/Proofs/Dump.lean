/-
A registry as one definition, and back. `Registry.dump` lists what a registry holds, scope by scope,
with its manufacturers in any order and under any names: a registry keeps no name of a manufacturer.

`load_dump`: loading the dump gives the registry again, whichever load it came from. What a load
establishes of its registry is what a load asks of a definition: no manufacturer twice, nothing that
repeats in a scope, and, where validation was asked for, rules that are kept in every scope.
-/
import RdmRegistry.Proofs.MergedLoad
import RdmRegistry.Proofs.OverridesLoad
import RdmRegistry.Proofs.ScopedLookup

namespace RdmRegistry

variable {φ : Type}

/-- What the registry holds as one definition, its manufacturers listed and named as given. -/
def Registry.dump (registry : Registry φ) (listed : List (UInt16 × String)) : Definition φ :=
  { version := registry.version
    esta := registry.parametersOf .esta
    manufacturers := listed.map fun (id, name) =>
      (id, { name, parameters := registry.parametersOf (.manufacturer id) }) }

namespace Registry

variable {registry : Registry φ} {listed : List (UInt16 × String)}

theorem ids_dump (registry : Registry φ) (listed : List (UInt16 × String)) :
    (registry.dump listed).manufacturers.map (·.1) = listed.map (·.1) := by
  rw [dump, List.map_map]
  rfl

/-- A manufacturer without a catalog has no parameters. -/
theorem parametersOf_eq_nil_of_not_mem {id : UInt16} (h : id ∉ registry.manufacturerIds) :
    registry.parametersOf (.manufacturer id) = [] := by
  rw [parametersOf]
  cases hm : registry.manufacturer? id with
  | none => rfl
  | some catalog => exact absurd (mem_manufacturerIds.mpr ⟨catalog, hm⟩) h

theorem nodup_ids_dump (h : (listed.map (·.1)).Perm registry.manufacturerIds) :
    ((registry.dump listed).manufacturers.map (·.1)).Nodup := by
  rw [ids_dump]
  exact h.nodup_iff.mpr registry.nodup_manufacturerIds

/-- The dump has in every scope what the registry has. -/
theorem parametersOf_dump (h : (listed.map (·.1)).Perm registry.manufacturerIds) (scope : Scope) :
    (registry.dump listed).parametersOf scope = registry.parametersOf scope := by
  cases scope with
  | esta => rfl
  | manufacturer id =>
    rw [Definition.parametersOf]
    by_cases hid : id ∈ listed.map (·.1)
    · obtain ⟨⟨_, name⟩, hmem, rfl⟩ := List.mem_map.mp hid
      exact parametersUnder_of_mem (nodup_ids_dump h) (List.mem_map.mpr ⟨_, hmem, rfl⟩)
    · have hnil := parametersOf_eq_nil_of_not_mem (mt h.mem_iff.mpr hid)
      rw [hnil, parametersUnder_eq_nil (by rwa [ids_dump])]

/-- The dump keeps the rules that the draft of the registry keeps, if the names given say
something. -/
theorem BuiltFrom.validate_dump {draft : Draft φ} (hbuilt : registry.BuiltFrom draft)
    (hv : draft.definition.validate = .ok ())
    (hids : (listed.map (·.1)).Perm registry.manufacturerIds)
    (hnames : ∀ entry ∈ listed, isBlankName entry.2 = false) :
    (registry.dump listed).validate = .ok () := by
  obtain ⟨hesta, hheld⟩ := Draft.validate_definition_eq_ok_iff.mp hv
  refine Definition.validate_eq_ok_iff.mpr ⟨?_, fun entry hentry => ?_⟩
  · rw [dump, hbuilt.parametersOf]
    exact hesta
  · obtain ⟨⟨id, name⟩, hmem, rfl⟩ := List.mem_map.mp hentry
    have hid : id ∈ registry.manufacturerIds := hids.mem_iff.mp (List.mem_map.mpr ⟨_, hmem, rfl⟩)
    -- The draft has a parameter of the manufacturer, so it was judged with the draft.
    obtain ⟨m, hm⟩ := Draft.exists_mem_of_parametersOf_ne_nil (hbuilt.mem_manufacturerIds.mp hid)
    have hvalid := hheld id m (Draft.mem_definition_manufacturers.mp hm)
    obtain ⟨hreserved, -, hparameters⟩ := Manufacturer.validate_eq_ok_iff.mp hvalid
    have hown : registry.parametersOf (.manufacturer id) = m.parameters := by
      rw [hbuilt.parametersOf, Draft.parametersOf_of_mem hm]
    rw [← hown] at hparameters
    exact Manufacturer.validate_eq_ok_iff.mpr ⟨hreserved, hnames (id, name) hmem, hparameters⟩

/-- The draft of the dump is another one of the same registry. -/
theorem BuiltFrom.plus_dump {draft : Draft φ} (hbuilt : registry.BuiltFrom draft)
    (hids : (listed.map (·.1)).Perm registry.manufacturerIds) :
    registry.BuiltFrom (({} : Draft φ).plus (registry.dump listed)) := by
  refine hbuilt.of_parametersOf ?_ fun scope => ?_
  · rw [Draft.version_plus, ← hbuilt.version]
    exact Nat.zero_max registry.version
  · rw [parametersOf_empty_plus, parametersOf_dump hids, hbuilt.parametersOf]

end Registry

/-- **A registry loads back from its dump**, the same one: whichever load it came from, with the
manufacturers in any order and, if it was validated, under any names that say something. -/
theorem load_dump {registry : Registry φ} {validate : Bool} (h : registry.LoadedWith validate)
    {listed : List (UInt16 × String)} (hids : (listed.map (·.1)).Perm registry.manufacturerIds)
    (hnames : validate = true → ∀ entry ∈ listed, isBlankName entry.2 = false) :
    (load (.memory (registry.dump listed)) validate).outcome = .ok registry := by
  obtain ⟨draft, hv, hbuilt⟩ := h.exists_draft
  have hn := Registry.nodup_ids_dump hids
  rw [outcome_load_of_nodup hn, Draft.build_eq_ok_iff]
  refine ⟨fun hval => ?_, hbuilt.plus_dump hids⟩
  exact (validate_plus_eq_ok_iff hn).mpr (hbuilt.validate_dump (hv hval) hids (hnames hval))

/-- The reader of a directory with `crowdedBase` and the overrides that sweep over it. -/
def sweptReader : Reader Unit := fun path =>
  if path = .ofString "d/overrides.proto" then .ok sweepingOverrides else .ok crowdedBase

/-- The directory loads to two manufacturers, one of which only the overrides have. They are listed
the other way round and under other names. -/
theorem load_dump_swept :
    ∃ registry : Registry Unit,
      (loadDirectory (fun _ => .complete (filesNamed ["overrides.proto", "a.proto"])) sweptReader
        (.ofString "d") true).outcome = .ok registry ∧
      registry.manufacturerIds = [0x7A70, 0x7A72] ∧
      registry.parametersOf (.manufacturer 0x7A70) = [{ name := "X", value := 0x8001 }] ∧
      (load (.memory (registry.dump [(0x7A72, "second"), (0x7A70, "first")])) true).outcome =
        .ok registry := by
  have hids : (loadDirectory (fun _ => .complete (filesNamed ["overrides.proto", "a.proto"]))
      sweptReader (.ofString "d") true).outcome.toOption.map (fun registry =>
        (registry.manufacturerIds, registry.parametersOf (.manufacturer 0x7A70))) =
      some ([0x7A70, 0x7A72], [{ name := "X", value := 0x8001 }]) := by
    show (loadConfigured _ _ splitSettings).outcome.toOption.map _ = _
    rw [loadConfigured_of_selected rfl ofEntries_overriddenFile]
    decide +kernel
  cases hload : (loadDirectory (fun _ => .complete (filesNamed ["overrides.proto", "a.proto"]))
      sweptReader (.ofString "d") true).outcome with
  | error failure =>
    rw [hload] at hids
    cases hids
  | ok registry =>
    rw [hload] at hids
    obtain ⟨hknown, howned⟩ : registry.manufacturerIds = [0x7A70, 0x7A72] ∧
        registry.parametersOf (.manufacturer 0x7A70) = [{ name := "X", value := 0x8001 }] := by
      simpa [Except.toOption] using hids
    refine ⟨registry, rfl, hknown, howned, ?_⟩
    refine load_dump (.directory _ sweptReader (.ofString "d") hload) ?_ fun _ => by decide
    rw [hknown]
    decide

end RdmRegistry
