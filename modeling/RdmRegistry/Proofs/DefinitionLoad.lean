/-
Loading definitions that are already parsed. A directory load gives the files to the reader and
merges what it answers, one file after another; where every file can be parsed, its outcome is that
of the definitions (`outcome_loadConfigured`). So what holds of definitions holds of directories.

`loadDefinitions_eq_ok_iff` says which definitions have a registry, and which one it is.
-/
import RdmRegistry.Proofs.DirectoryLoad

namespace RdmRegistry

variable {φ : Type}

/-- The registry of the definitions of data files, one after another, and of overrides if there
are any. -/
def loadDefinitions (bases : List (Definition φ)) (overrides : Option (Definition φ))
    (validate : Bool) : Traced Failure (Registry φ) := do
  let merged ← Traced.ofExcept (bases.foldlM Draft.add {})
  let draft ← merged.applyAny overrides
  draft.build validate

/-! ## From files to definitions -/

/-- A definition in memory loads as a single data file does. -/
theorem outcome_load_memory (definition : Definition φ) (validate : Bool) :
    (load (.memory definition) validate).outcome =
      (loadDefinitions [definition] none validate).outcome := by
  simp only [load, Source.read, loadDefinitions, Draft.applyAny, List.foldlM_cons, List.foldlM_nil,
    bind_pure, pure_bind, Traced.outcome_bind]
  rfl

theorem outcome_mergeFiles {reader : Reader φ} {paths : List Path} {bases : List (Definition φ)}
    (h : paths.mapM reader = .ok bases) :
    (mergeFiles reader paths).outcome = bases.foldlM Draft.add {} := by
  rw [mergeFiles_eq_foldlM]
  generalize ({} : Draft φ) = start
  induction paths generalizing start bases with
  | nil =>
    cases h
    rfl
  | cons path rest ih =>
    obtain ⟨base, tail, hbase, htail, rfl⟩ := mapM_cons_eq_ok_iff.mp h
    simp only [List.foldlM_cons, Traced.outcome_bind, outcome_mergeFile, hbase, ih htail]
    rfl

/-- A directory loads as its definitions do, with the same registry or the same failure. -/
theorem outcome_loadConfigured {listingOf : Path → Listing} {reader : Reader φ}
    {settings : Settings} {entries : List Entry} {bases : List (Definition φ)}
    {overrides : Option (Definition φ)} (hc : settings.check = .ok ())
    (he : listingOf settings.location = .complete entries)
    (hb : readBases reader settings entries = .ok bases)
    (ho : readOverridesFile reader settings entries = .ok overrides) :
    (loadConfigured listingOf reader settings).outcome =
      (loadDefinitions bases overrides settings.validate).outcome := by
  rw [← mapM_dataPaths] at hb
  rw [outcome_loadConfigured_eq_bind hc he, outcome_mergeFiles hb]
  simp only [outcome_mergeOverrides_eq_bind, ho, loadDefinitions, Traced.outcome_bind,
    Traced.ofExcept]
  rfl

/-! ## When definitions load -/

theorem foldlM_add_eq_ok_iff {bases : List (Definition φ)} {draft : Draft φ} :
    bases.foldlM Draft.add {} = .ok draft ↔
      (∀ base ∈ bases, (base.manufacturers.map (·.1)).Nodup) ∧ draft = Draft.sum bases := by
  unfold Draft.sum
  generalize ({} : Draft φ) = start
  induction bases generalizing start with
  | nil => simp [pure, Except.pure, eq_comm]
  | cons base rest ih =>
    rw [List.foldlM_cons, except_bind_eq_ok_iff, List.forall_mem_cons, List.foldl_cons, and_assoc,
      ← ih]
    simp only [Draft.add_eq_ok_iff, and_assoc, exists_and_left, exists_eq_left]

/-- Definitions have a registry exactly when none repeats a manufacturer, nothing repeats in the
overrides, and their draft is valid, if that is asked for, and has no collisions. -/
theorem loadDefinitions_eq_ok_iff {bases : List (Definition φ)} {overrides : Option (Definition φ)}
    {validate : Bool} {registry : Registry φ} :
    (loadDefinitions bases overrides validate).outcome = .ok registry ↔
      (∀ base ∈ bases, (base.manufacturers.map (·.1)).Nodup) ∧ (overrides.getD {}).NoRepeats ∧
        (validate = true →
          (mergedDraft bases (overrides.getD {})).definition.validate = .ok ()) ∧
        registry.BuiltFrom (mergedDraft bases (overrides.getD {})) := by
  simp only [loadDefinitions, Traced.outcome_bind_eq_ok_iff, Traced.ofExcept,
    foldlM_add_eq_ok_iff, Draft.applyAny_eq_ok_iff, Draft.build_eq_ok_iff]
  constructor
  · intro hgiven
    obtain ⟨_, ⟨hn, rfl⟩, _, ⟨ho, rfl⟩, hv, hbuilt⟩ := hgiven
    exact ⟨hn, ho, hv, hbuilt⟩
  · intro hgiven
    obtain ⟨hn, ho, hv, hbuilt⟩ := hgiven
    exact ⟨_, ⟨hn, rfl⟩, _, ⟨ho, rfl⟩, hv, hbuilt⟩

theorem mergedDraft_empty (bases : List (Definition φ)) : mergedDraft bases {} = Draft.sum bases :=
  Draft.overriddenBy_empty _

theorem loadDefinitions_none_eq_ok_iff {bases : List (Definition φ)} {validate : Bool}
    {registry : Registry φ} :
    (loadDefinitions bases none validate).outcome = .ok registry ↔
      (∀ base ∈ bases, (base.manufacturers.map (·.1)).Nodup) ∧
        (validate = true → (Draft.sum bases).definition.validate = .ok ()) ∧
        registry.BuiltFrom (Draft.sum bases) := by
  rw [loadDefinitions_eq_ok_iff, Option.getD_none, mergedDraft_empty]
  simp only [Definition.NoRepeats.empty, true_and]

end RdmRegistry
