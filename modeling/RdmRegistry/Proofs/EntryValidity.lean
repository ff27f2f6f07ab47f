/-
What validation sees of the files of a directory. It judges the merged draft, which keeps of each
manufacturer the name that is listed first (`Draft.name?_mergedDraft`). So
`validated_loadConfigured_iff` asks for an identifier of every entry, but for a name only of the
entry that lists its identifier first: a later one may be without, as
`loadConfigured_later_entry_without_name` shows.
-/
import RdmRegistry.Proofs.MergedLoad

namespace RdmRegistry

variable {φ : Type}

/-- Manufacturers are valid when their names and their parameters are. -/
theorem Manufacturers.valid_iff {held : Manufacturers φ} :
    held.Valid ↔
      (∀ id name, held.name? id = some name → id ≠ estaId ∧ isBlankName name = false) ∧
      ∀ id, ∀ p ∈ held.parametersUnder id, p.validateFor id = .ok () := by
  constructor
  · intro h
    constructor
    · intro id name hname
      obtain ⟨m, hm, rfl⟩ := Option.map_eq_some_iff.mp hname
      obtain ⟨hid, hblank, -⟩ := Manufacturer.validate_eq_ok_iff.mp (h id m hm)
      exact ⟨hid, hblank⟩
    · intro id p hp
      rw [parametersUnder] at hp
      cases hm : held[id]? with
      | none => simp [hm] at hp
      | some m =>
        rw [hm] at hp
        exact (Manufacturer.validate_eq_ok_iff.mp (h id m hm)).2.2 p hp
  · intro hgiven id m hm
    obtain ⟨hnames, hparameters⟩ := hgiven
    have hname : held.name? id = some m.name := by rw [name?, hm, Option.map_some]
    have hown : held.parametersUnder id = m.parameters := by
      rw [parametersUnder, hm, Option.map_some, Option.getD_some]
    obtain ⟨hid, hblank⟩ := hnames id m.name hname
    exact Manufacturer.validate_eq_ok_iff.mpr ⟨hid, hblank, hown ▸ hparameters id⟩

/-- The rules for a parameter of a scope: its name is a word, and its value is one of the
manufacturers exactly if the scope is theirs. -/
def Parameter.Fits (p : Parameter φ) (scope : Scope) : Prop :=
  isWord p.name = true ∧ (isManufacturerValue p.value = true ↔ scope ≠ .esta)

theorem Parameter.fits_esta_iff {p : Parameter φ} : p.Fits .esta ↔ p.validateEsta = .ok () := by
  rw [Fits, validateEsta_eq_ok_iff]
  simp

theorem Parameter.fits_manufacturer_iff {p : Parameter φ} {id : UInt16} :
    p.Fits (.manufacturer id) ↔ p.validateFor id = .ok () := by
  rw [Fits, validateFor_eq_ok_iff]
  simp

/-- A draft is valid when the names it holds are, and every parameter fits its scope. -/
theorem Draft.validate_iff_names {draft : Draft φ} :
    draft.definition.validate = .ok () ↔
      (∀ id name, draft.manufacturers.name? id = some name →
        id ≠ estaId ∧ isBlankName name = false) ∧
      ∀ scope, ∀ p ∈ draft.parametersOf scope, p.Fits scope := by
  rw [validate_definition_eq_ok_iff, Manufacturers.valid_iff]
  simp only [← Parameter.fits_esta_iff, ← Parameter.fits_manufacturer_iff]
  constructor
  · intro hgiven
    obtain ⟨hesta, hnames, hparameters⟩ := hgiven
    refine ⟨hnames, fun scope => ?_⟩
    cases scope with
    | esta => exact hesta
    | manufacturer id => exact hparameters id
  · intro hgiven
    obtain ⟨hnames, hfits⟩ := hgiven
    exact ⟨hfits .esta, hnames, fun id => hfits (.manufacturer id)⟩

theorem Draft.name?_mergedDraft (bases : List (Definition φ)) (overrides : Definition φ)
    (id : UInt16) :
    (mergedDraft bases overrides).manufacturers.name? id =
      firstName? id ((bases ++ [overrides]).flatMap (·.manufacturers)) := by
  rw [mergedDraft, name?_overriddenBy, name?_sum, List.flatMap_append, firstName?_append]
  simp

/-- What holds of every first name and of every identifier holds along the list. -/
theorem forall_firstName?_iff {entries : List (UInt16 × Manufacturer φ)} :
    (∀ id name, firstName? id entries = some name → id ≠ estaId ∧ isBlankName name = false) ↔
      ∀ before id m after, entries = before ++ (id, m) :: after →
        id ≠ estaId ∧ (id ∉ before.map (·.1) → isBlankName m.name = false) := by
  constructor
  · intro h before id m after hsplit
    constructor
    · cases hname : firstName? id entries with
      | some name => exact (h id name hname).1
      | none => exact absurd (by simp [hsplit]) (firstName?_eq_none_iff.mp hname)
    · intro hnew
      exact (h id m.name (firstName?_eq_some_iff.mpr ⟨before, m, after, hsplit, hnew, rfl⟩)).2
  · intro h id name hname
    obtain ⟨before, m, after, hsplit, hnew, rfl⟩ := firstName?_eq_some_iff.mp hname
    exact ⟨(h before id m after hsplit).1, (h before id m after hsplit).2 hnew⟩

/-- **What validation asks of a directory.** Besides what every load asks, each parameter of the
registry fits its scope, and of the listed manufacturers, in the order of the files and with the
overrides last, none has the identifier of ESTA, and each has a name where its identifier stands for
the first time. -/
theorem validated_loadConfigured_iff {listingOf : Path → Listing} {reader : Reader φ}
    {settings : Settings} {registry : Registry φ} :
    (loadConfigured listingOf reader { settings with validate := true }).outcome = .ok registry ↔
      (loadConfigured listingOf reader { settings with validate := false }).outcome =
        .ok registry ∧
      (∀ scope, ∀ p ∈ registry.parametersOf scope, p.Fits scope) ∧
      ∃ entries bases overrides, listingOf settings.location = .complete entries ∧
        readBases reader settings entries = .ok bases ∧
        readOverrides reader settings entries = .ok overrides ∧
        ∀ before id m after,
          (bases ++ [overrides]).flatMap (·.manufacturers) = before ++ (id, m) :: after →
          id ≠ estaId ∧ (id ∉ before.map (·.1) → isBlankName m.name = false) := by
  have hdraft (bases : List (Definition φ)) (overrides : Definition φ)
      (hbuilt : registry.BuiltFrom (mergedDraft bases overrides)) :
      (mergedDraft bases overrides).definition.validate = .ok () ↔
        (∀ scope, ∀ p ∈ registry.parametersOf scope, p.Fits scope) ∧
        ∀ before id m after,
          (bases ++ [overrides]).flatMap (·.manufacturers) = before ++ (id, m) :: after →
          id ≠ estaId ∧ (id ∉ before.map (·.1) → isBlankName m.name = false) := by
    simp only [Draft.validate_iff_names, Draft.name?_mergedDraft, forall_firstName?_iff,
      hbuilt.parametersOf]
    exact and_comm
  rw [loadConfigured_eq_ok_iff, loadConfigured_eq_ok_iff]
  constructor
  · intro hgiven
    obtain ⟨hc, entries, bases, overrides, he, hb, ho, hn, hno, hv, hbuilt⟩ := hgiven
    obtain ⟨hfits, hentries⟩ := (hdraft bases overrides hbuilt).mp (hv rfl)
    exact ⟨⟨hc, entries, bases, overrides, he, hb, ho, hn, hno, nofun, hbuilt⟩, hfits,
      entries, bases, overrides, he, hb, ho, hentries⟩
  · intro hgiven
    obtain ⟨⟨hc, entries, bases, overrides, he, hb, ho, hn, hno, -, hbuilt⟩, hfits,
      entries', bases', overrides', he', hb', ho', hentries⟩ := hgiven
    -- Both loads read the same files, so the definitions are the same.
    obtain rfl : entries = entries' := Listing.complete_inj (he.symm.trans he')
    obtain rfl : bases = bases' := Except.ok.inj (hb.symm.trans hb')
    obtain rfl : overrides = overrides' := Except.ok.inj (ho.symm.trans ho')
    exact ⟨hc, entries, bases, overrides, he, hb, ho, hn, hno,
      fun _ => (hdraft bases overrides hbuilt).mpr ⟨hfits, hentries⟩, hbuilt⟩

/-- A data file lists a manufacturer without a name, and its directory loads with validation. By
itself the file does not. -/
theorem loadConfigured_later_entry_without_name :
    splitSettings.validate = true ∧
    readBases splitReader splitSettings (filesNamed ["b.proto", "a.proto"]) =
      .ok [namingFile, namelessFile] ∧
    (∃ entry ∈ namelessFile.manufacturers, isBlankName entry.2.name = true) ∧
    (∃ registry, (loadConfigured (fun _ => .complete (filesNamed ["b.proto", "a.proto"])) splitReader
      splitSettings).outcome = .ok registry) ∧
    (load (.memory namelessFile) true).outcome =
      .error (.invalid (.namelessManufacturer 0x7A70)) := by
  refine ⟨rfl, readBases_splitFiles, by decide, ?_, rfl⟩
  rw [loadConfigured_of_selected rfl ofEntries_splitFiles]
  exact ⟨_, rfl⟩

end RdmRegistry
