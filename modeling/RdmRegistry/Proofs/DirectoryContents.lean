/-
What a directory load holds, and when there is one.

`contents_of_loadConfigured`: in every scope, the parameters of the data files in the order of the
files, without those that collide with an override of the scope, and then the overrides; nothing
else is lost, repeated or moved.

`exists_loadConfigured_iff`: a collision between two data files, or inside one, is refused only as
long as both of its parameters are left. An overrides file that takes one of them away makes the
directory load, as `loadConfigured_hidden_repeat` shows.
-/
import RdmRegistry.Proofs.DirectoryLoad

namespace RdmRegistry

variable {φ : Type}

/-- **The contents of a directory load**, scope by scope, with the version, the manufacturers and the
size that follow from them. -/
theorem contents_of_loadConfigured {listingOf : Path → Listing} {reader : Reader φ}
    {settings : Settings} {registry : Registry φ}
    (h : (loadConfigured listingOf reader settings).outcome = .ok registry) :
    ∃ entries bases overrides, listingOf settings.location = .complete entries ∧
      (Selection.ofEntries settings entries).data.Perm (entries.filterMap (·.data? settings)) ∧
      (Selection.ofEntries settings entries).data.Pairwise
        (fun a b => (Parameter.compareNames a b).isLE = true) ∧
      readBases reader settings entries = .ok bases ∧
      readOverrides reader settings entries = .ok overrides ∧
      (∀ scope, registry.parametersOf scope =
        (bases.flatMap (·.parametersOf scope)).filter
          (fun p => !(overrides.parametersOf scope).any p.collides) ++
        overrides.parametersOf scope) ∧
      registry.version = ((bases ++ [overrides]).map (·.version)).foldl max 0 ∧
      registry.manufacturerIds.Pairwise (· < ·) ∧
      (∀ id, id ∈ registry.manufacturerIds ↔
        registry.parametersOf (.manufacturer id) ≠ []) ∧
      registry.size = (registry.parametersOf .esta).length +
        (registry.manufacturerIds.map fun id =>
          (registry.parametersOf (.manufacturer id)).length).sum := by
  obtain ⟨-, entries, bases, overrides, he, hb, ho, -, hno, -, hbuilt⟩ :=
    loadConfigured_eq_ok_iff.mp h
  refine ⟨entries, bases, overrides, he, Selection.data_perm settings entries,
    Selection.data_pairwise settings entries, hb, ho, fun scope => ?_, ?_,
    registry.manufacturerIds_pairwise, fun id => ?_, registry.size_eq⟩
  · rw [hbuilt.parametersOf, parametersOf_mergedDraft bases hno]
    rfl
  · rw [hbuilt.version, version_mergedDraft]
  · rw [hbuilt.mem_manufacturerIds, hbuilt.parametersOf]

/-- A parameter of a name and a value, and no formats. -/
def Parameter.bare (name : String) (value : UInt16) : Parameter Unit :=
  { name, value }

/-- Three files: two data files that have one ESTA value twice, and an overrides file that takes
both away, as it does with two parameters of a manufacturer. -/
def repeatingReader : Reader Unit := fun path =>
  if path = .ofString "d/a.proto" then
    .ok { version := 3, esta := [.bare "A" 0x50, .bare "C" 0x60],
          manufacturers := [(0x7A70, { name := "M", parameters := [.bare "X" 0x8000] })] }
  else if path = .ofString "d/b.proto" then
    .ok { version := 5, esta := [.bare "B" 0x50],
          manufacturers := [(0x7A70, { name := "M", parameters := [.bare "Y" 0x8001] }),
            (0x7A71, { name := "N" })] }
  else if path = .ofString "d/overrides.proto" then
    .ok { version := 4, esta := [.bare "D" 0x50],
          manufacturers := [(0x7A70, { name := "M", parameters := [.bare "X" 0x8001] })] }
  else .error (.unreadable path .missing)

/-- The directory of the three files, in no special order. -/
def repeatingEntries : List Entry :=
  ["overrides.proto", "b.proto", "notes.txt", "a.proto"].map fun name =>
    { name := Text.Utf8.encode name, isFile := true }

def repeatingListing : Path → Listing := fun path =>
  if path = .ofString "d" then .complete repeatingEntries else .absent

theorem ofEntries_repeatingEntries :
    Selection.ofEntries { dataDir := some (.ofString "d") } repeatingEntries =
      { data := ["a.proto", "b.proto"], overrides := some "overrides.proto" } :=
  Selection.ofEntries_eq (by decide +kernel) (by decide) (by decide)

theorem exists_loadConfigured_repeating :
    ∃ registry, (loadConfigured repeatingListing repeatingReader
      { dataDir := some (.ofString "d") }).outcome = .ok registry := by
  have hl : repeatingListing ({ dataDir := some (.ofString "d") } : Settings).location =
      .complete repeatingEntries := if_pos rfl
  rw [loadConfigured_of_selected hl ofEntries_repeatingEntries]
  exact ⟨_, rfl⟩

theorem contents_of_loadConfigured_repeating :
    ∃ registry, (loadConfigured repeatingListing repeatingReader
        { dataDir := some (.ofString "d") }).outcome = .ok registry ∧
      registry.parametersOf .esta = [.bare "C" 0x60, .bare "D" 0x50] ∧
      registry.parametersOf (.manufacturer 0x7A70) = [.bare "X" 0x8001] ∧
      registry.version = 5 ∧ 0x7A71 ∉ registry.manufacturerIds := by
  obtain ⟨registry, hr⟩ := exists_loadConfigured_repeating
  obtain ⟨entries, bases, overrides, he, -, -, hb, ho, hs, hv, -, hm, -⟩ :=
    contents_of_loadConfigured hr
  obtain rfl : repeatingEntries = entries := Listing.complete_inj he
  rw [readBases, ofEntries_repeatingEntries] at hb
  rw [readOverrides, readOverridesFile, ofEntries_repeatingEntries] at ho
  cases hb
  cases ho
  refine ⟨registry, hr, hs .esta, hs (.manufacturer 0x7A70), hv, ?_⟩
  rw [hm, hs]
  decide

/-- A spared part has no collisions when every collision of the whole touches an override. -/
theorem distinct_spared_iff {parameters overrides : List (Parameter φ)} :
    Distinct (spared parameters overrides) ↔ parameters.Pairwise fun p q =>
      p.collides q = true → ∃ o ∈ overrides, p.collides o = true ∨ q.collides o = true := by
  rw [Distinct, spared, List.pairwise_filter]
  refine List.Pairwise.iff fun p q => ?_
  constructor
  · intro h hpq
    by_cases hp : ∃ o ∈ overrides, p.collides o = true
    · obtain ⟨o, ho, hc⟩ := hp
      exact ⟨o, ho, .inl hc⟩
    by_cases hq : ∃ o ∈ overrides, q.collides o = true
    · obtain ⟨o, ho, hc⟩ := hq
      exact ⟨o, ho, .inr hc⟩
    have := h (by simpa using hp) (by simpa using hq)
    rw [hpq] at this
    cases this
  · intro h hp hq
    by_cases hpq : p.collides q = true
    · obtain ⟨o, ho, hc | hc⟩ := h hpq
      · exact absurd (List.any_eq_true.mpr ⟨o, ho, hc⟩) (by simpa using hp)
      · exact absurd (List.any_eq_true.mpr ⟨o, ho, hc⟩) (by simpa using hq)
    · simpa using hpq

/-- **When a directory loads.** Parameters of the data files may collide as long as an override of
their scope takes one of the two away. -/
theorem exists_loadConfigured_iff {listingOf : Path → Listing} {reader : Reader φ}
    {settings : Settings} :
    (∃ registry, (loadConfigured listingOf reader settings).outcome = .ok registry) ↔
      settings.check = .ok () ∧ ∃ entries bases overrides,
        listingOf settings.location = .complete entries ∧
        readBases reader settings entries = .ok bases ∧
        readOverrides reader settings entries = .ok overrides ∧
        (∀ base ∈ bases, (base.manufacturers.map (·.1)).Nodup) ∧ overrides.NoRepeats ∧
        (settings.validate = true → (mergedDraft bases overrides).definition.validate = .ok ()) ∧
        ∀ scope, (bases.flatMap (·.parametersOf scope)).Pairwise fun p q =>
          p.collides q = true →
            ∃ o ∈ overrides.parametersOf scope, p.collides o = true ∨ q.collides o = true := by
  have hbuilt : ∀ (bases : List (Definition φ)) {overrides : Definition φ}, overrides.NoRepeats →
      ((∃ registry : Registry φ, registry.BuiltFrom (mergedDraft bases overrides)) ↔
        ∀ scope, (bases.flatMap (·.parametersOf scope)).Pairwise fun p q =>
          p.collides q = true →
            ∃ o ∈ overrides.parametersOf scope, p.collides o = true ∨ q.collides o = true) := by
    intro bases overrides hno
    rw [Draft.exists_builtFrom_iff]
    refine forall_congr' fun scope => ?_
    rw [parametersOf_mergedDraft bases hno, distinct_mergedParameters_iff bases hno,
      distinct_spared_iff]
  simp only [loadConfigured_eq_ok_iff]
  constructor
  · intro hgiven
    obtain ⟨registry, hc, entries, bases, overrides, he, hb, ho, hn, hno, hv, h⟩ := hgiven
    exact ⟨hc, entries, bases, overrides, he, hb, ho, hn, hno, hv, (hbuilt bases hno).mp ⟨_, h⟩⟩
  · intro hgiven
    obtain ⟨hc, entries, bases, overrides, he, hb, ho, hn, hno, hv, h⟩ := hgiven
    obtain ⟨registry, hr⟩ := (hbuilt bases hno).mpr h
    exact ⟨registry, hc, entries, bases, overrides, he, hb, ho, hn, hno, hv, hr⟩

/-- Two data files have one ESTA value, and their directory loads. -/
theorem loadConfigured_hidden_repeat :
    (∃ first second : Definition Unit,
      repeatingReader (.ofString "d/a.proto") = .ok first ∧
      repeatingReader (.ofString "d/b.proto") = .ok second ∧
      ∃ p ∈ first.parametersOf .esta, ∃ q ∈ second.parametersOf .esta, p.collides q = true) ∧
    ∃ registry, (loadConfigured repeatingListing repeatingReader
      { dataDir := some (.ofString "d") }).outcome = .ok registry := by
  refine ⟨⟨_, _, rfl, rfl, .bare "A" 0x50, ?_, .bare "B" 0x50, ?_, ?_⟩,
    exists_loadConfigured_repeating⟩ <;> decide

end RdmRegistry
