/-
Loading a directory. What the files say is separate from what is made of it: `readBases` and
`readOverrides` give the parsed definitions, `mergedDraft` is the draft of them, and
`loadConfigured_eq_ok_iff` says when a load has a registry and which one it is.
-/
import RdmRegistry.Load
import RdmRegistry.Proofs.Building
import RdmRegistry.Proofs.NameOrder

namespace RdmRegistry

variable {φ : Type}

/-! ## What the files say -/

/-- The path of a name in the directory of the settings. -/
def Settings.pathOf (settings : Settings) (name : String) : Path :=
  settings.location.join (.ofString name)

/-- The paths of the data files of a directory, in the order in which they are selected. -/
def Settings.dataPaths (settings : Settings) (entries : List Entry) : List Path :=
  (Selection.ofEntries settings entries).data.map settings.pathOf

/-- The path of the overrides file of a directory, if there is one. -/
def Settings.overridesPath? (settings : Settings) (entries : List Entry) : Option Path :=
  (Selection.ofEntries settings entries).overrides.map settings.pathOf

/-- The definitions of the data files of a directory, in the order in which they are selected. -/
def readBases (reader : Reader φ) (settings : Settings) (entries : List Entry) :
    Except Failure (List (Definition φ)) :=
  (Selection.ofEntries settings entries).data.mapM fun name => reader (settings.pathOf name)

theorem mapM_dataPaths (reader : Reader φ) (settings : Settings) (entries : List Entry) :
    (settings.dataPaths entries).mapM reader = readBases reader settings entries := List.mapM_map

/-- The definition of the overrides file of a directory, if there is one. -/
def readOverridesFile (reader : Reader φ) (settings : Settings) (entries : List Entry) :
    Except Failure (Option (Definition φ)) :=
  (Selection.ofEntries settings entries).overrides.mapM fun name => reader (settings.pathOf name)

/-- The overrides of a directory, empty if there is no file of them. -/
def readOverrides (reader : Reader φ) (settings : Settings) (entries : List Entry) :
    Except Failure (Definition φ) :=
  (·.getD {}) <$> readOverridesFile reader settings entries

section Overrides

variable {reader : Reader φ} {settings : Settings} {entries : List Entry}

theorem readOverrides_eq_ok_iff {overrides : Definition φ} :
    readOverrides reader settings entries = .ok overrides ↔
      ∃ definition?, readOverridesFile reader settings entries = .ok definition? ∧
        overrides = definition?.getD {} := by
  rw [readOverrides, map_eq_pure_bind, except_bind_eq_ok_iff]
  simp only [pure, Except.pure, Except.ok.injEq, eq_comm]

theorem readOverrides_of_none (h : (Selection.ofEntries settings entries).overrides = none) :
    readOverrides reader settings entries = .ok {} := by
  rw [readOverrides, readOverridesFile, h]
  rfl

theorem readOverrides_of_some {name : String}
    (h : (Selection.ofEntries settings entries).overrides = some name) :
    readOverrides reader settings entries = reader (settings.pathOf name) := by
  rw [readOverrides, readOverridesFile, h, Option.mapM_some]
  cases reader (settings.pathOf name) <;> rfl

end Overrides

/-- The selected data files are those of the directory. -/
theorem Selection.data_perm (settings : Settings) (entries : List Entry) :
    (ofEntries settings entries).data.Perm (entries.filterMap (·.data? settings)) :=
  List.mergeSort_perm ..

/-- The selected data files stand in the byte order of their names. -/
theorem Selection.data_pairwise (settings : Settings) (entries : List Entry) :
    (ofEntries settings entries).data.Pairwise
      fun a b => (Parameter.compareNames a b).isLE = true :=
  List.pairwise_mergeSort Parameter.compareNames_trans Parameter.compareNames_total _

/-- Names are sorted in one way. -/
theorem Selection.data_eq {settings : Settings} {entries : List Entry} {names : List String}
    (hperm : names.Perm (entries.filterMap (·.data? settings)))
    (hsorted : names.Pairwise fun a b => (Parameter.compareNames a b).isLE = true) :
    (ofEntries settings entries).data = names :=
  List.Perm.eq_of_pairwise (fun _ _ _ _ => Parameter.compareNames_antisymm)
    (data_pairwise settings entries) hsorted ((data_perm settings entries).trans hperm.symm)

theorem Selection.ofEntries_eq {settings : Settings} {entries : List Entry} {names : List String}
    {overrides : Option String} (hperm : names.Perm (entries.filterMap (·.data? settings)))
    (hsorted : names.Pairwise fun a b => (Parameter.compareNames a b).isLE = true)
    (hoverrides : entries.findSome? (·.overrides? settings) = overrides) :
    ofEntries settings entries = { data := names, overrides } := by
  have hdata := data_eq hperm hsorted
  rw [← hdata, ← hoverrides, ofEntries]

/-! ## Merging them -/

theorem mapM_cons_eq_ok_iff {ε α β : Type} {f : α → Except ε β} {a : α} {rest : List α}
    {results : List β} :
    (a :: rest).mapM f = .ok results ↔
      ∃ b tail, f a = .ok b ∧ rest.mapM f = .ok tail ∧ results = b :: tail := by
  simp only [List.mapM_cons, except_bind_eq_ok_iff, pure, Except.pure, Except.ok.injEq,
    exists_and_left, eq_comm (a := results)]

theorem outcome_parse (reader : Reader φ) (path : Path) :
    (parse reader path).outcome = reader path := rfl

/-- Parses a data file and adds it to a draft. -/
def mergeFile (reader : Reader φ) (draft : Draft φ) (path : Path) : Traced Failure (Draft φ) := do
  Traced.emit (.loadingFile path)
  let definition ← parse reader path
  Traced.ofExcept (draft.add definition)

theorem mergeFiles_eq_foldlM (reader : Reader φ) (paths : List Path) :
    mergeFiles reader paths = paths.foldlM (mergeFile reader) {} := rfl

theorem outcome_mergeFile (reader : Reader φ) (draft : Draft φ) (path : Path) :
    (mergeFile reader draft path).outcome = reader path >>= draft.add := by
  simp only [mergeFile, Traced.outcome_bind, outcome_parse]
  rfl

/-- A data file is merged when it can be parsed and lists no manufacturer twice. -/
theorem outcome_mergeFile_eq_ok_iff {reader : Reader φ} {draft next : Draft φ} {path : Path} :
    (mergeFile reader draft path).outcome = .ok next ↔
      ∃ definition, reader path = .ok definition ∧ (definition.manufacturers.map (·.1)).Nodup ∧
        next = draft.plus definition := by
  simp only [outcome_mergeFile, except_bind_eq_ok_iff, Draft.add_eq_ok_iff]

theorem outcome_mergeFiles_eq_ok_iff {reader : Reader φ} {paths : List Path} {draft : Draft φ} :
    (mergeFiles reader paths).outcome = .ok draft ↔
      ∃ definitions, paths.mapM reader = .ok definitions ∧
        (∀ definition ∈ definitions, (definition.manufacturers.map (·.1)).Nodup) ∧
        draft = Draft.sum definitions := by
  rw [mergeFiles_eq_foldlM]
  unfold Draft.sum
  generalize ({} : Draft φ) = start
  induction paths generalizing start with
  | nil =>
    simp only [List.foldlM_nil, List.mapM_nil, pure, Except.pure, Except.ok.injEq,
      exists_eq_left', List.not_mem_nil, false_implies, implies_true, List.foldl_nil, true_and]
    exact eq_comm
  | cons path rest ih =>
    rw [List.foldlM_cons, Traced.outcome_bind_eq_ok_iff]
    simp only [outcome_mergeFile_eq_ok_iff, ih, mapM_cons_eq_ok_iff]
    constructor
    · intro hgiven
      obtain ⟨_, ⟨first, hf, hn, rfl⟩, tail, ht, hr, rfl⟩ := hgiven
      exact ⟨first :: tail, ⟨first, tail, hf, ht, rfl⟩, List.forall_mem_cons.mpr ⟨hn, hr⟩, rfl⟩
    · intro hgiven
      obtain ⟨_, ⟨first, tail, hf, ht, rfl⟩, hr, rfl⟩ := hgiven
      obtain ⟨hn, hr⟩ := List.forall_mem_cons.mp hr
      exact ⟨_, ⟨first, hf, hn, rfl⟩, tail, ht, hr, rfl⟩

/-- Applies overrides, if there are any. -/
def Draft.applyAny (draft : Draft φ) : Option (Definition φ) → Traced Failure (Draft φ)
  | none => pure draft
  | some definition => draft.applyOverrides definition

/-- Where there are no overrides, applying the empty ones says the same. -/
theorem Draft.applyAny_eq_ok_iff {draft next : Draft φ} {definition? : Option (Definition φ)} :
    (draft.applyAny definition?).outcome = .ok next ↔
      (definition?.getD {}).NoRepeats ∧ next = draft.overriddenBy (definition?.getD {}) := by
  cases definition? with
  | none =>
    simp only [applyAny, Traced.pure_eq, Except.ok.injEq, Option.getD_none,
      Definition.NoRepeats.empty, true_and, overriddenBy_empty]
    exact eq_comm
  | some definition => exact applyOverrides_eq_ok_iff

theorem outcome_mergeOverrides_some (reader : Reader φ) (draft : Draft φ) (path : Path) :
    (mergeOverrides reader draft (some path)).outcome =
      reader path >>= fun definition => (draft.applyOverrides definition).outcome := by
  simp only [mergeOverrides, Traced.outcome_bind, outcome_parse]
  rfl

/-- The overrides file is parsed if it is there, and its definition applied. -/
theorem outcome_mergeOverrides_eq_bind (reader : Reader φ) (settings : Settings)
    (entries : List Entry) (draft : Draft φ) :
    (mergeOverrides reader draft (settings.overridesPath? entries)).outcome =
      readOverridesFile reader settings entries >>= fun definition? =>
        (draft.applyAny definition?).outcome := by
  rw [readOverridesFile, Settings.overridesPath?]
  cases (Selection.ofEntries settings entries).overrides with
  | none => rfl
  | some name =>
    rw [Option.map_some, outcome_mergeOverrides_some, Option.mapM_some]
    cases reader (settings.pathOf name) <;> rfl

theorem outcome_mergeOverrides_eq_ok_iff {reader : Reader φ} {settings : Settings}
    {entries : List Entry} {draft next : Draft φ} :
    (mergeOverrides reader draft (settings.overridesPath? entries)).outcome = .ok next ↔
      ∃ overrides, readOverrides reader settings entries = .ok overrides ∧ overrides.NoRepeats ∧
        next = draft.overriddenBy overrides := by
  rw [outcome_mergeOverrides_eq_bind, except_bind_eq_ok_iff]
  simp only [Draft.applyAny_eq_ok_iff, readOverrides_eq_ok_iff]
  constructor
  · rintro ⟨definition?, ho, h⟩
    exact ⟨_, ⟨definition?, ho, rfl⟩, h⟩
  · rintro ⟨_, ⟨definition?, ho, rfl⟩, h⟩
    exact ⟨definition?, ho, h⟩

/-- The draft of a directory: the data files one after another, then the overrides. -/
def mergedDraft (bases : List (Definition φ)) (overrides : Definition φ) : Draft φ :=
  (Draft.sum bases).overriddenBy overrides

theorem loadConfigured_of_entries {listingOf : Path → Listing} {reader : Reader φ}
    {settings : Settings} {entries : List Entry}
    (h : listingOf settings.location = .complete entries) :
    loadConfigured listingOf reader settings = do
      Traced.liftError .misconfigured settings.check
      let merged ← mergeFiles reader (settings.dataPaths entries)
      let draft ← mergeOverrides reader merged (settings.overridesPath? entries)
      let registry ← draft.build settings.validate
      Traced.emit (.loadedDirectory (Selection.ofEntries settings entries).data.length
        settings.location)
      return registry := by
  simp only [loadConfigured, h, Listing.entries_complete]
  rfl

theorem loadConfigured_of_selected {listingOf : Path → Listing} {reader : Reader φ}
    {settings : Settings} {entries : List Entry} {selection : Selection}
    (he : listingOf settings.location = .complete entries)
    (hs : Selection.ofEntries settings entries = selection) :
    loadConfigured listingOf reader settings = do
      Traced.liftError .misconfigured settings.check
      let merged ← mergeFiles reader (selection.data.map settings.pathOf)
      let draft ← mergeOverrides reader merged (selection.overrides.map settings.pathOf)
      let registry ← draft.build settings.validate
      Traced.emit (.loadedDirectory selection.data.length settings.location)
      return registry := by
  rw [loadConfigured_of_entries he, Settings.dataPaths, Settings.overridesPath?, hs]

/-- Where the directory cannot be listed this is told, and nothing is parsed. -/
theorem loadConfigured_of_unlisted {listingOf : Path → Listing} {reader : Reader φ}
    {settings : Settings} {failure : Failure}
    (h : (listingOf settings.location).entries settings.location = .error failure) :
    loadConfigured listingOf reader settings =
      (Traced.liftError .misconfigured settings.check >>= fun _ => Traced.fail failure) := by
  simp only [loadConfigured, h]
  rfl

/-- What comes of a directory is what comes of its stages: the data files, the overrides file, and
the draft of both. -/
theorem outcome_loadConfigured_eq_bind {listingOf : Path → Listing}
    {reader : Reader φ} {settings : Settings} {entries : List Entry}
    (hc : settings.check = .ok ()) (he : listingOf settings.location = .complete entries) :
    (loadConfigured listingOf reader settings).outcome =
      (mergeFiles reader (settings.dataPaths entries)).outcome >>= fun merged =>
        (mergeOverrides reader merged (settings.overridesPath? entries)).outcome >>= fun draft =>
          (draft.build settings.validate).outcome := by
  -- The record that the directory is loaded comes last and changes no outcome.
  have hlast (draft : Draft φ) (event : Event) :
      ((draft.build settings.validate).outcome >>= fun registry =>
        (Traced.emit event : Traced Failure Unit).outcome >>= fun _ =>
          (pure registry : Traced Failure (Registry φ)).outcome) =
        (draft.build settings.validate).outcome := bind_pure _
  rw [loadConfigured_of_entries he]
  simp only [Traced.outcome_bind, hc, Traced.liftError, hlast]
  rfl

/-- A load has a registry exactly when the settings are usable, the directory can be listed, its files
can be parsed, no file repeats a manufacturer, nothing repeats in the overrides, and the draft of
the files is valid, if that is asked for, and has no collisions. -/
theorem loadConfigured_eq_ok_iff {listingOf : Path → Listing} {reader : Reader φ}
    {settings : Settings} {registry : Registry φ} :
    (loadConfigured listingOf reader settings).outcome = .ok registry ↔
      settings.check = .ok () ∧ ∃ entries bases overrides,
        listingOf settings.location = .complete entries ∧
        readBases reader settings entries = .ok bases ∧
        readOverrides reader settings entries = .ok overrides ∧
        (∀ base ∈ bases, (base.manufacturers.map (·.1)).Nodup) ∧ overrides.NoRepeats ∧
        (settings.validate = true → (mergedDraft bases overrides).definition.validate = .ok ()) ∧
        registry.BuiltFrom (mergedDraft bases overrides) := by
  cases hl : (listingOf settings.location).entries settings.location with
  | error failure =>
    have hnone (entries : List Entry) : listingOf settings.location ≠ .complete entries := by
      intro he
      rw [Listing.entries_eq_ok_iff.mpr he] at hl
      cases hl
    rw [loadConfigured_of_unlisted hl]
    simp [hnone, Traced.outcome_bind_eq_ok_iff, Traced.fail]
  | ok entries =>
    have he := Listing.entries_eq_ok_iff.mp hl
    rw [loadConfigured_of_entries he]
    simp only [Traced.outcome_bind_eq_ok_iff, Traced.outcome_liftError_eq_ok_iff, Traced.emit,
      outcome_mergeFiles_eq_ok_iff, mapM_dataPaths, outcome_mergeOverrides_eq_ok_iff,
      Draft.build_eq_ok_iff, Traced.pure_eq, Except.ok.injEq]
    constructor
    · intro hgiven
      obtain ⟨_, hc, _, ⟨bases, hb, hn, rfl⟩, _, ⟨overrides, ho, hno, rfl⟩, _, ⟨hv, hbuilt⟩, _, _,
        rfl⟩ := hgiven
      exact ⟨hc, entries, bases, overrides, he, hb, ho, hn, hno, hv, hbuilt⟩
    · intro hgiven
      obtain ⟨hc, _, bases, overrides, he', hb, ho, hn, hno, hv, hbuilt⟩ := hgiven
      obtain rfl := Listing.complete_inj (he.symm.trans he')
      exact ⟨(), hc, _, ⟨bases, hb, hn, rfl⟩, _, ⟨overrides, ho, hno, rfl⟩, registry, ⟨hv, hbuilt⟩,
        (), trivial, rfl⟩

/-! ## The scopes of the draft -/

/-- What a scope of the data files and overrides comes to: the base parameters that no override of
the scope collides with, in the order of the files, and then the overrides. -/
def mergedParameters (bases : List (Definition φ)) (overrides : Definition φ) (scope : Scope) :
    List (Parameter φ) :=
  spared (bases.flatMap (·.parametersOf scope)) (overrides.parametersOf scope) ++
    overrides.parametersOf scope

theorem parametersOf_mergedDraft (bases : List (Definition φ)) {overrides : Definition φ}
    (h : overrides.NoRepeats) (scope : Scope) :
    (mergedDraft bases overrides).parametersOf scope = mergedParameters bases overrides scope := by
  rw [mergedDraft, Draft.parametersOf_overriddenBy _ h, Draft.parametersOf_sum, mergedParameters]

theorem version_mergedDraft (bases : List (Definition φ)) (overrides : Definition φ) :
    (mergedDraft bases overrides).version =
      ((bases ++ [overrides]).map (·.version)).foldl max 0 := by
  rw [mergedDraft, Draft.version_overriddenBy, Draft.version_sum, List.map_append, List.foldl_append]
  rfl

/-- Given overrides without repeats, no scope of the draft has a collision exactly when no two base
parameters collide that are spared by them. -/
theorem distinct_mergedParameters_iff (bases : List (Definition φ)) {overrides : Definition φ}
    (h : overrides.NoRepeats) (scope : Scope) :
    Distinct (mergedParameters bases overrides scope) ↔
      Distinct (spared (bases.flatMap (·.parametersOf scope)) (overrides.parametersOf scope)) := by
  rw [mergedParameters, distinct_append]
  exact ⟨fun hd => hd.1, fun hd => ⟨hd, h.scopes scope, fun p hp => (mem_spared.mp hp).2⟩⟩

end RdmRegistry
