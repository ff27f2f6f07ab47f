/-
One definition for several. `Definition.merge` puts the data files of a directory together without
a draft: the lists of each scope one after another, and each manufacturer once.

`split_files_load_as_one`: a directory of data files loads exactly as that definition does, with the
same registry or the same failure, in whatever order the definition lists its manufacturers.
-/
import Mathlib.Data.List.Dedup
import RdmRegistry.Proofs.Naming
import RdmRegistry.Proofs.SourceLoad

namespace RdmRegistry

variable {φ : Type}

/-- The definition with the content of several: the highest version, the parameters of ESTA one list
after another, and each manufacturer once, under the name that is listed first and with its lists
one after another. -/
def Definition.merge (definitions : List (Definition φ)) : Definition φ :=
  let listed := definitions.flatMap (·.manufacturers)
  { version := (definitions.map (·.version)).foldl max 0
    esta := definitions.flatMap (·.esta)
    manufacturers := (listed.map (·.1)).dedup.map fun id =>
      (id, { name := (firstName? id listed).getD "", parameters := parametersUnder id listed }) }

namespace Definition

theorem ids_merge (definitions : List (Definition φ)) :
    (merge definitions).manufacturers.map (·.1) =
      ((definitions.flatMap (·.manufacturers)).map (·.1)).dedup := by
  rw [merge, List.map_map]
  exact List.map_id _

theorem nodup_ids_merge (definitions : List (Definition φ)) :
    ((merge definitions).manufacturers.map (·.1)).Nodup := by
  rw [ids_merge]
  exact List.nodup_dedup _

theorem mem_ids_merge {definitions : List (Definition φ)} {id : UInt16} :
    id ∈ (merge definitions).manufacturers.map (·.1) ↔
      id ∈ (definitions.flatMap (·.manufacturers)).map (·.1) := by
  rw [ids_merge, List.mem_dedup]

theorem mem_manufacturers_merge {definitions : List (Definition φ)} {id : UInt16}
    (h : id ∈ (merge definitions).manufacturers.map (·.1)) :
    (id, { name := (firstName? id (definitions.flatMap (·.manufacturers))).getD "",
           parameters := parametersUnder id (definitions.flatMap (·.manufacturers)) }) ∈
      (merge definitions).manufacturers :=
  List.mem_map.mpr ⟨id, by rwa [← ids_merge], rfl⟩

/-- The merged definition has in every scope the lists of all of them. -/
theorem parametersOf_merge (definitions : List (Definition φ)) (scope : Scope) :
    (merge definitions).parametersOf scope = definitions.flatMap (·.parametersOf scope) := by
  cases scope with
  | esta => rfl
  | manufacturer id =>
    have hlists : definitions.flatMap (·.parametersOf (.manufacturer id)) =
        parametersUnder id (definitions.flatMap (·.manufacturers)) := by
      simp only [parametersOf, parametersUnder, List.filter_flatMap, List.flatMap_assoc]
    rw [hlists, parametersOf]
    by_cases h : id ∈ (merge definitions).manufacturers.map (·.1)
    · exact parametersUnder_of_mem (nodup_ids_merge definitions) (mem_manufacturers_merge h)
    · rw [parametersUnder_eq_nil h, parametersUnder_eq_nil (mt mem_ids_merge.mpr h)]

theorem firstName?_merge (definitions : List (Definition φ)) (id : UInt16) :
    firstName? id (merge definitions).manufacturers =
      firstName? id (definitions.flatMap (·.manufacturers)) := by
  by_cases h : id ∈ (merge definitions).manufacturers.map (·.1)
  · rw [firstName?_of_mem (nodup_ids_merge definitions) (mem_manufacturers_merge h)]
    cases hname : firstName? id (definitions.flatMap (·.manufacturers)) with
    | some name => rfl
    | none => exact absurd (mem_ids_merge.mp h) (firstName?_eq_none_iff.mp hname)
  · rw [firstName?_eq_none_iff.mpr h, firstName?_eq_none_iff.mpr (mt mem_ids_merge.mpr h)]

end Definition

/-! ## Manufacturers in another order -/

theorem parametersUnder_perm {first second : List (UInt16 × Manufacturer φ)}
    (h : first.Perm second) (hn : (first.map (·.1)).Nodup) (id : UInt16) :
    parametersUnder id first = parametersUnder id second := by
  have hn' : (second.map (·.1)).Nodup := (h.map _).nodup_iff.mp hn
  by_cases hid : id ∈ first.map (·.1)
  · obtain ⟨⟨_, m⟩, hm, rfl⟩ := List.mem_map.mp hid
    rw [parametersUnder_of_mem hn hm, parametersUnder_of_mem hn' (h.mem_iff.mp hm)]
  · rw [parametersUnder_eq_nil hid,
      parametersUnder_eq_nil (mt ((h.map _).mem_iff (a := id)).mpr hid)]

theorem firstName?_perm {first second : List (UInt16 × Manufacturer φ)}
    (h : first.Perm second) (hn : (first.map (·.1)).Nodup) (id : UInt16) :
    firstName? id first = firstName? id second := by
  have hn' : (second.map (·.1)).Nodup := (h.map _).nodup_iff.mp hn
  by_cases hid : id ∈ first.map (·.1)
  · obtain ⟨⟨_, m⟩, hm, rfl⟩ := List.mem_map.mp hid
    rw [firstName?_of_mem hn hm, firstName?_of_mem hn' (h.mem_iff.mp hm)]
  · rw [firstName?_eq_none_iff.mpr hid,
      firstName?_eq_none_iff.mpr (mt ((h.map _).mem_iff (a := id)).mpr hid)]

/-- Manufacturers that are listed once each are added in whatever order they are listed. -/
theorem Draft.plus_perm (draft : Draft φ) {definition : Definition φ}
    (hn : (definition.manufacturers.map (·.1)).Nodup)
    {manufacturers : List (UInt16 × Manufacturer φ)}
    (h : manufacturers.Perm definition.manufacturers) :
    draft.plus { definition with manufacturers } = draft.plus definition := by
  have hn' : (manufacturers.map (·.1)).Nodup := (h.map _).nodup_iff.mpr hn
  refine ext_of_names rfl (fun id => ?_) fun scope => ?_
  · rw [name?_plus, name?_plus, firstName?_perm h hn']
  · rw [parametersOf_plus, parametersOf_plus]
    cases scope with
    | esta => rfl
    | manufacturer id => simp only [Definition.parametersOf, parametersUnder_perm h hn']

/-! ## The load -/

/-- The draft of several definitions is that of the merged one. -/
theorem Draft.sum_eq_plus_merge (definitions : List (Definition φ)) :
    Draft.sum definitions = ({} : Draft φ).plus (Definition.merge definitions) := by
  refine ext_of_names ?_ (fun id => ?_) fun scope => ?_
  · rw [version_sum, version_plus]
    exact (Nat.zero_max _).symm
  · rw [name?_sum, name?_plus, Definition.firstName?_merge, Manufacturers.name?_empty,
      Option.none_or]
  · rw [parametersOf_sum, parametersOf_empty_plus, Definition.parametersOf_merge]

theorem outcome_loadDefinitions_none {bases : List (Definition φ)}
    (hn : ∀ base ∈ bases, (base.manufacturers.map (·.1)).Nodup) (validate : Bool) :
    (loadDefinitions bases none validate).outcome =
      ((Draft.sum bases).build validate).outcome := by
  simp only [loadDefinitions, Draft.applyAny, Traced.outcome_bind, Traced.ofExcept,
    foldlM_add_eq_ok_iff.mpr ⟨hn, rfl⟩]
  rfl

theorem outcome_load_file (path : Path) (reader : Reader φ) (validate : Bool) :
    (load (.file path reader) validate).outcome =
      reader path >>= fun definition => (load (.memory definition) validate).outcome := by
  simp only [load, Source.read, Traced.outcome_bind, outcome_parse]
  cases reader path <;> rfl

/-- The only data file of a directory loads as it does by itself, also where it cannot be parsed. -/
theorem outcome_loadConfigured_singleton {listingOf : Path → Listing}
    {reader : Reader φ} {settings : Settings} {entries : List Entry} {name : String}
    (hc : settings.check = .ok ()) (he : listingOf settings.location = .complete entries)
    (hdata : (Selection.ofEntries settings entries).data = [name])
    (hno : (Selection.ofEntries settings entries).overrides = none) :
    (loadConfigured listingOf reader settings).outcome =
      (load (.file (settings.pathOf name) reader) settings.validate).outcome := by
  rw [outcome_load_file]
  cases hr : reader (settings.pathOf name) with
  | ok definition =>
    have hb : readBases reader settings entries = .ok [definition] := by
      rw [readBases, hdata, List.mapM_cons, hr]
      rfl
    have ho : readOverridesFile reader settings entries = .ok none := by
      rw [readOverridesFile, hno]
      rfl
    rw [outcome_loadConfigured hc he hb ho, ← outcome_load_memory]
    rfl
  | error failure =>
    have hmerge : (mergeFiles reader (settings.dataPaths entries)).outcome = .error failure := by
      rw [Settings.dataPaths, hdata, mergeFiles_eq_foldlM]
      simp only [List.map_cons, List.foldlM_cons, Traced.outcome_bind, outcome_mergeFile, hr]
      rfl
    rw [outcome_loadConfigured_eq_bind hc he, hmerge]
    rfl

/-- **Data that is split over files loads as one definition**: the outcome, registry or failure, is
that of the merged definition, its manufacturers listed in any order. The only data file of a
directory loads as that file. -/
theorem split_files_load_as_one {listingOf : Path → Listing} {reader : Reader φ}
    {settings : Settings} {entries : List Entry} (hc : settings.check = .ok ())
    (he : listingOf settings.location = .complete entries)
    (hno : (Selection.ofEntries settings entries).overrides = none) :
    (∀ bases manufacturers, readBases reader settings entries = .ok bases →
      (∀ base ∈ bases, (base.manufacturers.map (·.1)).Nodup) →
      manufacturers.Perm (Definition.merge bases).manufacturers →
      (loadConfigured listingOf reader settings).outcome =
        (load (.memory { Definition.merge bases with manufacturers }) settings.validate).outcome) ∧
    ∀ name, (Selection.ofEntries settings entries).data = [name] →
      (loadConfigured listingOf reader settings).outcome =
        (load (.file (settings.pathOf name) reader) settings.validate).outcome := by
  constructor
  · intro bases manufacturers hb hn hperm
    have ho : readOverridesFile reader settings entries = .ok none := by
      rw [readOverridesFile, hno]
      rfl
    have hids := Definition.nodup_ids_merge bases
    rw [outcome_loadConfigured hc he hb ho, outcome_loadDefinitions_none hn,
      outcome_load_of_nodup ((hperm.map _).nodup_iff.mpr hids), Draft.plus_perm _ hids hperm,
      Draft.sum_eq_plus_merge]
  · exact fun name hdata => outcome_loadConfigured_singleton hc he hdata hno

/-- A data file with a manufacturer. -/
def namingFile : Definition Unit :=
  { version := 3
    esta := [{ name := "A", value := 0x50 }]
    manufacturers := [(0x7A70, { name := "M", parameters := [{ name := "X", value := 0x8000 }] })] }

/-- A data file with the same manufacturer, which it lists without a name, after another one. -/
def namelessFile : Definition Unit :=
  { version := 5
    manufacturers := [(0x7A71, { name := "N" }),
      (0x7A70, { name := " ", parameters := [{ name := "Y", value := 0x8001 }] })] }

def splitReader : Reader Unit := fun path =>
  if path = .ofString "d/a.proto" then .ok namingFile
  else if path = .ofString "d/b.proto" then .ok namelessFile
  else .error (.unreadable path .missing)

/-- The settings for the directory of the two files. -/
def splitSettings : Settings :=
  { dataDir := some (.ofString "d") }

/-- A directory of files with the given names. -/
def filesNamed (names : List String) : List Entry :=
  names.map fun name => { name := Text.Utf8.encode name, isFile := true }

/-- Both data files at once, the manufacturers in ascending order. -/
def joinedFile : Definition Unit :=
  { version := 5
    esta := [{ name := "A", value := 0x50 }]
    manufacturers := [(0x7A70, { name := "M", parameters :=
        [{ name := "X", value := 0x8000 }, { name := "Y", value := 0x8001 }] }),
      (0x7A71, { name := "N" })] }

theorem ofEntries_splitFiles :
    Selection.ofEntries splitSettings (filesNamed ["b.proto", "a.proto"]) =
      { data := ["a.proto", "b.proto"], overrides := none } :=
  Selection.ofEntries_eq (by decide) (by decide) (by decide)

theorem ofEntries_overriddenFile :
    Selection.ofEntries splitSettings (filesNamed ["overrides.proto", "a.proto"]) =
      { data := ["a.proto"], overrides := some "overrides.proto" } :=
  Selection.ofEntries_eq (by decide) (by decide) (by decide)

theorem readBases_splitFiles :
    readBases splitReader splitSettings (filesNamed ["b.proto", "a.proto"]) =
      .ok [namingFile, namelessFile] := by
  rw [readBases, ofEntries_splitFiles]
  rfl

theorem split_files_load_as_one_blank :
    (loadConfigured (fun _ => .complete (filesNamed ["b.proto", "a.proto"])) splitReader
        splitSettings).outcome = (load (.memory joinedFile) true).outcome ∧
    (loadConfigured (fun _ => .complete (filesNamed ["b.proto"])) splitReader splitSettings).outcome =
      (load (.file (.ofString "d/b.proto") splitReader) true).outcome := by
  have hperm : joinedFile.manufacturers.Perm
      (Definition.merge [namingFile, namelessFile]).manufacturers := by decide
  have hjoined : { Definition.merge [namingFile, namelessFile] with
      manufacturers := joinedFile.manufacturers } = joinedFile := by decide
  constructor
  · have hload : (loadConfigured (fun _ => .complete (filesNamed ["b.proto", "a.proto"])) splitReader
        splitSettings).outcome = (load (.memory { Definition.merge [namingFile, namelessFile] with
          manufacturers := joinedFile.manufacturers }) true).outcome :=
      (split_files_load_as_one rfl rfl rfl).1 _ _ readBases_splitFiles (by decide) hperm
    rwa [hjoined] at hload
  · have hselected : Selection.ofEntries splitSettings (filesNamed ["b.proto"]) =
        { data := ["b.proto"], overrides := none } :=
      Selection.ofEntries_eq (by decide) (by decide) (by decide)
    exact (split_files_load_as_one rfl rfl rfl).2 "b.proto" (by rw [hselected])

end RdmRegistry
