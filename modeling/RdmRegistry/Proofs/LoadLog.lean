/-
What the log of a load says. A record that something was loaded is written exactly when it was, and it
gives the counts of the very registry (`Traced.LogsOutcome`); each file is announced as it is parsed, so
that the announcements name the parsed files in order; and overrides that are applied leave a record
for each one that takes the place of something, and for no other.

A record is text. Which kind of event it stands for can be told from how it opens, because no two kinds
open alike (`Traced.filter_records`); so all is proved of events first and then read off the text, in
`log_tells_the_truth`.
-/
import Mathlib.Data.List.Forall2
import RdmRegistry.Proofs.ParseOrder
import RdmRegistry.Proofs.Replacing

namespace RdmRegistry

/-! ## Kinds of records -/

namespace Event

/-- Something was loaded or put in use. -/
def isInfo : Event → Bool
  | built .. | loadedDirectory .. | swapped .. => true
  | _ => false

def isBuilt : Event → Bool
  | built .. => true
  | _ => false

/-- The file of a directory that is about to be read. -/
def announced? : Event → Option Path
  | loadingFile path | applyingOverrides path => some path
  | _ => none

theorem isInfo_of_isReading {event : Event} (h : event.isReading = true) :
    event.isInfo = false := by
  cases event <;> first | rfl | cases h

theorem isInfo_of_isReplacing {event : Event} (h : event.isReplacing = true) :
    event.isInfo = false := by
  cases event <;> first | rfl | cases h

end Event

/-- The text of the record opens in that way. -/
def opensWith (opening : String) (record : Level × String) : Bool :=
  opening.toList.isPrefixOf record.2.toList

/-- The record announces a file of a directory. -/
def announcesFile (record : Level × String) : Bool :=
  opensWith "loading PID data file " record || opensWith "applying PID overrides from " record

/-- The record names the file that it announces. -/
def Announces (record : Level × String) (path : Path) : Prop :=
  record = (.debug, "loading PID data file " ++ path.display) ∨
    record = (.debug, "applying PID overrides from " ++ path.display)

section

variable {event : Event} {record : Level × String}

theorem isInfo_of_record? (h : event.record? = some record) :
    (record.1 == .info) = event.isInfo := by
  cases event <;> cases h <;> rfl

-- The openings differ before any text that is not fixed, so that they can simply be compared.
theorem isBuilt_of_record? (h : event.record? = some record) :
    opensWith "built PID store" record = event.isBuilt := by
  cases event <;> cases h <;> rw [opensWith] <;> simp only [String.toList_append] <;> rfl

theorem isReplacing_of_record? (h : event.record? = some record) :
    opensWith "override replaces " record = event.isReplacing := by
  cases event <;> cases h <;> rw [opensWith] <;> simp only [String.toList_append] <;> rfl

theorem isSome_announced?_of_record? (h : event.record? = some record) :
    announcesFile record = event.announced?.isSome := by
  cases event <;> cases h <;> rw [announcesFile, opensWith, opensWith] <;>
    simp only [String.toList_append] <;> rfl

theorem announces_of_record? (h : event.record? = some record) {path : Path}
    (ha : event.announced? = some path) : Announces record path := by
  cases event <;> cases ha <;> cases h
  · exact .inl rfl
  · exact .inr rfl

theorem announced?_eq_none_of_record? (h : event.record? = none) : event.announced? = none := by
  cases event <;> first | rfl | cases h

end

/-- The announcements among the records of events name the announced files, one by one. -/
theorem forall₂_announces (events : List Event) :
    List.Forall₂ Announces ((events.filterMap Event.record?).filter announcesFile)
      (events.filterMap Event.announced?) := by
  induction events with
  | nil => exact .nil
  | cons event rest ih =>
    rw [List.filterMap_cons, List.filterMap_cons]
    cases hr : event.record? with
    | none =>
      rw [announced?_eq_none_of_record? hr]
      exact ih
    | some record =>
      have hkind := isSome_announced?_of_record? hr
      cases ha : event.announced? with
      | none =>
        rw [ha] at hkind
        rw [List.filter_cons_of_neg (by simp [hkind])]
        exact ih
      | some path =>
        rw [ha] at hkind
        rw [List.filter_cons_of_pos (by simp [hkind])]
        exact .cons (announces_of_record? hr ha) ih

/-! ## The records of a computation -/

namespace Traced

variable {ε α β : Type}

/-- Records of a kind are those of the events of that kind. -/
theorem filter_records {keep : Level × String → Bool} {kind : Event → Bool}
    (h : ∀ {event : Event} {record}, event.record? = some record → keep record = kind event)
    (traced : Traced ε α) :
    traced.records.filter keep = (traced.events.filter kind).filterMap Event.record? := by
  rw [records, List.filter_filterMap, List.filterMap_filter]
  refine List.filterMap_congr fun event _ => ?_
  cases hr : event.record? with
  | none => simp
  | some record => simp [Option.filter, h hr]

/-- Every file is announced as it is parsed. -/
def Announced (traced : Traced ε α) : Prop :=
  traced.events.filterMap Event.announced? = traced.parsed

theorem Announced.bind {first : Traced ε α} {next : α → Traced ε β} (hf : first.Announced)
    (hn : ∀ a, (next a).Announced) : (first >>= next).Announced := by
  cases h : first.outcome with
  | ok a =>
    rw [Announced, events_bind_of_ok h, List.filterMap_append, parsed_bind_of_ok h]
    exact congrArg₂ (· ++ ·) hf (hn a)
  | error e =>
    rw [Announced, events_bind_of_error h, parsed_bind_of_error h]
    exact hf

theorem Announced.foldlM {step : β → α → Traced ε β} (h : ∀ b a, (step b a).Announced)
    (items : List α) (b : β) : (items.foldlM step b).Announced := by
  induction items generalizing b with
  | nil => rfl
  | cons a rest ih => exact (h b a).bind ih

/-- Where no file is read there is nothing to announce. -/
theorem Emits.announced {kind : Event → Bool} {traced : Traced ε α} (h : traced.Emits kind)
    (hkind : ∀ event, event.isReading = true → kind event = false) : traced.Announced := by
  have hnone : traced.events.filterMap Event.announced? = [] :=
    h.filterMap_eq_nil fun event he => by
      cases hr : event.isReading with
      | true => exact absurd he (by simp [hkind event hr])
      | false => cases event <;> first | rfl | cases hr
  rw [Announced, hnone, h.parsed_eq_nil fun path => hkind _ rfl]

/-- The infos are those of the value, and without a value there are none. -/
def Informs (infosOf : α → List Event) (traced : Traced ε α) : Prop :=
  traced.events.filter Event.isInfo =
    match traced.outcome with
    | .ok a => infosOf a
    | .error _ => []

theorem Informs.bind {infosOf : β → List Event} {first : Traced ε α} {next : α → Traced ε β}
    (hf : first.events.filter Event.isInfo = []) (hn : ∀ a, (next a).Informs infosOf) :
    (first >>= next).Informs infosOf := by
  cases h : first.outcome with
  | ok a =>
    rw [Informs, events_bind_of_ok h, outcome_bind_of_ok h, List.filter_append, hf]
    exact hn a
  | error e =>
    rw [Informs, events_bind_of_error h, outcome_bind_of_error h]
    exact hf

/-- A last info comes after those of the value. -/
theorem Informs.concat {infosOf : α → List Event} {first : Traced ε α}
    (h : first.Informs infosOf) {event : Event} (he : event.isInfo = true) :
    (first >>= fun a => emit event >>= fun _ => pure a).Informs fun a => infosOf a ++ [event] := by
  rw [Informs] at h ⊢
  cases ho : first.outcome with
  | ok a =>
    rw [ho] at h
    rw [events_bind_of_ok ho, outcome_bind_of_ok ho, List.filter_append, h]
    exact congrArg (infosOf a ++ ·) (List.filter_cons_of_pos he)
  | error e =>
    rw [ho] at h
    rw [events_bind_of_error ho, outcome_bind_of_error ho]
    exact h

end Traced

/-! ## The infos of a load -/

variable {φ : Type}

/-- The event that a registry is built. -/
def Registry.built (registry : Registry φ) : Event :=
  .built registry.version registry.esta.size registry.manufacturerIds.length registry.size

theorem Draft.informs_build (draft : Draft φ) (validate : Bool) :
    (draft.build validate).Informs fun registry => [registry.built] := by
  have hlift {δ α : Type} (wrap : δ → Failure) (outcome : Except δ α) :
      (Traced.liftError wrap outcome).events.filter Event.isInfo = [] := by
    cases outcome <;> rfl
  have hcatalogs : (draft.definition.manufacturers.foldlM addCatalog ∅).Emits
      fun event => !event.isInfo := emits_foldlM_addCatalog (fun _ => rfl) _ _
  have hnone : (draft.definition.manufacturers.foldlM addCatalog ∅).events.filter
      Event.isInfo = [] := hcatalogs.filter_eq_nil fun event he => by simpa using he
  have hfalse : (draft.build false).Informs fun registry => [registry.built] :=
    Traced.Informs.bind (hlift ..) fun esta => Traced.Informs.bind hnone fun manufacturers => rfl
  cases validate with
  | false => exact hfalse
  | true => exact Traced.Informs.bind (hlift ..) fun _ => hfalse

theorem informs_load (source : Source φ) (validate : Bool) :
    (load source validate).Informs fun registry => [registry.built] := by
  have hread : source.read.events.filter Event.isInfo = [] := by
    cases source <;> rfl
  refine Traced.Informs.bind rfl fun _ => Traced.Informs.bind hread fun definition => ?_
  exact Traced.Informs.bind rfl fun draft => draft.informs_build validate

theorem informs_loadConfigured (listingOf : Path → Listing) (reader : Reader φ)
    (settings : Settings) :
    ∃ files, (loadConfigured listingOf reader settings).Informs fun registry =>
      [registry.built] ++ [.loadedDirectory files settings.location] := by
  have hcheck : (Traced.liftError Failure.misconfigured settings.check).events.filter
      Event.isInfo = [] := by
    cases settings.check <;> rfl
  cases hl : (listingOf settings.location).entries settings.location with
  | error failure =>
    refine ⟨0, ?_⟩
    rw [loadConfigured_of_unlisted hl]
    exact Traced.Informs.bind hcheck fun _ => rfl
  | ok entries =>
    refine ⟨(Selection.ofEntries settings entries).data.length, ?_⟩
    rw [loadConfigured_of_entries (Listing.entries_eq_ok_iff.mp hl)]
    refine Traced.Informs.bind hcheck fun _ => Traced.Informs.bind ?_ fun merged =>
      Traced.Informs.bind ?_ fun draft => (draft.informs_build _).concat rfl
    · exact (emits_mergeFiles reader _).filter_eq_nil fun event => Event.isInfo_of_isReading
    · refine (emits_mergeOverrides reader merged _).filter_eq_nil fun event he => ?_
      rcases (Bool.or_eq_true ..).mp he with he | he
      · exact Event.isInfo_of_isReading he
      · exact Event.isInfo_of_isReplacing he

/-! ## The announcements of a load -/

/-- A file that is announced, and parsed next. -/
theorem announced_parse {event : Event} {path : Path} (ha : event.announced? = some path)
    (hp : event.parsed? = none) (reader : Reader φ) {α : Type}
    {next : Definition φ → Traced Failure α} (hn : ∀ definition, (next definition).Announced) :
    (Traced.emit event >>= fun _ => parse reader path >>= next).Announced := by
  have hparse : (Traced.emit event >>= fun _ => parse reader path).Announced := by
    show [event, .parsing path].filterMap Event.announced? =
      [event, .parsing path].filterMap Event.parsed?
    rw [List.filterMap_cons_some ha, List.filterMap_cons_none hp]
    rfl
  rw [← bind_assoc]
  exact hparse.bind hn

theorem announced_loadConfigured (listingOf : Path → Listing) (reader : Reader φ)
    (settings : Settings) : (loadConfigured listingOf reader settings).Announced := by
  have hcheck : (Traced.liftError Failure.misconfigured settings.check).Announced := by
    cases settings.check <;> rfl
  have hbuild (draft : Draft φ) : (draft.build settings.validate).Announced :=
    (draft.emits_build _).announced fun event he => by
      cases event <;> first | rfl | cases he
  have happly (draft : Draft φ) (overrides : Definition φ) :
      (draft.applyOverrides overrides).Announced :=
    (draft.emits_applyOverrides overrides).announced fun event he => by
      cases event <;> first | rfl | cases he
  have hmerge (paths : List Path) : (mergeFiles reader paths).Announced := by
    refine Traced.Announced.foldlM (fun draft path => ?_) paths ({} : Draft φ)
    exact announced_parse rfl rfl reader fun definition => rfl
  have hoverrides (draft : Draft φ) (path? : Option Path) :
      (mergeOverrides reader draft path?).Announced := by
    cases path? with
    | none => rfl
    | some path => exact announced_parse rfl rfl reader (happly draft)
  cases hl : (listingOf settings.location).entries settings.location with
  | error failure =>
    rw [loadConfigured_of_unlisted hl]
    exact hcheck.bind fun _ => rfl
  | ok entries =>
    rw [loadConfigured_of_entries (Listing.entries_eq_ok_iff.mp hl)]
    refine hcheck.bind fun _ => (hmerge _).bind fun merged => ?_
    refine (hoverrides merged _).bind fun draft => (hbuild draft).bind fun registry => rfl

/-! ## The replacements of a load -/

/-- The load comes as far as to take overrides on top of the data files. -/
structure AcceptsOverrides (listingOf : Path → Listing) (reader : Reader φ)
    (settings : Settings) (bases : List (Definition φ)) (overrides : Definition φ) : Prop where
  check : settings.check = .ok ()
  accepted : ∃ entries merged draft, listingOf settings.location = .complete entries ∧
    readBases reader settings entries = .ok bases ∧
    (mergeFiles reader (settings.dataPaths entries)).outcome = .ok merged ∧
    readOverrides reader settings entries = .ok overrides ∧
    (merged.applyOverrides overrides).outcome = .ok draft

/-- The overrides file reports its replacements; without one there are none. -/
theorem filter_isReplacing_mergeOverrides {reader : Reader φ} {settings : Settings}
    {entries : List Entry} {merged draft : Draft φ} {overrides : Definition φ}
    (ho : readOverrides reader settings entries = .ok overrides)
    (ha : (merged.applyOverrides overrides).outcome = .ok draft) :
    (mergeOverrides reader merged (settings.overridesPath? entries)).events.filter
        Event.isReplacing =
      (overrides.replacements merged.parametersOf).map Parameter.replacing := by
  rw [Settings.overridesPath?]
  cases hs : (Selection.ofEntries settings entries).overrides with
  | none =>
    rw [readOverrides_of_none hs] at ho
    cases ho
    rfl
  | some name =>
    rw [readOverrides_of_some hs] at ho
    have hparse : (parse reader (settings.pathOf name)).outcome = .ok overrides := ho
    have hevents : (mergeOverrides reader merged (some (settings.pathOf name))).events =
        [.applyingOverrides (settings.pathOf name)] ++ ([.parsing (settings.pathOf name)] ++
          (overrides.replacements merged.parametersOf).map Parameter.replacing) := by
      rw [mergeOverrides, Traced.events_bind_of_ok rfl, Traced.events_bind_of_ok hparse,
        Draft.events_applyOverrides ha]
      rfl
    have hall : ∀ event ∈ (overrides.replacements merged.parametersOf).map Parameter.replacing,
        event.isReplacing = true := by
      simp [Parameter.replacing, Event.isReplacing]
    rw [Option.map_some, hevents, List.filter_append, List.filter_append,
      List.filter_eq_self.mpr hall]
    rfl

theorem filter_isReplacing_loadConfigured {listingOf : Path → Listing}
    {reader : Reader φ} {settings : Settings} {bases : List (Definition φ)}
    {overrides : Definition φ} (h : AcceptsOverrides listingOf reader settings bases overrides) :
    (loadConfigured listingOf reader settings).events.filter Event.isReplacing =
      (overrides.replacements fun scope => bases.flatMap (·.parametersOf scope)).map
        Parameter.replacing := by
  obtain ⟨hc, entries, merged, draft, he, hb, hm, ho, ha⟩ := h
  have hsum : merged = Draft.sum bases := by
    obtain ⟨definitions, hdefinitions, -, rfl⟩ := outcome_mergeFiles_eq_ok_iff.mp hm
    rw [mapM_dataPaths, hb] at hdefinitions
    cases hdefinitions
    rfl
  have hbase : merged.parametersOf = fun scope => bases.flatMap (·.parametersOf scope) := by
    funext scope
    rw [hsum, Draft.parametersOf_sum]
  have hdraft : (mergeOverrides reader merged (settings.overridesPath? entries)).outcome =
      .ok draft := by
    obtain ⟨hno, hnext⟩ := Draft.applyOverrides_eq_ok_iff.mp ha
    exact outcome_mergeOverrides_eq_ok_iff.mpr ⟨overrides, ho, hno, hnext⟩
  have hreading : (mergeFiles reader (settings.dataPaths entries)).events.filter
      Event.isReplacing = [] :=
    (emits_mergeFiles reader _).filter_eq_nil fun event hr => by
      cases event <;> first | rfl | cases hr
  -- What follows the overrides builds the registry, and then says so.
  have hlast : (draft.build settings.validate >>= fun registry =>
      (Traced.emit (.loadedDirectory (Selection.ofEntries settings entries).data.length
        settings.location) : Traced Failure Unit) >>= fun _ => pure registry).Emits
        fun event => !event.isReplacing := by
    refine ((draft.emits_build _).mono fun event hr => ?_).bind fun registry => ?_
    · cases event <;> first | rfl | cases hr
    · exact (Traced.emits_emit rfl).bind fun _ => Traced.emits_pure _
  rw [loadConfigured_of_entries he, hc, Traced.events_bind_of_ok rfl, Traced.events_bind_of_ok hm,
    Traced.events_bind_of_ok hdraft, List.filter_append, List.filter_append, List.filter_append,
    hreading, filter_isReplacing_mergeOverrides ho ha, hbase,
    hlast.filter_eq_nil fun event hr => by simpa using hr, List.append_nil]
  rfl

/-! ## The log -/

/-- The record that a registry is built. -/
def Registry.builtRecord (registry : Registry φ) : Level × String :=
  (.info, "built PID store v" ++ toString registry.version ++ ": " ++
    toString registry.esta.size ++ " ESTA PIDs, " ++
    toString registry.manufacturerIds.length ++ " manufacturers, " ++
    toString registry.size ++ " PIDs total")

/-- The record that a parameter takes the place of others. -/
def Parameter.replacementRecord (p : Parameter φ) : Level × String :=
  (.debug, "override replaces " ++ p.name ++ " (" ++ Text.word p.value ++ ")")

/-- A load tells at the level of information whether it has a registry, and which one. -/
structure Traced.LogsOutcome (load : Traced Failure (Registry φ)) : Prop where
  info_iff : (∃ text, (Level.info, text) ∈ load.records) ↔ ∃ registry, load.outcome = .ok registry
  built : ∀ registry, load.outcome = .ok registry →
    load.records.filter (opensWith "built PID store") = [registry.builtRecord]

theorem Traced.Informs.logsOutcome {load : Traced Failure (Registry φ)} {more : List Event}
    (h : load.Informs fun registry => registry.built :: more)
    (hmore : ∀ event ∈ more, event.isBuilt = false) : load.LogsOutcome := by
  have hinfo : load.records.filter (·.1 == .info) = (load.events.filter Event.isInfo).filterMap
      Event.record? := load.filter_records isInfo_of_record?
  rw [Traced.Informs] at h
  refine ⟨?_, fun registry ho => ?_⟩
  · have hmem : (∃ text, (Level.info, text) ∈ load.records) ↔
        ∃ record, record ∈ load.records.filter (·.1 == .info) := by
      simp only [List.mem_filter, beq_iff_eq]
      exact ⟨fun ⟨text, ht⟩ => ⟨_, ht, rfl⟩, fun ⟨(_, text), ht, hl⟩ => ⟨text, hl ▸ ht⟩⟩
    rw [hmem, hinfo, h]
    cases ho : load.outcome with
    | ok registry =>
      exact iff_of_true ⟨registry.builtRecord, List.mem_cons_self ..⟩ ⟨registry, rfl⟩
    | error failure => simp
  · -- A registry that is built is an info, so it is looked for among those.
    have hbuilt : load.events.filter Event.isBuilt = [registry.built] := by
      have hsub : (load.events.filter Event.isInfo).filter Event.isBuilt =
          load.events.filter Event.isBuilt := by
        rw [List.filter_filter]
        refine List.filter_congr fun event _ => ?_
        cases event <;> rfl
      rw [← hsub, h, ho]
      exact (List.filter_cons_of_pos rfl).trans
        (congrArg (registry.built :: ·) (List.filter_eq_nil_iff.mpr fun event he => by
          simp [hmore event he]))
    rw [load.filter_records isBuilt_of_record?, hbuilt]
    rfl

/-- **The log of a load tells the truth.** -/
theorem log_tells_the_truth :
    (∀ (source : Source φ) (validate : Bool), (load source validate).LogsOutcome) ∧
    ∀ (listingOf : Path → Listing) (reader : Reader φ) (settings : Settings),
      let loaded := loadConfigured listingOf reader settings
      loaded.LogsOutcome ∧
      List.Forall₂ Announces (loaded.records.filter announcesFile) loaded.parsed ∧
      ∀ bases overrides, AcceptsOverrides listingOf reader settings bases overrides →
        loaded.records.filter (opensWith "override replaces ") =
          (overrides.replacements fun scope => bases.flatMap (·.parametersOf scope)).map
            Parameter.replacementRecord := by
  refine ⟨fun source validate => (informs_load source validate).logsOutcome (by simp),
    fun listingOf reader settings => ⟨?_, ?_, fun bases overrides h => ?_⟩⟩
  · obtain ⟨files, hinforms⟩ := informs_loadConfigured listingOf reader settings
    exact hinforms.logsOutcome (List.forall_mem_singleton.mpr rfl)
  · rw [← announced_loadConfigured listingOf reader settings]
    exact forall₂_announces _
  · rw [Traced.filter_records isReplacing_of_record?, filter_isReplacing_loadConfigured h,
      List.filterMap_map]
    exact congrFun List.filterMap_eq_map _

/-- A data file of which overrides may take the place. -/
def takenFile : Definition Unit :=
  { version := 3
    esta := [{ name := "A", value := 0x50 }]
    manufacturers :=
      [(0x7A70, { name := "M", parameters := [{ name := "X", value := 0x8000 }] }),
        (0x7A71, { name := "N", parameters := [{ name := "Y", value := 0x8001 }] })] }

/-- Overrides of which the first removes what the second would have taken the place of. -/
def takingOverrides : Definition Unit :=
  { version := 4
    esta := [{ name := "D", value := 0x50 }, { name := "A", value := 0x51 }]
    manufacturers :=
      [(0x7A71, { name := "N", parameters := [{ name := "Z", value := 0x8001 }] }),
        (0x7A70, { name := "M", parameters := [{ name := "X", value := 0x8002 }] })] }

def takingReader : Reader Unit := fun path =>
  if path = .ofString "d/overrides.proto" then .ok takingOverrides else .ok takenFile

theorem log_tells_the_truth_taken :
    let listingOf (_ : Path) := Listing.complete (filesNamed ["overrides.proto", "a.proto"])
    AcceptsOverrides listingOf takingReader splitSettings [takenFile] takingOverrides ∧
      (loadConfigured listingOf takingReader splitSettings).records.filter
          (opensWith "override replaces ") =
        [(.debug, "override replaces D (0x0050)"), (.debug, "override replaces Z (0x8001)"),
          (.debug, "override replaces X (0x8002)")] := by
  intro listingOf
  have haccepts : AcceptsOverrides listingOf takingReader splitSettings [takenFile]
      takingOverrides := by
    refine ⟨rfl, _, .sum [takenFile], (Draft.sum [takenFile]).overriddenBy takingOverrides, rfl,
      ?_, ?_, ?_, rfl⟩
    · rw [readBases, ofEntries_overriddenFile]
      rfl
    · rw [Settings.dataPaths, ofEntries_overriddenFile]
      rfl
    · exact readOverrides_of_some (by rw [ofEntries_overriddenFile])
  refine ⟨haccepts, ?_⟩
  rw [(log_tells_the_truth.2 listingOf takingReader splitSettings).2.2 _ _ haccepts]
  decide +kernel

end RdmRegistry
