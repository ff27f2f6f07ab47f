/-
Which files of a directory are parsed, in which order, and which fault ends a load. A file is parsed
only when everything before it is in order, and what happens after the last file parses nothing; so
the parsed files are a first part of the selected ones, and the fault is that of the last of them.

`LoadedInOrder` says this of a load, case by case, and `loadConfigured_in_order` says it of all.
-/
import RdmRegistry.Proofs.Emission
import RdmRegistry.Proofs.MergedLoad
import RdmRegistry.Proofs.Selection

namespace RdmRegistry

/-! ## Parsed files of a computation -/

namespace Traced

variable {ε α β : Type}

theorem parsed_bind_of_ok {first : Traced ε α} {a : α} (h : first.outcome = .ok a)
    (next : α → Traced ε β) : (first >>= next).parsed = first.parsed ++ (next a).parsed := by
  rw [parsed, events_bind_of_ok h, List.filterMap_append]
  rfl

theorem parsed_bind_of_error {first : Traced ε α} {e : ε} (h : first.outcome = .error e)
    (next : α → Traced ε β) : (first >>= next).parsed = first.parsed := by
  rw [parsed, events_bind_of_error h]
  rfl

theorem parsed_liftError {δ : Type} (wrap : δ → ε) (outcome : Except δ α) :
    (liftError wrap outcome).parsed = [] := by
  cases outcome <;> rfl

/-- A step that parses nothing adds nothing. -/
theorem parsed_bind_of_eq_nil (first : Traced ε α) {next : α → Traced ε β}
    (h : ∀ a, (next a).parsed = []) : (first >>= next).parsed = first.parsed := by
  cases ha : first.outcome with
  | ok a => rw [parsed_bind_of_ok ha, h, List.append_nil]
  | error e => rw [parsed_bind_of_error ha]

theorem parsed_bind_eq_nil {first : Traced ε α} {next : α → Traced ε β} (h : first.parsed = [])
    (hnext : ∀ a, (next a).parsed = []) : (first >>= next).parsed = [] := by
  rw [parsed_bind_of_eq_nil first hnext, h]

theorem Emits.parsed_eq_nil {kind : Event → Bool} {traced : Traced ε α} (h : traced.Emits kind)
    (hkind : ∀ path, kind (.parsing path) = false) : traced.parsed = [] := by
  refine h.filterMap_eq_nil fun event he => ?_
  cases event with
  | parsing path => exact absurd he (by simp [hkind path])
  | _ => rfl

end Traced

variable {φ : Type}

theorem Draft.parsed_applyOverrides (draft : Draft φ) (definition : Definition φ) :
    (draft.applyOverrides definition).parsed = [] :=
  (draft.emits_applyOverrides definition).parsed_eq_nil fun _ => rfl

theorem Draft.parsed_build (draft : Draft φ) (validate : Bool) :
    (draft.build validate).parsed = [] :=
  (draft.emits_build validate).parsed_eq_nil fun _ => rfl

/-! ## Data files -/

/-- The data file is in order: it can be parsed, and lists no manufacturer twice. -/
def Merges (reader : Reader φ) (path : Path) : Prop :=
  ∃ definition, reader path = .ok definition ∧ (definition.manufacturers.map (·.1)).Nodup

theorem parsed_mergeFile (reader : Reader φ) (draft : Draft φ) (path : Path) :
    (mergeFile reader draft path).parsed = [path] := by
  simp only [mergeFile, parse, Traced.parsed, Traced.emit, Traced.ofExcept, Traced.bind_ok]
  cases reader path <;> rfl

theorem Merges.exists_outcome {reader : Reader φ} {path : Path} (h : Merges reader path)
    (draft : Draft φ) : ∃ next, (mergeFile reader draft path).outcome = .ok next := by
  obtain ⟨definition, hr, hn⟩ := h
  exact ⟨draft.plus definition, by rw [outcome_mergeFile, hr]; exact draft.add_of_nodup hn⟩

/-- Data files that are in order are all parsed. -/
theorem foldlM_mergeFile_of_merges {reader : Reader φ} {paths : List Path}
    (h : ∀ path ∈ paths, Merges reader path) (start : Draft φ) :
    ∃ draft, (paths.foldlM (mergeFile reader) start).outcome = .ok draft ∧
      (paths.foldlM (mergeFile reader) start).parsed = paths := by
  induction paths generalizing start with
  | nil => exact ⟨start, rfl, rfl⟩
  | cons path rest ih =>
    obtain ⟨hpath, hrest⟩ := List.forall_mem_cons.mp h
    obtain ⟨next, hnext⟩ := hpath.exists_outcome start
    obtain ⟨draft, hdraft, hparsed⟩ := ih hrest next
    refine ⟨draft, ?_, ?_⟩
    · rw [List.foldlM_cons, Traced.outcome_bind_of_ok hnext, hdraft]
    · rw [List.foldlM_cons, Traced.parsed_bind_of_ok hnext, parsed_mergeFile, hparsed]
      rfl

/-- The first data file that is not in order is the last that is parsed. -/
theorem mergeFiles_of_fault {reader : Reader φ} {before after : List Path} {path : Path}
    {failure : Failure} (hb : ∀ p ∈ before, Merges reader p)
    (hp : ∀ draft, (mergeFile reader draft path).outcome = .error failure) :
    (mergeFiles reader (before ++ path :: after)).outcome = .error failure ∧
      (mergeFiles reader (before ++ path :: after)).parsed = before ++ [path] := by
  obtain ⟨draft, hdraft, hparsed⟩ := foldlM_mergeFile_of_merges hb ({} : Draft φ)
  rw [mergeFiles_eq_foldlM, List.foldlM_append]
  constructor
  · rw [Traced.outcome_bind_of_ok hdraft, List.foldlM_cons, Traced.outcome_bind_of_error (hp draft)]
  · rw [Traced.parsed_bind_of_ok hdraft, List.foldlM_cons, Traced.parsed_bind_of_error (hp draft),
      parsed_mergeFile, hparsed]

/-- Whatever becomes of the data files, the parsed ones are the first of them; if they make a draft,
they are all of them. -/
theorem parsed_foldlM_mergeFile (reader : Reader φ) (paths : List Path) (start : Draft φ) :
    (paths.foldlM (mergeFile reader) start).parsed <+: paths ∧
      ∀ draft, (paths.foldlM (mergeFile reader) start).outcome = .ok draft →
        (paths.foldlM (mergeFile reader) start).parsed = paths := by
  induction paths generalizing start with
  | nil => exact ⟨List.nil_prefix, fun _ _ => rfl⟩
  | cons path rest ih =>
    rw [List.foldlM_cons]
    cases hnext : (mergeFile reader start path).outcome with
    | ok next =>
      obtain ⟨hfirst, hall⟩ := ih next
      rw [Traced.parsed_bind_of_ok hnext, Traced.outcome_bind_of_ok hnext, parsed_mergeFile,
        List.singleton_append]
      exact ⟨List.cons_prefix_cons.mpr ⟨rfl, hfirst⟩, fun draft h => by rw [hall draft h]⟩
    | error failure =>
      rw [Traced.parsed_bind_of_error hnext, Traced.outcome_bind_of_error hnext, parsed_mergeFile]
      exact ⟨List.cons_prefix_cons.mpr ⟨rfl, List.nil_prefix⟩, fun draft h => by cases h⟩

/-! ## Overrides -/

/-- The failure is the first fault of overrides in which something repeats: a clash of ESTA, or else
what is wrong with the first manufacturer, as they are listed, that is listed again or has a clash. -/
inductive Definition.RepeatFault (definition : Definition φ) : Failure → Prop
  | esta {clash : Clash} (h : clash.IsFirst definition.esta) : RepeatFault definition (.esta clash)
  | repeatedManufacturer {before after : List (UInt16 × Manufacturer φ)} {id : UInt16}
    {m : Manufacturer φ} (he : Distinct definition.esta)
    (hsplit : definition.manufacturers = before ++ (id, m) :: after)
    (hids : (before.map (·.1)).Nodup) (hd : ∀ entry ∈ before, Distinct entry.2.parameters)
    (hid : id ∈ before.map (·.1)) : RepeatFault definition (.repeatedManufacturer id)
  | manufacturer {before after : List (UInt16 × Manufacturer φ)} {id : UInt16}
    {m : Manufacturer φ} {clash : Clash} (he : Distinct definition.esta)
    (hsplit : definition.manufacturers = before ++ (id, m) :: after)
    (hids : (before.map (·.1)).Nodup) (hd : ∀ entry ∈ before, Distinct entry.2.parameters)
    (hid : id ∉ before.map (·.1)) (hclash : clash.IsFirst m.parameters) :
    RepeatFault definition (.manufacturer id clash)

/-- Where superseding in manufacturers fails, it is at the first that was seen or has a clash. -/
theorem Manufacturers.fault_of_supersedeAll {held : Manufacturers φ} {seen : List UInt16}
    {entries : List (UInt16 × Manufacturer φ)} {failure : Failure}
    (h : (held.supersedeAll seen entries).outcome = .error failure) :
    ∃ before id m after, entries = before ++ (id, m) :: after ∧
      (before.map (·.1)).Nodup ∧ (∀ j ∈ before.map (·.1), j ∉ seen) ∧
      (∀ entry ∈ before, Distinct entry.2.parameters) ∧
      ((id ∈ seen ∨ id ∈ before.map (·.1)) ∧ failure = .repeatedManufacturer id ∨
        ¬ (id ∈ seen ∨ id ∈ before.map (·.1)) ∧
          ∃ clash : Clash, clash.IsFirst m.parameters ∧ failure = .manufacturer id clash) := by
  induction entries generalizing held seen with
  | nil => cases h
  | cons entry rest ih =>
    obtain ⟨id, listed⟩ := entry
    rw [supersedeAll] at h
    split at h
    · next hid =>
      cases h
      exact ⟨[], id, listed, rest, rfl, by simp, by simp, by simp, .inl ⟨by simpa using hid, rfl⟩⟩
    next hid =>
    split at h
    · next clash hclash =>
      cases h
      exact ⟨[], id, listed, rest, rfl, by simp, by simp, by simp,
        .inr ⟨by simpa using hid, clash, Clash.isFirst_of_first? hclash, rfl⟩⟩
    next hclash =>
    rw [Traced.outcome_bind_of_ok (outcome_supersedeAll ..)] at h
    -- The head is seen from here on, so what is listed again may be the head itself.
    obtain ⟨before, j, m, after, rfl, hids, hnew, hd, hfault⟩ := ih h
    simp only [List.mem_cons, not_or] at hnew
    refine ⟨(id, listed) :: before, j, m, after, rfl, ?_, ?_, ?_, ?_⟩
    · exact List.nodup_cons.mpr ⟨fun hm => (hnew id hm).1 rfl, hids⟩
    · exact List.forall_mem_cons.mpr ⟨by simpa using hid, fun k hk => (hnew k hk).2⟩
    · exact List.forall_mem_cons.mpr ⟨Clash.first?_eq_none_iff.mp hclash, hd⟩
    · rwa [List.map_cons, List.mem_cons, or_left_comm, ← or_assoc, ← List.mem_cons]

theorem Draft.fault_of_applyOverrides {draft : Draft φ} {definition : Definition φ}
    {failure : Failure} (h : (draft.applyOverrides definition).outcome = .error failure) :
    definition.RepeatFault failure := by
  rw [applyOverrides] at h
  split at h
  · next clash hclash =>
    cases h
    exact .esta (Clash.isFirst_of_first? hclash)
  next he =>
  rw [Traced.outcome_bind_of_ok (outcome_supersedeAll ..)] at h
  cases hm : (draft.manufacturers.supersedeAll [] definition.manufacturers).outcome with
  | ok manufacturers =>
    rw [Traced.outcome_bind_of_ok hm] at h
    cases h
  | error fault =>
    rw [Traced.outcome_bind_of_error hm] at h
    cases h
    obtain ⟨before, id, m, after, hsplit, hids, -, hd, hfault⟩ :=
      Manufacturers.fault_of_supersedeAll hm
    have hesta : Distinct definition.esta := Clash.first?_eq_none_iff.mp he
    rcases hfault with ⟨hid, rfl⟩ | ⟨hid, clash, hclash, rfl⟩
    · exact .repeatedManufacturer hesta hsplit hids hd (by simpa using hid)
    · exact .manufacturer hesta hsplit hids hd (by simpa using hid) hclash

/-- Overrides in which something repeats are refused for the first fault. -/
theorem Draft.exists_repeatFault (draft : Draft φ) {definition : Definition φ}
    (h : ¬ definition.NoRepeats) :
    ∃ failure, definition.RepeatFault failure ∧
      (draft.applyOverrides definition).outcome = .error failure := by
  cases ho : (draft.applyOverrides definition).outcome with
  | ok next => exact absurd (applyOverrides_eq_ok_iff.mp ho).1 h
  | error failure => exact ⟨failure, fault_of_applyOverrides ho, rfl⟩

/-- The overrides file is always parsed, whatever comes of it. -/
theorem parsed_mergeOverrides (reader : Reader φ) (draft : Draft φ) (path? : Option Path) :
    (mergeOverrides reader draft path?).parsed = path?.toList := by
  cases path? with
  | none => rfl
  | some path =>
    rw [mergeOverrides, Traced.parsed_bind_of_ok rfl,
      Traced.parsed_bind_of_eq_nil _ draft.parsed_applyOverrides]
    simp only [parse, Traced.parsed, Traced.emit, Traced.ofExcept, Traced.bind_ok]
    rfl

/-! ## Directories -/

/-- The identifier is the first of the list that stands there already. -/
def FirstRepeat (ids : List UInt16) (id : UInt16) : Prop :=
  ∃ before after, ids = before ++ id :: after ∧ before.Nodup ∧ id ∈ before

/-- The files of a directory are parsed in order, and the load ends with the first fault: that of the
first data file that cannot be parsed or lists a manufacturer twice, that of the overrides file, or
else that of the draft, which has no fault before all files are parsed. -/
structure LoadedInOrder (reader : Reader φ) (settings : Settings) (entries : List Entry)
    (load : Traced Failure (Registry φ)) : Prop where
  parsed : load.parsed <+: settings.paths entries
  nodup : (entries.map (·.name)).Nodup → load.parsed.Nodup
  complete : ∀ registry, load.outcome = .ok registry → load.parsed = settings.paths entries
  unparsed : ∀ before path after failure, settings.paths entries = before ++ path :: after →
    (∀ p ∈ before, Merges reader p) → reader path = .error failure →
    load.outcome = .error failure ∧ load.parsed = before ++ [path]
  repeatedManufacturer : ∀ before path after definition,
    settings.dataPaths entries = before ++ path :: after → (∀ p ∈ before, Merges reader p) →
    reader path = .ok definition → ¬ (definition.manufacturers.map (·.1)).Nodup →
    load.parsed = before ++ [path] ∧ ∃ id, FirstRepeat (definition.manufacturers.map (·.1)) id ∧
      load.outcome = .error (.repeatedManufacturer id)
  repeatingOverrides : ∀ path definition, (∀ p ∈ settings.dataPaths entries, Merges reader p) →
    settings.overridesPath? entries = some path → reader path = .ok definition →
    ¬ definition.NoRepeats →
    load.parsed = settings.paths entries ∧
      ∃ failure, definition.RepeatFault failure ∧ load.outcome = .error failure
  built : ∀ bases overrides, readBases reader settings entries = .ok bases →
    (∀ base ∈ bases, (base.manufacturers.map (·.1)).Nodup) →
    readOverrides reader settings entries = .ok overrides → overrides.NoRepeats →
    load.parsed = settings.paths entries ∧
      load.outcome = ((mergedDraft bases overrides).build settings.validate).outcome ∧
      ∀ failure, load.outcome = .error failure →
        (settings.validate = true ∧ ∃ violation, failure = .invalid violation) ∨
          (∃ clash, failure = .esta clash) ∨ ∃ id clash, failure = .manufacturer id clash

section Stages

variable {listingOf : Path → Listing} {reader : Reader φ} {settings : Settings}
  {entries : List Entry}

/-- A fault of a data file leaves the overrides file unparsed. -/
theorem parsed_loadConfigured_of_error {failure : Failure} (hc : settings.check = .ok ())
    (he : listingOf settings.location = .complete entries)
    (h : (mergeFiles reader (settings.dataPaths entries)).outcome = .error failure) :
    (loadConfigured listingOf reader settings).parsed =
      (mergeFiles reader (settings.dataPaths entries)).parsed := by
  rw [loadConfigured_of_entries he, hc, Traced.parsed_bind_of_ok rfl, Traced.parsed_liftError,
    List.nil_append]
  exact Traced.parsed_bind_of_error h _

/-- Otherwise it is the last that is parsed. -/
theorem parsed_loadConfigured_of_ok {merged : Draft φ} (hc : settings.check = .ok ())
    (he : listingOf settings.location = .complete entries)
    (h : (mergeFiles reader (settings.dataPaths entries)).outcome = .ok merged) :
    (loadConfigured listingOf reader settings).parsed = settings.paths entries := by
  have hdata : (mergeFiles reader (settings.dataPaths entries)).parsed =
      settings.dataPaths entries := (parsed_foldlM_mergeFile reader _ {}).2 merged h
  rw [loadConfigured_of_entries he, hc, Traced.parsed_bind_of_ok rfl, Traced.parsed_liftError,
    List.nil_append]
  refine (Traced.parsed_bind_of_ok h _).trans ?_
  -- What follows the overrides file is building, which parses nothing.
  rw [hdata, Traced.parsed_bind_of_eq_nil, parsed_mergeOverrides]
  · rfl
  · exact fun draft => Traced.parsed_bind_eq_nil (draft.parsed_build _) fun _ => rfl

theorem parsed_loadConfigured_prefix_paths (hc : settings.check = .ok ())
    (he : listingOf settings.location = .complete entries) :
    (loadConfigured listingOf reader settings).parsed <+: settings.paths entries := by
  cases hm : (mergeFiles reader (settings.dataPaths entries)).outcome with
  | ok merged =>
    have hall := parsed_loadConfigured_of_ok hc he hm
    exact hall ▸ List.prefix_rfl
  | error failure =>
    rw [parsed_loadConfigured_of_error hc he hm]
    exact (parsed_foldlM_mergeFile reader _ {}).1.trans (List.prefix_append ..)

/-- A load with a registry has parsed every file. -/
theorem parsed_loadConfigured_of_registry {registry : Registry φ} (hc : settings.check = .ok ())
    (he : listingOf settings.location = .complete entries)
    (h : (loadConfigured listingOf reader settings).outcome = .ok registry) :
    (loadConfigured listingOf reader settings).parsed = settings.paths entries := by
  cases hm : (mergeFiles reader (settings.dataPaths entries)).outcome with
  | ok merged => exact parsed_loadConfigured_of_ok hc he hm
  | error failure =>
    rw [outcome_loadConfigured_eq_bind hc he, hm] at h
    cases h

/-- The fault of a data file ends the load where it stands. -/
theorem loadConfigured_of_data_fault {before after : List Path} {path : Path} {failure : Failure}
    (hc : settings.check = .ok ()) (he : listingOf settings.location = .complete entries)
    (hsplit : settings.dataPaths entries = before ++ path :: after)
    (hb : ∀ p ∈ before, Merges reader p)
    (hp : ∀ draft, (mergeFile reader draft path).outcome = .error failure) :
    (loadConfigured listingOf reader settings).outcome = .error failure ∧
      (loadConfigured listingOf reader settings).parsed = before ++ [path] := by
  obtain ⟨hm, hparsed⟩ : (mergeFiles reader (settings.dataPaths entries)).outcome =
        .error failure ∧
      (mergeFiles reader (settings.dataPaths entries)).parsed = before ++ [path] := by
    rw [hsplit]
    exact mergeFiles_of_fault hb hp
  rw [outcome_loadConfigured_eq_bind hc he, parsed_loadConfigured_of_error hc he hm, hm]
  exact ⟨rfl, hparsed⟩

/-- The fault of the overrides file ends the load after every file is parsed. -/
theorem loadConfigured_of_overrides_fault {path : Path} {failure : Failure} {merged : Draft φ}
    (hc : settings.check = .ok ()) (he : listingOf settings.location = .complete entries)
    (hm : (mergeFiles reader (settings.dataPaths entries)).outcome = .ok merged)
    (ho : settings.overridesPath? entries = some path)
    (hfault : (mergeOverrides reader merged (some path)).outcome = .error failure) :
    (loadConfigured listingOf reader settings).outcome = .error failure ∧
      (loadConfigured listingOf reader settings).parsed = settings.paths entries := by
  refine ⟨?_, parsed_loadConfigured_of_ok hc he hm⟩
  rw [outcome_loadConfigured_eq_bind hc he, hm, ho]
  show (mergeOverrides reader merged (some path)).outcome >>= _ = _
  rw [hfault]
  rfl

/-- Without a fault in the files, the draft of them decides. -/
theorem loadConfigured_of_files {bases : List (Definition φ)} {overrides : Definition φ}
    (hc : settings.check = .ok ()) (he : listingOf settings.location = .complete entries)
    (hb : readBases reader settings entries = .ok bases)
    (hn : ∀ base ∈ bases, (base.manufacturers.map (·.1)).Nodup)
    (ho : readOverrides reader settings entries = .ok overrides) (hno : overrides.NoRepeats) :
    (loadConfigured listingOf reader settings).outcome =
        ((mergedDraft bases overrides).build settings.validate).outcome ∧
      (loadConfigured listingOf reader settings).parsed = settings.paths entries := by
  have hbases : (settings.dataPaths entries).mapM reader = .ok bases := by rw [mapM_dataPaths, hb]
  have hm : (mergeFiles reader (settings.dataPaths entries)).outcome = .ok (Draft.sum bases) :=
    outcome_mergeFiles_eq_ok_iff.mpr ⟨bases, hbases, hn, rfl⟩
  have hdraft : (mergeOverrides reader (Draft.sum bases)
      (settings.overridesPath? entries)).outcome = .ok (mergedDraft bases overrides) :=
    outcome_mergeOverrides_eq_ok_iff.mpr ⟨overrides, ho, hno, rfl⟩
  refine ⟨?_, parsed_loadConfigured_of_ok hc he hm⟩
  rw [outcome_loadConfigured_eq_bind hc he, hm]
  show (mergeOverrides reader (Draft.sum bases) _).outcome >>= _ = _
  rw [hdraft]
  rfl

end Stages

/-- A file of the whole sequence is a data file, or the overrides file after all of them. -/
theorem split_append_toList {data before after : List Path} {last? : Option Path} {path : Path}
    (h : data ++ last?.toList = before ++ path :: after) :
    (∃ rest, data = before ++ path :: rest) ∨ before = data ∧ last? = some path := by
  cases last? with
  | none => exact .inl ⟨after, by simpa using h⟩
  | some last =>
    rcases List.eq_nil_or_concat after with rfl | ⟨rest, final, rfl⟩
    · obtain ⟨rfl, hlast⟩ := List.append_inj' h rfl
      exact .inr ⟨rfl, by simpa using hlast⟩
    · rw [List.concat_eq_append, ← List.cons_append, ← List.append_assoc] at h
      exact .inl ⟨rest, (List.append_inj' h rfl).1⟩

theorem exists_mergeFiles_outcome {reader : Reader φ} {paths : List Path}
    (h : ∀ path ∈ paths, Merges reader path) :
    ∃ merged : Draft φ, (mergeFiles reader paths).outcome = .ok merged := by
  obtain ⟨merged, hm, -⟩ := foldlM_mergeFile_of_merges h ({} : Draft φ)
  exact ⟨merged, hm⟩

/-- A directory that cannot be listed ends the load before any file is parsed. -/
theorem loadConfigured_of_listing_fault {listingOf : Path → Listing} {reader : Reader φ}
    {settings : Settings} {failure : Failure} (hc : settings.check = .ok ())
    (hl : (listingOf settings.location).entries settings.location = .error failure) :
    (loadConfigured listingOf reader settings).outcome = .error failure ∧
      (loadConfigured listingOf reader settings).parsed = [] := by
  rw [loadConfigured_of_unlisted hl, hc]
  exact ⟨rfl, rfl⟩

/-- **Every directory is loaded in order.** Settings that cannot be used are reported first, then a
location that is no directory, then that it cannot be opened, then the first entry of it that fails
to come, in all of these cases before any file is parsed. -/
theorem loadConfigured_in_order (listingOf : Path → Listing) (reader : Reader φ)
    (settings : Settings) :
    let loaded := loadConfigured listingOf reader settings
    (∀ fault, settings.check = .error fault →
      loaded.outcome = .error (.misconfigured fault) ∧ loaded.parsed = []) ∧
    (settings.check = .ok () → listingOf settings.location = .absent →
      loaded.outcome = .error (.notADirectory settings.location) ∧ loaded.parsed = []) ∧
    (∀ obstacle, settings.check = .ok () → listingOf settings.location = .closed obstacle →
      loaded.outcome = .error (.unreadable settings.location obstacle) ∧ loaded.parsed = []) ∧
    (∀ (before : List Entry) obstacle after, settings.check = .ok () →
      listingOf settings.location = .delivered (before.map .ok ++ .error obstacle :: after) →
      loaded.outcome = .error (.unreadable settings.location obstacle) ∧ loaded.parsed = []) ∧
    ∀ entries, settings.check = .ok () → listingOf settings.location = .complete entries →
      LoadedInOrder reader settings entries loaded := by
  refine ⟨fun fault hc => ?_, fun hc hl => ?_, fun obstacle hc hl => ?_,
    fun before obstacle after hc hl => ?_, fun entries hc he => ?_⟩
  · simp only [loadConfigured, hc]
    exact ⟨rfl, rfl⟩
  · exact loadConfigured_of_listing_fault hc (by rw [hl]; rfl)
  · exact loadConfigured_of_listing_fault hc (by rw [hl]; rfl)
  · exact loadConfigured_of_listing_fault hc (by rw [hl, Listing.entries_of_failing])
  refine {
    parsed := parsed_loadConfigured_prefix_paths hc he
    nodup := fun h =>
      (settings.nodup_paths h).sublist (parsed_loadConfigured_prefix_paths hc he).sublist
    complete := fun registry h => parsed_loadConfigured_of_registry hc he h
    unparsed := ?unparsed
    repeatedManufacturer := ?repeatedManufacturer
    repeatingOverrides := ?repeatingOverrides
    built := ?built }
  case unparsed =>
    intro before path after failure hsplit hb hr
    rcases split_append_toList hsplit with ⟨rest, hdata⟩ | ⟨rfl, ho⟩
    · refine loadConfigured_of_data_fault hc he hdata hb fun draft => ?_
      rw [outcome_mergeFile, hr]
      rfl
    · obtain ⟨merged, hm⟩ := exists_mergeFiles_outcome hb
      have hfault : (mergeOverrides reader merged (some path)).outcome = .error failure := by
        rw [outcome_mergeOverrides_some, hr]
        rfl
      obtain ⟨hout, hparsed⟩ := loadConfigured_of_overrides_fault hc he hm ho hfault
      exact ⟨hout, by rw [hparsed, Settings.paths, ho]; rfl⟩
  case repeatedManufacturer =>
    intro before path after definition hsplit hb hr hn
    cases hid : definition.repeatedId? with
    | none => exact absurd (Definition.repeatedId?_eq_none_iff.mp hid) hn
    | some id =>
      obtain ⟨first, last, hids, hfirst, -, hmem⟩ := exists_of_firstRepeatAfter?_eq_some hid
      have hfault (draft : Draft φ) :
          (mergeFile reader draft path).outcome = .error (.repeatedManufacturer id) := by
        rw [outcome_mergeFile, hr]
        show draft.add definition = _
        rw [Draft.add, hid]
      obtain ⟨hout, hparsed⟩ := loadConfigured_of_data_fault hc he hsplit hb hfault
      exact ⟨hparsed, id, ⟨first, last, hids, hfirst, by simpa using hmem⟩, hout⟩
  case repeatingOverrides =>
    intro path definition hb ho hr hno
    obtain ⟨merged, hm⟩ := exists_mergeFiles_outcome hb
    obtain ⟨failure, hfailure, happly⟩ := merged.exists_repeatFault hno
    have hfault : (mergeOverrides reader merged (some path)).outcome = .error failure := by
      rw [outcome_mergeOverrides_some, hr]
      exact happly
    obtain ⟨hout, hparsed⟩ := loadConfigured_of_overrides_fault hc he hm ho hfault
    exact ⟨hparsed, failure, hfailure, hout⟩
  case built =>
    intro bases overrides hb hn ho hno
    obtain ⟨hout, hparsed⟩ := loadConfigured_of_files hc he hb hn ho hno
    refine ⟨hparsed, hout, fun failure hf => ?_⟩
    rw [hout] at hf
    rcases Draft.fault_of_build hf with ⟨hv, violation, -, rfl⟩ | ⟨clash, -, rfl⟩ |
      ⟨id, clash, -, rfl⟩
    · exact .inl ⟨hv, violation, rfl⟩
    · exact .inr (.inl ⟨clash, rfl⟩)
    · exact .inr (.inr ⟨id, clash, rfl⟩)

/-- Four data files and an overrides file, in no special order. -/
def mixedFiles : List Entry :=
  filesNamed ["overrides.proto", "e.proto", "c.proto", "b.proto", "a.proto"]

/-- The system's word on a directory that only others may read. -/
def denied : Obstacle :=
  .other "Permission denied (os error 13)"

/-- The overrides file and the last data file stand behind one that cannot be read; and of a
directory that cannot be opened, or of which an entry fails to come, no file is parsed. -/
theorem loadConfigured_in_order_unparsed :
    (loadConfigured (fun _ => .complete mixedFiles) splitReader splitSettings).outcome =
      .error (.unreadable (.ofString "d/c.proto") .missing) ∧
    (loadConfigured (fun _ => .complete mixedFiles) splitReader splitSettings).parsed =
      [.ofString "d/a.proto", .ofString "d/b.proto", .ofString "d/c.proto"] ∧
    (loadConfigured (fun _ => .closed denied) splitReader splitSettings).outcome =
      .error (.unreadable (.ofString "d") denied) ∧
    (loadConfigured (fun _ => .delivered (mixedFiles.map .ok ++ [.error denied])) splitReader
      splitSettings).parsed = [] := by
  have hselected : Selection.ofEntries splitSettings mixedFiles =
      { data := ["a.proto", "b.proto", "c.proto", "e.proto"], overrides := some "overrides.proto" } :=
    Selection.ofEntries_eq (by decide +kernel) (by decide) (by decide)
  have hpaths : splitSettings.paths mixedFiles =
      [.ofString "d/a.proto", .ofString "d/b.proto"] ++ .ofString "d/c.proto" ::
        [.ofString "d/e.proto", .ofString "d/overrides.proto"] := by
    rw [Settings.paths, Settings.dataPaths, Settings.overridesPath?, hselected]
    rfl
  have hbefore : ∀ path ∈ [Path.ofString "d/a.proto", .ofString "d/b.proto"],
      Merges splitReader path := by
    refine List.forall_mem_cons.mpr ⟨⟨namingFile, rfl, by decide⟩, ?_⟩
    exact List.forall_mem_singleton.mpr ⟨namelessFile, rfl, by decide⟩
  have hload (listing : Listing) :=
    loadConfigured_in_order (fun _ => listing) splitReader splitSettings
  obtain ⟨hout, hparsed⟩ := ((hload (.complete mixedFiles)).2.2.2.2 _ rfl rfl).unparsed _ _ _ _
    hpaths hbefore rfl
  refine ⟨hout, hparsed, ((hload (.closed denied)).2.2.1 denied rfl rfl).1, ?_⟩
  exact ((hload (.delivered _)).2.2.2.1 mixedFiles denied [] rfl rfl).2

end RdmRegistry
