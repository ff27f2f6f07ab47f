/-
Which entries of a directory are loaded, and in which order. `Selection.Fits` says it of the files
alone: one by its name for the overrides, the others by their extension, in the order of their
names.

`selection_of_any_order`: that is what is selected, in whatever order the entries are listed, and
nothing else is loaded. A name with its only dot in front has no extension, so it is no data file;
but overrides may be called so, and then they are loaded (`overrides_may_have_only_a_front_dot`).
-/
import Mathlib.Data.List.TakeWhile
import RdmRegistry.FileTree
import RdmRegistry.Proofs.MergedLoad
import RdmRegistry.Proofs.Selection

namespace RdmRegistry

/-! ## Extensions -/

/-- The last dot of the name is not its first character, and the extension is what follows it. -/
def HasExtension (name ext : String) : Prop :=
  ∃ stem : List Char, stem ≠ [] ∧ name.toList = stem ++ '.' :: ext.toList ∧ '.' ∉ ext.toList

/-- The name has one dot, which is its first character. -/
def OnlyFrontDot (name : String) : Prop :=
  ∃ rest : List Char, name.toList = '.' :: rest ∧ '.' ∉ rest

theorem forall_reverse_ne_dot {chars : List Char} (h : '.' ∉ chars) :
    ∀ c ∈ chars.reverse, decide (c ≠ '.') = true := by
  intro c hc
  have hne : c ≠ '.' := ne_of_mem_of_not_mem (List.mem_reverse.mp hc) h
  exact decide_eq_true hne

/-- A name that is cut at its last dot has an extension if anything stands before that. -/
theorem fileExtension?_of_split {name : String} {stem last : List Char}
    (hsplit : name.toList = stem ++ '.' :: last) (hlast : '.' ∉ last) :
    fileExtension? name = if stem = [] then none else some (String.ofList last) := by
  have hreversed : name.toList.reverse = last.reverse ++ '.' :: stem.reverse := by
    simp [hsplit]
  have hnone := forall_reverse_ne_dot hlast
  rw [fileExtension?, hreversed, List.takeWhile_append_of_pos hnone,
    List.dropWhile_append_of_pos hnone]
  cases stem <;> simp

theorem fileExtension?_of_no_dot {name : String} (h : '.' ∉ name.toList) :
    fileExtension? name = none := by
  have hdropped : name.toList.reverse.dropWhile (· ≠ '.') = [] :=
    List.dropWhile_eq_nil_iff.mpr (forall_reverse_ne_dot h)
  rw [fileExtension?, hdropped]
  rfl

theorem exists_last_dot {name : String} (h : '.' ∈ name.toList) :
    ∃ stem last, name.toList = stem ++ '.' :: last ∧ '.' ∉ last := by
  obtain ⟨before, after, hsplit, hbefore⟩ := List.eq_append_cons_of_mem (List.mem_reverse.mpr h)
  refine ⟨after.reverse, before.reverse, ?_, by simpa using hbefore⟩
  rw [← List.reverse_reverse name.toList, hsplit]
  simp

theorem fileExtension?_eq_some_iff {name ext : String} :
    fileExtension? name = some ext ↔ HasExtension name ext := by
  constructor
  · intro h
    by_cases hdot : '.' ∈ name.toList
    · obtain ⟨stem, last, hsplit, hlast⟩ := exists_last_dot hdot
      rw [fileExtension?_of_split hsplit hlast, Option.ite_none_left_eq_some] at h
      obtain ⟨hstem, hext⟩ := h
      obtain rfl := Option.some.inj hext
      exact ⟨stem, hstem, by rwa [String.toList_ofList], by rwa [String.toList_ofList]⟩
    · rw [fileExtension?_of_no_dot hdot] at h
      cases h
  · intro hgiven
    obtain ⟨stem, hstem, hsplit, hext⟩ := hgiven
    rw [fileExtension?_of_split hsplit hext, if_neg hstem, String.ofList_toList]

theorem OnlyFrontDot.not_hasExtension {name : String} (h : OnlyFrontDot name) (ext : String) :
    ¬HasExtension name ext := by
  obtain ⟨rest, hsplit, hrest⟩ := h
  have hempty : name.toList = [] ++ '.' :: rest := hsplit
  rw [← fileExtension?_eq_some_iff, fileExtension?_of_split hempty hrest, if_pos rfl]
  simp

/-! ## The selection -/

namespace Selection

/-- The selection that the settings ask for, of what a directory holds. -/
structure Fits (selection : Selection) (settings : Settings) (entries : List Entry) : Prop where
  /-- The overrides are the file of that name. -/
  overrides : ∀ name, selection.overrides = some name ↔
    name = settings.overridesFile ∧ ⟨Text.Utf8.encode name, true⟩ ∈ entries
  /-- The data files are the other files with the extension. -/
  data : ∀ name, name ∈ selection.data ↔ ⟨Text.Utf8.encode name, true⟩ ∈ entries ∧
    name ≠ settings.overridesFile ∧ HasExtension name settings.fileExtension
  /-- They stand in the byte order of their names, each once. -/
  ascending : selection.data.Pairwise fun a b => Parameter.compareNames a b = .lt

variable {settings : Settings} {entries listed : List Entry}

theorem exists_fileName?_iff {name : String} :
    (∃ entry ∈ entries, entry.fileName? = some name) ↔ ⟨Text.Utf8.encode name, true⟩ ∈ entries := by
  simp only [Entry.fileName?_eq_some_iff]
  constructor
  · intro hgiven
    obtain ⟨⟨_, _⟩, hmem, rfl, rfl⟩ := hgiven
    exact hmem
  · exact fun hmem => ⟨_, hmem, rfl, rfl⟩

theorem overrides_eq_some_iff {name : String} :
    (ofEntries settings entries).overrides = some name ↔
      name = settings.overridesFile ∧ ⟨Text.Utf8.encode name, true⟩ ∈ entries := by
  rw [← exists_fileName?_iff]
  constructor
  · intro h
    obtain ⟨entry, hmem, he⟩ := List.exists_of_findSome?_eq_some h
    obtain ⟨hname, rfl⟩ := Entry.overrides?_eq_some_iff.mp he
    exact ⟨rfl, entry, hmem, hname⟩
  · intro hgiven
    obtain ⟨rfl, entry, hmem, hname⟩ := hgiven
    have he := Entry.overrides?_eq_some_iff.mpr ⟨hname, rfl⟩
    cases ho : (ofEntries settings entries).overrides with
    | some found => rw [eq_overridesFile ho]
    | none => simp [List.findSome?_eq_none_iff.mp ho entry hmem] at he

theorem mem_data_iff {name : String} :
    name ∈ (ofEntries settings entries).data ↔ ⟨Text.Utf8.encode name, true⟩ ∈ entries ∧
      name ≠ settings.overridesFile ∧ HasExtension name settings.fileExtension := by
  simp only [mem_data, Entry.data?_eq_some_iff, ← fileExtension?_eq_some_iff,
    ← exists_fileName?_iff]
  constructor
  · intro hgiven
    obtain ⟨entry, hmem, hname, hrest⟩ := hgiven
    exact ⟨⟨entry, hmem, hname⟩, hrest⟩
  · intro hgiven
    obtain ⟨⟨entry, hmem, hname⟩, hrest⟩ := hgiven
    exact ⟨entry, hmem, hname, hrest⟩

theorem fits_ofEntries (h : (entries.map (·.name)).Nodup) :
    (ofEntries settings entries).Fits settings entries where
  overrides _ := overrides_eq_some_iff
  data _ := mem_data_iff
  ascending := (data_pairwise settings entries).imp₂
    (fun _ _ => Parameter.compareNames_eq_lt) (nodup_data h)

/-- Names are sorted in one way, so the order of the entries is lost. -/
theorem ofEntries_perm (settings : Settings) (h : listed.Perm entries) :
    ofEntries settings listed = ofEntries settings entries := by
  have hdata : (ofEntries settings listed).data = (ofEntries settings entries).data :=
    data_eq ((data_perm settings entries).trans (h.symm.filterMap _)) (data_pairwise settings entries)
  have hoverrides : (ofEntries settings listed).overrides =
      (ofEntries settings entries).overrides := by
    refine Option.ext fun name => ?_
    rw [overrides_eq_some_iff, overrides_eq_some_iff, h.mem_iff]
  exact congrArg₂ Selection.mk hdata hoverrides

end Selection

theorem Settings.mem_paths_iff {settings : Settings} {entries : List Entry} {path : Path} :
    path ∈ settings.paths entries ↔ ∃ name, ⟨Text.Utf8.encode name, true⟩ ∈ entries ∧
      (name = settings.overridesFile ∨ HasExtension name settings.fileExtension) ∧
      settings.pathOf name = path := by
  simp only [paths, dataPaths, overridesPath?, List.mem_append, List.mem_map, Option.mem_toList,
    Option.map_eq_some_iff, Selection.mem_data_iff, Selection.overrides_eq_some_iff]
  constructor
  · intro hgiven
    rcases hgiven with ⟨name, ⟨hmem, -, hext⟩, hpath⟩ | ⟨name, ⟨hname, hmem⟩, hpath⟩
    · exact ⟨name, hmem, .inr hext, hpath⟩
    · exact ⟨name, hmem, .inl hname, hpath⟩
  · intro hgiven
    obtain ⟨name, hmem, hselected, hpath⟩ := hgiven
    by_cases hname : name = settings.overridesFile
    · exact .inr ⟨name, ⟨hname, hmem⟩, hpath⟩
    · exact .inl ⟨name, ⟨hmem, hname, hselected.resolve_left hname⟩, hpath⟩

/-! ## What is passed over -/

/-- An entry that cannot be loaded: it is no file, its name is no text, or the only dot of its name
is in front and the overrides are not called so. -/
inductive Entry.Unloadable (settings : Settings) (entry : Entry) : Prop
  | noFile (h : entry.isFile = false)
  | noText (h : Text.Utf8.decode? entry.name = none)
  | onlyFrontDot (name : String) (hname : entry.name = Text.Utf8.encode name)
    (hdot : OnlyFrontDot name) (hother : name ≠ settings.overridesFile)

theorem Entry.Unloadable.not_mem_paths {settings : Settings} {entries : List Entry} {entry : Entry}
    (h : entry.Unloadable settings) (hn : (entries.map (·.name)).Nodup) (hmem : entry ∈ entries) :
    settings.location.join ⟨entry.name⟩ ∉ settings.paths entries := by
  intro hpath
  obtain ⟨name, hfile, hselected, hjoin⟩ := Settings.mem_paths_iff.mp hpath
  have hname : Text.Utf8.encode name = entry.name :=
    congrArg Path.bytes (settings.location.join_injective hjoin)
  -- Names differ, so the entry is the file that was selected.
  obtain rfl : entry = ⟨Text.Utf8.encode name, true⟩ :=
    List.inj_on_of_nodup_map hn hmem hfile hname.symm
  cases h with
  | noFile h => cases h
  | noText h =>
    rw [Text.Utf8.decode?_encode] at h
    cases h
  | onlyFrontDot other hother hdot hne =>
    obtain rfl := Text.Utf8.encode_inj.mp hother
    exact hselected.elim hne (hdot.not_hasExtension _)

/-! ## Entries of a tree -/

namespace FileTree

variable {γ : Type} {tree : FileTree γ}

/-- A path leads to a file, through links, when the file can be read. -/
theorem isFile_iff {path : Path} :
    tree.isFile path = true ↔ ∃ content, tree.read path = .ok content := by
  rw [isFile, read]
  cases tree.resolve path with
  | error obstacle => simp [bind, Except.bind]
  | ok location =>
    simp only [bind, Except.bind]
    rcases tree.node? location with _ | ⟨_ | content | target⟩ <;> simp [pure, Except.pure, throw,
      throwThe, MonadExceptOf.throw]

theorem isFile_of_mem_entries {path : Path} {entries : List Entry}
    (h : tree.listing path = .complete entries) {entry : Entry} (hmem : entry ∈ entries) :
    entry.isFile = tree.isFile (path.join ⟨entry.name⟩) := by
  rw [FileTree.listing] at h
  split at h
  · cases h
  split at h
  · obtain rfl := Listing.complete_inj h
    obtain ⟨name, -, rfl⟩ := List.mem_map.mp hmem
    rfl
  · cases h

end FileTree

/-- **What is loaded does not depend on the order of the entries**, as long as their names differ.
The overrides are the file of that name; the data files are the other ones with the extension, in
the order of their names and each once; and what is no file, or has no text for a name, or a name
with its only dot in front which the overrides do not have, is not loaded. In a tree the files are
what can be read, links followed. -/
theorem selection_of_any_order (settings : Settings) {entries listed : List Entry}
    (h : (entries.map (·.name)).Nodup) (hperm : listed.Perm entries) :
    (Selection.ofEntries settings listed = Selection.ofEntries settings entries ∧
      ∀ (φ : Type) (reader : Reader φ), loadConfigured (fun _ => .complete listed) reader settings =
        loadConfigured (fun _ => .complete entries) reader settings) ∧
    (Selection.ofEntries settings listed).Fits settings entries ∧
    (settings.paths listed).Nodup ∧
    (∀ entry ∈ entries, entry.Unloadable settings →
      settings.location.join ⟨entry.name⟩ ∉ settings.paths listed) ∧
    ∀ (γ : Type) (tree : FileTree γ), tree.listing settings.location = .complete entries →
      ∀ entry ∈ entries, (entry.isFile = true ↔
        ∃ content, tree.read (settings.location.join ⟨entry.name⟩) = .ok content) := by
  have hsame := Selection.ofEntries_perm settings hperm
  have hpaths : settings.paths listed = settings.paths entries := by
    simp only [Settings.paths, Settings.dataPaths, Settings.overridesPath?, hsame]
  rw [hsame, hpaths]
  refine ⟨⟨rfl, ?_⟩, Selection.fits_ofEntries h, settings.nodup_paths h, ?_, ?_⟩
  · intro φ reader
    rw [loadConfigured_of_selected rfl hsame]
    exact (loadConfigured_of_selected rfl rfl).symm
  · exact fun entry hmem hskipped => hskipped.not_mem_paths h hmem
  · intro γ tree htree entry hmem
    rw [FileTree.isFile_of_mem_entries htree hmem, FileTree.isFile_iff]

/-- Files that are loaded and others that are not, with a directory and a name that is no text. -/
def mixedEntries : List Entry :=
  filesNamed ["b.proto", ".proto", "overrides.proto", "a.proto", "notes.txt"] ++
    [⟨Text.Utf8.encode "c.proto", false⟩, ⟨0xFF :: Text.Utf8.encode ".proto", true⟩]

theorem selection_of_any_order_mixed :
    (mixedEntries.map (·.name)).Nodup ∧ mixedEntries.reverse.Perm mixedEntries ∧
    Selection.ofEntries {} mixedEntries.reverse = Selection.ofEntries {} mixedEntries ∧
    Selection.ofEntries {} mixedEntries =
      { data := ["a.proto", "b.proto"], overrides := some "overrides.proto" } ∧
    ({} : Settings).location.join ⟨Text.Utf8.encode ".proto"⟩ ∉
      ({} : Settings).paths mixedEntries.reverse := by
  have hnames : (mixedEntries.map (·.name)).Nodup := by decide
  have hperm : mixedEntries.reverse.Perm mixedEntries := List.reverse_perm _
  obtain ⟨⟨hsame, -⟩, -, -, hskipped, -⟩ := selection_of_any_order {} hnames hperm
  refine ⟨hnames, hperm, hsame, ?_, hskipped ⟨_, true⟩ (by decide) ?_⟩
  · exact Selection.ofEntries_eq (by decide +kernel) (by decide) (by decide +kernel)
  · exact .onlyFrontDot ".proto" rfl ⟨_, rfl, by decide⟩ (by decide)

/-- Overrides whose name has its only dot in front are found and parsed. -/
theorem overrides_may_have_only_a_front_dot :
    let settings : Settings := { dataDir := some (.ofString "d"), overridesFile := ".ov" }
    let entries := filesNamed [".ov"]
    settings.check = .ok () ∧ (entries.map (·.name)).Nodup ∧ OnlyFrontDot ".ov" ∧
      settings.location.join ⟨Text.Utf8.encode ".ov"⟩ ∈ settings.paths entries ∧
      (loadConfigured (fun _ => .complete entries) (fun _ => .ok namingFile) settings).parsed =
        [.ofString "d/.ov"] := by
  have hselected : Selection.ofEntries
      { dataDir := some (.ofString "d"), overridesFile := ".ov" } (filesNamed [".ov"]) =
        { data := [], overrides := some ".ov" } :=
    Selection.ofEntries_eq (by decide) .nil (by decide)
  refine ⟨rfl, by decide, ⟨_, rfl, by decide⟩, ?_, ?_⟩
  · rw [Settings.paths, Settings.dataPaths, Settings.overridesPath?, hselected]
    decide
  · rw [loadConfigured_of_selected rfl hselected]
    decide

end RdmRegistry
