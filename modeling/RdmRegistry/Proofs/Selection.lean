/-
The selected files of a directory. A file is selected by its name, and the names in a directory
differ; so no file is selected twice, and the overrides file is not a data file
(`Settings.nodup_paths`).
-/
import Mathlib.Data.List.Nodup
import RdmRegistry.Proofs.DirectoryLoad

namespace RdmRegistry

theorem Path.join_injective (directory : Path) : Function.Injective directory.join := by
  intro a b h
  obtain ⟨a⟩ := a
  obtain ⟨b⟩ := b
  rw [join, join] at h
  split at h <;> simpa using h

theorem Settings.pathOf_injective (settings : Settings) : Function.Injective settings.pathOf :=
  fun _ _ h => Path.ofString_inj.mp (settings.location.join_injective h)

namespace Entry

theorem fileName?_eq_some_iff {entry : Entry} {name : String} :
    entry.fileName? = some name ↔ entry.isFile = true ∧ entry.name = Text.Utf8.encode name := by
  rw [fileName?, Option.ite_none_right_eq_some, Text.Utf8.decode?_eq_some_iff]

theorem data?_eq_some_iff {settings : Settings} {entry : Entry} {name : String} :
    entry.data? settings = some name ↔ entry.fileName? = some name ∧
      name ≠ settings.overridesFile ∧ fileExtension? name = some settings.fileExtension := by
  simp [data?, Option.filter_eq_some_iff]

theorem overrides?_eq_some_iff {settings : Settings} {entry : Entry} {name : String} :
    entry.overrides? settings = some name ↔
      entry.fileName? = some name ∧ name = settings.overridesFile := by
  simp [overrides?, Option.filter_eq_some_iff]

end Entry

namespace Selection

variable {settings : Settings} {entries : List Entry}

theorem mem_data {name : String} :
    name ∈ (ofEntries settings entries).data ↔
      ∃ entry ∈ entries, entry.data? settings = some name := by
  rw [(data_perm settings entries).mem_iff, List.mem_filterMap]

/-- Names that differ as bytes differ as text. -/
theorem nodup_data (h : (entries.map (·.name)).Nodup) : (ofEntries settings entries).data.Nodup := by
  rw [(data_perm settings entries).nodup_iff, List.Nodup, List.pairwise_filterMap]
  refine (List.pairwise_map.mp h).imp fun {a b} hne name ha name' hb heq => hne ?_
  subst heq
  have ha' := Entry.fileName?_eq_some_iff.mp (Entry.data?_eq_some_iff.mp ha).1
  have hb' := Entry.fileName?_eq_some_iff.mp (Entry.data?_eq_some_iff.mp hb).1
  rw [ha'.2, hb'.2]

theorem eq_overridesFile {name : String} (h : (ofEntries settings entries).overrides = some name) :
    name = settings.overridesFile := by
  obtain ⟨entry, -, he⟩ := List.exists_of_findSome?_eq_some h
  exact (Entry.overrides?_eq_some_iff.mp he).2

/-- The overrides file is not a data file as well. -/
theorem not_mem_data {name : String} (h : (ofEntries settings entries).overrides = some name) :
    name ∉ (ofEntries settings entries).data := by
  intro hmem
  obtain ⟨entry, -, he⟩ := mem_data.mp hmem
  exact (Entry.data?_eq_some_iff.mp he).2.1 (eq_overridesFile h)

end Selection

namespace Settings

/-- The paths of all selected files: the data files, and then the overrides file. -/
def paths (settings : Settings) (entries : List Entry) : List Path :=
  settings.dataPaths entries ++ (settings.overridesPath? entries).toList

theorem nodup_paths (settings : Settings) {entries : List Entry}
    (h : (entries.map (·.name)).Nodup) : (settings.paths entries).Nodup := by
  have hdata : (settings.dataPaths entries).Nodup :=
    List.Nodup.map settings.pathOf_injective (Selection.nodup_data h)
  cases ho : (Selection.ofEntries settings entries).overrides with
  | none => simpa [paths, overridesPath?, ho] using hdata
  | some name =>
    have hnew : settings.pathOf name ∉ settings.dataPaths entries := by
      rw [dataPaths, List.mem_map_of_injective settings.pathOf_injective]
      exact Selection.not_mem_data ho
    simp only [paths, overridesPath?, ho, Option.map_some, Option.toList_some]
    rw [← List.concat_eq_append]
    exact List.Nodup.concat hnew hdata

end Settings

end RdmRegistry
