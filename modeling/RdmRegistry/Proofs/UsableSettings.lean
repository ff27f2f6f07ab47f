/-
Settings that some file can satisfy. A name that can stand in a directory (`IsEntryName`) is that of
a data file when the extension is all that follows its last dot, and that of the overrides when it is
the very name they are given.

`usable_settings` puts what the check accepts beside what can be found. The check passes extensions
with a dot or a separator inside and overrides named `..`, and no file has such an extension or such
a name (`accepted_settings_may_take_no_file`).
-/
import RdmRegistry.Proofs.EntryOrder

namespace RdmRegistry

/-- The text can be the name of something in a directory. -/
structure IsEntryName (name : String) : Prop where
  nonempty : name ≠ ""
  separator : '/' ∉ name.toList
  nul : '\x00' ∉ name.toList
  here : name ≠ "."
  up : name ≠ ".."

namespace Settings

/-- A file of that name is a data file. -/
def TakesAsData (settings : Settings) (name : String) : Prop :=
  name ∈ (Selection.ofEntries settings (filesNamed [name])).data

/-- A file of that name is the overrides file. -/
def TakesAsOverrides (settings : Settings) (name : String) : Prop :=
  (Selection.ofEntries settings (filesNamed [name])).overrides = some name

variable {settings : Settings} {name : String}

theorem takesAsData_iff :
    settings.TakesAsData name ↔
      name ≠ settings.overridesFile ∧ HasExtension name settings.fileExtension := by
  simp [TakesAsData, Selection.mem_data_iff, filesNamed]

theorem takesAsOverrides_iff : settings.TakesAsOverrides name ↔ name = settings.overridesFile := by
  simp [TakesAsOverrides, Selection.overrides_eq_some_iff, filesNamed]

theorem check_eq_ok_iff :
    settings.check = .ok () ↔
      (settings.fileExtension ≠ "" ∧ settings.fileExtension.toList.head? ≠ some '.') ∧
        settings.overridesFile ≠ "" ∧ '/' ∉ settings.overridesFile.toList ∧
          '\\' ∉ settings.overridesFile.toList := by
  have hextension : (settings.fileExtension.isEmpty ||
      settings.fileExtension.toList.head? == some '.') = false ↔
        settings.fileExtension ≠ "" ∧ settings.fileExtension.toList.head? ≠ some '.' := by
    simp
  have hoverrides : (settings.overridesFile.isEmpty ||
      settings.overridesFile.toList.any (fun c => c == '/' || c == '\\')) = false ↔
        settings.overridesFile ≠ "" ∧ '/' ∉ settings.overridesFile.toList ∧
          '\\' ∉ settings.overridesFile.toList := by
    rw [Bool.or_eq_false_iff, List.any_eq_false]
    refine and_congr (by simp) ⟨fun h => ⟨fun hmem => ?_, fun hmem => ?_⟩, fun h c hmem => ?_⟩
    · simpa using h '/' hmem
    · simpa using h '\\' hmem
    · simpa using And.intro (ne_of_mem_of_not_mem hmem h.1) (ne_of_mem_of_not_mem hmem h.2)
  rw [← hextension, ← hoverrides, check]
  split
  · next h => simp [h]
  next h =>
  split
  · next h' => simp [h']
  · next h' => simp [h, h']

/-! ## Data files -/

/-- The name of one character and an extension. -/
def nameWith (c : Char) (ext : String) : String :=
  String.ofList (c :: '.' :: ext.toList)

theorem hasExtension_nameWith {c : Char} {ext : String} (h : '.' ∉ ext.toList) :
    HasExtension (nameWith c ext) ext :=
  ⟨[c], by simp, by simp [nameWith], h⟩

theorem isEntryName_nameWith {c : Char} {ext : String} (hc : c.isAlpha = true)
    (hseparator : '/' ∉ ext.toList) (hnul : '\x00' ∉ ext.toList) :
    IsEntryName (nameWith c ext) := by
  have hne (other : Char) (ho : other.isAlpha = false) : other ≠ c := by
    rintro rfl
    rw [hc] at ho
    cases ho
  have htext (other : String) (h : nameWith c ext = other) :
      c :: '.' :: ext.toList = other.toList := by
    rw [← h, nameWith, String.toList_ofList]
  refine ⟨fun h => ?_, ?_, ?_, fun h => ?_, fun h => ?_⟩
  · cases htext "" h
  · simp [nameWith, hseparator, hne '/' rfl]
  · simp [nameWith, hnul, hne '\x00' rfl]
  · cases htext "." h
  · exact hne '.' rfl (List.cons.inj (htext ".." h)).1.symm

/-- Some name is that of a data file unless the extension cannot stand at the end of one. -/
theorem exists_takesAsData_iff :
    (∃ name, IsEntryName name ∧ settings.TakesAsData name) ↔
      '.' ∉ settings.fileExtension.toList ∧ '/' ∉ settings.fileExtension.toList ∧
        '\x00' ∉ settings.fileExtension.toList := by
  simp only [takesAsData_iff]
  constructor
  · intro hgiven
    obtain ⟨name, hname, -, stem, -, hsplit, hdot⟩ := hgiven
    have hmem : ∀ c ∈ settings.fileExtension.toList, c ∈ name.toList := by
      intro c hc
      simp [hsplit, hc]
    exact ⟨hdot, mt (hmem '/') hname.separator, mt (hmem '\x00') hname.nul⟩
  · intro hgiven
    obtain ⟨hdot, hseparator, hnul⟩ := hgiven
    -- The overrides have one of the two names at most.
    by_cases ha : nameWith 'a' settings.fileExtension = settings.overridesFile
    · refine ⟨nameWith 'b' settings.fileExtension, isEntryName_nameWith rfl hseparator hnul, ?_,
        hasExtension_nameWith hdot⟩
      intro hb
      have hsame := congrArg String.toList (hb.trans ha.symm)
      simp [nameWith] at hsame
    · exact ⟨nameWith 'a' settings.fileExtension, isEntryName_nameWith rfl hseparator hnul, ha,
        hasExtension_nameWith hdot⟩

theorem exists_takesAsOverrides_iff :
    (∃ name, IsEntryName name ∧ settings.TakesAsOverrides name) ↔
      IsEntryName settings.overridesFile := by
  simp [takesAsOverrides_iff]

end Settings

/-- **Which settings the check accepts, and which ones files can satisfy.** The check looks for a dot
at the front of the extension only, and for separators in the name of the overrides only; but a data
file needs an extension without any dot, separator or zero character, and overrides need a name that
something in a directory can have. -/
theorem usable_settings (settings : Settings) :
    (settings.check = .ok () ↔
      (settings.fileExtension ≠ "" ∧ settings.fileExtension.toList.head? ≠ some '.') ∧
        settings.overridesFile ≠ "" ∧ '/' ∉ settings.overridesFile.toList ∧
          '\\' ∉ settings.overridesFile.toList) ∧
    ((∃ name, IsEntryName name ∧ settings.TakesAsData name) ↔
      '.' ∉ settings.fileExtension.toList ∧ '/' ∉ settings.fileExtension.toList ∧
        '\x00' ∉ settings.fileExtension.toList) ∧
    ((∃ name, IsEntryName name ∧ settings.TakesAsOverrides name) ↔
      IsEntryName settings.overridesFile) :=
  ⟨Settings.check_eq_ok_iff, Settings.exists_takesAsData_iff, Settings.exists_takesAsOverrides_iff⟩

/-- An extension with a dot inside and overrides called after the directory above are accepted. No
file has that extension or that name, and a directory loads without either and without a word. -/
theorem accepted_settings_may_take_no_file :
    let dotted : Settings := { fileExtension := "tar.gz" }
    let above : Settings := { overridesFile := ".." }
    dotted.check = .ok () ∧ (¬ ∃ name, IsEntryName name ∧ dotted.TakesAsData name) ∧
      above.check = .ok () ∧ (¬ ∃ name, IsEntryName name ∧ above.TakesAsOverrides name) ∧
      (loadConfigured (fun _ => .complete (filesNamed ["a.tar.gz"])) (fun _ => .ok namingFile)
        dotted).outcome.toOption.map (·.size) = some 0 ∧
      (loadConfigured (fun _ => .complete (filesNamed ["a.tar.gz"])) (fun _ => .ok namingFile)
        dotted).parsed = [] := by
  have hselected : Selection.ofEntries { fileExtension := "tar.gz" } (filesNamed ["a.tar.gz"]) =
      { data := [], overrides := none } := Selection.ofEntries_eq (by decide) .nil (by decide)
  refine ⟨rfl, ?_, rfl, ?_, ?_, ?_⟩
  · rw [Settings.exists_takesAsData_iff]
    exact fun h => h.1 (by decide)
  · rw [Settings.exists_takesAsOverrides_iff]
    exact fun h => h.up rfl
  · rw [loadConfigured_of_selected rfl hselected]
    decide +kernel
  · rw [loadConfigured_of_selected rfl hselected]
    decide +kernel

end RdmRegistry
