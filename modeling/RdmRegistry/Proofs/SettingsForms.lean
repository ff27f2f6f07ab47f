/-
Settings have one meaning in every form. They may be chosen one by one, be read from the fields of
a data format, or be written and read back, and `settings_agree_in_every_form` joins these: fields
that hold the choices give the settings of the choices, and settings that are written are read again.

What is left out has a default in either form, and `Settings.default_eq` says that the two agree. Of
a format it is assumed that it loses nothing; this holds of settings files (`Toml.lossless`), which
leave a null out, and of objects of JSON (`FlatJson.lossless`), which write it.
-/
import Mathlib.Data.List.Induction
import RdmRegistry.Proofs.FlatJson
import RdmRegistry.Proofs.Toml.WrittenFields

namespace RdmRegistry

/-- Some text spells the path. -/
def Path.IsText (path : Path) : Prop :=
  ∃ s, path.text? = some s

theorem Path.IsText.ofString_display {path : Path} (h : path.IsText) :
    .ofString path.display = path := by
  obtain ⟨s, hs⟩ := h
  rw [text?_eq_some_iff.mp hs, display_ofString]

/-- The field that a choice amounts to in a data format. -/
def Choice.field : Choice → String × Field
  | validate b => ("validate", .flag b)
  | dataDir directory => ("data_dir", .text directory.display)
  | fileExtension text => ("file_extension", .text text)
  | overridesFile text => ("overrides_file", .text text)

/-- The names of the fields that are settings. -/
def Settings.fieldNames : List String :=
  ["validate", "data_dir", "file_extension", "overrides_file"]

/-- The fields hold just the choices: of each setting one field with the last choice that was made,
and none if none was. What they hold beside settings is free. -/
def Fields.Hold (fields : Fields) (made : List Choice) : Prop :=
  ∀ name ∈ Settings.fieldNames,
    fields.only? name = some ((made.reverse.map Choice.field).lookup name)

instance (fields : Fields) (made : List Choice) : Decidable (fields.Hold made) :=
  inferInstanceAs (Decidable (∀ _ ∈ _, _))

/-! ## Choices -/

namespace Choices

variable {made : List Choice} {choices : Choices}

theorem ofList_append_singleton (made : List Choice) (choice : Choice) :
    ofList (made ++ [choice]) = (ofList made).choose choice := by
  rw [ofList, List.foldl_append]
  rfl

/-- A field of the settings made so far. -/
def field? (choices : Choices) : String → Option Field
  | "validate" => choices.validate.map .flag
  | "data_dir" => choices.dataDir.map fun directory => .text directory.display
  | "file_extension" => choices.fileExtension.map .text
  | "overrides_file" => choices.overridesFile.map .text
  | _ => none

theorem field?_choose (choices : Choices) (choice : Choice) {name : String}
    (hname : name ∈ Settings.fieldNames) :
    (choices.choose choice).field? name =
      if name = choice.field.1 then some choice.field.2 else choices.field? name := by
  simp only [Settings.fieldNames, List.mem_cons, List.not_mem_nil, or_false] at hname
  obtain rfl | rfl | rfl | rfl := hname
  all_goals cases choice <;> rfl

theorem lookup_field (made : List Choice) {name : String} (hname : name ∈ Settings.fieldNames) :
    (made.reverse.map Choice.field).lookup name = (ofList made).field? name := by
  induction made using List.reverseRecOn with
  | nil =>
    simp only [Settings.fieldNames, List.mem_cons, List.not_mem_nil, or_false] at hname
    obtain rfl | rfl | rfl | rfl := hname <;> rfl
  | append_singleton made choice ih =>
    rw [ofList_append_singleton, field?_choose _ _ hname, ← ih, List.reverse_append,
      List.reverse_singleton, List.singleton_append, List.map_cons, List.lookup_cons]
    by_cases h : name = choice.field.1
    · rw [beq_iff_eq.mpr h, if_pos h]
    · rw [beq_eq_false_iff_ne.mpr h, if_neg h]

theorem field?_ne_null {name : String} {field : Field} (h : choices.field? name = some field) :
    field ≠ .null := by
  unfold field? at h
  split at h
  case h_5 => cases h
  all_goals
    obtain ⟨chosen, -, rfl⟩ := Option.map_eq_some_iff.mp h
    nofun

theorem mem_of_dataDir {directory : Path} (h : (ofList made).dataDir = some directory) :
    .dataDir directory ∈ made := by
  induction made using List.reverseRecOn with
  | nil => nomatch h
  | append_singleton made choice ih =>
    rw [ofList_append_singleton] at h
    cases choice with
    | dataDir chosen =>
      obtain rfl : chosen = directory := Option.some.inj h
      simp
    | validate | fileExtension | overridesFile => exact List.mem_append_left _ (ih h)

end Choices

/-! ## Fields -/

namespace Field

theorem read_flag (chosen : Option Bool) (default : Bool) :
    read (chosen.map .flag) default flag? = some (chosen.getD default) := by
  cases chosen <;> rfl

theorem read_text (chosen : Option String) (default : String) :
    read (chosen.map .text) default text? = some (chosen.getD default) := by
  cases chosen <;> rfl

theorem read_directory {chosen : Option Path} (h : ∀ directory ∈ chosen, directory.IsText) :
    read (chosen.map fun directory => .text directory.display) none directory? = some chosen := by
  cases chosen with
  | none => rfl
  | some directory =>
    show some (some (Path.ofString directory.display)) = _
    rw [(h directory rfl).ofString_display]

end Field

/-- What data formats leave out is as in the settings `{}`. -/
theorem Settings.default_eq :
    ({} : Settings) =
      { validate := defaultTrue, dataDir := none, fileExtension := defaultFileExtension,
        overridesFile := defaultOverridesFile } := rfl

theorem Choices.settings_eq (choices : Choices) :
    choices.settings =
      { validate := choices.validate.getD Settings.defaultTrue
        dataDir := choices.dataDir
        fileExtension := choices.fileExtension.getD Settings.defaultFileExtension
        overridesFile := choices.overridesFile.getD Settings.defaultOverridesFile } := by
  unfold settings
  rw [Settings.default_eq]
  cases choices.dataDir <;> rfl

theorem Choices.ofFields?_of_hold {made : List Choice} {fields : Fields}
    (htext : ∀ directory, .dataDir directory ∈ made → directory.IsText)
    (hfields : fields.Hold made) : Settings.ofFields? fields = some (ofList made).settings := by
  have hname : ∀ name ∈ Settings.fieldNames,
      fields.only? name = some ((ofList made).field? name) := fun name h => by
    rw [hfields name h, lookup_field made h]
  have hdirectory : ∀ directory ∈ (ofList made).dataDir, directory.IsText :=
    fun directory h => htext directory (mem_of_dataDir h)
  rw [Settings.ofFields?, hname "validate" (by decide), hname "data_dir" (by decide),
    hname "file_extension" (by decide), hname "overrides_file" (by decide)]
  simp only [Option.bind_eq_bind, Option.bind_some, field?, Settings.ofParts?, Field.read_flag,
    Field.read_text, Field.read_directory hdirectory]
  rw [settings_eq]
  rfl

/-- No choice is a null, so where the fields are found again they hold the choices still. -/
theorem Fields.FoundAs.hold {fields found : Fields} {made : List Choice} (h : fields.FoundAs found)
    (hfields : fields.Hold made) : found.Hold made := by
  intro name hname
  have hfield := hfields name hname
  rw [Choices.lookup_field made hname] at hfield ⊢
  cases hchosen : (Choices.ofList made).field? name with
  | none => exact h.only?_of_none (hchosen ▸ hfield)
  | some field => exact h.only?_of_ne_null (hchosen ▸ hfield) (Choices.field?_ne_null hchosen)

/-! ## Written settings -/

namespace Settings

variable {settings : Settings}

theorem exists_directoryField (htext : ∀ directory ∈ settings.dataDir, directory.IsText) :
    ∃ field, Field.ofDirectory? settings.dataDir = some field ∧ field ≠ .other ∧
      field.directory? = some settings.dataDir := by
  cases hchosen : settings.dataDir with
  | none => exact ⟨.null, rfl, nofun, rfl⟩
  | some directory =>
    obtain ⟨s, hs⟩ := htext directory hchosen
    refine ⟨.text s, by rw [Field.ofDirectory?, hs]; rfl, nofun, ?_⟩
    rw [Path.text?_eq_some_iff.mp hs]
    rfl

/-- The settings as fields, with the field of the directory as given. -/
def fieldsWith (settings : Settings) (directory : Field) : Fields :=
  [("validate", .flag settings.validate), ("data_dir", directory),
    ("file_extension", .text settings.fileExtension),
    ("overrides_file", .text settings.overridesFile)]

theorem isObject_fieldsWith {directory : Field} (h : directory ≠ .other) :
    (settings.fieldsWith directory).IsObject := by
  have hnames : (settings.fieldsWith directory).map Prod.fst = fieldNames := rfl
  have hplain : ∀ name ∈ fieldNames, IsPlainName name := by decide +kernel
  exact {
    nodup := by
      rw [hnames]
      decide
    plain := fun field hfield => hplain _ (hnames ▸ List.mem_map_of_mem hfield)
    known := by simp [fieldsWith, h] }

/-- A directory that is not chosen may be found as a null or be left out; the rest is found. -/
theorem ofFields?_of_foundAs {directory : Field} {found : Fields}
    (hdirectory : directory.directory? = some settings.dataDir)
    (hknown : directory ≠ .other) (h : (settings.fieldsWith directory).FoundAs found) :
    ofFields? found = some settings := by
  have hobject : (settings.fieldsWith directory).IsObject := isObject_fieldsWith hknown
  have hvalidate : found.only? "validate" = some (some (.flag settings.validate)) :=
    h.only?_of_ne_null rfl nofun
  have hextension : found.only? "file_extension" = some (some (.text settings.fileExtension)) :=
    h.only?_of_ne_null rfl nofun
  have hoverrides : found.only? "overrides_file" = some (some (.text settings.overridesFile)) :=
    h.only?_of_ne_null rfl nofun
  obtain ⟨field?, hfield, hread⟩ : ∃ field?, found.only? "data_dir" = some field? ∧
      Field.read field? none Field.directory? = some settings.dataDir := by
    by_cases hnull : directory = .null
    · subst hnull
      obtain hsame | hnone : found.only? "data_dir" = some (some .null) ∨
          found.only? "data_dir" = some none := h.only?_of_null hobject.nodup rfl
      · exact ⟨_, hsame, hdirectory⟩
      · exact ⟨_, hnone, hdirectory⟩
    · exact ⟨_, h.only?_of_ne_null rfl hnull, hdirectory⟩
  rw [ofFields?, hvalidate, hfield, hextension, hoverrides]
  simp only [Option.bind_eq_bind, Option.bind_some, ofParts?, hread]
  rfl

end Settings

/-! ## Texts -/

namespace Settings

variable {format : Format} {settings : Settings}

theorem ofText_of_fields {text : String} {fields : Fields} (hread : format.read? text = some fields)
    (hfields : ofFields? fields = some settings) : ofText format text = .ok settings := by
  rw [ofText, hread, Option.bind_some, hfields]

theorem exists_toText? (hformat : format.Lossless)
    (htext : ∀ directory ∈ settings.dataDir, directory.IsText) :
    ∃ text, settings.toText? format = some text ∧ ofText format text = .ok settings := by
  obtain ⟨directory, hfield, hknown, hdirectory⟩ := exists_directoryField htext
  have hfields : settings.toFields? = some (settings.fieldsWith directory) := by
    rw [toFields?, hfield]
    rfl
  obtain ⟨found, hread, hfound⟩ := hformat _ (isObject_fieldsWith hknown)
  exact ⟨_, by rw [toText?, hfields]; rfl,
    ofText_of_fields hread (ofFields?_of_foundAs hdirectory hknown hfound)⟩

end Settings

/-- **Settings mean the same in every form.** The settings that are chosen one by one are those that
are read where the same choices are the fields of an object, or of a text of any format that loses
nothing; and settings that such a format writes are read again. -/
theorem settings_agree_in_every_form (format : Format) (hformat : format.Lossless)
    (made : List Choice) (settings : Settings)
    (hmade : ∀ directory, .dataDir directory ∈ made → directory.IsText)
    (hsettings : ∀ directory ∈ settings.dataDir, directory.IsText) :
    (∀ fields : Fields, fields.Hold made →
      Settings.ofFields? fields = some (Choices.ofList made).settings) ∧
    (∀ text fields, format.read? text = some fields → fields.Hold made →
      Settings.ofText format text = .ok (Choices.ofList made).settings) ∧
    (∀ fields : Fields, fields.IsObject → fields.Hold made →
      Settings.ofText format (format.write fields) = .ok (Choices.ofList made).settings) ∧
    ∃ text, settings.toText? format = some text ∧ Settings.ofText format text = .ok settings := by
  have hchosen {fields : Fields} (h : fields.Hold made) :
      Settings.ofFields? fields = some (Choices.ofList made).settings :=
    Choices.ofFields?_of_hold hmade h
  refine ⟨fun fields => hchosen, fun text fields hread hfields =>
    Settings.ofText_of_fields hread (hchosen hfields), fun fields hobject hfields => ?_,
    Settings.exists_toText? hformat hsettings⟩
  obtain ⟨found, hread, hfound⟩ := hformat fields hobject
  exact Settings.ofText_of_fields hread (hchosen (hfound.hold hfields))

def repeatedChoices : List Choice :=
  [.validate true, .fileExtension "pids", .dataDir (.ofString "/opt/pids"), .validate false,
    .fileExtension "dat"]

/-- The last choices of `repeatedChoices`, and a key that is no setting. -/
def repeatedFields : Fields :=
  [("colour", .text "red"), ("validate", .flag false), ("file_extension", .text "dat"),
    ("data_dir", .text "/opt/pids")]

def repeatedSettings : Settings :=
  { validate := false, dataDir := some (.ofString "/opt/pids"), fileExtension := "dat" }

def repeatedToml : String :=
  "colour = \"red\"\nvalidate = false\nfile_extension = \"dat\"\ndata_dir = \"/opt/pids\"\n"

def repeatedJson : String :=
  "\x7b\"colour\":\"red\",\"validate\":false,\"file_extension\":\"dat\"," ++
    "\"data_dir\":\"/opt/pids\"\x7d"

def quotedSettings : Settings :=
  { validate := false, fileExtension := "a\"b", overridesFile := "o'v.proto" }

def quotedToml : String :=
  "validate = false\nfile_extension = 'a\"b'\noverrides_file = \"o'v.proto\"\n"

def quotedJson : String :=
  "\x7b\"validate\":false,\"data_dir\":null,\"file_extension\":\"a\\\"b\"," ++
    "\"overrides_file\":\"o'v.proto\"\x7d"

theorem settings_agree_in_every_form_quoted :
    (∀ directory, .dataDir directory ∈ repeatedChoices → directory.IsText) ∧
    (∀ directory ∈ quotedSettings.dataDir, directory.IsText) ∧
    repeatedFields.Hold repeatedChoices ∧
    Settings.ofFields? repeatedFields = some repeatedSettings ∧
    Settings.ofText Toml.format repeatedToml = .ok repeatedSettings ∧
    Settings.ofText FlatJson.format repeatedJson = .ok repeatedSettings ∧
    quotedSettings.toText? Toml.format = some quotedToml ∧
    Settings.ofText Toml.format quotedToml = .ok quotedSettings ∧
    quotedSettings.toText? FlatJson.format = some quotedJson ∧
    Settings.ofText FlatJson.format quotedJson = .ok quotedSettings := by
  have hmade : ∀ directory, .dataDir directory ∈ repeatedChoices → directory.IsText := by
    intro directory h
    obtain rfl : directory = .ofString "/opt/pids" := by simpa [repeatedChoices] using h
    exact ⟨_, Path.text?_ofString _⟩
  have hquoted : ∀ directory ∈ quotedSettings.dataDir, directory.IsText := nofun
  have hfields : repeatedFields.Hold repeatedChoices := by decide +kernel
  have hobject : repeatedFields.IsObject :=
    ⟨by decide +kernel, by decide +kernel, by decide +kernel⟩
  have htoml : quotedSettings.toText? Toml.format = some quotedToml := by decide +kernel
  have hjson : quotedSettings.toText? FlatJson.format = some quotedJson := by decide +kernel
  have hwrittenToml : Toml.format.write repeatedFields = repeatedToml := by decide +kernel
  have hwrittenJson : FlatJson.format.write repeatedFields = repeatedJson := by decide +kernel
  obtain ⟨hread, -, hfile, text, hwrite, hback⟩ := settings_agree_in_every_form Toml.format
    Toml.lossless repeatedChoices quotedSettings hmade hquoted
  obtain ⟨-, -, hfile', text', hwrite', hback'⟩ := settings_agree_in_every_form FlatJson.format
    FlatJson.lossless repeatedChoices quotedSettings hmade hquoted
  obtain rfl : quotedToml = text := Option.some.inj (htoml.symm.trans hwrite)
  obtain rfl : quotedJson = text' := Option.some.inj (hjson.symm.trans hwrite')
  exact ⟨hmade, hquoted, hfields, hread _ hfields, hwrittenToml ▸ hfile _ hobject hfields,
    hwrittenJson ▸ hfile' _ hobject hfields, hwrite, hback, hwrite', hback'⟩

end RdmRegistry
