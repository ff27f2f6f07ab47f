/-
Settings of the loader: whether to validate, where the data files are, and which names they have.

`Settings.check` accepts an extension without a leading dot and an overrides file that is a plain
name. `Choices` holds the settings made so far one by one; what is left out is as in the settings
`{}`. Data formats have defaults of their own for what they leave out.
-/
import RdmRegistry.Path

namespace RdmRegistry

/-- Where data files are installed. -/
def installedLocation : String := "/usr/share/ola/pids"

namespace Settings

/-! ## Defaults of data formats, one for each field but the directory -/

def defaultTrue : Bool := true

def defaultFileExtension : String := "proto"

def defaultOverridesFile : String := "overrides.proto"

end Settings

/-- How a directory of data files is loaded. -/
structure Settings where
  validate : Bool := true
  /-- The directory, or none for the installed one. -/
  dataDir : Option Path := none
  /-- The extension of data files, without the dot. -/
  fileExtension : String := Settings.defaultFileExtension
  /-- The name of the file that is applied last and replaces parameters. -/
  overridesFile : String := Settings.defaultOverridesFile
  deriving DecidableEq

/-- What is wrong with settings. -/
inductive SettingsFault where
  | fileExtension (text : String)
  | overridesFile (text : String)
  /-- The settings file is not a table of settings. -/
  | malformed
  /-- A fault found by the caller, in the caller's words. -/
  | reported (text : String)
  deriving DecidableEq

def SettingsFault.message : SettingsFault → String
  | fileExtension text =>
    "file_extension must be non-empty and without a leading dot: " ++ Text.quoted text
  | overridesFile text => "overrides_file must be a plain file name: " ++ Text.quoted text
  | malformed => "not a table of settings"
  | reported text => text

namespace Settings

/-- The directory to load. -/
def location (settings : Settings) : Path :=
  settings.dataDir.getD (.ofString installedLocation)

/-- Whether the names can be looked for; the extension is judged first. -/
def check (settings : Settings) : Except SettingsFault Unit :=
  if settings.fileExtension.isEmpty || settings.fileExtension.toList.head? == some '.' then
    .error (.fileExtension settings.fileExtension)
  else if settings.overridesFile.isEmpty ||
      settings.overridesFile.toList.any (fun c => c == '/' || c == '\\') then
    .error (.overridesFile settings.overridesFile)
  else .ok ()

def outline (settings : Settings) : Text.Outline :=
  .record "LoaderConfig"
    [("validate", .ofBool settings.validate),
      ("data_dir", .ofOption (settings.dataDir.map Path.outline)),
      ("file_extension", .atom (Text.quoted settings.fileExtension)),
      ("overrides_file", .atom (Text.quoted settings.overridesFile))]

end Settings

/-- One setting that is made. -/
inductive Choice where
  | validate (validate : Bool)
  | dataDir (directory : Path)
  | fileExtension (text : String)
  | overridesFile (text : String)
  deriving DecidableEq

/-- The settings made so far. -/
structure Choices where
  validate : Option Bool := none
  dataDir : Option Path := none
  fileExtension : Option String := none
  overridesFile : Option String := none
  deriving DecidableEq

namespace Choices

/-- Makes one more setting; the last one of a kind counts. -/
def choose (choices : Choices) : Choice → Choices
  | .validate b => { choices with validate := some b }
  | .dataDir directory => { choices with dataDir := some directory }
  | .fileExtension text => { choices with fileExtension := some text }
  | .overridesFile text => { choices with overridesFile := some text }

def ofList (made : List Choice) : Choices :=
  made.foldl choose {}

/-- The settings, with those of `{}` in place of each one that was not made. -/
def settings (choices : Choices) : Settings :=
  let default : Settings := {}
  { validate := choices.validate.getD default.validate
    dataDir := choices.dataDir.or default.dataDir
    fileExtension := choices.fileExtension.getD default.fileExtension
    overridesFile := choices.overridesFile.getD default.overridesFile }

def outline (choices : Choices) : Text.Outline :=
  .record "LoaderConfigBuilder"
    [("validate", .ofOption (choices.validate.map .ofBool)),
      ("data_dir", .ofOption (choices.dataDir.map Path.outline)),
      ("file_extension",
        .ofOption (choices.fileExtension.map fun text => .atom (Text.quoted text))),
      ("overrides_file",
        .ofOption (choices.overridesFile.map fun text => .atom (Text.quoted text)))]

end Choices

end RdmRegistry
