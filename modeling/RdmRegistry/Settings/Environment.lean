/-
Settings from environment variables. One names the directory; the other turns validation off by
one of four words, in any letter case and with white space around it.
-/
import RdmRegistry.Settings
import RdmRegistry.Text.Blank

namespace RdmRegistry.Settings

/-- The variable that names the directory of data files. -/
def dataDirVariable : String := "RDM_PID_DATA_DIR"

/-- The variable that turns validation off. -/
def validateVariable : String := "RDM_PID_VALIDATE"

/-- The words that turn validation off. -/
def refusals : List String :=
  ["0", "false", "no", "off"]

/-- The value turns validation off. -/
def isRefusal (value : String) : Bool :=
  refusals.contains (String.ofList ((Text.trim value.toList).map Char.toLower))

/-- The settings that the variables give. An empty directory counts as none, and any value but a
refusal leaves validation on. -/
def ofEnvironment (lookup : String → Option String) : Settings :=
  let directory := (lookup dataDirVariable).filter fun text => !text.isEmpty
  { dataDir := directory.map Path.ofString
    validate := !((lookup validateVariable).any isRefusal) }

end RdmRegistry.Settings
