/-
Paths of files. A path is any bytes; a file name that is text has an extension after its last dot.
-/
import RdmRegistry.Text.Outline
import RdmRegistry.Text.Quoted

namespace RdmRegistry

/-- A path, as the file system sees it. -/
structure Path where
  bytes : List UInt8
  deriving DecidableEq

namespace Path

def ofString (s : String) : Path :=
  ⟨Text.Utf8.encode s⟩

/-- The text that spells the path, if there is one. -/
def text? (path : Path) : Option String :=
  Text.Utf8.decode? path.bytes

/-- The path for messages, with replacement characters where it is not text. -/
def display (path : Path) : String :=
  path.text?.getD (Text.Utf8.lossy path.bytes)

def outline (path : Path) : Text.Outline :=
  .atom (Text.quotedBytes path.bytes)

/-- The byte between the names of a path. -/
def separator : UInt8 := 0x2F

/-- The path of a name inside a directory. A separator goes between the two unless the directory
is empty or ends with one. -/
def join (directory : Path) (name : Path) : Path :=
  if directory.bytes = [] ∨ directory.bytes.getLast? = some separator then
    ⟨directory.bytes ++ name.bytes⟩
  else ⟨directory.bytes ++ separator :: name.bytes⟩

theorem text?_ofString (s : String) : (ofString s).text? = some s :=
  Text.Utf8.decode?_encode s

theorem text?_eq_some_iff {path : Path} {s : String} :
    path.text? = some s ↔ path = ofString s := by
  rw [text?, Text.Utf8.decode?_eq_some_iff]
  exact ⟨fun h => congrArg Path.mk h, fun h => congrArg Path.bytes h⟩

theorem display_ofString (s : String) : (ofString s).display = s := by
  simp [display, text?_ofString]

theorem ofString_inj {s t : String} : ofString s = ofString t ↔ s = t := by
  simp [ofString, Text.Utf8.encode_inj]

end Path

/-- The extension of a file name: what follows the last dot, unless that dot comes first. -/
def fileExtension? (name : String) : Option String :=
  let reversed := name.toList.reverse
  if 1 < (reversed.dropWhile (· ≠ '.')).length then
    some (String.ofList (reversed.takeWhile (· ≠ '.')).reverse)
  else none

end RdmRegistry
