/-
TOML documents: lines that open tables and lines that give keys values.

`Document.parse?` reads a whole text. Values nest, and keys have parts, up to fixed limits.
-/
import RdmRegistry.Toml.Scalar
import RdmRegistry.Toml.Table

namespace RdmRegistry.Toml

open Scan

/-- The number of values that may stand inside one another, and of the parts of a key, is below
this. -/
def nestingLimit : Nat := 80

/-- One part of a key, bare or quoted. -/
def keyPart : Scan String := do
  blanks
  let part ← lineString <|> do
    let first ← one isBare
    let others ← span isBare
    return String.ofList (first :: others)
  blanks
  return part
where
  /-- The characters of bare keys. -/
  isBare (c : Char) : Bool :=
    c.isAlphanum || c == '_' || c == '-'

/-- A key: the tables on its path, and its last part. -/
def key : Scan (List String × String) := do
  let parts ← separated keyPart (char '.')
  require (parts.length < nestingLimit)
  match parts.reverse with
  | last :: path => return (path.reverse, last)
  | [] => failure

/-- A key and its value on the same line. -/
def assignment (value : Scan Value) : Scan ((List String × String) × Value) := do
  let name ← key
  char '='
  blanks
  return (name, ← value)

/-- An array of values, which may go over several lines and end with a comma. -/
def array (value : Scan Value) : Scan Value := do
  char '['
  let items ← optional (do
    let items ← separated (do
      gaps
      let item ← value
      gaps
      return item) (char ',')
    let _ ← optional (char ',')
    return items)
  gaps
  char ']'
  return .array (items.getD [])

/-- A table in braces on one line. -/
def inlineTable (value : Scan Value) : Scan Value := do
  char '\x7b'
  blanks
  let pairs ← optional (separated (do
    let pair ← assignment value
    blanks
    return pair) (char ','))
  char '\x7d'
  let add (entries : Entries) (pair : (List String × String) × Value) : Scan Entries :=
    StateT.lift (entries.addDotted pair.1.1 pair.1.2 pair.2)
  return .table .inline (← (pairs.getD []).foldlM add [])

/-- A value in which so many others may stand inside one another. -/
def value : Nat → Scan Value
  | 0 => scalar
  | depth + 1 => array (value depth) <|> inlineTable (value depth) <|> scalar

/-- What a line says. -/
inductive Line where
  | blank
  | entry (path : List String) (key : String) (value : Value)
  | table (path : List String) (key : String)
  | nextTable (path : List String) (key : String)

/-- A line that only holds a comment, or nothing. -/
def blankLine : Scan Line := do
  (do
    comment
    newline <|> done) <|> newline
  return .blank

/-- A line that opens a table. -/
def headerLine : Scan Line :=
  (do
    word ['[', '[']
    let (path, last) ← key
    word [']', ']']
    lineEnd
    return .nextTable path last) <|> do
    char '['
    let (path, last) ← key
    char ']'
    lineEnd
    return .table path last

/-- A line that gives a key a value. -/
def entryLine : Scan Line := do
  let ((path, last), value) ← assignment (value (nestingLimit - 1))
  lineEnd
  return .entry path last value

/-- The lines of a document, which may begin with a byte order mark. -/
def lines : Scan (List Line) := do
  let _ ← optional (char '\uFEFF')
  blanks
  let found ← many (do
    let line ← blankLine <|> headerLine <|> entryLine
    blanks
    return line)
  done
  return found

/-- A document as far as it is read: its content, and the table that entries go to. -/
structure Document where
  content : Entries := []
  current : List String := []

namespace Document

/-- The document with one more line. -/
def addLine (document : Document) : Line → Option Document
  | .blank => some document
  | .entry path key value => do
    let content ← document.content.change document.current (·.addDotted path key value)
    return { document with content }
  | .table path key => do
    let content ← document.content.change path (·.openTable key)
    return { content, current := path ++ [key] }
  | .nextTable path key => do
    let content ← document.content.change path (·.openNext key)
    return { content, current := path ++ [key] }

/-- The content of a text, if it is a document. -/
def parse? (text : String) : Option Entries := do
  let (found, _) ← lines text.toList
  let document ← found.foldlM addLine {}
  return document.content

end Document

end RdmRegistry.Toml
