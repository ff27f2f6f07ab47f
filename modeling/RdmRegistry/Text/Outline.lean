/-
Debug listings: a value as a tree of named records, tuples and lists, written on one line or
indented over several.
-/

namespace RdmRegistry.Text

/-- The shape of a value in a debug listing. -/
inductive Outline where
  /-- Text that is shown as it is. -/
  | atom (text : String)
  /-- A name and unnamed parts in parentheses. -/
  | tuple (name : String) (parts : List Outline)
  /-- A name and named parts in braces. -/
  | record (name : String) (parts : List (String × Outline))
  /-- Items in brackets. -/
  | list (items : List Outline)

namespace Outline

def ofBool (b : Bool) : Outline :=
  .atom (if b then "true" else "false")

def ofNat (n : Nat) : Outline :=
  .atom (toString n)

def ofOption : Option Outline → Outline
  | none => .atom "None"
  | some part => .tuple "Some" [part]

mutual

def compact : Outline → String
  | .atom text => text
  | .tuple name parts => name ++ "(" ++ ", ".intercalate (compactItems parts) ++ ")"
  | .record name parts => name ++ " \x7b " ++ ", ".intercalate (compactParts parts) ++ " \x7d"
  | .list items => "[" ++ ", ".intercalate (compactItems items) ++ "]"

/-- The items of a list, each on one line. -/
def compactItems : List Outline → List String
  | [] => []
  | item :: rest => item.compact :: compactItems rest

/-- The parts of a record, each on one line after its name. -/
def compactParts : List (String × Outline) → List String
  | [] => []
  | (name, part) :: rest => (name ++ ": " ++ part.compact) :: compactParts rest

end

/-- What stands before each line at a depth: four blanks a level. -/
def margin (depth : Nat) : String :=
  String.ofList (List.replicate (4 * depth) ' ')

mutual

/-- The listing over several lines, each part on a line of its own with a comma after it. -/
def indented (depth : Nat) : Outline → String
  | .atom text => text
  | .tuple name [] => name ++ "()"
  | .tuple name parts => name ++ "(\n" ++ indentedItems (depth + 1) parts ++ margin depth ++ ")"
  | .record name parts =>
    name ++ " \x7b\n" ++ indentedParts (depth + 1) parts ++ margin depth ++ "\x7d"
  | .list [] => "[]"
  | .list items => "[\n" ++ indentedItems (depth + 1) items ++ margin depth ++ "]"

/-- The items of a list as lines. -/
def indentedItems (depth : Nat) : List Outline → String
  | [] => ""
  | item :: rest => margin depth ++ item.indented depth ++ ",\n" ++ indentedItems depth rest

/-- The parts of a record as lines. -/
def indentedParts (depth : Nat) : List (String × Outline) → String
  | [] => ""
  | (name, part) :: rest =>
    margin depth ++ name ++ ": " ++ part.indented depth ++ ",\n" ++ indentedParts depth rest

end

/-- The listing on one line, or over several when it is to be easy to read. -/
def render (pretty : Bool) (outline : Outline) : String :=
  if pretty then outline.indented 0 else outline.compact

end Outline

end RdmRegistry.Text
