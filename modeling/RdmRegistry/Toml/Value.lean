/-
Values of TOML documents.
-/

namespace RdmRegistry.Toml

/-- How a table came to be, which decides what may still be added to it. -/
inductive Making where
  /-- Written between braces: complete as it stands. -/
  | inline
  /-- Named in the header of a table below it; a header of its own may follow. -/
  | implied
  /-- Named in a dotted key; more dotted keys may follow. -/
  | dotted
  /-- Opened by a header of its own. -/
  | header
  deriving DecidableEq

/-- A value. Floats and moments are kept as they are written. -/
inductive Value where
  | string (text : String)
  | integer (number : Int)
  | float (text : String)
  | boolean (value : Bool)
  | moment (text : String)
  | array (items : List Value)
  | table (making : Making) (entries : List (String × Value))
  /-- The tables opened by headers in double brackets, in order. -/
  | tables (items : List Value)

/-- The content of a table: values under keys, at most one under each. -/
abbrev Entries := List (String × Value)

end RdmRegistry.Toml
