/-
Adding to tables. A key never gets a second value, and a table that is complete gets no more keys:
one in braces at once, one with a header when dotted keys try to reach into it.
-/
import RdmRegistry.Toml.Value

namespace RdmRegistry.Toml.Entries

/-- The entries with another value under a key. -/
def replace (entries : Entries) (key : String) (value : Value) : Entries :=
  entries.map fun (k, v) => if k == key then (k, value) else (k, v)

/-- Adds a value under a key that is free. -/
def addNew (key : String) (value : Value) (entries : Entries) : Option Entries :=
  if (entries.lookup key).isSome then none else some (entries ++ [(key, value)])

/-- Adds a value under a dotted key: the tables on the path and the last key. Tables are made on
the way, and the last table of the path has to be one that dotted keys made. -/
def addDotted (path : List String) (key : String) (value : Value) (entries : Entries) :
    Option Entries :=
  match path with
  | [] => addNew key value entries
  | name :: path =>
    match entries.lookup name with
    | none => do
      let inner ← addDotted path key value []
      return entries ++ [(name, .table .dotted inner)]
    | some (.table .dotted inner) => do
      let inner ← addDotted path key value inner
      return replace entries name (.table .dotted inner)
    | some (.table .implied inner) =>
      if path.isEmpty then none
      else do
        let inner ← addDotted path key value inner
        return replace entries name (.table .implied inner)
    | some (.tables items) =>
      match path.isEmpty, items.reverse with
      | false, .table .header inner :: before => do
        let inner ← addDotted path key value inner
        return replace entries name (.tables (before.reverse ++ [.table .header inner]))
      | _, _ => none
    | some _ => none

/-- Changes the table that a path leads to; of several tables under one key the last is meant.
Missing tables on the way are implied. -/
def change (path : List String) (f : Entries → Option Entries) (entries : Entries) :
    Option Entries :=
  match path with
  | [] => f entries
  | name :: path =>
    match entries.lookup name with
    | none => do
      let inner ← change path f []
      return entries ++ [(name, .table .implied inner)]
    | some (.table making inner) =>
      if making = .inline then none
      else do
        let inner ← change path f inner
        return replace entries name (.table making inner)
    | some (.tables items) =>
      match items.reverse with
      | .table making inner :: before => do
        let inner ← change path f inner
        return replace entries name (.tables (before.reverse ++ [.table making inner]))
      | _ => none
    | some _ => none

/-- Opens a table under a key: a new one, or one that was only implied. -/
def openTable (key : String) (entries : Entries) : Option Entries :=
  match entries.lookup key with
  | none => some (entries ++ [(key, .table .header [])])
  | some (.table .implied inner) => some (replace entries key (.table .header inner))
  | some _ => none

/-- Opens one more of the tables under a key. -/
def openNext (key : String) (entries : Entries) : Option Entries :=
  match entries.lookup key with
  | none => some (entries ++ [(key, .tables [.table .header []])])
  | some (.tables items) => some (replace entries key (.tables (items ++ [.table .header []])))
  | some _ => none

end RdmRegistry.Toml.Entries
