/-
What a directory holds, and which of its files are loaded: those with the extension of data files,
in the order of their names, and the overrides file. Only files count, and only names that are text.

A directory that cannot be opened, or that fails while its entries come, gives none of them.
-/
import RdmRegistry.Failure
import RdmRegistry.Parameter

namespace RdmRegistry

/-- A name in a directory, and whether it leads to a file when links are followed. -/
structure Entry where
  name : List UInt8
  isFile : Bool
  deriving DecidableEq

namespace Entry

/-- The name of a file, if it is text. -/
def fileName? (entry : Entry) : Option String :=
  if entry.isFile then Text.Utf8.decode? entry.name else none

/-- The name of the entry if it is the overrides file. -/
def overrides? (settings : Settings) (entry : Entry) : Option String :=
  entry.fileName?.filter (· == settings.overridesFile)

/-- The name of the entry if it is a data file. -/
def data? (settings : Settings) (entry : Entry) : Option String :=
  entry.fileName?.filter fun name =>
    name != settings.overridesFile && fileExtension? name == some settings.fileExtension

end Entry

/-- What comes of listing the directory at a path. -/
inductive Listing where
  /-- No directory is there. -/
  | absent
  /-- The directory cannot be opened. -/
  | closed (obstacle : Obstacle)
  /-- The entries come one after another, and each may fail to come. -/
  | delivered (items : List (Except Obstacle Entry))

namespace Listing

/-- A listing of which all entries come. -/
def complete (entries : List Entry) : Listing :=
  .delivered (entries.map .ok)

/-- The entries of a listing of the directory, if all of them come; else its first failure. -/
def entries (directory : Path) : Listing → Except Failure (List Entry)
  | absent => .error (.notADirectory directory)
  | closed obstacle => .error (.unreadable directory obstacle)
  | delivered items => (items.mapM id).mapError (.unreadable directory)

theorem entries_delivered_cons (directory : Path) (entry : Entry)
    (items : List (Except Obstacle Entry)) :
    (delivered (.ok entry :: items)).entries directory =
      (entry :: ·) <$> (delivered items).entries directory := by
  simp only [entries, List.mapM_cons, id]
  cases items.mapM id <;> rfl

/-- The first entry that fails to come is what is told of the directory. -/
theorem entries_of_failing (directory : Path) (before : List Entry) (obstacle : Obstacle)
    (after : List (Except Obstacle Entry)) :
    (delivered (before.map .ok ++ .error obstacle :: after)).entries directory =
      .error (.unreadable directory obstacle) := by
  induction before with
  | nil => rfl
  | cons entry before ih => rw [List.map_cons, List.cons_append, entries_delivered_cons, ih]; rfl

theorem entries_complete (directory : Path) (entries : List Entry) :
    (complete entries).entries directory = .ok entries := by
  induction entries with
  | nil => rfl
  | cons entry rest ih => rw [complete, List.map_cons, entries_delivered_cons, ← complete, ih]; rfl

/-- There are entries only of a complete listing. -/
theorem entries_eq_ok_iff {listing : Listing} {directory : Path} {found : List Entry} :
    listing.entries directory = .ok found ↔ listing = complete found := by
  constructor
  · intro h
    cases listing with
    | absent | closed => nomatch h
    | delivered items =>
      induction items generalizing found with
      | nil =>
        cases h
        rfl
      | cons item items ih =>
        cases item with
        | error obstacle => nomatch h
        | ok entry =>
          rw [entries_delivered_cons] at h
          cases hrest : (delivered items).entries directory with
          | error failure =>
            rw [hrest] at h
            nomatch h
          | ok rest =>
            rw [hrest] at h
            cases h
            obtain rfl : items = rest.map .ok := Listing.delivered.inj (ih hrest)
            rfl
  · rintro rfl
    exact entries_complete directory found

theorem complete_inj {entries found : List Entry} (h : complete entries = complete found) :
    entries = found := by
  have hentries := entries_complete ⟨[]⟩ entries
  rw [h, entries_complete] at hentries
  exact (Except.ok.inj hentries).symm

end Listing

/-- The files of a directory that are loaded, by name. -/
structure Selection where
  data : List String
  overrides : Option String
  deriving DecidableEq

/-- The files that the settings select. -/
def Selection.ofEntries (settings : Settings) (entries : List Entry) : Selection :=
  { data := (entries.filterMap (·.data? settings)).mergeSort fun a b =>
      (Parameter.compareNames a b).isLE
    overrides := entries.findSome? (·.overrides? settings) }

end RdmRegistry
