/-
The order of names. It is the order of their bytes in UTF-8, from the first byte on (`BytesBefore`),
so a name stands before those that go on after it; names that are equal in it are the same.

`Parameter.nameOrderLaws` puts the laws together. Listings by name are sorted in one way only because
of them.
-/
import RdmRegistry.Parameter

namespace RdmRegistry

/-! ## The order of bytes -/

/-- Bytes stand before others that begin with them, and otherwise before those that have the higher
byte where the two first differ. -/
inductive BytesBefore : List UInt8 → List UInt8 → Prop
  | beginning (shared : List UInt8) (y : UInt8) (ys : List UInt8) :
    BytesBefore shared (shared ++ y :: ys)
  | lower (shared : List UInt8) {x y : UInt8} (xs ys : List UInt8) (h : x < y) :
    BytesBefore (shared ++ x :: xs) (shared ++ y :: ys)

theorem BytesBefore.cons {a b : List UInt8} (h : BytesBefore a b) (x : UInt8) :
    BytesBefore (x :: a) (x :: b) := by
  cases h with
  | beginning _ y ys => exact .beginning (x :: a) y ys
  | lower shared ys zs h => exact .lower (x :: shared) ys zs h

/-- What two texts begin with alike does not count. -/
theorem compare_append_append (shared a b : List UInt8) :
    compare (shared ++ a) (shared ++ b) = compare a b := by
  induction shared with
  | nil => rfl
  | cons x rest ih =>
    have hx : compare x x = .eq := Std.ReflCmp.compare_self
    rw [List.cons_append, List.cons_append, List.compare_cons_cons, hx, ih]
    rfl

theorem compare_bytes_eq_lt_iff {a b : List UInt8} : compare a b = .lt ↔ BytesBefore a b := by
  constructor
  · intro h
    induction a generalizing b with
    | nil =>
      cases b with
      | nil => cases h
      | cons y ys => exact .beginning [] y ys
    | cons x xs ih =>
      cases b with
      | nil => cases h
      | cons y ys =>
        rw [List.compare_cons_cons, Ordering.then_eq_lt] at h
        rcases h with hlower | ⟨hsame, hrest⟩
        · exact .lower [] xs ys (Std.compare_eq_lt.mp hlower)
        · obtain rfl := Std.LawfulEqCmp.eq_of_compare hsame
          exact (ih hrest).cons x
  · intro h
    cases h with
    | beginning _ y ys =>
      have hrest := compare_append_append a [] (y :: ys)
      rwa [List.append_nil, List.compare_nil_cons] at hrest
    | lower shared xs ys hlower =>
      rw [compare_append_append, List.compare_cons_cons, Std.compare_eq_lt.mpr hlower]
      rfl

/-! ## The order of names -/

namespace Parameter

theorem compareNames_eq_iff {a b : String} : compareNames a b = .eq ↔ a = b := by
  rw [compareNames, Std.LawfulEqCmp.compare_eq_iff_eq, Text.Utf8.encode_inj]

theorem compareNames_swap (a b : String) : compareNames b a = (compareNames a b).swap := by
  unfold compareNames
  exact Std.OrientedCmp.eq_swap

theorem compareNames_total (a b : String) :
    ((compareNames a b).isLE || (compareNames b a).isLE) = true := by
  rw [compareNames_swap a b]
  cases compareNames a b <;> rfl

theorem compareNames_trans (a b c : String) :
    (compareNames a b).isLE = true → (compareNames b c).isLE = true →
      (compareNames a c).isLE = true := by
  unfold compareNames
  exact Std.TransCmp.isLE_trans

theorem compareNames_eq_lt {a b : String} (h : (compareNames a b).isLE = true)
    (hne : a ≠ b) : compareNames a b = .lt := by
  cases hab : compareNames a b with
  | lt => rfl
  | eq => exact absurd (compareNames_eq_iff.mp hab) hne
  | gt =>
    rw [hab] at h
    cases h

theorem compareNames_asymm {a b : String} (h : compareNames a b = .lt) : compareNames b a ≠ .lt := by
  rw [compareNames_swap a b, h]
  nofun

theorem compareNames_antisymm {a b : String} (h : (compareNames a b).isLE = true)
    (h' : (compareNames b a).isLE = true) : a = b := by
  cases hab : compareNames a b with
  | eq => exact compareNames_eq_iff.mp hab
  | lt =>
    rw [compareNames_swap a b, hab] at h'
    cases h'
  | gt =>
    rw [hab] at h
    cases h

theorem compareNames_eq_lt_iff {a b : String} :
    compareNames a b = .lt ↔ BytesBefore (Text.Utf8.encode a) (Text.Utf8.encode b) := by
  rw [compareNames, compare_bytes_eq_lt_iff]

/-- A name stands before those that it begins. -/
theorem compareNames_append (a : String) {b : String} (h : b ≠ "") : compareNames a (a ++ b) = .lt := by
  rw [compareNames_eq_lt_iff, Text.Utf8.encode_append]
  obtain ⟨y, ys, hb⟩ := List.exists_cons_of_ne_nil (Text.Utf8.encode_ne_nil h)
  rw [hb]
  exact .beginning _ y ys

/-- Names are in a total order, in which names that are equal are the same. Of two names, one that is
the beginning of the other comes first, and otherwise the one with the lower byte in UTF-8 where they
first differ. -/
structure NameOrderLaws : Prop where
  equal : ∀ a b, compareNames a b = .eq ↔ a = b
  swap : ∀ a b, compareNames b a = (compareNames a b).swap
  antisymm : ∀ a b, (compareNames a b).isLE = true → (compareNames b a).isLE = true → a = b
  trans : ∀ a b c, (compareNames a b).isLE = true → (compareNames b c).isLE = true →
    (compareNames a c).isLE = true
  beginning : ∀ a b, b ≠ "" → compareNames a (a ++ b) = .lt
  bytes : ∀ a b, compareNames a b = .lt ↔
    BytesBefore (a.toList.flatMap String.utf8EncodeChar) (b.toList.flatMap String.utf8EncodeChar)

theorem nameOrderLaws : NameOrderLaws where
  equal _ _ := compareNames_eq_iff
  swap := compareNames_swap
  antisymm _ _ := compareNames_antisymm
  trans := compareNames_trans
  beginning a _ h := compareNames_append a h
  bytes a b := by
    rw [compareNames_eq_lt_iff, Text.Utf8.encode_eq_flatMap, Text.Utf8.encode_eq_flatMap]

end Parameter

end RdmRegistry
