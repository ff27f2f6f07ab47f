/-
Formats that lose nothing. What is read of a text that a format wrote holds the fields that were
written, except that a null may be left out, and that the order is the format's own
(`Fields.FoundAs`).

A field is looked for under its name, so this says what is read under each name: the same as in the
written fields, or nothing for a null (`Fields.FoundAs.only?_eq`, `Fields.FoundAs.only?_of_null`).
-/
import Mathlib.Data.List.Nodup
import RdmRegistry.Settings.Fields

namespace RdmRegistry

/-- A name of letters, digits, underscores and dashes, which formats spell as it is. -/
def IsPlainName (name : String) : Prop :=
  name.toList ≠ [] ∧ name.toList.all (fun c => c.isAlphanum || c == '_' || c == '-') = true

instance (name : String) : Decidable (IsPlainName name) :=
  inferInstanceAs (Decidable (_ ∧ _))

/-- The fields of an object: names that differ, and under each a null, a flag or a text. -/
structure Fields.IsObject (fields : Fields) : Prop where
  nodup : (fields.map Prod.fst).Nodup
  plain : ∀ field ∈ fields, IsPlainName field.1
  known : ∀ field ∈ fields, field.2 ≠ .other

/-- The fields that are found where others were written: each of these that is no null, and nothing
that is not one of them. -/
structure Fields.FoundAs (fields found : Fields) : Prop where
  nodup : (found.map Prod.fst).Nodup
  subset : found ⊆ fields
  kept : ∀ field ∈ fields, field.2 ≠ .null → field ∈ found

/-- Whatever object the format writes, it reads it again. -/
def Format.Lossless (format : Format) : Prop :=
  ∀ fields : Fields, fields.IsObject →
    ∃ found, format.read? (format.write fields) = some found ∧ fields.FoundAs found

namespace Fields

variable {fields found : Fields} {name : String} {field : Field}

/-! ## Fields under a name -/

theorem filter_eq_nil (h : name ∉ fields.map Prod.fst) : fields.filter (·.1 == name) = [] := by
  rw [List.filter_eq_nil_iff]
  intro entry hentry heq
  exact h (eq_of_beq heq ▸ List.mem_map_of_mem hentry)

theorem only?_of_not_mem (h : name ∉ fields.map Prod.fst) : fields.only? name = some none := by
  rw [only?, filter_eq_nil h]

theorem only?_of_mem (hnodup : (fields.map Prod.fst).Nodup) (h : (name, field) ∈ fields) :
    fields.only? name = some (some field) := by
  obtain ⟨before, after, rfl⟩ := List.append_of_mem h
  simp only [List.map_append, List.map_cons, List.nodup_middle, List.nodup_cons, List.mem_append,
    not_or] at hnodup
  obtain ⟨⟨hbefore, hafter⟩, -⟩ := hnodup
  have hfilter : (before ++ (name, field) :: after).filter (·.1 == name) = [(name, field)] := by
    rw [List.filter_append, filter_eq_nil hbefore, List.filter_cons_of_pos (by simp),
      filter_eq_nil hafter, List.nil_append]
  rw [only?, hfilter]

theorem mem_of_only? (h : fields.only? name = some (some field)) : (name, field) ∈ fields := by
  rw [only?] at h
  split at h
  · cases h
  · next key value hfilter =>
    have hmem : (key, value) ∈ fields.filter (·.1 == name) := by simp [hfilter]
    obtain ⟨hfound, hkey⟩ := List.mem_filter.mp hmem
    obtain rfl : value = field := Option.some.inj (Option.some.inj h)
    obtain rfl : key = name := eq_of_beq hkey
    exact hfound
  · cases h

theorem not_mem_of_only? (h : fields.only? name = some none) : name ∉ fields.map Prod.fst := by
  rw [only?] at h
  split at h
  · next hnone =>
    intro hmem
    obtain ⟨entry, hentry, rfl⟩ := List.mem_map.mp hmem
    exact List.filter_eq_nil_iff.mp hnone entry hentry (by simp)
  · cases h
  · cases h

/-! ## What is found of written fields -/

namespace FoundAs

theorem refl (h : fields.IsObject) : fields.FoundAs fields where
  nodup := h.nodup
  subset := List.Subset.refl _
  kept _ hmem _ := hmem

theorem only?_of_ne_null (h : fields.FoundAs found) (hfield : fields.only? name = some (some field))
    (hnull : field ≠ .null) : found.only? name = some (some field) :=
  only?_of_mem h.nodup (h.kept _ (mem_of_only? hfield) hnull)

theorem only?_of_none (h : fields.FoundAs found) (hnone : fields.only? name = some none) :
    found.only? name = some none :=
  only?_of_not_mem fun hmem => not_mem_of_only? hnone (List.map_subset _ h.subset hmem)

/-- A null is found as a null or not at all. -/
theorem only?_of_null (h : fields.FoundAs found) (hnodup : (fields.map Prod.fst).Nodup)
    (hnull : fields.only? name = some (some .null)) :
    found.only? name = some (some .null) ∨ found.only? name = some none := by
  by_cases hmem : name ∈ found.map Prod.fst
  · obtain ⟨entry, hentry, rfl⟩ := List.mem_map.mp hmem
    have hsame := only?_of_mem hnodup (h.subset hentry)
    rw [hnull] at hsame
    refine .inl ?_
    rw [only?_of_mem h.nodup hentry, hsame]
  · exact .inr (only?_of_not_mem hmem)

end FoundAs

end Fields

end RdmRegistry
