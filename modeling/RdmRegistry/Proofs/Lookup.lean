/-
What look-ups answer. The index of a catalog has the first position of every value and of every
name (`Index.Locates`), so a look-up is a search of the list (`Catalog.findValue?_of_ofList`,
`Catalog.findName?_of_ofList`). In a list without collisions it finds the one parameter that has
the value or the name.
-/
import RdmRegistry.Proofs.Distinct

namespace RdmRegistry

variable {φ : Type}

/-! ## The index -/

/-- The map has the first position of every key of the list. -/
def Positions {κ : Type} [Ord κ] [DecidableEq κ] (map : Std.TreeMap κ Nat)
    (key : Parameter φ → κ) (parameters : List (Parameter φ)) : Prop :=
  ∀ k, map[k]? = parameters.findIdx? (key · == k)

/-- A new key gets the position at the end of the list, behind everything that was found before. -/
theorem Positions.insert {κ : Type} [Ord κ] [DecidableEq κ] [Std.TransOrd κ] [Std.LawfulEqOrd κ]
    {map : Std.TreeMap κ Nat} {key : Parameter φ → κ} {seen : List (Parameter φ)}
    {p : Parameter φ} (h : Positions map key seen) (hnew : ¬ map.contains (key p) = true) :
    Positions (map.insert (key p) seen.length) key (seen ++ [p]) := by
  have hnone : map[key p]? = none := by simpa using hnew
  intro k
  rw [Std.TreeMap.getElem?_insert, List.findIdx?_append, ← h k, List.findIdx?_singleton]
  by_cases hk : key p = k
  · subst hk
    simp [hnone]
  · simp [hk]

/-- The index has the first position of every value and of every name of the list. -/
structure Index.Locates (index : Index) (parameters : List (Parameter φ)) : Prop where
  value : Positions index.byValue Parameter.value parameters
  name : Positions index.byName Parameter.name parameters

theorem Index.Locates.empty : ({} : Index).Locates ([] : List (Parameter φ)) :=
  ⟨fun v => by simp, fun n => by simp⟩

theorem Index.Locates.enter {index next : Index} {seen : List (Parameter φ)} {p : Parameter φ}
    (h : index.Locates seen) (he : index.enter p seen.length = .ok next) :
    next.Locates (seen ++ [p]) := by
  rw [Index.enter] at he
  split at he
  · cases he
  next hv =>
  split at he
  · cases he
  next hn =>
  cases he
  exact ⟨h.value.insert hv, h.name.insert hn⟩

theorem Index.Locates.foldlM_enter {index full : Index} {seen parameters : List (Parameter φ)}
    (h : index.Locates seen)
    (hf : (parameters.zipIdx seen.length).foldlM
      (fun index (p, position) => index.enter p position) index = .ok full) :
    full.Locates (seen ++ parameters) := by
  -- On what is still to be entered: its positions begin where the list entered so far ends.
  induction parameters generalizing index seen with
  | nil =>
    cases hf
    rwa [List.append_nil]
  | cons p rest ih =>
    simp only [List.zipIdx_cons, List.foldlM_cons] at hf
    cases he : index.enter p seen.length with
    | error clash =>
      rw [he] at hf
      cases hf
    | ok next =>
      rw [he] at hf
      have hr := ih (h.enter he) (by rwa [List.length_append, List.length_singleton])
      rwa [List.append_assoc, List.singleton_append] at hr

/-! ## Catalogs -/

namespace Catalog

variable {parameters : List (Parameter φ)} {catalog : Catalog φ}

theorem locates_of_ofList (h : ofList parameters = .ok catalog) :
    catalog.index.Locates catalog.parameters := by
  rw [ofList] at h
  cases hi : Index.ofList parameters with
  | error clash =>
    rw [hi] at h
    cases h
  | ok index =>
    rw [hi] at h
    cases h
    exact Index.Locates.empty.foldlM_enter hi

/-- Looking up a value is searching the list for it. -/
theorem findValue?_of_ofList (h : ofList parameters = .ok catalog) (v : UInt16) :
    catalog.findValue? v = parameters.find? (·.value == v) := by
  rw [findValue?, (locates_of_ofList h).value, parameters_of_ofList h,
    List.find?_eq_bind_findIdx?_getElem?]

/-- Looking up a name is searching the list for it. -/
theorem findName?_of_ofList (h : ofList parameters = .ok catalog) (n : String) :
    catalog.findName? n = parameters.find? (·.name == n) := by
  rw [findName?, (locates_of_ofList h).name, parameters_of_ofList h,
    List.find?_eq_bind_findIdx?_getElem?]

end Catalog

/-! ## Lists without collisions -/

/-- A search by a property that colliding parameters alone share finds the one that has it. -/
theorem Distinct.find?_eq_some_iff {parameters : List (Parameter φ)} (h : Distinct parameters)
    {has : Parameter φ → Bool}
    (hshared : ∀ p q, has p = true → has q = true → p.collides q = true) {p : Parameter φ} :
    parameters.find? has = some p ↔ p ∈ parameters ∧ has p = true := by
  refine ⟨fun hf => ⟨List.mem_of_find?_eq_some hf, List.find?_some hf⟩, ?_⟩
  rintro ⟨hm, hp⟩
  induction parameters with
  | nil => cases hm
  | cons q rest ih =>
    obtain ⟨hq, hr⟩ := distinct_cons.mp h
    rcases List.mem_cons.mp hm with rfl | hm
    · exact List.find?_cons_of_pos hp
    · have hnot : ¬ has q = true := by
        intro hhas
        have hc := hq p hm
        rw [hshared q p hhas hp] at hc
        cases hc
      rw [List.find?_cons_of_neg hnot]
      exact ih hr hm

namespace Catalog

variable {parameters : List (Parameter φ)} {catalog : Catalog φ}

theorem findValue?_eq_some_iff (h : ofList parameters = .ok catalog) {v : UInt16}
    {p : Parameter φ} : catalog.findValue? v = some p ↔ p ∈ parameters ∧ p.value = v := by
  have hd : Distinct parameters := exists_ofList_iff.mp ⟨catalog, h⟩
  rw [findValue?_of_ofList h, hd.find?_eq_some_iff, beq_iff_eq]
  intro p q hp hq
  rw [beq_iff_eq] at hp hq
  exact Parameter.collides_iff.mpr (.inl (hp.trans hq.symm))

theorem findName?_eq_some_iff (h : ofList parameters = .ok catalog) {n : String}
    {p : Parameter φ} : catalog.findName? n = some p ↔ p ∈ parameters ∧ p.name = n := by
  have hd : Distinct parameters := exists_ofList_iff.mp ⟨catalog, h⟩
  rw [findName?_of_ofList h, hd.find?_eq_some_iff, beq_iff_eq]
  intro p q hp hq
  rw [beq_iff_eq] at hp hq
  exact Parameter.collides_iff.mpr (.inr (hp.trans hq.symm))

end Catalog

end RdmRegistry
