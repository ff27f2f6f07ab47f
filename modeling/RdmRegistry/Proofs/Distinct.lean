/-
Lists without collisions. `Distinct` says it of a list; `Clash.first?_eq_none_iff` and
`Catalog.exists_ofList_iff` say that both ways of looking for repeats, the one that only looks and
the one that builds an index, accept exactly such lists. In all others they find the first clash
(`Clash.isFirst_of_first?`).

The two searches are compared through `Index.Covers`: the keys of the index are the values and the
names of the parameters already seen.
-/
import RdmRegistry.Catalog

namespace RdmRegistry

variable {φ : Type}

theorem Parameter.collides_comm (p q : Parameter φ) : p.collides q = q.collides p := by
  rw [Bool.eq_iff_iff, collides_iff, collides_iff]
  exact ⟨Or.imp Eq.symm Eq.symm, Or.imp Eq.symm Eq.symm⟩

/-- No two parameters of the list share their value or their name. -/
def Distinct (parameters : List (Parameter φ)) : Prop :=
  parameters.Pairwise fun p q => p.collides q = false

theorem Distinct.nil : Distinct ([] : List (Parameter φ)) := List.Pairwise.nil

theorem distinct_cons {p : Parameter φ} {rest : List (Parameter φ)} :
    Distinct (p :: rest) ↔ (∀ q ∈ rest, p.collides q = false) ∧ Distinct rest :=
  List.pairwise_cons

theorem Distinct.filter {parameters : List (Parameter φ)} (h : Distinct parameters)
    (keep : Parameter φ → Bool) : Distinct (parameters.filter keep) :=
  List.Pairwise.filter keep h

/-- Two distinct lists make one when nothing in the first collides with anything in the second. -/
theorem distinct_append {first second : List (Parameter φ)} :
    Distinct (first ++ second) ↔
      Distinct first ∧ Distinct second ∧ ∀ p ∈ first, ∀ q ∈ second, p.collides q = false :=
  List.pairwise_append

/-! ## The search without an index -/

/-- A parameter is free of collisions when neither its value nor its name has been seen. -/
theorem Parameter.not_collides_iff {p : Parameter φ} {seen : List (Parameter φ)} :
    (∀ q ∈ seen, p.collides q = false) ↔
      ¬ seen.any (·.value == p.value) = true ∧ ¬ seen.any (·.name == p.name) = true := by
  simp only [List.any_eq_true, beq_iff_eq, not_exists, not_and]
  constructor
  · intro h
    refine ⟨fun q hq he => ?_, fun q hq he => ?_⟩ <;>
      · have := h q hq
        simp [collides, he] at this
  · intro hgiven q hq
    obtain ⟨hv, hn⟩ := hgiven
    rw [Bool.eq_false_iff, Ne, collides_iff]
    exact fun h => h.elim (fun e => hv q hq e.symm) (fun e => hn q hq e.symm)

theorem Clash.firstAfter?_eq_none_iff {seen parameters : List (Parameter φ)} :
    Clash.firstAfter? seen parameters = none ↔
      Distinct parameters ∧ ∀ p ∈ parameters, ∀ q ∈ seen, p.collides q = false := by
  induction parameters generalizing seen with
  | nil => simp [firstAfter?, Distinct.nil]
  | cons p rest ih =>
    by_cases hp : ∀ q ∈ seen, p.collides q = false
    · obtain ⟨hv, hn⟩ := Parameter.not_collides_iff.mp hp
      rw [firstAfter?, if_neg hv, if_neg hn, ih, distinct_cons]
      simp only [List.forall_mem_cons]
      -- What joins `p` to the parameters seen is what the head of a distinct list asks of the rest.
      constructor
      · intro hgiven
        obtain ⟨hd, h⟩ := hgiven
        exact ⟨⟨fun q hq => (p.collides_comm q).trans (h q hq).1, hd⟩, hp, fun q hq => (h q hq).2⟩
      · intro hgiven
        obtain ⟨⟨hr, hd⟩, -, h⟩ := hgiven
        exact ⟨hd, fun q hq => ⟨(q.collides_comm p).trans (hr q hq), h q hq⟩⟩
    · have hsome : firstAfter? seen (p :: rest) ≠ none := by
        intro h
        rw [firstAfter?] at h
        split at h
        · cases h
        split at h
        · cases h
        next hv hn => exact hp (Parameter.not_collides_iff.mpr ⟨hv, hn⟩)
      exact iff_of_false hsome fun h => hp (h.2 p (List.mem_cons_self ..))

/-- The search finds nothing exactly in a list of which no two parameters collide. -/
theorem Clash.first?_eq_none_iff {parameters : List (Parameter φ)} :
    Clash.first? parameters = none ↔ Distinct parameters := by
  simp [first?, firstAfter?_eq_none_iff]

/-- The clash is that of the first parameter which collides with an earlier one: the value, if an
earlier parameter has it, and otherwise the name. -/
inductive Clash.IsFirst (parameters : List (Parameter φ)) : Clash → Prop
  | value {before after : List (Parameter φ)} {p : Parameter φ}
    (hsplit : parameters = before ++ p :: after) (hd : Distinct before)
    (hv : p.value ∈ before.map (·.value)) : IsFirst parameters (.value p.value)
  | name {before after : List (Parameter φ)} {p : Parameter φ}
    (hsplit : parameters = before ++ p :: after) (hd : Distinct before)
    (hv : p.value ∉ before.map (·.value)) (hn : p.name ∈ before.map (·.name)) :
    IsFirst parameters (.name p.name)

/-- The parameters seen are kept in reverse; before them and the rest stands what was searched. -/
theorem Clash.isFirst_of_firstAfter? {seen parameters : List (Parameter φ)} {clash : Clash}
    (hd : Distinct seen.reverse) (h : firstAfter? seen parameters = some clash) :
    IsFirst (seen.reverse ++ parameters) clash := by
  induction parameters generalizing seen with
  | nil => cases h
  | cons p rest ih =>
    rw [firstAfter?] at h
    split at h
    · next hv =>
      cases h
      exact .value rfl hd (by simpa using hv)
    next hv =>
    split at h
    · next hn =>
      cases h
      exact .name rfl hd (by simpa using hv) (by simpa using hn)
    next hn =>
    have hp : ∀ q ∈ seen, q.collides p = false := fun q hq =>
      (q.collides_comm p).trans (Parameter.not_collides_iff.mpr ⟨hv, hn⟩ q hq)
    have hnext : Distinct (p :: seen).reverse := by
      rw [List.reverse_cons]
      exact distinct_append.mpr ⟨hd, List.pairwise_singleton .., by simpa using hp⟩
    simpa using ih hnext h

/-- What the search finds is the first clash. -/
theorem Clash.isFirst_of_first? {parameters : List (Parameter φ)} {clash : Clash}
    (h : Clash.first? parameters = some clash) : clash.IsFirst parameters := by
  have hnil : Distinct ([] : List (Parameter φ)).reverse := Distinct.nil
  exact isFirst_of_firstAfter? hnil h

/-! ## The search that builds an index -/

/-- The keys of the index are the values and the names of the parameters seen. -/
structure Index.Covers (index : Index) (seen : List (Parameter φ)) : Prop where
  value : ∀ v, index.byValue.contains v = true ↔ seen.any (·.value == v) = true
  name : ∀ n, index.byName.contains n = true ↔ seen.any (·.name == n) = true

theorem Index.Covers.empty : ({} : Index).Covers ([] : List (Parameter φ)) :=
  ⟨fun v => by simp, fun n => by simp⟩

theorem Index.Covers.insert {index : Index} {seen : List (Parameter φ)} (h : index.Covers seen)
    (p : Parameter φ) (position : Nat) :
    Index.Covers { byValue := index.byValue.insert p.value position,
                   byName := index.byName.insert p.name position } (p :: seen) := by
  constructor
  · intro v
    simp only [Std.TreeMap.contains_insert, Bool.or_eq_true, beq_iff_eq, Std.compare_eq_iff_eq,
      List.any_cons, h.value]
  · intro n
    simp only [Std.TreeMap.contains_insert, Bool.or_eq_true, beq_iff_eq, Std.compare_eq_iff_eq,
      List.any_cons, h.name]

/-- Entering a list into an index that covers what was seen stops where the search without an
index does, and with the same clash. -/
theorem Index.foldlM_enter {index : Index} {seen : List (Parameter φ)} (h : index.Covers seen)
    (parameters : List (Parameter φ)) (offset : Nat) :
    let entered := (parameters.zipIdx offset).foldlM
      (fun index (p, position) => index.enter p position) index
    (∃ full, entered = .ok full ∧ Clash.firstAfter? seen parameters = none) ∨
      ∃ clash, entered = .error clash ∧ Clash.firstAfter? seen parameters = some clash := by
  induction parameters generalizing index seen offset with
  | nil => exact .inl ⟨index, rfl, rfl⟩
  | cons p rest ih =>
    simp only [Clash.firstAfter?, List.zipIdx_cons, List.foldlM_cons, enter, h.value, h.name]
    by_cases hv : seen.any (·.value == p.value) = true
    · simp only [hv, if_true]
      exact .inr ⟨_, rfl, rfl⟩
    by_cases hn : seen.any (·.name == p.name) = true
    · simp only [hv, hn, if_true]
      exact .inr ⟨_, rfl, rfl⟩
    simp only [hv, hn]
    exact ih (h.insert p offset) (offset + 1)

/-- The catalog of a list is refused for the first clash of the list, and only for that. -/
theorem Catalog.ofList_cases (parameters : List (Parameter φ)) :
    (∃ catalog, ofList parameters = .ok catalog ∧ catalog.parameters = parameters ∧
        Clash.first? parameters = none) ∨
      ∃ clash, ofList parameters = .error clash ∧ Clash.first? parameters = some clash := by
  rcases Index.foldlM_enter Index.Covers.empty parameters 0 with ⟨full, h, hc⟩ | ⟨clash, h, hc⟩
  · exact .inl ⟨⟨parameters, full⟩, by rw [ofList, Index.ofList, h]; rfl, rfl, hc⟩
  · exact .inr ⟨clash, by rw [ofList, Index.ofList, h]; rfl, hc⟩

/-- A list gets a catalog exactly when no two of its parameters collide. -/
theorem Catalog.exists_ofList_iff {parameters : List (Parameter φ)} :
    (∃ catalog, ofList parameters = .ok catalog) ↔ Distinct parameters := by
  rw [← Clash.first?_eq_none_iff]
  rcases ofList_cases parameters with ⟨catalog, h, -, hc⟩ | ⟨clash, h, hc⟩ <;> simp [h, hc]

theorem Catalog.parameters_of_ofList {parameters : List (Parameter φ)} {catalog : Catalog φ}
    (h : ofList parameters = .ok catalog) : catalog.parameters = parameters := by
  rcases ofList_cases parameters with ⟨catalog', h', hp, -⟩ | ⟨clash, h', -⟩
  · rw [h'] at h
    cases h
    exact hp
  · rw [h'] at h
    cases h

end RdmRegistry
