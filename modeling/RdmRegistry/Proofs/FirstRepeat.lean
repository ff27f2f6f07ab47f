/-
The first repeat of a list, by position. A parameter repeats when an earlier one has its value or
its name; the first one that does is reported, for its value if that is taken, and otherwise for its
name.

`first_repeat_is_reported`: building a catalog reports it, and so does the search without an index.
Both accept exactly the lists whose values differ and whose names differ.
-/
import RdmRegistry.Proofs.Distinct

namespace RdmRegistry

variable {φ : Type}

/-- No two parameters collide when no value and no name is listed twice. -/
theorem distinct_iff_nodup {parameters : List (Parameter φ)} :
    Distinct parameters ↔
      (parameters.map (·.value)).Nodup ∧ (parameters.map (·.name)).Nodup := by
  have hcollides (p q : Parameter φ) :
      p.collides q = false ↔ p.value ≠ q.value ∧ p.name ≠ q.name := by
    simp [Parameter.collides]
  simp only [Distinct, List.Nodup, List.pairwise_map, hcollides, List.pairwise_and_iff]

/-! ## Positions -/

/-- The parameter at the position has the value or the name of an earlier one. -/
structure RepeatsAt (parameters : List (Parameter φ)) (i : Nat) (p : Parameter φ) : Prop where
  stands : parameters[i]? = some p
  repeats : ∃ q ∈ parameters.take i, q.value = p.value ∨ q.name = p.name

/-- It is the first that does. -/
structure IsFirstRepeat (parameters : List (Parameter φ)) (i : Nat) (p : Parameter φ) : Prop
    extends RepeatsAt parameters i p where
  first : ∀ j < i, ∀ q, ¬ RepeatsAt parameters j q

/-- What a parameter at a position shares with the earlier ones: its value, if one of them has it,
and otherwise its name. -/
def Clash.withEarlier (parameters : List (Parameter φ)) (i : Nat) (p : Parameter φ) : Clash :=
  if p.value ∈ (parameters.take i).map (·.value) then .value p.value else .name p.name

theorem IsFirstRepeat.unique {parameters : List (Parameter φ)} {i j : Nat} {p q : Parameter φ}
    (hp : IsFirstRepeat parameters i p) (hq : IsFirstRepeat parameters j q) : i = j ∧ p = q := by
  obtain hlt | rfl | hlt := Nat.lt_trichotomy i j
  · exact absurd hp.toRepeatsAt (hq.first i hlt p)
  · exact ⟨rfl, by simpa [hp.stands] using hq.stands⟩
  · exact absurd hq.toRepeatsAt (hp.first j hlt q)

theorem RepeatsAt.not_distinct {parameters : List (Parameter φ)} {i : Nat} {p : Parameter φ}
    (h : RepeatsAt parameters i p) : ¬ Distinct parameters := by
  obtain ⟨hi, rfl⟩ := List.getElem?_eq_some_iff.mp h.stands
  obtain ⟨q, hq, hshared⟩ := h.repeats
  intro hd
  rw [← List.take_append_drop i parameters, distinct_append] at hd
  have hmem : parameters[i] ∈ parameters.drop i := by
    rw [List.drop_eq_getElem_cons hi]
    exact List.mem_cons_self
  have hfree := hd.2.2 q hq _ hmem
  rw [Parameter.collides_iff.mpr hshared] at hfree
  cases hfree

/-- Behind parameters of which no two collide, the first that collides with one of them is the first
repeat. -/
theorem isFirstRepeat_of_split {before after : List (Parameter φ)} {p : Parameter φ}
    (hd : Distinct before) (hrepeats : ∃ q ∈ before, q.value = p.value ∨ q.name = p.name) :
    IsFirstRepeat (before ++ p :: after) before.length p := by
  have hp : RepeatsAt (before ++ p :: after) before.length p :=
    ⟨by simp, by simpa using hrepeats⟩
  refine ⟨hp, fun j hj q hq => ?_⟩
  -- A repeat at a lower position would be one of `before`.
  have hbefore : RepeatsAt before j q := by
    have hstands := hq.stands
    have hearlier := hq.repeats
    rw [List.getElem?_append_left hj] at hstands
    rw [List.take_append_of_le_length (Nat.le_of_lt hj)] at hearlier
    exact ⟨hstands, hearlier⟩
  exact hbefore.not_distinct hd

/-- The clash that ends a search is that of the first repeat. -/
theorem Clash.IsFirst.exists_position {parameters : List (Parameter φ)} {clash : Clash}
    (h : clash.IsFirst parameters) :
    ∃ i p, IsFirstRepeat parameters i p ∧ clash = withEarlier parameters i p := by
  cases h with
  | @value before after p hsplit hd hv =>
    subst hsplit
    obtain ⟨q, hq, hvalue⟩ := List.mem_map.mp hv
    refine ⟨before.length, p, isFirstRepeat_of_split hd ⟨q, hq, .inl hvalue⟩, ?_⟩
    simp only [withEarlier, List.take_left', hv, if_true]
  | @name before after p hsplit hd hv hn =>
    subst hsplit
    obtain ⟨q, hq, hname⟩ := List.mem_map.mp hn
    refine ⟨before.length, p, isFirstRepeat_of_split hd ⟨q, hq, .inr hname⟩, ?_⟩
    simp only [withEarlier, List.take_left', hv, if_false]

/-! ## The two searches -/

theorem Clash.first?_eq_some_iff {parameters : List (Parameter φ)} {clash : Clash} :
    first? parameters = some clash ↔
      ∃ i p, IsFirstRepeat parameters i p ∧ clash = withEarlier parameters i p := by
  constructor
  · exact fun h => (isFirst_of_first? h).exists_position
  · intro hgiven
    obtain ⟨i, p, hp, rfl⟩ := hgiven
    cases hfound : first? parameters with
    | none => exact absurd (first?_eq_none_iff.mp hfound) hp.not_distinct
    | some found =>
      obtain ⟨j, q, hq, rfl⟩ := (isFirst_of_first? hfound).exists_position
      obtain ⟨rfl, rfl⟩ := hp.unique hq
      rfl

/-- The search that builds an index is refused for the clash that the other one finds. -/
theorem Catalog.ofList_eq_error_iff {parameters : List (Parameter φ)} {clash : Clash} :
    ofList parameters = .error clash ↔ Clash.first? parameters = some clash := by
  rcases ofList_cases parameters with ⟨catalog, h, -, hnone⟩ | ⟨found, h, hsome⟩
  · simp [h, hnone]
  · simp [h, hsome]

/-- **A list is refused for its first repeat**, and only lists with a repeat are refused; the search
without an index finds the same. -/
theorem first_repeat_is_reported (parameters : List (Parameter φ)) :
    ((∃ catalog, Catalog.ofList parameters = .ok catalog) ↔
      (parameters.map (·.value)).Nodup ∧ (parameters.map (·.name)).Nodup) ∧
    (∀ clash, Catalog.ofList parameters = .error clash ↔
      ∃ i p, IsFirstRepeat parameters i p ∧ clash = Clash.withEarlier parameters i p) ∧
    (Clash.first? parameters = none ↔ ∃ catalog, Catalog.ofList parameters = .ok catalog) ∧
    ∀ clash, Clash.first? parameters = some clash ↔ Catalog.ofList parameters = .error clash := by
  refine ⟨?_, fun clash => ?_, ?_, fun clash => Catalog.ofList_eq_error_iff.symm⟩
  · rw [Catalog.exists_ofList_iff, distinct_iff_nodup]
  · rw [Catalog.ofList_eq_error_iff, Clash.first?_eq_some_iff]
  · rw [Clash.first?_eq_none_iff, Catalog.exists_ofList_iff]

/-- The third parameter has the name of the first and the value of the second: the value counts, and
the repeat after it does not. -/
example : Catalog.ofList ([{ name := "A", value := 1 }, { name := "B", value := 2 },
    { name := "A", value := 2 }, { name := "B", value := 1 }] : List (Parameter Unit)) =
      .error (.value 2) := rfl

end RdmRegistry
