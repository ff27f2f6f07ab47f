/-
The positions that an index holds. Under a value or a name it has the position of the parameter with
that value or name, and nothing else (`Positions.getElem?_eq_some_iff`), so no look-up leads out of
the list.

`lookups_search_the_list`: what a look-up finds is what a search of the list finds first.
-/
import RdmRegistry.Proofs.FirstRepeat
import RdmRegistry.Proofs.Lookup

namespace RdmRegistry

variable {φ : Type}

/-! ## Maps of positions -/

section Positions

variable {κ : Type} [Ord κ] [DecidableEq κ] {map : Std.TreeMap κ Nat} {key : Parameter φ → κ}
  {parameters : List (Parameter φ)}

/-- A position leads into the list, to the parameter that a search for the key finds. -/
theorem Positions.find?_eq_getElem (h : Positions map key parameters) {k : κ} {i : Nat}
    (hi : map[k]? = some i) :
    ∃ _ : i < parameters.length, parameters.find? (key · == k) = some parameters[i] := by
  rw [h k] at hi
  obtain ⟨hlt, -⟩ := List.findIdx?_eq_some_iff_getElem.mp hi
  refine ⟨hlt, ?_⟩
  rw [List.find?_eq_bind_findIdx?_getElem?, hi, Option.bind_some, List.getElem?_eq_getElem hlt]

/-- Where no key repeats, every parameter stands at the position under its key. -/
theorem Positions.getElem?_eq_some_iff (h : Positions map key parameters)
    (hn : (parameters.map key).Nodup) {k : κ} {i : Nat} :
    map[k]? = some i ↔ ∃ p, parameters[i]? = some p ∧ key p = k := by
  rw [h k, List.findIdx?_eq_some_iff_getElem]
  constructor
  · intro hgiven
    obtain ⟨hlt, hkey, -⟩ := hgiven
    exact ⟨parameters[i], List.getElem?_eq_getElem hlt, by simpa using hkey⟩
  · intro hgiven
    obtain ⟨p, hp, rfl⟩ := hgiven
    obtain ⟨hlt, rfl⟩ := List.getElem?_eq_some_iff.mp hp
    refine ⟨hlt, by simp, fun j hj => ?_⟩
    -- An earlier parameter with the key would be a repeat of it.
    have hdistinct := List.pairwise_iff_getElem.mp (List.pairwise_map.mp hn)
    simpa using hdistinct j i (by omega) hlt hj

end Positions

/-! ## Catalogs -/

/-- The catalog has the parameters of the list in order, and its indices have their positions and no
others. Look-ups answer as searches of the list do, without ever leaving it. -/
structure Catalog.Mirrors (catalog : Catalog φ) (parameters : List (Parameter φ)) : Prop where
  listed : catalog.parameters = parameters
  findValue? : ∀ v, catalog.findValue? v = parameters.find? (·.value == v)
  findName? : ∀ n, catalog.findName? n = parameters.find? (·.name == n)
  valuePositions : ∀ (v : UInt16) (i : Nat), catalog.index.byValue[v]? = some i ↔
    ∃ p, catalog.parameters[i]? = some p ∧ p.value = v
  namePositions : ∀ (n : String) (i : Nat), catalog.index.byName[n]? = some i ↔
    ∃ p, catalog.parameters[i]? = some p ∧ p.name = n
  valueInside : ∀ (v : UInt16) (i : Nat), catalog.index.byValue[v]? = some i →
    ∃ _ : i < catalog.parameters.length, catalog.findValue? v = some catalog.parameters[i]
  nameInside : ∀ (n : String) (i : Nat), catalog.index.byName[n]? = some i →
    ∃ _ : i < catalog.parameters.length, catalog.findName? n = some catalog.parameters[i]
  found : ∀ p ∈ parameters, catalog.findValue? p.value = some p ∧ catalog.findName? p.name = some p

/-- **Look-ups of a catalog are searches of its list**, and no position in its indices is outside of
the list. -/
theorem lookups_search_the_list {parameters : List (Parameter φ)} {catalog : Catalog φ}
    (h : Catalog.ofList parameters = .ok catalog) : catalog.Mirrors parameters := by
  obtain rfl := Catalog.parameters_of_ofList h
  obtain ⟨hvalue, hname⟩ := Catalog.locates_of_ofList h
  obtain ⟨hvalues, hnames⟩ := distinct_iff_nodup.mp (Catalog.exists_ofList_iff.mp ⟨catalog, h⟩)
  have hsearchValue := Catalog.findValue?_of_ofList h
  have hsearchName := Catalog.findName?_of_ofList h
  exact {
    listed := rfl
    findValue? := hsearchValue
    findName? := hsearchName
    valuePositions := fun v i => hvalue.getElem?_eq_some_iff hvalues
    namePositions := fun n i => hname.getElem?_eq_some_iff hnames
    valueInside := fun v i hi => by
      rw [hsearchValue]
      exact hvalue.find?_eq_getElem hi
    nameInside := fun n i hi => by
      rw [hsearchName]
      exact hname.find?_eq_getElem hi
    found := fun p hp =>
      ⟨(Catalog.findValue?_eq_some_iff h).mpr ⟨hp, rfl⟩,
        (Catalog.findName?_eq_some_iff h).mpr ⟨hp, rfl⟩⟩ }

/-- Parameters whose names differ in case only, and not in the order of their values. -/
def casedParameters : List (Parameter Unit) :=
  [{ name := "reset", value := 3 }, { name := "Reset", value := 1 }, { name := "RESET", value := 2 }]

theorem lookups_search_the_list_cased :
    ∃ catalog, Catalog.ofList casedParameters = .ok catalog ∧ catalog.Mirrors casedParameters ∧
      catalog.index.byName["Reset"]? = some 1 ∧ catalog.index.byValue[(2 : UInt16)]? = some 2 ∧
      catalog.findName? "rESET" = none ∧ catalog.findValue? 4 = none := by
  refine ⟨_, rfl, lookups_search_the_list rfl, ?_, ?_, ?_, ?_⟩ <;> decide +kernel

end RdmRegistry
