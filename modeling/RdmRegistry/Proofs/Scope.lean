/-
Scopes: ESTA, and each manufacturer. Values and names are unique inside a scope only, so definitions,
drafts and registries are looked at scope by scope: `parametersOf` is the list of one scope.

`Definition.NoRepeats` is what an overrides file has to keep, said of scopes; `noRepeats_iff` says
the same of the listed entries, which is how it is checked.
-/
import RdmRegistry.Draft
import RdmRegistry.Proofs.Distinct

namespace RdmRegistry

variable {φ : Type}

/-- A set of parameters with unique values and names. -/
inductive Scope where
  | esta
  | manufacturer (id : UInt16)
  deriving DecidableEq

/-! ## Definitions -/

/-- The parameters that a list of manufacturers has under an identifier, in order. -/
def parametersUnder (id : UInt16) (entries : List (UInt16 × Manufacturer φ)) : List (Parameter φ) :=
  (entries.filter (·.1 == id)).flatMap (·.2.parameters)

@[simp] theorem parametersUnder_nil (id : UInt16) :
    parametersUnder id ([] : List (UInt16 × Manufacturer φ)) = [] := rfl

@[simp] theorem parametersUnder_cons (id : UInt16) (entry : UInt16 × Manufacturer φ)
    (rest : List (UInt16 × Manufacturer φ)) :
    parametersUnder id (entry :: rest) =
      (if entry.1 = id then entry.2.parameters else []) ++ parametersUnder id rest := by
  by_cases h : entry.1 = id <;> simp [parametersUnder, h]

theorem parametersUnder_eq_nil {id : UInt16} {entries : List (UInt16 × Manufacturer φ)}
    (h : id ∉ entries.map (·.1)) : parametersUnder id entries = [] := by
  have hf : entries.filter (·.1 == id) = [] := by
    rw [List.filter_eq_nil_iff]
    intro entry he hid
    exact h (List.mem_map.mpr ⟨entry, he, by simpa using hid⟩)
  rw [parametersUnder, hf, List.flatMap_nil]

/-- Where no identifier is listed twice, what stands under one is the list of its entry. -/
theorem parametersUnder_of_mem {entries : List (UInt16 × Manufacturer φ)}
    (hn : (entries.map (·.1)).Nodup) {id : UInt16} {m : Manufacturer φ} (h : (id, m) ∈ entries) :
    parametersUnder id entries = m.parameters := by
  induction entries with
  | nil => cases h
  | cons entry rest ih =>
    rw [List.map_cons, List.nodup_cons] at hn
    rw [parametersUnder_cons]
    rcases List.mem_cons.mp h with rfl | h
    · rw [if_pos rfl, parametersUnder_eq_nil hn.1, List.append_nil]
    · have hne : entry.1 ≠ id := fun he => hn.1 (List.mem_map.mpr ⟨(id, m), h, he.symm⟩)
      rw [if_neg hne, List.nil_append, ih hn.2 h]

/-- The parameters that a definition has in a scope, in order. -/
def Definition.parametersOf (definition : Definition φ) : Scope → List (Parameter φ)
  | .esta => definition.esta
  | .manufacturer id => parametersUnder id definition.manufacturers

@[simp] theorem Definition.parametersOf_empty (scope : Scope) :
    ({} : Definition φ).parametersOf scope = [] := by
  cases scope <;> rfl

/-- Nothing repeats in the definition: no manufacturer, and in no scope a value or a name. -/
structure Definition.NoRepeats (definition : Definition φ) : Prop where
  ids : (definition.manufacturers.map (·.1)).Nodup
  scopes : ∀ scope, Distinct (definition.parametersOf scope)

theorem Definition.NoRepeats.empty : ({} : Definition φ).NoRepeats :=
  ⟨List.nodup_nil, fun scope => by rw [parametersOf_empty]; exact Distinct.nil⟩

/-- Where no manufacturer is listed twice, nothing repeats in the scopes when nothing repeats in the
lists. -/
theorem Definition.distinct_scopes_iff {definition : Definition φ}
    (hn : (definition.manufacturers.map (·.1)).Nodup) :
    (∀ scope, Distinct (definition.parametersOf scope)) ↔
      Distinct definition.esta ∧ ∀ entry ∈ definition.manufacturers, Distinct entry.2.parameters := by
  constructor
  · intro hs
    refine ⟨hs .esta, fun entry he => ?_⟩
    have h := hs (.manufacturer entry.1)
    rwa [parametersOf, parametersUnder_of_mem hn he] at h
  · intro hgiven scope
    obtain ⟨he, hm⟩ := hgiven
    cases scope with
    | esta => exact he
    | manufacturer id =>
      rw [parametersOf]
      by_cases hid : id ∈ definition.manufacturers.map (·.1)
      · obtain ⟨entry, hmem, rfl⟩ := List.mem_map.mp hid
        rw [parametersUnder_of_mem hn hmem]
        exact hm entry hmem
      · rw [parametersUnder_eq_nil hid]
        exact Distinct.nil

theorem Definition.noRepeats_iff {definition : Definition φ} :
    definition.NoRepeats ↔ (definition.manufacturers.map (·.1)).Nodup ∧
      Distinct definition.esta ∧ ∀ entry ∈ definition.manufacturers, Distinct entry.2.parameters :=
  ⟨fun h => ⟨h.ids, (distinct_scopes_iff h.ids).mp h.scopes⟩,
    fun h => ⟨h.1, (distinct_scopes_iff h.1).mpr h.2⟩⟩

theorem firstRepeatAfter?_eq_none_iff {seen ids : List UInt16} :
    firstRepeatAfter? seen ids = none ↔ ids.Nodup ∧ ∀ id ∈ ids, id ∉ seen := by
  induction ids generalizing seen with
  | nil => simp [firstRepeatAfter?]
  | cons id rest ih =>
    rw [firstRepeatAfter?, List.nodup_cons, List.forall_mem_cons]
    by_cases h : id ∈ seen
    · simp [h]
    · rw [if_neg (by simpa using h), ih]
      simp only [List.mem_cons, not_or]
      constructor
      · intro hgiven
        obtain ⟨hn, hr⟩ := hgiven
        exact ⟨⟨fun hm => (hr id hm).1 rfl, hn⟩, h, fun j hj => (hr j hj).2⟩
      · intro hgiven
        obtain ⟨⟨hid, hn⟩, -, hr⟩ := hgiven
        exact ⟨hn, fun j hj => ⟨fun he => hid (he ▸ hj), hr j hj⟩⟩

theorem Definition.repeatedId?_eq_none_iff {definition : Definition φ} :
    definition.repeatedId? = none ↔ (definition.manufacturers.map (·.1)).Nodup := by
  simp [repeatedId?, firstRepeatAfter?_eq_none_iff]

/-! ## Drafts and registries -/

/-- The parameters of a manufacturer, none if it is not known. -/
def Manufacturers.parametersUnder (held : Manufacturers φ) (id : UInt16) : List (Parameter φ) :=
  (held[id]?.map (·.parameters)).getD []

@[simp] theorem Manufacturers.parametersUnder_empty (id : UInt16) :
    (∅ : Manufacturers φ).parametersUnder id = [] := by
  simp [parametersUnder]

theorem Manufacturers.parametersUnder_insert (held : Manufacturers φ) (id : UInt16)
    (m : Manufacturer φ) (other : UInt16) :
    Manufacturers.parametersUnder (held.insert id m) other =
      if id = other then m.parameters else held.parametersUnder other := by
  rw [parametersUnder, Std.ExtTreeMap.getElem?_insert]
  by_cases h : id = other
  · simp [h]
  · simp [h, parametersUnder]

/-- The parameters of a draft in a scope. -/
def Draft.parametersOf (draft : Draft φ) : Scope → List (Parameter φ)
  | .esta => draft.esta
  | .manufacturer id => draft.manufacturers.parametersUnder id

@[simp] theorem Draft.parametersOf_empty (scope : Scope) :
    ({} : Draft φ).parametersOf scope = [] := by
  cases scope with
  | esta => rfl
  | manufacturer id => exact Manufacturers.parametersUnder_empty id

/-- The parameters of a registry in a scope, none for a manufacturer without a catalog. -/
def Registry.parametersOf (registry : Registry φ) : Scope → List (Parameter φ)
  | .esta => registry.esta.parameters
  | .manufacturer id => ((registry.manufacturer? id).map (·.parameters)).getD []

end RdmRegistry
