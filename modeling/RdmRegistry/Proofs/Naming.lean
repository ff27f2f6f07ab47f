/-
Under which name a manufacturer is held. Data files and overrides agree on this: the name that is
listed first stays (`Manufacturers.name?_foldl_extend`, `Manufacturers.name?_foldl_override`), so a
later one is never looked at again.

The names and the parameters of manufacturers are all there is to know of them
(`Manufacturers.ext_of_names`), which is how two merges are compared.
-/
import RdmRegistry.Proofs.Overriding

namespace RdmRegistry

variable {φ : Type}

/-! ## Names in a list -/

/-- The name under which a list has an identifier first. -/
def firstName? (id : UInt16) (entries : List (UInt16 × Manufacturer φ)) : Option String :=
  (entries.find? (·.1 == id)).map (·.2.name)

@[simp] theorem firstName?_nil (id : UInt16) :
    firstName? id ([] : List (UInt16 × Manufacturer φ)) = none := rfl

theorem firstName?_cons (id : UInt16) (entry : UInt16 × Manufacturer φ)
    (rest : List (UInt16 × Manufacturer φ)) :
    firstName? id (entry :: rest) =
      if entry.1 = id then some entry.2.name else firstName? id rest := by
  by_cases h : entry.1 = id <;> simp [firstName?, h]

theorem firstName?_append (id : UInt16) (first second : List (UInt16 × Manufacturer φ)) :
    firstName? id (first ++ second) = (firstName? id first).or (firstName? id second) := by
  rw [firstName?, List.find?_append, Option.map_or]
  rfl

theorem firstName?_eq_none_iff {id : UInt16} {entries : List (UInt16 × Manufacturer φ)} :
    firstName? id entries = none ↔ id ∉ entries.map (·.1) := by
  simp only [firstName?, Option.map_eq_none_iff, List.find?_eq_none, beq_iff_eq, List.mem_map,
    not_exists, not_and]

/-- What is listed first under an identifier has no entry of the identifier before it. -/
theorem firstName?_eq_some_iff {id : UInt16} {entries : List (UInt16 × Manufacturer φ)}
    {name : String} :
    firstName? id entries = some name ↔ ∃ before m after,
      entries = before ++ (id, m) :: after ∧ id ∉ before.map (·.1) ∧ m.name = name := by
  simp only [firstName?, Option.map_eq_some_iff, List.find?_eq_some_iff_append, beq_iff_eq]
  constructor
  · intro hgiven
    obtain ⟨⟨_, m⟩, ⟨rfl, before, after, hsplit, hbefore⟩, rfl⟩ := hgiven
    refine ⟨before, m, after, hsplit, fun hmem => ?_, rfl⟩
    obtain ⟨entry, he, hid⟩ := List.mem_map.mp hmem
    simpa [hid] using hbefore entry he
  · intro hgiven
    obtain ⟨before, m, after, hsplit, hbefore, rfl⟩ := hgiven
    refine ⟨(id, m), ⟨rfl, before, after, hsplit, fun entry he => ?_⟩, rfl⟩
    simpa using fun hid => hbefore (List.mem_map.mpr ⟨entry, he, hid⟩)

/-- Where no identifier is listed twice, the first name is that of its entry. -/
theorem firstName?_of_mem {entries : List (UInt16 × Manufacturer φ)}
    (hn : (entries.map (·.1)).Nodup) {id : UInt16} {m : Manufacturer φ} (h : (id, m) ∈ entries) :
    firstName? id entries = some m.name := by
  obtain ⟨before, after, rfl⟩ := List.append_of_mem h
  rw [List.map_append, List.nodup_append] at hn
  refine firstName?_eq_some_iff.mpr ⟨before, m, after, rfl, fun hid => ?_, rfl⟩
  exact hn.2.2 id hid id (by simp) rfl

/-! ## Names of manufacturers -/

namespace Manufacturers

/-- The name of a manufacturer, if it is known. -/
def name? (held : Manufacturers φ) (id : UInt16) : Option String :=
  held[id]?.map (·.name)

@[simp] theorem name?_empty (id : UInt16) : (∅ : Manufacturers φ).name? id = none := by
  simp [name?]

theorem name?_insert (held : Manufacturers φ) (id : UInt16) (m : Manufacturer φ) (other : UInt16) :
    Manufacturers.name? (held.insert id m) other =
      if id = other then some m.name else held.name? other := by
  rw [name?, Std.ExtTreeMap.getElem?_insert]
  by_cases h : id = other <;> simp [h, name?]

/-- A manufacturer is its name with its parameters. -/
theorem getElem?_eq_map_name? (held : Manufacturers φ) (id : UInt16) :
    held[id]? = (held.name? id).map fun name => { name, parameters := held.parametersUnder id } := by
  rw [name?, parametersUnder]
  cases held[id]? <;> rfl

theorem ext_of_names {first second : Manufacturers φ}
    (hname : ∀ id, first.name? id = second.name? id)
    (hparameters : ∀ id, first.parametersUnder id = second.parametersUnder id) :
    first = second := by
  refine Std.ExtTreeMap.ext_getElem? fun id => ?_
  rw [getElem?_eq_map_name?, getElem?_eq_map_name?, hname, hparameters]

theorem name?_extend (held : Manufacturers φ) (entry : UInt16 × Manufacturer φ) (id : UInt16) :
    (held.extend entry).name? id = (held.name? id).or (firstName? id [entry]) := by
  obtain ⟨j, listed⟩ := entry
  rw [extend, firstName?_cons, firstName?_nil]
  split
  · next known hk =>
    rw [name?_insert]
    by_cases h : j = id
    · subst h
      simp [name?, hk]
    · simp [h]
  · next hk =>
    rw [name?_insert]
    by_cases h : j = id
    · subst h
      simp [name?, hk]
    · simp [h]

theorem name?_override (held : Manufacturers φ) (entry : UInt16 × Manufacturer φ) (id : UInt16) :
    (held.override entry).name? id = (held.name? id).or (firstName? id [entry]) := by
  rw [override, firstName?_cons, firstName?_nil, name?_insert]
  by_cases h : entry.1 = id
  · subst h
    simp only [if_true, name?]
    cases held[entry.1]? <;> rfl
  · simp [h]

/-- A merge that keeps the name which is known, or else takes the one that is listed, keeps through
a whole list the name that is listed first. -/
theorem name?_foldl {merge : Manufacturers φ → UInt16 × Manufacturer φ → Manufacturers φ}
    (hmerge : ∀ held entry id, (merge held entry).name? id =
      (held.name? id).or (firstName? id [entry]))
    (held : Manufacturers φ) (entries : List (UInt16 × Manufacturer φ)) (id : UInt16) :
    (entries.foldl merge held).name? id = (held.name? id).or (firstName? id entries) := by
  induction entries generalizing held with
  | nil => simp
  | cons entry rest ih =>
    rw [List.foldl_cons, ih, hmerge, Option.or_assoc, ← firstName?_append, List.singleton_append]

theorem name?_foldl_extend (held : Manufacturers φ) (entries : List (UInt16 × Manufacturer φ))
    (id : UInt16) :
    (entries.foldl extend held).name? id = (held.name? id).or (firstName? id entries) :=
  name?_foldl name?_extend held entries id

theorem name?_foldl_override (held : Manufacturers φ) (entries : List (UInt16 × Manufacturer φ))
    (id : UInt16) :
    (entries.foldl override held).name? id = (held.name? id).or (firstName? id entries) :=
  name?_foldl name?_override held entries id

end Manufacturers

/-! ## Names in drafts -/

namespace Draft

/-- A draft is its version, its parameters scope by scope, and the names of its manufacturers. -/
theorem ext_of_names {first second : Draft φ} (hversion : first.version = second.version)
    (hname : ∀ id, first.manufacturers.name? id = second.manufacturers.name? id)
    (hparameters : ∀ scope, first.parametersOf scope = second.parametersOf scope) :
    first = second := by
  obtain ⟨version, esta, manufacturers⟩ := first
  obtain ⟨version', esta', manufacturers'⟩ := second
  obtain rfl : version = version' := hversion
  obtain rfl : esta = esta' := hparameters .esta
  obtain rfl : manufacturers = manufacturers' :=
    Manufacturers.ext_of_names hname fun id => hparameters (.manufacturer id)
  rfl

theorem name?_plus (draft : Draft φ) (definition : Definition φ) (id : UInt16) :
    (draft.plus definition).manufacturers.name? id =
      (draft.manufacturers.name? id).or (firstName? id definition.manufacturers) :=
  Manufacturers.name?_foldl_extend ..

theorem name?_foldl_plus (draft : Draft φ) (definitions : List (Definition φ)) (id : UInt16) :
    (definitions.foldl plus draft).manufacturers.name? id =
      (draft.manufacturers.name? id).or
        (firstName? id (definitions.flatMap (·.manufacturers))) := by
  induction definitions generalizing draft with
  | nil => simp
  | cons definition rest ih =>
    rw [List.foldl_cons, ih, name?_plus, List.flatMap_cons, firstName?_append, Option.or_assoc]

/-- Over several data files, too, the name that is listed first stays. -/
theorem name?_sum (definitions : List (Definition φ)) (id : UInt16) :
    (sum definitions).manufacturers.name? id =
      firstName? id (definitions.flatMap (·.manufacturers)) := by
  rw [sum, name?_foldl_plus, Manufacturers.name?_empty, Option.none_or]

theorem name?_overriddenBy (draft : Draft φ) (definition : Definition φ) (id : UInt16) :
    (draft.overriddenBy definition).manufacturers.name? id =
      (draft.manufacturers.name? id).or (firstName? id definition.manufacturers) :=
  Manufacturers.name?_foldl_override ..

end Draft

end RdmRegistry
