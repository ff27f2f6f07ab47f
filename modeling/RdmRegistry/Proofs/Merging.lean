/-
Adding data files to a draft. `Draft.plus` is the sum of a draft and a definition, defined whether
or not the definition repeats a manufacturer; `Draft.add_eq_ok_iff` says that adding is taking this
sum, and `Draft.parametersOf_plus` that in every scope the sum is one list after the other.
-/
import RdmRegistry.Proofs.Scope

namespace RdmRegistry

variable {φ : Type}

theorem Manufacturers.parametersUnder_extend (held : Manufacturers φ)
    (entry : UInt16 × Manufacturer φ) (id : UInt16) :
    (held.extend entry).parametersUnder id =
      held.parametersUnder id ++ if entry.1 = id then entry.2.parameters else [] := by
  obtain ⟨j, listed⟩ := entry
  rw [extend]
  split
  · next known hk =>
    rw [parametersUnder_insert]
    by_cases h : j = id
    · subst h
      simp [parametersUnder, hk]
    · simp [h]
  · next hk =>
    rw [parametersUnder_insert]
    by_cases h : j = id
    · subst h
      simp [parametersUnder, hk]
    · simp [h]

/-- A list of manufacturers is merged in by appending what it has under each identifier. -/
theorem Manufacturers.parametersUnder_foldl_extend (held : Manufacturers φ)
    (entries : List (UInt16 × Manufacturer φ)) (id : UInt16) :
    (entries.foldl extend held).parametersUnder id =
      held.parametersUnder id ++ RdmRegistry.parametersUnder id entries := by
  induction entries generalizing held with
  | nil => simp
  | cons entry rest ih =>
    rw [List.foldl_cons, ih, parametersUnder_extend, parametersUnder_cons, List.append_assoc]

/-- Manufacturers of which none is known, and none listed twice, are entered as they are listed. -/
theorem Manufacturers.getElem?_foldl_extend_eq_some_iff {held : Manufacturers φ}
    {entries : List (UInt16 × Manufacturer φ)} (hn : (entries.map (·.1)).Nodup)
    (hnew : ∀ id ∈ entries.map (·.1), held[id]? = none) {id : UInt16} {m : Manufacturer φ} :
    (entries.foldl extend held)[id]? = some m ↔ (id, m) ∈ entries ∨ held[id]? = some m := by
  induction entries generalizing held with
  | nil => simp
  | cons entry rest ih =>
    obtain ⟨j, listed⟩ := entry
    rw [List.map_cons, List.nodup_cons] at hn
    obtain ⟨hj, hrest⟩ := List.forall_mem_cons.mp hnew
    have hextend : held.extend (j, listed) = held.insert j listed := by
      rw [extend, hj]
    have hlater : ∀ k ∈ rest.map (·.1), (held.insert j listed)[k]? = none := by
      intro k hk
      have hne : j ≠ k := fun he => hn.1 (he ▸ hk)
      rw [Std.ExtTreeMap.getElem?_insert, if_neg (by simpa using hne)]
      exact hrest k hk
    rw [List.foldl_cons, hextend, ih hn.2 hlater, Std.ExtTreeMap.getElem?_insert, List.mem_cons]
    by_cases he : j = id
    · subst he
      simp only at hj
      simp [hj, or_comm, eq_comm]
    · simp [he, Ne.symm he]

/-- The draft with the content of a definition after its own. -/
def Draft.plus (draft : Draft φ) (definition : Definition φ) : Draft φ :=
  { version := max draft.version definition.version
    esta := draft.esta ++ definition.esta
    manufacturers := definition.manufacturers.foldl Manufacturers.extend draft.manufacturers }

@[simp] theorem Draft.version_plus (draft : Draft φ) (definition : Definition φ) :
    (draft.plus definition).version = max draft.version definition.version := rfl

theorem Draft.parametersOf_plus (draft : Draft φ) (definition : Definition φ) (scope : Scope) :
    (draft.plus definition).parametersOf scope =
      draft.parametersOf scope ++ definition.parametersOf scope := by
  cases scope with
  | esta => rfl
  | manufacturer id => exact Manufacturers.parametersUnder_foldl_extend ..

/-- A definition is added unless it lists a manufacturer twice. -/
theorem Draft.add_eq_ok_iff {draft next : Draft φ} {definition : Definition φ} :
    draft.add definition = .ok next ↔
      (definition.manufacturers.map (·.1)).Nodup ∧ next = draft.plus definition := by
  rw [← Definition.repeatedId?_eq_none_iff, add]
  split
  · next id h => simp [h]
  · next h => simp [h, plus, eq_comm]

theorem Draft.add_of_nodup (draft : Draft φ) {definition : Definition φ}
    (hn : (definition.manufacturers.map (·.1)).Nodup) :
    draft.add definition = .ok (draft.plus definition) :=
  add_eq_ok_iff.mpr ⟨hn, rfl⟩

/-! ## Several data files -/

/-- The draft of several definitions. -/
def Draft.sum (definitions : List (Definition φ)) : Draft φ :=
  definitions.foldl plus {}

theorem Draft.parametersOf_foldl_plus (draft : Draft φ) (definitions : List (Definition φ))
    (scope : Scope) :
    (definitions.foldl plus draft).parametersOf scope =
      draft.parametersOf scope ++ definitions.flatMap (·.parametersOf scope) := by
  induction definitions generalizing draft with
  | nil => simp
  | cons definition rest ih =>
    rw [List.foldl_cons, ih, parametersOf_plus, List.flatMap_cons, List.append_assoc]

/-- In every scope the draft has the lists of the definitions one after the other. -/
theorem Draft.parametersOf_sum (definitions : List (Definition φ)) (scope : Scope) :
    (sum definitions).parametersOf scope = definitions.flatMap (·.parametersOf scope) := by
  rw [sum, parametersOf_foldl_plus, parametersOf_empty, List.nil_append]

theorem Draft.version_foldl_plus (draft : Draft φ) (definitions : List (Definition φ)) :
    (definitions.foldl plus draft).version =
      (definitions.map (·.version)).foldl max draft.version := by
  induction definitions generalizing draft with
  | nil => rfl
  | cons definition rest ih => rw [List.foldl_cons, ih, version_plus, List.map_cons, List.foldl_cons]

theorem Draft.version_sum (definitions : List (Definition φ)) :
    (sum definitions).version = (definitions.map (·.version)).foldl max 0 :=
  version_foldl_plus {} definitions

end RdmRegistry
