/-
Applying overrides to a draft. Parameters are superseded one after another, each against the list
that the one before it left; as long as no two overrides collide this is one filter and one append
(`foldl_supersede`), because no override can remove another.

`Draft.overriddenBy` is the overridden draft, `Draft.applyOverrides_eq_ok_iff` says that overrides
are applied exactly when nothing repeats in them, and `Draft.parametersOf_overriddenBy` gives every
scope of the result.
-/
import RdmRegistry.Proofs.Merging

namespace RdmRegistry

variable {φ : Type}

/-- The parameters that collide with none of the overrides. -/
def spared (parameters overrides : List (Parameter φ)) : List (Parameter φ) :=
  parameters.filter fun p => !overrides.any p.collides

@[simp] theorem spared_nil (parameters : List (Parameter φ)) : spared parameters [] = parameters := by
  simp [spared]

theorem mem_spared {parameters overrides : List (Parameter φ)} {p : Parameter φ} :
    p ∈ spared parameters overrides ↔ p ∈ parameters ∧ ∀ q ∈ overrides, p.collides q = false := by
  simp [spared]

theorem spared_cons (parameters : List (Parameter φ)) (p : Parameter φ)
    (overrides : List (Parameter φ)) :
    spared parameters (p :: overrides) = spared (spared parameters [p]) overrides := by
  simp only [spared, List.filter_filter, List.any_cons, List.any_nil, Bool.or_false, Bool.not_or]
  exact List.filter_congr fun q _ => Bool.and_comm ..

theorem spared_append (first second overrides : List (Parameter φ)) :
    spared (first ++ second) overrides = spared first overrides ++ spared second overrides :=
  List.filter_append ..

theorem spared_eq_self {parameters overrides : List (Parameter φ)}
    (h : ∀ p ∈ parameters, ∀ q ∈ overrides, p.collides q = false) :
    spared parameters overrides = parameters := by
  refine List.filter_eq_self.mpr fun p hp => ?_
  simpa using h p hp

theorem supersede_eq (parameters : List (Parameter φ)) (p : Parameter φ) :
    supersede parameters p = spared parameters [p] ++ [p] := by
  simp [supersede, spared]

/-- One parameter after another takes its place: together they leave what collides with none of
them, and stand after it. -/
theorem foldl_supersede {overrides : List (Parameter φ)} (h : Distinct overrides)
    (parameters : List (Parameter φ)) :
    overrides.foldl supersede parameters = spared parameters overrides ++ overrides := by
  induction overrides generalizing parameters with
  | nil => simp
  | cons p rest ih =>
    obtain ⟨hp, hr⟩ := distinct_cons.mp h
    have hkeep : spared [p] rest = [p] := spared_eq_self (by simpa using hp)
    calc (p :: rest).foldl supersede parameters
        = spared (spared parameters [p] ++ [p]) rest ++ rest := by
          rw [List.foldl_cons, supersede_eq, ih hr]
      _ = spared (spared parameters [p]) rest ++ spared [p] rest ++ rest := by
          rw [spared_append]
      _ = spared parameters (p :: rest) ++ (p :: rest) := by
          rw [hkeep, ← spared_cons, List.append_assoc, List.singleton_append]

/-- Nothing comes from elsewhere, also where overrides collide with one another. -/
theorem mem_or_mem_of_mem_foldl_supersede {parameters overrides : List (Parameter φ)}
    {p : Parameter φ} (h : p ∈ overrides.foldl supersede parameters) :
    p ∈ parameters ∨ p ∈ overrides := by
  induction overrides generalizing parameters with
  | nil => exact .inl h
  | cons q rest ih =>
    rcases ih h with hp | hp
    · rw [supersede_eq, List.mem_append, List.mem_singleton] at hp
      rcases hp with hp | rfl
      · exact .inl (mem_spared.mp hp).1
      · exact .inr (List.mem_cons_self ..)
    · exact .inr (List.mem_cons_of_mem _ hp)

/-- Superseding never fails. -/
theorem outcome_supersedeAll (parameters overrides : List (Parameter φ)) :
    (supersedeAll parameters overrides).outcome = .ok (overrides.foldl supersede parameters) := by
  rw [supersedeAll]
  induction overrides generalizing parameters with
  | nil => rfl
  | cons p rest ih =>
    rw [List.foldlM_cons, Traced.outcome_bind_eq_ok_iff]
    refine ⟨supersede parameters p, ?_, ih _⟩
    split <;> rfl

/-! ## Manufacturers -/

/-- Supersedes inside one manufacturer, which is made known if it was not. -/
def Manufacturers.override (held : Manufacturers φ) (entry : UInt16 × Manufacturer φ) :
    Manufacturers φ :=
  let known := held[entry.1]?.getD { name := entry.2.name }
  held.insert entry.1
    { known with parameters := entry.2.parameters.foldl supersede known.parameters }

theorem Manufacturers.parametersUnder_override (held : Manufacturers φ)
    (entry : UInt16 × Manufacturer φ) (id : UInt16) :
    (held.override entry).parametersUnder id =
      if entry.1 = id then entry.2.parameters.foldl supersede (held.parametersUnder id)
      else held.parametersUnder id := by
  rw [override, parametersUnder_insert]
  by_cases h : entry.1 = id
  · subst h
    simp only [if_true, parametersUnder]
    cases held[entry.1]? <;> rfl
  · rw [if_neg h, if_neg h]

theorem Manufacturers.parametersUnder_foldl_override {entries : List (UInt16 × Manufacturer φ)}
    (hn : (entries.map (·.1)).Nodup) (hd : ∀ entry ∈ entries, Distinct entry.2.parameters)
    (held : Manufacturers φ) (id : UInt16) :
    (entries.foldl override held).parametersUnder id =
      spared (held.parametersUnder id) (RdmRegistry.parametersUnder id entries) ++
        RdmRegistry.parametersUnder id entries := by
  induction entries generalizing held with
  | nil => simp
  | cons entry rest ih =>
    rw [List.map_cons, List.nodup_cons] at hn
    rw [List.forall_mem_cons] at hd
    rw [List.foldl_cons, ih hn.2 hd.2, parametersUnder_override, parametersUnder_cons]
    by_cases h : entry.1 = id
    · -- No later entry has the identifier, so nothing is superseded a second time.
      have hnil : RdmRegistry.parametersUnder id rest = [] := parametersUnder_eq_nil (h ▸ hn.1)
      rw [if_pos h, if_pos h, hnil, spared_nil, List.append_nil, List.append_nil,
        foldl_supersede hd.1]
    · rw [if_neg h, if_neg h, List.nil_append]

/-- Superseding in manufacturers fails only for what repeats in the entries. -/
theorem Manufacturers.supersedeAll_eq_ok_iff {held result : Manufacturers φ} {seen : List UInt16}
    {entries : List (UInt16 × Manufacturer φ)} :
    (held.supersedeAll seen entries).outcome = .ok result ↔
      ((entries.map (·.1)).Nodup ∧ ∀ id ∈ entries.map (·.1), id ∉ seen) ∧
        (∀ entry ∈ entries, Distinct entry.2.parameters) ∧ result = entries.foldl override held := by
  induction entries generalizing held seen with
  | nil =>
    simp only [supersedeAll, Traced.pure_eq, List.map_nil, List.nodup_nil, List.foldl_nil]
    simp [eq_comm]
  | cons entry rest ih =>
    obtain ⟨id, listed⟩ := entry
    rw [supersedeAll, ← firstRepeatAfter?_eq_none_iff, List.map_cons, firstRepeatAfter?,
      List.forall_mem_cons, ← Clash.first?_eq_none_iff]
    split
    · simp [Traced.fail]
    split
    · next clash hc => simp [Traced.fail, hc]
    next hs hc =>
    simp only [Traced.outcome_bind_eq_ok_iff, outcome_supersedeAll, Except.ok.injEq,
      exists_eq_left', ih, ← firstRepeatAfter?_eq_none_iff, hc, true_and]
    rfl

namespace Draft

/-- The draft with the parameters of a definition in place of those that they collide with. -/
def overriddenBy (draft : Draft φ) (definition : Definition φ) : Draft φ :=
  { version := max draft.version definition.version
    esta := definition.esta.foldl supersede draft.esta
    manufacturers := definition.manufacturers.foldl Manufacturers.override draft.manufacturers }

@[simp] theorem version_overriddenBy (draft : Draft φ) (definition : Definition φ) :
    (draft.overriddenBy definition).version = max draft.version definition.version := rfl

@[simp] theorem overriddenBy_empty (draft : Draft φ) : draft.overriddenBy {} = draft := by
  simp [overriddenBy]

/-- Every scope keeps what no override of it collides with; the overrides follow. -/
theorem parametersOf_overriddenBy (draft : Draft φ) {definition : Definition φ}
    (h : definition.NoRepeats) (scope : Scope) :
    (draft.overriddenBy definition).parametersOf scope =
      spared (draft.parametersOf scope) (definition.parametersOf scope) ++
        definition.parametersOf scope := by
  obtain ⟨hn, he, hm⟩ := Definition.noRepeats_iff.mp h
  cases scope with
  | esta => exact foldl_supersede he draft.esta
  | manufacturer id => exact Manufacturers.parametersUnder_foldl_override hn hm ..

/-- Overrides are applied exactly when nothing repeats in them. -/
theorem applyOverrides_eq_ok_iff {draft next : Draft φ} {definition : Definition φ} :
    (draft.applyOverrides definition).outcome = .ok next ↔
      definition.NoRepeats ∧ next = draft.overriddenBy definition := by
  rw [Definition.noRepeats_iff, applyOverrides]
  split
  · next clash hc =>
    have : ¬ Distinct definition.esta := by
      rw [← Clash.first?_eq_none_iff, hc]
      exact Option.some_ne_none clash
    simp [Traced.fail, this]
  next hc =>
  have he : Distinct definition.esta := Clash.first?_eq_none_iff.mp hc
  simp only [Traced.outcome_bind_eq_ok_iff, outcome_supersedeAll, Except.ok.injEq,
    exists_eq_left', Manufacturers.supersedeAll_eq_ok_iff, Traced.pure_eq]
  constructor
  · intro hgiven
    obtain ⟨manufacturers, ⟨⟨hn, -⟩, hm, rfl⟩, rfl⟩ := hgiven
    exact ⟨⟨hn, he, hm⟩, rfl⟩
  · intro hgiven
    obtain ⟨⟨hn, -, hm⟩, rfl⟩ := hgiven
    exact ⟨_, ⟨⟨hn, by simp⟩, hm, rfl⟩, rfl⟩

end Draft

end RdmRegistry
