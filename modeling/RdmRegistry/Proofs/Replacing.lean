/-
Which overrides take the place of something. An override does when it collides with a base parameter
of its scope that no override before it has removed; `replacements` says this by position in the list.

Superseding decides it step by step, by what each override finds in the list that the one before it
left. That list has the earlier overrides in it too, but as long as no two overrides collide they make
no difference (`events_supersedeAll_append`). `Draft.events_applyOverrides` says it of all scopes: overrides
that are applied report just their replacements, ESTA first and then manufacturers as they are listed.
-/
import Mathlib.Data.List.Basic
import RdmRegistry.Proofs.Overriding

namespace RdmRegistry

variable {φ : Type}

/-- The overrides that collide with a base parameter which none before them collides with. -/
def replacements (base overrides : List (Parameter φ)) : List (Parameter φ) :=
  (overrides.zipIdx.filter fun (p, i) =>
    base.any fun q => q.collides p && !(overrides.take i).any q.collides).map (·.1)

theorem replacements_cons (base : List (Parameter φ)) (p : Parameter φ)
    (rest : List (Parameter φ)) :
    replacements base (p :: rest) =
      (if base.any (·.collides p) then [p] else []) ++ replacements (spared base [p]) rest := by
  have hhead : (base.any fun q => q.collides p && !([] : List (Parameter φ)).any q.collides) =
      base.any (·.collides p) := by
    simp
  -- Behind `p`, the overrides before another one are `p` and those that stood before it in the rest.
  have hrest (entry : Parameter φ × Nat) :
      (base.any fun q =>
          q.collides entry.1 && !((p :: rest).take (entry.2 + 1)).any q.collides) =
        (spared base [p]).any fun q =>
          q.collides entry.1 && !(rest.take entry.2).any q.collides := by
    simp only [spared, List.any_filter, List.take_succ_cons, List.any_cons, List.any_nil,
      Bool.or_false, Bool.not_or, ← Bool.and_assoc]
    congr 1
    funext q
    rw [Bool.and_comm (q.collides entry.1)]
  rw [replacements, List.zipIdx_cons, List.zipIdx_succ, List.filter_cons, List.filter_map]
  simp only [Function.comp_def, List.take_zero, hhead, hrest]
  split <;> simp [replacements]

/-- The report of a parameter that takes the place of others. -/
def Parameter.replacing (p : Parameter φ) : Event :=
  .replacing p.name p.value

/-- What stands in the list besides base parameters changes nothing if no override collides with it. -/
theorem events_supersedeAll_append {base others overrides : List (Parameter φ)} (h : Distinct overrides)
    (ho : ∀ q ∈ others, ∀ p ∈ overrides, q.collides p = false) :
    (supersedeAll (base ++ others) overrides).events =
      (replacements base overrides).map Parameter.replacing := by
  induction overrides generalizing base others with
  | nil => rfl
  | cons p rest ih =>
    obtain ⟨hp, hr⟩ := distinct_cons.mp h
    have hany : (base ++ others).any (·.collides p) = base.any (·.collides p) := by
      have hnone : others.any (·.collides p) = false :=
        List.any_eq_false.mpr fun q hq => by simp [ho q hq p (List.mem_cons_self ..)]
      rw [List.any_append, hnone, Bool.or_false]
    have hnext : supersede (base ++ others) p = spared base [p] ++ (others ++ [p]) := by
      have hkeep : spared others [p] = others :=
        spared_eq_self fun q hq r hr => by
          rw [List.mem_singleton.mp hr]
          exact ho q hq p (List.mem_cons_self ..)
      rw [supersede_eq, spared_append, hkeep, List.append_assoc]
    have hothers : ∀ q ∈ others ++ [p], ∀ r ∈ rest, q.collides r = false := by
      refine List.forall_mem_append.mpr ⟨fun q hq r hr => ?_, by simpa using hp⟩
      exact ho q hq r (List.mem_cons_of_mem _ hr)
    have hrest : (supersedeAll (spared base [p] ++ (others ++ [p])) rest).events =
        (replacements (spared base [p]) rest).map Parameter.replacing := ih hr hothers
    rw [← hnext] at hrest
    rw [supersedeAll, List.foldlM_cons, replacements_cons, List.map_append, ← hrest]
    by_cases hc : base.any (·.collides p) = true
    · rw [if_pos (hany.trans hc), if_pos hc]
      rfl
    · rw [if_neg (hany ▸ hc), if_neg hc]
      rfl

/-- Superseding reports just the replacements. -/
theorem events_supersedeAll (base : List (Parameter φ)) {overrides : List (Parameter φ)}
    (h : Distinct overrides) :
    (supersedeAll base overrides).events =
      (replacements base overrides).map Parameter.replacing := by
  have hnil : (supersedeAll (base ++ []) overrides).events = _ :=
    events_supersedeAll_append h (by simp)
  rwa [List.append_nil] at hnil

/-! ## All scopes -/

/-- The overrides of a definition that take the place of what their scopes have: ESTA first, then the
manufacturers as they are listed. -/
def Definition.replacements (overrides : Definition φ) (baseOf : Scope → List (Parameter φ)) :
    List (Parameter φ) :=
  RdmRegistry.replacements (baseOf .esta) overrides.esta ++
    overrides.manufacturers.flatMap fun (id, m) =>
      RdmRegistry.replacements (baseOf (.manufacturer id)) m.parameters

theorem Manufacturers.events_supersedeAll {held result : Manufacturers φ} {seen : List UInt16}
    {entries : List (UInt16 × Manufacturer φ)}
    (h : (held.supersedeAll seen entries).outcome = .ok result) :
    (held.supersedeAll seen entries).events =
      (entries.flatMap fun (id, m) =>
        replacements (held.parametersUnder id) m.parameters).map Parameter.replacing := by
  induction entries generalizing held seen with
  | nil => rfl
  | cons entry rest ih =>
    obtain ⟨id, listed⟩ := entry
    obtain ⟨⟨hids, -⟩, hd, -⟩ := supersedeAll_eq_ok_iff.mp h
    have hlisted : Distinct listed.parameters := hd _ (List.mem_cons_self ..)
    rw [supersedeAll] at h ⊢
    split at h
    · cases h
    next hseen =>
    split at h
    · cases h
    rw [if_neg hseen]
    rw [Traced.outcome_bind_of_ok (outcome_supersedeAll ..)] at h
    have hfirst : (RdmRegistry.supersedeAll (held[id]?.getD { name := listed.name }).parameters
        listed.parameters).events =
          (replacements (held.parametersUnder id) listed.parameters).map Parameter.replacing := by
      have hknown : (held[id]?.getD { name := listed.name }).parameters =
          held.parametersUnder id := by
        rw [parametersUnder]
        cases held[id]? <;> rfl
      rw [hknown, RdmRegistry.events_supersedeAll _ hlisted]
    -- Another manufacturer of the list has its own parameters, which this one does not touch.
    have hothers : ∀ entry ∈ rest, entry.1 ≠ id := by
      intro entry hm he
      exact (List.nodup_cons.mp hids).1 (List.mem_map.mpr ⟨entry, hm, he⟩)
    dsimp only
    rw [Traced.events_bind_of_ok (outcome_supersedeAll ..), hfirst, ih h, List.flatMap_cons,
      List.map_append]
    congr 2
    refine List.flatMap_congr fun entry hm => ?_
    dsimp only
    rw [parametersUnder_insert, if_neg (hothers entry hm).symm]

/-- Overrides that are applied report their replacements and nothing else. -/
theorem Draft.events_applyOverrides {draft next : Draft φ} {overrides : Definition φ}
    (h : (draft.applyOverrides overrides).outcome = .ok next) :
    (draft.applyOverrides overrides).events =
      (overrides.replacements draft.parametersOf).map Parameter.replacing := by
  have he : Distinct overrides.esta :=
    (Definition.noRepeats_iff.mp (applyOverrides_eq_ok_iff.mp h).1).2.1
  rw [applyOverrides, Clash.first?_eq_none_iff.mpr he] at h ⊢
  dsimp only at h ⊢
  rw [Traced.outcome_bind_of_ok (outcome_supersedeAll ..)] at h
  obtain ⟨manufacturers, hm, -⟩ := Traced.outcome_bind_eq_ok_iff.mp h
  rw [Traced.events_bind_of_ok (outcome_supersedeAll ..), Traced.events_bind_of_ok hm,
    events_supersedeAll _ he, Manufacturers.events_supersedeAll hm, Definition.replacements, List.map_append]
  exact congrArg _ (List.append_nil _)

end RdmRegistry
