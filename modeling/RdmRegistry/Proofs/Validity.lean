/-
What validation accepts. A definition is valid exactly when each of its parameters and each of its
manufacturers is (`Definition.validate_eq_ok_iff`), so the order in which they are listed does not
matter (`Definition.validate_eq_ok_iff_of_perm`); only which violation is reported depends on it.

A draft stays valid when valid overrides are applied to it (`Draft.validate_overriddenBy`): a
manufacturer that is known keeps its name, and every parameter comes from one of the two sides.
-/
import RdmRegistry.Proofs.Building

namespace RdmRegistry

variable {φ : Type}

theorem isManufacturerValue_iff {value : UInt16} :
    isManufacturerValue value = true ↔ 0x8000 ≤ value ∧ value ≤ 0xFFDF := by
  rw [isManufacturerValue, Bool.and_eq_true, decide_eq_true_eq, decide_eq_true_eq]
  rfl

theorem forM_eq_ok_iff {ε α : Type} {check : α → Except ε Unit} {items : List α} :
    items.forM check = .ok () ↔ ∀ a ∈ items, check a = .ok () := by
  induction items with
  | nil => simp [List.forM, pure, Except.pure]
  | cons a rest ih =>
    rw [List.forall_mem_cons, ← ih, List.forM, except_bind_eq_ok_iff]
    exact ⟨fun ⟨(), h⟩ => h, fun h => ⟨(), h⟩⟩

theorem Parameter.validateEsta_eq_ok_iff {p : Parameter φ} :
    p.validateEsta = .ok () ↔ isWord p.name = true ∧ isManufacturerValue p.value = false := by
  rw [validateEsta]
  cases isWord p.name <;> cases isManufacturerValue p.value <;> simp

theorem Parameter.validateFor_eq_ok_iff {id : UInt16} {p : Parameter φ} :
    p.validateFor id = .ok () ↔ isWord p.name = true ∧ isManufacturerValue p.value = true := by
  rw [validateFor]
  cases isWord p.name <;> cases isManufacturerValue p.value <;> simp

theorem Manufacturer.validate_eq_ok_iff {id : UInt16} {m : Manufacturer φ} :
    m.validate id = .ok () ↔ id ≠ estaId ∧ isBlankName m.name = false ∧
      ∀ p ∈ m.parameters, p.validateFor id = .ok () := by
  rw [validate, ← forM_eq_ok_iff]
  split
  · next h => simp [h]
  split
  · next h => simp [h]
  · next hid hname => simp [hid, hname]

theorem Definition.validate_eq_ok_iff {definition : Definition φ} :
    definition.validate = .ok () ↔ (∀ p ∈ definition.esta, p.validateEsta = .ok ()) ∧
      ∀ entry ∈ definition.manufacturers, entry.2.validate entry.1 = .ok () := by
  rw [validate, ← forM_eq_ok_iff, ← forM_eq_ok_iff, except_bind_eq_ok_iff]
  exact ⟨fun ⟨(), h⟩ => h, fun h => ⟨(), h⟩⟩

/-- Manufacturers may be listed in any order. -/
theorem Definition.validate_eq_ok_iff_of_perm {definition : Definition φ}
    {manufacturers : List (UInt16 × Manufacturer φ)}
    (h : manufacturers.Perm definition.manufacturers) :
    { definition with manufacturers }.validate = .ok () ↔ definition.validate = .ok () := by
  simp only [validate_eq_ok_iff, h.mem_iff]

/-! ## Drafts -/

/-- Every manufacturer is valid under its identifier. -/
def Manufacturers.Valid (held : Manufacturers φ) : Prop :=
  ∀ (id : UInt16) (m : Manufacturer φ), held[id]? = some m → m.validate id = .ok ()

theorem Draft.validate_definition_eq_ok_iff {draft : Draft φ} :
    draft.definition.validate = .ok () ↔
      (∀ p ∈ draft.esta, p.validateEsta = .ok ()) ∧ draft.manufacturers.Valid := by
  rw [Definition.validate_eq_ok_iff]
  exact and_congr_right fun _ =>
    ⟨fun h id m hm => h (id, m) (mem_definition_manufacturers.mpr hm),
      fun h entry he => h entry.1 entry.2 (mem_definition_manufacturers.mp he)⟩

theorem Manufacturers.Valid.override {held : Manufacturers φ} {entry : UInt16 × Manufacturer φ}
    (h : held.Valid) (he : entry.2.validate entry.1 = .ok ()) : (held.override entry).Valid := by
  intro id m hm
  rw [Manufacturers.override, Std.ExtTreeMap.getElem?_insert] at hm
  by_cases hid : entry.1 = id
  · subst hid
    simp only [Std.ReflCmp.compare_self, if_true, Option.some.injEq] at hm
    subst hm
    obtain ⟨hreserved, hname, hlisted⟩ := Manufacturer.validate_eq_ok_iff.mp he
    rw [Manufacturer.validate_eq_ok_iff]
    -- The name is of the side that knew the manufacturer first; the parameters are of both.
    cases hk : held[entry.1]? with
    | none =>
      refine ⟨hreserved, hname, fun p hp => ?_⟩
      exact hlisted p ((mem_or_mem_of_mem_foldl_supersede hp).resolve_left (List.not_mem_nil))
    | some known =>
      obtain ⟨-, hname, hknown⟩ := Manufacturer.validate_eq_ok_iff.mp (h entry.1 known hk)
      refine ⟨hreserved, hname, fun p hp => ?_⟩
      exact (mem_or_mem_of_mem_foldl_supersede hp).elim (hknown p) (hlisted p)
  · rw [if_neg (by simpa using hid)] at hm
    exact h id m hm

theorem Manufacturers.Valid.foldl_override {held : Manufacturers φ}
    {entries : List (UInt16 × Manufacturer φ)} (h : held.Valid)
    (he : ∀ entry ∈ entries, entry.2.validate entry.1 = .ok ()) :
    (entries.foldl Manufacturers.override held).Valid := by
  induction entries generalizing held with
  | nil => exact h
  | cons entry rest ih =>
    obtain ⟨hentry, hrest⟩ := List.forall_mem_cons.mp he
    exact ih (h.override hentry) hrest

/-- Valid overrides leave a valid draft valid. -/
theorem Draft.validate_overriddenBy {draft : Draft φ} {definition : Definition φ}
    (h : draft.definition.validate = .ok ()) (hd : definition.validate = .ok ()) :
    (draft.overriddenBy definition).definition.validate = .ok () := by
  obtain ⟨hesta, hheld⟩ := validate_definition_eq_ok_iff.mp h
  obtain ⟨hlisted, hentries⟩ := Definition.validate_eq_ok_iff.mp hd
  refine validate_definition_eq_ok_iff.mpr ⟨fun p hp => ?_, hheld.foldl_override hentries⟩
  exact (mem_or_mem_of_mem_foldl_supersede hp).elim (hesta p) (hlisted p)

end RdmRegistry
