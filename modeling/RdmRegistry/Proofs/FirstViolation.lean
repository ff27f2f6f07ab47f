/-
Which violation is reported. `Definition.violations` lists whatever is wrong with a definition, in the
order of its rules: ESTA parameters as listed, then manufacturers as listed, of each the identifier,
the name and its parameters, of each parameter the name before the value.

A check fails with the first item of such a list (`failFirst`), checks one after the other with the
first item of the lists put together (`failFirst_append`, `forM_eq_failFirst`), and so validation as a
whole: `first_violation_is_reported`.
-/
import RdmRegistry.Proofs.Validity

namespace RdmRegistry

variable {φ : Type}

/-! ## Checks that report the first item of a list -/

section

variable {ε α : Type}

/-- Fails with the first of the faults, if there is one. -/
def failFirst : List ε → Except ε Unit
  | [] => .ok ()
  | fault :: _ => .error fault

theorem failFirst_eq_ok_iff {faults : List ε} : failFirst faults = .ok () ↔ faults = [] := by
  cases faults <;> simp [failFirst]

theorem failFirst_eq_error_iff {faults : List ε} {fault : ε} :
    failFirst faults = .error fault ↔ faults.head? = some fault := by
  cases faults <;> simp [failFirst]

theorem mapError_failFirst {δ : Type} (wrap : ε → δ) (faults : List ε) :
    (failFirst faults).mapError wrap = failFirst (faults.map wrap) := by
  cases faults <;> rfl

theorem failFirst_append (first second : List ε) :
    failFirst (first ++ second) = failFirst first >>= fun _ => failFirst second := by
  cases first <;> rfl

theorem forM_eq_failFirst {check : α → Except ε Unit} {faultsOf : α → List ε}
    (h : ∀ a, check a = failFirst (faultsOf a)) (items : List α) :
    items.forM check = failFirst (items.flatMap faultsOf) := by
  induction items with
  | nil => rfl
  | cons a rest ih => rw [List.forM, h a, ih, List.flatMap_cons, failFirst_append]

/-- The fault, if the rule is broken. -/
def faultIf (broken : Prop) [Decidable broken] (fault : ε) : List ε :=
  if broken then [fault] else []

theorem faultIf_eq_nil_iff {broken : Prop} [Decidable broken] {fault : ε} :
    faultIf broken fault = [] ↔ ¬ broken := by
  by_cases h : broken <;> simp [faultIf, h]

theorem failFirst_faultIf (broken : Prop) [Decidable broken] (fault : ε) :
    failFirst (faultIf broken fault) = if broken then .error fault else .ok () := by
  by_cases h : broken <;> simp [faultIf, failFirst, h]

/-- A rule that is looked at first hides all later faults when it is broken. -/
theorem failFirst_faultIf_append (broken : Prop) [Decidable broken] (fault : ε)
    (later : List ε) :
    failFirst (faultIf broken fault ++ later) =
      if broken then .error fault else failFirst later := by
  by_cases h : broken <;> simp [faultIf, failFirst, h]

end

/-! ## The rules -/

/-- The name is one word: not empty, and without white space. -/
def IsSingleWord (name : String) : Prop :=
  name ≠ "" ∧ ∀ c ∈ name.toList, c.toNat ∉ Text.whiteSpace
  deriving Decidable

/-- Something stands in the name besides white space. -/
def SaysSomething (name : String) : Prop :=
  ∃ c ∈ name.toList, c.toNat ∉ Text.whiteSpace
  deriving Decidable

/-- The value is one of those set aside for manufacturers. -/
def OfManufacturers (value : UInt16) : Prop :=
  0x8000 ≤ value ∧ value ≤ 0xFFDF
  deriving Decidable

theorem isWord_iff {name : String} : isWord name = true ↔ IsSingleWord name := by
  simp [isWord, IsSingleWord, ← Text.isBlank_iff]

theorem isBlankName_iff {name : String} : isBlankName name = true ↔ ¬ SaysSomething name := by
  rw [isBlankName, List.isEmpty_iff, Text.trim_eq_nil_iff]
  simp [SaysSomething, ← Text.isBlank_iff]

theorem isManufacturerValue_iff_ofManufacturers {value : UInt16} :
    isManufacturerValue value = true ↔ OfManufacturers value :=
  isManufacturerValue_iff

/-- Every rule is kept. -/
structure Definition.IsValid (definition : Definition φ) : Prop where
  estaNames : ∀ p ∈ definition.esta, IsSingleWord p.name
  estaValues : ∀ p ∈ definition.esta, ¬ OfManufacturers p.value
  ids : ∀ entry ∈ definition.manufacturers, entry.1 ≠ 0
  names : ∀ entry ∈ definition.manufacturers, SaysSomething entry.2.name
  parameterNames : ∀ entry ∈ definition.manufacturers, ∀ p ∈ entry.2.parameters, IsSingleWord p.name
  parameterValues : ∀ entry ∈ definition.manufacturers, ∀ p ∈ entry.2.parameters,
    OfManufacturers p.value

/-! ## All violations in order -/

def Parameter.nameViolations (p : Parameter φ) : List Violation :=
  faultIf (¬ IsSingleWord p.name) (.unusableName p.name p.value)

def Parameter.estaViolations (p : Parameter φ) : List Violation :=
  p.nameViolations ++
    faultIf (OfManufacturers p.value) (.estaInManufacturerRange p.name p.value)

def Parameter.violationsFor (id : UInt16) (p : Parameter φ) : List Violation :=
  p.nameViolations ++
    faultIf (¬ OfManufacturers p.value) (.outsideManufacturerRange id p.name p.value)

def Manufacturer.violations (id : UInt16) (m : Manufacturer φ) : List Violation :=
  faultIf (id = 0) .reservedId ++ faultIf (¬ SaysSomething m.name) (.namelessManufacturer id) ++
    m.parameters.flatMap (Parameter.violationsFor id)

/-- Everything that is wrong with a definition, in the order of the rules. -/
def Definition.violations (definition : Definition φ) : List Violation :=
  definition.esta.flatMap Parameter.estaViolations ++
    definition.manufacturers.flatMap fun (id, m) => m.violations id

/-! ## Each check fails with its first violation -/

theorem Parameter.validateEsta_eq_failFirst (p : Parameter φ) :
    p.validateEsta = failFirst p.estaViolations := by
  rw [validateEsta, estaViolations, nameViolations, failFirst_faultIf_append]
  simp only [Bool.not_eq_true', Bool.eq_false_iff, Ne, isWord_iff,
    isManufacturerValue_iff_ofManufacturers, failFirst_faultIf]

theorem Parameter.validateFor_eq_failFirst (id : UInt16) (p : Parameter φ) :
    p.validateFor id = failFirst (p.violationsFor id) := by
  rw [validateFor, violationsFor, nameViolations, failFirst_faultIf_append]
  simp only [Bool.not_eq_true', Bool.eq_false_iff, Ne, isWord_iff,
    isManufacturerValue_iff_ofManufacturers, failFirst_faultIf]

theorem Manufacturer.validate_eq_failFirst (id : UInt16) (m : Manufacturer φ) :
    m.validate id = failFirst (m.violations id) := by
  rw [validate, violations, List.append_assoc, failFirst_faultIf_append, failFirst_faultIf_append,
    forM_eq_failFirst (Parameter.validateFor_eq_failFirst id)]
  simp only [isBlankName_iff, estaId]

theorem Definition.validate_eq_failFirst (definition : Definition φ) :
    definition.validate = failFirst definition.violations := by
  have hmanufacturers (entry : UInt16 × Manufacturer φ) :
      entry.2.validate entry.1 = failFirst (entry.2.violations entry.1) :=
    Manufacturer.validate_eq_failFirst entry.1 entry.2
  rw [validate, violations, failFirst_append, forM_eq_failFirst Parameter.validateEsta_eq_failFirst,
    forM_eq_failFirst hmanufacturers]

/-! ## Nothing is wrong -/

theorem Parameter.estaViolations_eq_nil_iff {p : Parameter φ} :
    p.estaViolations = [] ↔ IsSingleWord p.name ∧ ¬ OfManufacturers p.value := by
  simp [estaViolations, nameViolations, faultIf_eq_nil_iff]

theorem Parameter.violationsFor_eq_nil_iff {id : UInt16} {p : Parameter φ} :
    p.violationsFor id = [] ↔ IsSingleWord p.name ∧ OfManufacturers p.value := by
  simp [violationsFor, nameViolations, faultIf_eq_nil_iff]

theorem Manufacturer.violations_eq_nil_iff {id : UInt16} {m : Manufacturer φ} :
    m.violations id = [] ↔ id ≠ 0 ∧ SaysSomething m.name ∧
      ∀ p ∈ m.parameters, IsSingleWord p.name ∧ OfManufacturers p.value := by
  simp [violations, faultIf_eq_nil_iff, Parameter.violationsFor_eq_nil_iff]

theorem Definition.violations_eq_nil_iff {definition : Definition φ} :
    definition.violations = [] ↔ definition.IsValid := by
  rw [violations, List.append_eq_nil_iff, List.flatMap_eq_nil_iff, List.flatMap_eq_nil_iff]
  simp only [Parameter.estaViolations_eq_nil_iff, Manufacturer.violations_eq_nil_iff]
  constructor
  · intro hgiven
    obtain ⟨hesta, hmanufacturers⟩ := hgiven
    exact {
      estaNames := fun p hp => (hesta p hp).1
      estaValues := fun p hp => (hesta p hp).2
      ids := fun entry he => (hmanufacturers entry he).1
      names := fun entry he => (hmanufacturers entry he).2.1
      parameterNames := fun entry he p hp => ((hmanufacturers entry he).2.2 p hp).1
      parameterValues := fun entry he p hp => ((hmanufacturers entry he).2.2 p hp).2 }
  · intro h
    exact ⟨fun p hp => ⟨h.estaNames p hp, h.estaValues p hp⟩,
      fun entry he => ⟨h.ids entry he, h.names entry he,
        fun p hp => ⟨h.parameterNames entry he p hp, h.parameterValues entry he p hp⟩⟩⟩

/-- **Validation accepts the valid definitions and reports the first violation of all others**, with
its message. -/
theorem first_violation_is_reported (definition : Definition φ) :
    (definition.validate = .ok () ↔ definition.IsValid) ∧
    (∀ violation, definition.validate = .error violation ↔
      definition.violations.head? = some violation) ∧
    ∀ text, definition.validate.mapError Violation.message = .error text ↔
      (definition.violations.map Violation.message).head? = some text := by
  rw [definition.validate_eq_failFirst, mapError_failFirst]
  exact ⟨failFirst_eq_ok_iff.trans Definition.violations_eq_nil_iff,
    fun violation => failFirst_eq_error_iff, fun text => failFirst_eq_error_iff⟩

/-- The second parameter breaks both of its rules, and the manufacturer all of its own: the name that
is no word comes first. -/
example :
    ({ esta := [{ name := "A", value := 0x7FFF }, { name := "B C", value := 0x8000 }]
       manufacturers := [(0, { name := " " })] } : Definition Unit).validate =
      .error (.unusableName "B C" 0x8000) := rfl

end RdmRegistry
