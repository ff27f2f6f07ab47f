/-
The order in which a definition lists its manufacturers. A draft holds them in the order of their
identifiers, so a definition without repeated manufacturers is added alike in whatever order it
lists them (`Draft.add_perm`), and validation and building see no difference.

`order_of_manufacturers_is_irrelevant`: it loads alike, event by event, to the same registry or the
same failure. Validating the definition itself would not do: that reports the first violation in the
listed order.
-/
import RdmRegistry.Proofs.MergedLoad

namespace RdmRegistry

variable {φ : Type}

theorem Draft.add_perm (draft : Draft φ) {definition : Definition φ}
    (hn : (definition.manufacturers.map (·.1)).Nodup)
    {manufacturers : List (UInt16 × Manufacturer φ)}
    (h : manufacturers.Perm definition.manufacturers) :
    draft.add { definition with manufacturers } = draft.add definition := by
  have hn' : (manufacturers.map (·.1)).Nodup := (h.map _).nodup_iff.mpr hn
  calc draft.add { definition with manufacturers }
      = .ok (draft.plus { definition with manufacturers }) := draft.add_of_nodup hn'
    _ = .ok (draft.plus definition) := by rw [draft.plus_perm hn h]
    _ = draft.add definition := (draft.add_of_nodup hn).symm

/-- **The order in which manufacturers are listed is irrelevant.** A definition that lists none twice
loads alike in every order, from memory and from a file: with the same events, to the same registry
or the same failure. -/
theorem order_of_manufacturers_is_irrelevant {definition : Definition φ}
    (hn : (definition.manufacturers.map (·.1)).Nodup)
    {manufacturers : List (UInt16 × Manufacturer φ)}
    (h : manufacturers.Perm definition.manufacturers) (validate : Bool) :
    load (.memory { definition with manufacturers }) validate =
      load (.memory definition) validate ∧
    ∀ (path : Path) (reader reordered : Reader φ), reader path = .ok definition →
      reordered path = .ok { definition with manufacturers } →
      load (.file path reordered) validate = load (.file path reader) validate := by
  have hadd : Draft.add ({} : Draft φ) { definition with manufacturers } = Draft.add {} definition :=
    Draft.add_perm {} hn h
  constructor
  · -- A definition in memory is described by its version alone.
    have hname : (Source.memory { definition with manufacturers }).describe =
        (Source.memory definition).describe := rfl
    rw [load, load, hname, Source.read, Source.read, pure_bind, pure_bind, hadd]
  · intro path reader reordered hreader hreordered
    have hname : (Source.file path reordered).describe = (Source.file path reader).describe := rfl
    rw [load, load, hname, Source.read, Source.read, parse, parse, hreader, hreordered]
    simp only [Traced.ofExcept, Traced.bind_ok, bind_assoc]
    rw [hadd]

/-- Two manufacturers that both break the rules and both have a value twice. -/
def faultyPair : Definition Unit :=
  { version := 3
    manufacturers :=
      [(2, { name := "M", parameters := [{ name := "X", value := 6 }, { name := "Y", value := 6 }] }),
        (1, { name := "N", parameters := [{ name := "X", value := 5 }, { name := "Y", value := 5 }] })] }

theorem order_of_manufacturers_is_irrelevant_faulty :
    (faultyPair.manufacturers.map (·.1)).Nodup ∧
    faultyPair.manufacturers.reverse.Perm faultyPair.manufacturers ∧
    (load (.memory { faultyPair with manufacturers := faultyPair.manufacturers.reverse })
      true).outcome = .error (.invalid (.outsideManufacturerRange 1 "X" 5)) ∧
    (load (.memory { faultyPair with manufacturers := faultyPair.manufacturers.reverse })
      false).outcome = .error (.manufacturer 1 (.value 5)) := by
  have hn : (faultyPair.manufacturers.map (·.1)).Nodup := by decide
  have hperm : faultyPair.manufacturers.reverse.Perm faultyPair.manufacturers :=
    List.reverse_perm _
  refine ⟨hn, hperm, ?_, ?_⟩
  · rw [(order_of_manufacturers_is_irrelevant hn hperm true).1]
    rfl
  · rw [(order_of_manufacturers_is_irrelevant hn hperm false).1]
    rfl

/-- Validated as it is listed, the pair is faulted for the manufacturer that comes first. -/
example : faultyPair.validate = .error (.outsideManufacturerRange 2 "X" 6) := rfl

end RdmRegistry
