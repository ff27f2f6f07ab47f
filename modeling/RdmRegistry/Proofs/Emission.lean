/-
What each stage of a load can emit: reading emits nothing but files that are announced or parsed,
overrides nothing but replacements, and building nothing but manufacturers without parameters and the
registry that is built (`emits_mergeFiles`, `Draft.emits_applyOverrides`, `Draft.emits_build`). So an
event of one stage is never taken for one of another.
-/
import RdmRegistry.Proofs.DirectoryLoad

namespace RdmRegistry

/-! ## Kinds of events -/

namespace Event

/-- A file is about to be read, or is given to the parser. -/
def isReading : Event → Bool
  | loading .. | loadingFile .. | applyingOverrides .. | parsing .. => true
  | _ => false

/-- A parameter takes the place of others. -/
def isReplacing : Event → Bool
  | replacing .. => true
  | _ => false

/-- Something happens while a registry is built. -/
def isBuilding : Event → Bool
  | noParameters .. | built .. => true
  | _ => false

end Event

namespace Traced

variable {ε α β : Type} {kind : Event → Bool}

/-- Every event is of the kind. -/
def Emits (kind : Event → Bool) (traced : Traced ε α) : Prop :=
  ∀ event ∈ traced.events, kind event = true

theorem Emits.bind {first : Traced ε α} {next : α → Traced ε β} (hf : first.Emits kind)
    (hn : ∀ a, (next a).Emits kind) : (first >>= next).Emits kind := by
  cases h : first.outcome with
  | ok a =>
    rw [Emits, events_bind_of_ok h]
    exact List.forall_mem_append.mpr ⟨hf, hn a⟩
  | error e =>
    rw [Emits, events_bind_of_error h]
    exact hf

theorem Emits.foldlM {step : β → α → Traced ε β} (h : ∀ b a, (step b a).Emits kind)
    (items : List α) (b : β) : (items.foldlM step b).Emits kind := by
  induction items generalizing b with
  | nil => exact List.forall_mem_nil _
  | cons a rest ih => exact (h b a).bind ih

theorem emits_pure (a : α) : (pure a : Traced ε α).Emits kind :=
  List.forall_mem_nil _

theorem emits_emit {event : Event} (h : kind event = true) :
    (emit event : Traced ε Unit).Emits kind :=
  List.forall_mem_singleton.mpr h

theorem emits_ofExcept (outcome : Except ε α) : (ofExcept outcome).Emits kind :=
  List.forall_mem_nil _

theorem emits_fail (e : ε) : (fail e : Traced ε α).Emits kind :=
  List.forall_mem_nil _

theorem emits_liftError {δ : Type} (wrap : δ → ε) (outcome : Except δ α) :
    (liftError wrap outcome).Emits kind := by
  cases outcome <;> exact List.forall_mem_nil _

theorem Emits.mono {other : Event → Bool} {traced : Traced ε α} (h : traced.Emits kind)
    (hother : ∀ event, kind event = true → other event = true) : traced.Emits other :=
  fun event he => hother event (h event he)

/-- Nothing is picked out of events of which none is picked. -/
theorem Emits.filterMap_eq_nil {traced : Traced ε α} {γ : Type} {pick : Event → Option γ}
    (h : traced.Emits kind) (hpick : ∀ event, kind event = true → pick event = none) :
    traced.events.filterMap pick = [] :=
  List.filterMap_eq_nil_iff.mpr fun event he => hpick event (h event he)

theorem Emits.filter_eq_nil {traced : Traced ε α} {other : Event → Bool} (h : traced.Emits kind)
    (hother : ∀ event, kind event = true → other event = false) :
    traced.events.filter other = [] :=
  List.filter_eq_nil_iff.mpr fun event he => by simp [hother event (h event he)]

end Traced

variable {φ : Type}

/-! ## Reading -/

theorem emits_parse (reader : Reader φ) (path : Path) :
    (parse reader path).Emits Event.isReading :=
  (Traced.emits_emit rfl).bind fun _ => Traced.emits_ofExcept _

theorem emits_mergeFiles (reader : Reader φ) (paths : List Path) :
    (mergeFiles reader paths).Emits Event.isReading := by
  refine Traced.Emits.foldlM (fun draft path => ?_) paths ({} : Draft φ)
  refine Traced.Emits.bind (Traced.emits_emit rfl) fun _ => ?_
  exact (emits_parse reader path).bind fun _ => Traced.emits_ofExcept _

/-! ## Overrides -/

theorem emits_supersedeAll (parameters overrides : List (Parameter φ)) :
    (supersedeAll parameters overrides).Emits Event.isReplacing := by
  refine Traced.Emits.foldlM (fun held p => ?_) overrides parameters
  split
  · exact (Traced.emits_emit rfl).bind fun _ => Traced.emits_pure _
  · exact Traced.emits_pure _

theorem Manufacturers.emits_supersedeAll (held : Manufacturers φ) (seen : List UInt16)
    (entries : List (UInt16 × Manufacturer φ)) :
    (held.supersedeAll seen entries).Emits Event.isReplacing := by
  induction entries generalizing held seen with
  | nil => exact Traced.emits_pure _
  | cons entry rest ih =>
    obtain ⟨id, listed⟩ := entry
    rw [supersedeAll]
    split
    · exact Traced.emits_fail _
    split
    · exact Traced.emits_fail _
    · exact (RdmRegistry.emits_supersedeAll _ _).bind fun _ => ih _ _

theorem Draft.emits_applyOverrides (draft : Draft φ) (overrides : Definition φ) :
    (draft.applyOverrides overrides).Emits Event.isReplacing := by
  rw [applyOverrides]
  split
  · exact Traced.emits_fail _
  · refine (emits_supersedeAll _ _).bind fun _ => ?_
    exact (draft.manufacturers.emits_supersedeAll _ _).bind fun _ => Traced.emits_pure _

theorem emits_mergeOverrides (reader : Reader φ) (draft : Draft φ) (path? : Option Path) :
    (mergeOverrides reader draft path?).Emits fun event =>
      event.isReading || event.isReplacing := by
  cases path? with
  | none => exact Traced.emits_pure _
  | some path =>
    refine Traced.Emits.bind (Traced.emits_emit rfl) fun _ => ?_
    refine ((emits_parse reader path).mono fun event he => by simp [he]).bind fun overrides => ?_
    exact (draft.emits_applyOverrides overrides).mono fun event he => by simp [he]

/-! ## Building -/

/-- Catalogs of manufacturers are made without a word, unless there is nothing to make one of. -/
theorem emits_foldlM_addCatalog {kind : Event → Bool} (h : ∀ id, kind (.noParameters id) = true)
    (entries : List (UInt16 × Manufacturer φ)) (built : Std.ExtTreeMap UInt16 (Catalog φ)) :
    (entries.foldlM addCatalog built).Emits kind := by
  refine Traced.Emits.foldlM (fun built entry => ?_) entries built
  obtain ⟨id, m⟩ := entry
  rw [addCatalog]
  split
  · exact (Traced.emits_emit (h id)).bind fun _ => Traced.emits_pure _
  · exact (Traced.emits_liftError _ _).bind fun _ => Traced.emits_pure _

theorem Draft.emits_build (draft : Draft φ) (validate : Bool) :
    (draft.build validate).Emits Event.isBuilding := by
  have hfalse : (draft.build false).Emits Event.isBuilding := by
    refine (Traced.emits_liftError _ _).bind fun _ => ?_
    refine (emits_foldlM_addCatalog (fun _ => rfl) _ _).bind fun _ => ?_
    exact (Traced.emits_emit rfl).bind fun _ => Traced.emits_pure _
  cases validate with
  | false => exact hfalse
  | true => exact (Traced.emits_liftError _ _).bind fun _ => hfalse

end RdmRegistry
