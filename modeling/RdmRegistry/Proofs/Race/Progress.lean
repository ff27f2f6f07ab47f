/-
How long a caller tries. A swap fails only when another caller has put its registry in use since the
last look, so failed swaps are paid for by the swaps of others (`Caller.PaidBy`). Each caller swaps
once at most (`nodup_swappers`), and so nobody tries more often than there are callers.

`retries_are_bounded` says so of every schedule, and that a caller that is left alone is done after
two more attempts at most, wherever it stands.
-/
import Mathlib.Data.List.Perm.Subperm
import RdmRegistry.Proofs.Race.Soundness

namespace RdmRegistry

variable {φ : Type}

/-! ## What is counted -/

namespace Caller

/-- The number of swaps that the caller has tried. -/
def attempts : Caller φ → Nat
  | .waiting _ => 0
  | .trying _ _ attempts | .replaced _ attempts | .refused _ _ attempts => attempts

def isReplaced : Caller φ → Bool
  | .replaced .. => true
  | _ => false

/-- The allocation that the next attempt of the caller is made against. -/
def seen? : Caller φ → Option (Allocation φ)
  | .trying _ seen _ => some seen
  | _ => none

/-- The version that the caller holds its offer against since its last look, or held it against
when it was done. -/
def against? : Caller φ → Option Nat
  | .waiting _ => none
  | .trying _ seen _ => some seen.registry.version
  | .replaced previous _ => some previous.registry.version
  | .refused current _ _ => some current

/-- So many swaps of others account for the attempts of the caller. When the cell no longer holds
what the caller saw last, its next attempt is paid for as well. -/
def PaidBy (cell : Allocation φ) (swaps : Nat) : Caller φ → Prop
  | .waiting _ => True
  | .trying _ seen attempts => if cell.isSame seen then attempts ≤ swaps else attempts < swaps
  | .replaced _ attempts => attempts ≤ 1 + swaps
  | .refused _ _ attempts => attempts ≤ swaps

/-- A caller that is not done has spent its steps on one look and on its attempts. -/
def Spent (steps : Nat) : Caller φ → Prop
  | .waiting _ => steps = 0
  | .trying _ _ attempts => steps = 1 + attempts
  | .replaced .. | .refused .. => True

variable {caller : Caller φ} {cell seen : Allocation φ} {offered : Registry φ} {n tried : Nat}

/-- Every attempt that has failed is paid for, whatever is in the cell. -/
theorem PaidBy.tried_le (hpaid : (Caller.trying offered seen tried).PaidBy cell n) : tried ≤ n := by
  rw [PaidBy] at hpaid
  split at hpaid <;> omega

/-- One more swap of another caller pays for the next attempt, whatever is in the cell after it. -/
theorem PaidBy.succ (hpaid : caller.PaidBy cell n) (after : Allocation φ) :
    caller.PaidBy after (n + 1) := by
  cases caller with
  | waiting => trivial
  | trying offered seen tried =>
    have howed := hpaid.tried_le
    rw [PaidBy]
    split <;> omega
  | replaced | refused =>
    rw [PaidBy] at hpaid ⊢
    omega

theorem PaidBy.attempts_le (hpaid : caller.PaidBy cell n) : caller.attempts ≤ 1 + n := by
  cases caller with
  | waiting => exact Nat.zero_le _
  | trying offered seen tried =>
    have howed := hpaid.tried_le
    rw [attempts]
    omega
  | replaced | refused =>
    rw [PaidBy] at hpaid
    rw [attempts]
    omega

/-- Until a caller is done its steps are one look and attempts that are paid for. -/
theorem Spent.steps_le {steps : Nat} (hspent : caller.Spent steps) (hpaid : caller.PaidBy cell n)
    (hundone : caller.isDone = false) : steps ≤ 1 + n := by
  cases caller with
  | waiting =>
    rw [Spent] at hspent
    omega
  | trying offered seen tried =>
    have howed := hpaid.tried_le
    rw [Spent] at hspent
    omega
  | replaced | refused => cases hundone

end Caller

namespace Race

variable {race : Race φ} {i n : Nat}

/-- The number of swaps that the caller at a position has tried. -/
def attempts (race : Race φ) (i : Nat) : Nat :=
  (race.callers[i]?.map Caller.attempts).getD 0

/-- The version that the caller at a position holds its offer against. -/
def against? (race : Race φ) (i : Nat) : Option Nat :=
  race.callers[i]?.bind Caller.against?

/-- The next step of the caller at a position puts its offer in use. -/
def swaps (race : Race φ) (position : Nat) : Bool :=
  (race.step position).callers[position]?.any Caller.isReplaced &&
    !race.callers[position]?.any Caller.isReplaced

/-- The callers that put their offers in use along a schedule, one after another. -/
def swappers (race : Race φ) : List Nat → List Nat
  | [] => []
  | position :: schedule =>
    (if race.swaps position then [position] else []) ++ (race.step position).swappers schedule

/-! ## Steps of others -/

/-- A caller moves in its own steps only. -/
theorem getElem?_step_of_ne {position : Nat} (hne : i ≠ position) :
    (race.step position).callers[i]? = race.callers[i]? := by
  rcases race.step_cases position with ⟨hsame, _⟩ | ⟨_, _, _, hposition, _, hstep⟩
  · rw [hsame]
  · rw [hstep, getElem?_set_callers hposition, if_neg hne]

theorem getElem?_run_of_not_mem {schedule : List Nat} (hidle : i ∉ schedule) :
    (race.run schedule).callers[i]? = race.callers[i]? := by
  induction schedule generalizing race with
  | nil => rfl
  | cons position schedule ih =>
    rw [List.mem_cons, not_or] at hidle
    obtain ⟨hne, hidle⟩ := hidle
    rw [run_cons, ih hidle, getElem?_step_of_ne hne]

/-- After its own step a caller has made a move, unless it was done. -/
theorem own_step_cases {caller : Caller φ} (hfound : (race.step i).callers[i]? = some caller) :
    (race.step i = race ∧ caller.isDone = true) ∨
      ∃ before cell, race.callers[i]? = some before ∧ Move race.cell i before cell caller ∧
        (race.step i).cell = cell := by
  rcases race.step_cases i with ⟨hsame, hdone⟩ | ⟨before, cell, next, hi, hmove, hstep⟩
  · exact .inl ⟨hsame, hdone caller (hsame ▸ hfound)⟩
  · rw [hstep, getElem?_set_callers hi, if_pos rfl] at hfound
    obtain rfl := Option.some.inj hfound
    exact .inr ⟨before, cell, hi, hmove, by rw [hstep]⟩

/-! ## Swaps -/

theorem any_isReplaced_iff :
    race.callers[i]?.any Caller.isReplaced = true ↔ ∃ previous, race.Replaced i previous := by
  rw [Option.any_eq_true]
  constructor
  · intro hgiven
    obtain ⟨caller, hfound, hreplaced⟩ := hgiven
    cases caller with
    | replaced previous attempts => exact ⟨previous, attempts, hfound⟩
    | waiting | trying | refused => cases hreplaced
  · intro hgiven
    obtain ⟨previous, attempts, hfound⟩ := hgiven
    exact ⟨_, hfound, rfl⟩

theorem swaps_iff {position : Nat} :
    race.swaps position = true ↔ (∃ previous, (race.step position).Replaced position previous) ∧
      ¬∃ previous, race.Replaced position previous := by
  rw [swaps, Bool.and_eq_true, any_isReplaced_iff, Bool.not_eq_true', ← Bool.not_eq_true,
    any_isReplaced_iff]

/-- Nothing but a swap changes the cell. -/
theorem cell_step_of_not_swaps {position : Nat} (hunswapped : race.swaps position = false) :
    (race.step position).cell = race.cell := by
  rcases race.step_cases position with ⟨hsame, _⟩ | ⟨caller, cell, next, hfound, hmove, hstep⟩
  · rw [hsame]
  · have hnext : (race.step position).callers[position]? = some next := by
      rw [hstep, getElem?_set_callers hfound, if_pos rfl]
    cases hmove with
    | read | refuse | retry => rw [hstep]
    | swap => simp [swaps, hnext, hfound, Caller.isReplaced] at hunswapped

theorem swappers_cons (race : Race φ) (position : Nat) (schedule : List Nat) :
    race.swappers (position :: schedule) =
      race.swappers [position] ++ (race.step position).swappers schedule := by
  simp [swappers]

theorem mem_swappers_singleton {position : Nat} :
    i ∈ race.swappers [position] ↔ i = position ∧ race.swaps position = true := by
  rw [swappers, swappers, List.append_nil]
  cases race.swaps position <;> simp

/-- A caller that has replaced what was in use swaps no more. -/
theorem not_mem_swappers {previous : Allocation φ} (hreplaced : race.Replaced i previous)
    (schedule : List Nat) : i ∉ race.swappers schedule := by
  induction schedule generalizing race with
  | nil => exact List.not_mem_nil
  | cons position schedule ih =>
    rw [swappers_cons, List.mem_append, not_or]
    refine ⟨fun hmem => ?_, ih (hreplaced.step position)⟩
    obtain ⟨rfl, hswapped⟩ := mem_swappers_singleton.mp hmem
    exact (swaps_iff.mp hswapped).2 ⟨previous, hreplaced⟩

/-- Nobody swaps twice. -/
theorem nodup_swappers (race : Race φ) (schedule : List Nat) : (race.swappers schedule).Nodup := by
  induction schedule generalizing race with
  | nil => exact List.nodup_nil
  | cons position schedule ih =>
    rw [swappers_cons, List.nodup_append]
    refine ⟨?_, ih _, fun j hmem k hlater hsame => ?_⟩
    · rw [swappers, swappers, List.append_nil]
      split <;> simp
    · -- Who swaps now has replaced something from here on.
      obtain ⟨rfl, hswapped⟩ := mem_swappers_singleton.mp hmem
      obtain ⟨previous, hreplaced⟩ := (swaps_iff.mp hswapped).1
      exact not_mem_swappers hreplaced schedule (hsame ▸ hlater)

theorem lt_of_mem_swappers {schedule : List Nat} (hmem : i ∈ race.swappers schedule) :
    i < race.callers.length := by
  induction schedule generalizing race with
  | nil => cases hmem
  | cons position schedule ih =>
    rw [swappers_cons, List.mem_append] at hmem
    rcases hmem with hnow | hlater
    · obtain ⟨rfl, hswapped⟩ := mem_swappers_singleton.mp hnow
      obtain ⟨_, _, hfound⟩ := (swaps_iff.mp hswapped).1
      rw [← race.length_step i]
      exact (List.getElem?_eq_some_iff.mp hfound).1
    · rw [← race.length_step position]
      exact ih hlater

/-- Fewer callers than there are swap besides any one of them. -/
theorem countP_swappers_lt (hlt : i < race.callers.length) (schedule : List Nat) :
    (race.swappers schedule).countP (· ≠ i) < race.callers.length := by
  rw [List.countP_eq_length_filter]
  have hnodup : (i :: (race.swappers schedule).filter (· ≠ i)).Nodup := by
    refine List.nodup_cons.mpr ⟨by simp, ?_⟩
    exact (nodup_swappers race schedule).filter _
  have hsubset : i :: (race.swappers schedule).filter (· ≠ i) ⊆ List.range race.callers.length := by
    refine List.cons_subset.mpr ⟨List.mem_range.mpr hlt, fun j hj => ?_⟩
    exact List.mem_range.mpr (lt_of_mem_swappers (List.mem_filter.mp hj).1)
  have hle := (List.subperm_of_subset hnodup hsubset).length_le
  rwa [List.length_cons, List.length_range] at hle

/-! ## Failed swaps are paid for -/

/-- The attempts of the caller at a position are accounted for by so many swaps of others. -/
def Paid (race : Race φ) (i n : Nat) : Prop :=
  ∀ caller, race.callers[i]? = some caller → caller.PaidBy race.cell n

/-- A move leaves no debt behind: a swap that fails was paid for when the cell changed. -/
theorem Move.paidBy {cell after : Allocation φ} {position : Nat} {caller next : Caller φ}
    (hmove : Move cell position caller after next) (hpaid : caller.PaidBy cell n) :
    next.PaidBy after n := by
  cases hmove with
  | read offered => simp [Caller.PaidBy, Allocation.isSame]
  | refuse attempts hlt =>
    rw [Caller.PaidBy]
    exact hpaid.tried_le
  | swap attempts hle hsame =>
    rw [Caller.PaidBy, if_pos hsame] at hpaid
    rw [Caller.PaidBy]
    omega
  | retry attempts hle hother =>
    have hnow : cell.isSame cell = true := by simp [Allocation.isSame]
    rw [Caller.PaidBy, hother, if_neg Bool.false_ne_true] at hpaid
    rw [Caller.PaidBy, if_pos hnow]
    exact hpaid

theorem Paid.step_own (h : race.Paid i n) : (race.step i).Paid i n := by
  intro caller hfound
  rcases own_step_cases hfound with ⟨hsame, _⟩ | ⟨before, cell, hi, hmove, hstep⟩
  · rw [hsame] at hfound ⊢
    exact h caller hfound
  · rw [hstep]
    exact hmove.paidBy (h before hi)

theorem Paid.step_other (h : race.Paid i n) {position : Nat} (hne : i ≠ position) :
    (race.step position).Paid i (n + (race.swappers [position]).countP (· ≠ i)) := by
  intro caller hfound
  rw [getElem?_step_of_ne hne] at hfound
  rw [swappers, swappers, List.append_nil]
  cases hswapped : race.swaps position with
  | false =>
    rw [cell_step_of_not_swaps hswapped]
    exact h caller hfound
  | true =>
    have hpaid := (h caller hfound).succ (race.step position).cell
    simpa [Ne.symm hne] using hpaid

/-- The swaps of others pay, a caller's own one does not. -/
theorem Paid.step (h : race.Paid i n) (position : Nat) :
    (race.step position).Paid i (n + (race.swappers [position]).countP (· ≠ i)) := by
  by_cases heq : i = position
  · subst heq
    have hunpaid : (race.swappers [i]).countP (· ≠ i) = 0 := by
      rw [List.countP_eq_zero]
      intro j hmem
      simp [(mem_swappers_singleton.mp hmem).1]
    rw [hunpaid]
    exact h.step_own
  · exact h.step_other heq

theorem Paid.run (h : race.Paid i n) (schedule : List Nat) :
    (race.run schedule).Paid i (n + (race.swappers schedule).countP (· ≠ i)) := by
  induction schedule generalizing race n with
  | nil => exact h
  | cons position schedule ih =>
    rw [swappers_cons, List.countP_append, ← Nat.add_assoc]
    exact ih (h.step position)

theorem Paid.attempts_le (h : race.Paid i n) : race.attempts i ≤ 1 + n := by
  rw [attempts]
  cases hfound : race.callers[i]? with
  | none => exact Nat.zero_le _
  | some caller => exact (h caller hfound).attempts_le

/-! ## Steps are spent -/

theorem spent_step (h : ∀ caller, race.callers[i]? = some caller → caller.Spent n)
    (position : Nat) :
    ∀ caller, (race.step position).callers[i]? = some caller →
      caller.Spent (n + [position].count i) := by
  intro caller hfound
  by_cases heq : i = position
  · subst heq
    rw [List.count_singleton_self]
    rcases own_step_cases hfound with ⟨_, hdone⟩ | ⟨before, cell, hi, hmove, _⟩
    · cases caller with
      | waiting | trying => cases hdone
      | replaced | refused => trivial
    · have hspent := h before hi
      cases hmove with
      | read | retry =>
        rw [Caller.Spent] at hspent
        rw [Caller.Spent]
        omega
      | refuse | swap => trivial
  · rw [getElem?_step_of_ne heq] at hfound
    rw [List.count_singleton, if_neg (by simpa using Ne.symm heq)]
    exact h caller hfound

theorem spent_run (h : ∀ caller, race.callers[i]? = some caller → caller.Spent n)
    (schedule : List Nat) :
    ∀ caller, (race.run schedule).callers[i]? = some caller →
      caller.Spent (n + schedule.count i) := by
  induction schedule generalizing race n with
  | nil => exact h
  | cons position schedule ih =>
    have hlater := ih (spent_step h position)
    rw [Nat.add_assoc, ← List.count_append] at hlater
    exact hlater

/-! ## Alone -/

/-- After a step of its own a caller is done, or it has seen what is in the cell and had not before
the step. -/
theorem step_alone {caller : Caller φ} (hfound : race.callers[i]? = some caller) :
    ∃ next, (race.step i).callers[i]? = some next ∧ next.attempts ≤ caller.attempts + 1 ∧
      (next.isDone = true ∨
        next.seen? = some (race.step i).cell ∧ caller.seen? ≠ some race.cell) := by
  obtain ⟨hi, _⟩ := List.getElem?_eq_some_iff.mp hfound
  obtain ⟨next, hnext⟩ : ∃ next, (race.step i).callers[i]? = some next :=
    ⟨_, List.getElem?_eq_getElem (race.length_step i ▸ hi)⟩
  refine ⟨next, hnext, ?_⟩
  rcases own_step_cases hnext with ⟨hsame, hdone⟩ | ⟨before, cell, hi, hmove, hstep⟩
  · rw [hsame, hfound] at hnext
    obtain rfl := Option.some.inj hnext
    exact ⟨Nat.le_succ _, .inl hdone⟩
  · obtain rfl := Option.some.inj (hfound.symm.trans hi)
    rw [hstep]
    cases hmove with
    | read => exact ⟨Nat.zero_le _, .inr ⟨rfl, by simp [Caller.seen?]⟩⟩
    | refuse => exact ⟨Nat.le_succ _, .inl rfl⟩
    | swap => exact ⟨Nat.le_refl _, .inl rfl⟩
    | retry attempts hle hother =>
      refine ⟨Nat.le_refl _, .inr ⟨rfl, fun hseen => ?_⟩⟩
      rw [Caller.seen?, Option.some.injEq] at hseen
      simp [hseen, Allocation.isSame] at hother

/-- A caller that is left alone is done after two steps. -/
theorem done_alone {caller : Caller φ} (hfound : race.callers[i]? = some caller) {steps : Nat}
    (hsteps : 2 ≤ steps) :
    ∃ last, (race.run (List.replicate steps i)).callers[i]? = some last ∧ last.isDone = true ∧
      last.attempts ≤ caller.attempts + 2 := by
  obtain ⟨more, rfl⟩ := Nat.exists_eq_add_of_le hsteps
  obtain ⟨next, hnext, honce, hlooked⟩ := step_alone hfound
  obtain ⟨last, hlast, htwice, hsettled⟩ := step_alone hnext
  -- The second step is no failed attempt, since the first one has seen what is in the cell.
  have hdone : last.isDone = true := by
    rcases hsettled with hdone | ⟨_, hunseen⟩
    · exact hdone
    · rcases hlooked with hdone | ⟨hseen, _⟩
      · have hsame := done_step hnext hdone i
        rw [hlast, Option.some.injEq] at hsame
        rw [hsame]
        exact hdone
      · exact absurd hseen hunseen
  refine ⟨last, ?_, hdone, by omega⟩
  rw [← List.replicate_append_replicate, run_append]
  exact done_run hlast hdone _

/-! ## Every schedule -/

section

variable {initial : Registry φ} {offers : List (Registry φ)}

/-- What a caller looks at is at least as new as what it has seen before. -/
theorem Sound.against?_step (h : Sound initial offers race) {version : Nat}
    (hknown : race.against? i = some version) (position : Nat) :
    ∃ later, (race.step position).against? i = some later ∧ version ≤ later := by
  by_cases heq : i = position
  · subst heq
    obtain ⟨caller, hfound, hheld⟩ := Option.bind_eq_some_iff.mp hknown
    obtain ⟨next, hnext, _⟩ := step_alone hfound
    rcases own_step_cases hnext with ⟨hsame, _⟩ | ⟨before, cell, hi, hmove, _⟩
    · exact ⟨version, by rwa [hsame], Nat.le_refl _⟩
    · obtain rfl := Option.some.inj (hfound.symm.trans hi)
      rw [against?, hnext, Option.bind_some]
      cases hmove with
      | read => cases hheld
      | refuse | swap => exact ⟨version, hheld, Nat.le_refl _⟩
      | retry attempts hle helsewhere =>
        obtain rfl := Option.some.inj hheld
        exact ⟨_, rfl, (h.callers i _ hfound).2.2⟩
  · rw [against?, getElem?_step_of_ne heq]
    exact ⟨version, hknown, Nat.le_refl _⟩

theorem Sound.against?_run (h : Sound initial offers race) {version : Nat}
    (hknown : race.against? i = some version) (schedule : List Nat) :
    ∃ later, (race.run schedule).against? i = some later ∧ version ≤ later := by
  induction schedule generalizing race version with
  | nil => exact ⟨version, hknown, Nat.le_refl _⟩
  | cons position schedule ih =>
    obtain ⟨next, hheld, hle⟩ := h.against?_step hknown position
    obtain ⟨last, hheld, hnewest⟩ := ih (h.step position) hheld
    exact ⟨last, hheld, Nat.le_trans hle hnewest⟩

theorem getElem?_start : (start initial offers).callers[i]? = offers[i]?.map .waiting :=
  List.getElem?_map

theorem waiting_of_not_mem {schedule : List Nat} (hidle : i ∉ schedule) {caller : Caller φ}
    (hfound : ((start initial offers).run schedule).callers[i]? = some caller) :
    ∃ offered, caller = .waiting offered := by
  rw [getElem?_run_of_not_mem hidle, getElem?_start] at hfound
  obtain ⟨offered, _, rfl⟩ := Option.map_eq_some_iff.mp hfound
  exact ⟨offered, rfl⟩

theorem paid_of_not_mem {schedule : List Nat} (hidle : i ∉ schedule) :
    ((start initial offers).run schedule).Paid i 0 := by
  intro caller hfound
  obtain ⟨offered, rfl⟩ := waiting_of_not_mem hidle hfound
  trivial

/-- Whatever the schedule, the swaps that pay for a caller are fewer than there are callers. -/
theorem exists_paid (initial : Registry φ) (schedule : List Nat) (hlt : i < offers.length) :
    ∃ n < offers.length, ((start initial offers).run schedule).Paid i n := by
  have hlength : (start initial offers).callers.length = offers.length := List.length_map ..
  have hbegun : ((start initial offers).run []).Paid i 0 := paid_of_not_mem List.not_mem_nil
  refine ⟨_, ?_, hbegun.run schedule⟩
  rw [Nat.zero_add, ← hlength]
  exact countP_swappers_lt (hlength ▸ hlt) schedule

/-- Nobody tries more often than there are callers. -/
theorem attempts_le_length (initial : Registry φ) (offers : List (Registry φ))
    (schedule : List Nat) (i : Nat) :
    ((start initial offers).run schedule).attempts i ≤ offers.length := by
  by_cases hlt : i < offers.length
  · obtain ⟨n, hn, hpaid⟩ := exists_paid initial schedule hlt
    have hle := hpaid.attempts_le
    omega
  · have hlength := ((Sound.start initial offers).run schedule).length
    have hnone : ((start initial offers).run schedule).callers[i]? = none :=
      List.getElem?_eq_none (by omega)
    rw [attempts, hnone]
    exact Nat.zero_le _

/-- A caller that has made more steps than there are callers is done. -/
theorem done_of_length_lt_count {schedule : List Nat} {caller : Caller φ}
    (hfound : ((start initial offers).run schedule).callers[i]? = some caller)
    (hcount : offers.length < schedule.count i) : caller.isDone = true := by
  have hlength := ((Sound.start initial offers).run schedule).length
  have hlt : i < offers.length := hlength ▸ (List.getElem?_eq_some_iff.mp hfound).1
  obtain ⟨n, hn, hpaid⟩ := exists_paid initial schedule hlt
  have hbegun : ∀ caller, (start initial offers).callers[i]? = some caller → caller.Spent 0 := by
    intro first hstart
    rw [getElem?_start] at hstart
    obtain ⟨offered, _, rfl⟩ := Option.map_eq_some_iff.mp hstart
    rfl
  have hspent := spent_run hbegun schedule caller hfound
  rw [← Bool.not_eq_false]
  intro hundone
  have hle := hspent.steps_le (hpaid caller hfound) hundone
  omega

/-- **Trying again makes progress**, whatever the schedule. The attempts of a call are never more
than one besides the swaps of others since its first look; what it holds its offer against never
gets older; left alone it is done after two more attempts at most; and so no call tries more often
than there are calls, and it is done once it has taken more steps than that. -/
theorem retries_are_bounded (initial : Registry φ) (offers : List (Registry φ))
    (schedule : List Nat) (i : Nat) :
    let reached (schedule : List Nat) := (start initial offers).run schedule
    (i ∉ schedule → (reached schedule).attempts i = 0) ∧
    (∀ earlier later, schedule = earlier ++ i :: later → i ∉ earlier →
      (reached schedule).attempts i ≤
        1 + ((reached (earlier ++ [i])).swappers later).countP (· ≠ i)) ∧
    (∀ earlier later version, schedule = earlier ++ later →
      (reached earlier).against? i = some version →
      ∃ newer, (reached schedule).against? i = some newer ∧ version ≤ newer) ∧
    (∀ caller, (reached schedule).callers[i]? = some caller → ∀ steps, 2 ≤ steps →
      ∃ last, ((reached schedule).run (List.replicate steps i)).callers[i]? = some last ∧
        last.isDone = true ∧ last.attempts ≤ caller.attempts + 2) ∧
    (reached schedule).attempts i ≤ offers.length ∧
    (∀ caller, (reached schedule).callers[i]? = some caller →
      offers.length < schedule.count i → caller.isDone = true) := by
  intro reached
  refine ⟨fun hidle => ?_, ?_, ?_, ?_, ?_, ?_⟩
  · rw [attempts]
    cases hfound : (reached schedule).callers[i]? with
    | none => rfl
    | some caller =>
      obtain ⟨offered, rfl⟩ := waiting_of_not_mem hidle hfound
      rfl
  · intro earlier later hsplit hidle
    have hlooked : (reached (earlier ++ [i])).Paid i 0 := by
      simp only [reached, run_append]
      exact (paid_of_not_mem hidle).step_own
    have hpaid := hlooked.run later
    rw [Nat.zero_add] at hpaid
    have hwhole : (reached (earlier ++ [i])).run later = reached schedule := by
      simp only [reached, hsplit, ← run_append, List.append_assoc, List.singleton_append]
    rw [hwhole] at hpaid
    exact hpaid.attempts_le
  · intro earlier later version hsplit hheld
    have hsound := (Sound.start initial offers).run earlier
    simp only [reached, hsplit, run_append]
    exact hsound.against?_run hheld later
  · intro caller hfound steps hsteps
    exact done_alone hfound hsteps
  · exact attempts_le_length initial offers schedule i
  · intro caller hfound hcount
    exact done_of_length_lt_count hfound hcount

/-- All three look before the first one swaps, and the last one then comes too late twice: it tries
as often as there are callers. -/
example :
    let bare (version : Nat) : Registry Unit := .ofCatalogs version .empty []
    let ended := (start (bare 5) [bare 5, bare 5, bare 6]).run [0, 1, 2, 0, 1, 2, 1, 2, 2]
    ended.attempts 2 = 3 ∧ ended.cell.registry.version = 6 :=
  ⟨rfl, rfl⟩

end

end Race

end RdmRegistry
