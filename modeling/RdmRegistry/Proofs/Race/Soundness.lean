/-
What holds of a race at every moment. A step is one of four moves: a caller reads the cell, gives
up, swaps its registry in, or learns that another caller was faster. From the moves comes the
invariant: the cell, and whatever a caller has seen in it, holds the first registry or the offer of
a caller that replaced another, and is never newer than what the cell holds now; no two callers
replaced the same allocation, and none replaced the one that is still there.
-/
import RdmRegistry.Live.Race

namespace RdmRegistry

variable {φ : Type}

namespace Race

/-! ## The moves -/

/-- A step of the caller at a position, from how it stands to the cell and the caller afterwards. -/
inductive Move (cell : Allocation φ) (position : Nat) :
    Caller φ → Allocation φ → Caller φ → Prop where
  | read (offered : Registry φ) :
    Move cell position (.waiting offered) cell (.trying offered cell 0)
  | refuse {offered : Registry φ} {seen : Allocation φ} (attempts : Nat)
    (hlt : offered.version < seen.registry.version) :
    Move cell position (.trying offered seen attempts) cell
      (.refused seen.registry.version offered.version attempts)
  | swap {offered : Registry φ} {seen : Allocation φ} (attempts : Nat)
    (hle : seen.registry.version ≤ offered.version) (hsame : cell.isSame seen = true) :
    Move cell position (.trying offered seen attempts) ⟨some position, offered⟩
      (.replaced seen (attempts + 1))
  | retry {offered : Registry φ} {seen : Allocation φ} (attempts : Nat)
    (hle : seen.registry.version ≤ offered.version) (hother : cell.isSame seen = false) :
    Move cell position (.trying offered seen attempts) cell (.trying offered cell (attempts + 1))

theorem step_of_getElem? {race : Race φ} {position : Nat} {caller : Caller φ}
    (hfound : race.callers[position]? = some caller) :
    race.step position = {
      cell := (advance race.cell position caller).1
      callers := race.callers.set position (advance race.cell position caller).2 } := by
  simp only [step, hfound]

/-- A step is a move of the caller at the position, or it changes nothing because nobody there is
waiting or trying. -/
theorem step_cases (race : Race φ) (position : Nat) :
    (race.step position = race ∧
      ∀ caller, race.callers[position]? = some caller → caller.isDone = true) ∨
    ∃ caller cell next, race.callers[position]? = some caller ∧
      Move race.cell position caller cell next ∧
      race.step position = { cell, callers := race.callers.set position next } := by
  cases hfound : race.callers[position]? with
  | none => exact .inl ⟨by simp only [step, hfound], by simp⟩
  | some caller =>
    have hstep := step_of_getElem? hfound
    have hunmoved (hdone : advance race.cell position caller = (race.cell, caller)) :
        race.step position = race := by
      obtain ⟨hi, rfl⟩ := List.getElem?_eq_some_iff.mp hfound
      rw [hstep, hdone]
      simp only [List.set_getElem_self]
    cases caller with
    | waiting offered => exact .inr ⟨_, _, _, rfl, .read offered, hstep⟩
    | trying offered seen attempts =>
      refine .inr ⟨_, _, _, rfl, ?_, hstep⟩
      by_cases hlt : offered.version < seen.registry.version
      · simp only [advance, hlt, if_true]
        exact .refuse attempts hlt
      · have hle : seen.registry.version ≤ offered.version := by omega
        cases hsame : race.cell.isSame seen with
        | true =>
          simp only [advance, hlt, hsame, if_true, if_false]
          exact .swap attempts hle hsame
        | false =>
          simp only [advance, hlt, hsame, if_false, Bool.false_eq_true]
          exact .retry attempts hle hsame
    | replaced | refused => exact .inl ⟨hunmoved rfl, by simp [Caller.isDone]⟩

theorem length_step (race : Race φ) (position : Nat) :
    (race.step position).callers.length = race.callers.length := by
  rcases race.step_cases position with ⟨hsame, _⟩ | ⟨_, _, _, _, _, hstep⟩
  · rw [hsame]
  · rw [hstep, List.length_set]

/-- The callers after one of them has moved. -/
theorem getElem?_set_callers {race : Race φ} {position : Nat} {caller : Caller φ}
    (hfound : race.callers[position]? = some caller) (next : Caller φ) (i : Nat) :
    (race.callers.set position next)[i]? =
      if i = position then some next else race.callers[i]? := by
  obtain ⟨hi, _⟩ := List.getElem?_eq_some_iff.mp hfound
  by_cases heq : i = position
  · subst heq
    simp [hi]
  · simp [heq, Ne.symm heq]

/-- A caller stood so before the step, or it has just moved. -/
theorem callers_step {race : Race φ} {position i : Nat} {caller : Caller φ}
    (hfound : (race.step position).callers[i]? = some caller) :
    race.callers[i]? = some caller ∨ i = position ∧ ∃ before cell,
      race.callers[position]? = some before ∧ Move race.cell position before cell caller ∧
      (race.step position).cell = cell := by
  rcases race.step_cases position with ⟨hsame, _⟩ | ⟨before, cell, next, hposition, hmove, hstep⟩
  · rw [hsame] at hfound
    exact .inl hfound
  · rw [hstep, getElem?_set_callers hposition] at hfound
    by_cases heq : i = position
    · rw [if_pos heq, Option.some.injEq] at hfound
      rw [hfound] at hmove
      exact .inr ⟨heq, before, cell, hposition, hmove, by rw [hstep]⟩
    · rw [if_neg heq] at hfound
      exact .inl hfound

theorem run_cons (race : Race φ) (position : Nat) (schedule : List Nat) :
    race.run (position :: schedule) = (race.step position).run schedule := rfl

theorem run_append (race : Race φ) (earlier later : List Nat) :
    race.run (earlier ++ later) = (race.run earlier).run later :=
  List.foldl_append

/-- A property of races that a step preserves is preserved by a run. -/
theorem run_induction {P : Race φ → Prop}
    (hstep : ∀ race position, P race → P (race.step position)) (schedule : List Nat)
    {race : Race φ} (hrace : P race) : P (race.run schedule) := by
  induction schedule generalizing race with
  | nil => exact hrace
  | cons position schedule ih => exact ih (hstep race position hrace)

/-! ## Answers are final -/

/-- A caller that is done makes no more moves. -/
theorem done_step {race : Race φ} {i : Nat} {caller : Caller φ}
    (hfound : race.callers[i]? = some caller) (hdone : caller.isDone = true) (position : Nat) :
    (race.step position).callers[i]? = some caller := by
  rcases race.step_cases position with ⟨hsame, _⟩ | ⟨mover, cell, next, hposition, hmove, hstep⟩
  · rw [hsame]
    exact hfound
  · rw [hstep, getElem?_set_callers hposition]
    by_cases heq : i = position
    · subst heq
      have : mover = caller := by simpa [hposition] using hfound
      subst this
      cases hmove <;> simp [Caller.isDone] at hdone
    · simpa [heq] using hfound

theorem done_run {race : Race φ} {i : Nat} {caller : Caller φ}
    (hfound : race.callers[i]? = some caller) (hdone : caller.isDone = true) (schedule : List Nat) :
    (race.run schedule).callers[i]? = some caller :=
  run_induction (P := fun race => race.callers[i]? = some caller)
    (fun _ position hfound => done_step hfound hdone position) schedule hfound

/-- The caller at a position has put its registry in use instead of an allocation. -/
def Replaced (race : Race φ) (i : Nat) (previous : Allocation φ) : Prop :=
  ∃ attempts, race.callers[i]? = some (.replaced previous attempts)

theorem Replaced.step {race : Race φ} {i : Nat} {previous : Allocation φ}
    (h : race.Replaced i previous) (position : Nat) :
    (race.step position).Replaced i previous := by
  obtain ⟨attempts, hfound⟩ := h
  exact ⟨attempts, done_step hfound rfl position⟩

theorem Replaced.run {race : Race φ} {i : Nat} {previous : Allocation φ}
    (h : race.Replaced i previous) (schedule : List Nat) :
    (race.run schedule).Replaced i previous := by
  obtain ⟨attempts, hfound⟩ := h
  exact ⟨attempts, done_run hfound rfl schedule⟩

theorem Replaced.unique {race : Race φ} {i : Nat} {previous other : Allocation φ}
    (h : race.Replaced i previous) (h' : race.Replaced i other) : previous = other := by
  obtain ⟨attempts, hfound⟩ := h
  obtain ⟨tries, hfound'⟩ := h'
  have := hfound.symm.trans hfound'
  simp only [Option.some.injEq, Caller.replaced.injEq] at this
  exact this.1

/-! ## The invariant -/

section

variable {initial : Registry φ} {offers : List (Registry φ)} {race later : Race φ}

/-- The allocation is the first one, or that of a caller that put its offer in use. -/
def Installed (initial : Registry φ) (offers : List (Registry φ)) (race : Race φ)
    (allocation : Allocation φ) : Prop :=
  allocation = ⟨none, initial⟩ ∨ ∃ i offered previous, offers[i]? = some offered ∧
    race.Replaced i previous ∧ allocation = ⟨some i, offered⟩

/-- What the caller at a position knows is right, and is not newer than the cell. -/
def Accounted (initial : Registry φ) (offers : List (Registry φ)) (race : Race φ) (i : Nat) :
    Caller φ → Prop
  | .waiting offered => offers[i]? = some offered
  | .trying offered seen _ => offers[i]? = some offered ∧ Installed initial offers race seen ∧
    seen.registry.version ≤ race.cell.registry.version
  | .replaced previous _ => ∃ offered, offers[i]? = some offered ∧
    Installed initial offers race previous ∧ previous.registry.version ≤ offered.version ∧
    offered.version ≤ race.cell.registry.version
  | .refused current offered _ => ∃ registry, offers[i]? = some registry ∧
    registry.version = offered ∧ offered < current ∧ current ≤ race.cell.registry.version

/-- The invariant of a race that began with a registry in use and with these offers. -/
structure Sound (initial : Registry φ) (offers : List (Registry φ)) (race : Race φ) : Prop where
  length : race.callers.length = offers.length
  cell : Installed initial offers race race.cell
  callers : ∀ i caller, race.callers[i]? = some caller → Accounted initial offers race i caller
  /-- Nobody has replaced what is still in the cell. -/
  fresh : ∀ i previous, race.Replaced i previous → previous.maker ≠ race.cell.maker
  /-- No two callers replaced the same. -/
  single : ∀ i j previous other, race.Replaced i previous → race.Replaced j other →
    previous.maker = other.maker → i = j

/-- Two allocations that were in use and have the same maker are one. -/
theorem Installed.eq {a b : Allocation φ} (ha : Installed initial offers race a)
    (hb : Installed initial offers race b) (hsame : a.maker = b.maker) : a = b := by
  rcases ha with rfl | ⟨i, offered, _, hi, _, rfl⟩ <;>
    rcases hb with rfl | ⟨j, other, _, hj, _, rfl⟩
  · rfl
  · simp at hsame
  · simp at hsame
  · have : i = j := by simpa using hsame
    subst this
    have : offered = other := by simpa [hi] using hj
    rw [this]

theorem Installed.mono {a : Allocation φ} (ha : Installed initial offers race a)
    (hkept : ∀ i previous, race.Replaced i previous → later.Replaced i previous) :
    Installed initial offers later a := by
  rcases ha with rfl | ⟨i, offered, previous, hi, hreplaced, rfl⟩
  · exact .inl rfl
  · exact .inr ⟨i, offered, previous, hi, hkept i previous hreplaced, rfl⟩

theorem Accounted.mono {i : Nat} {caller : Caller φ} (h : Accounted initial offers race i caller)
    (hkept : ∀ i previous, race.Replaced i previous → later.Replaced i previous)
    (hle : race.cell.registry.version ≤ later.cell.registry.version) :
    Accounted initial offers later i caller := by
  cases caller with
  | waiting offered => exact h
  | trying offered seen attempts =>
    obtain ⟨hi, hinstalled, hle'⟩ := h
    exact ⟨hi, hinstalled.mono hkept, Nat.le_trans hle' hle⟩
  | replaced previous attempts =>
    obtain ⟨offered, hi, hinstalled, haccepted, hle'⟩ := h
    exact ⟨offered, hi, hinstalled.mono hkept, haccepted, Nat.le_trans hle' hle⟩
  | refused current offered attempts =>
    obtain ⟨registry, hi, rfl, hlt, hle'⟩ := h
    exact ⟨registry, hi, rfl, hlt, Nat.le_trans hle' hle⟩

theorem Sound.exists_caller (h : Sound initial offers race) {i : Nat} {offered : Registry φ}
    (hi : offers[i]? = some offered) : ∃ caller, race.callers[i]? = some caller := by
  obtain ⟨hlt, _⟩ := List.getElem?_eq_some_iff.mp hi
  exact ⟨_, List.getElem?_eq_getElem (h.length ▸ hlt)⟩

theorem Sound.start (initial : Registry φ) (offers : List (Registry φ)) :
    Sound initial offers (start initial offers) where
  length := by simp [Race.start]
  cell := .inl rfl
  callers i caller hfound := by
    simp only [Race.start, List.getElem?_map, Option.map_eq_some_iff] at hfound
    obtain ⟨offered, hi, rfl⟩ := hfound
    exact hi
  fresh i previous h := by simp [Replaced, Race.start] at h
  single i j previous other h := by simp [Replaced, Race.start] at h

/-- What a caller swaps its registry for is what it saw last. -/
theorem Sound.seen_eq_cell (h : Sound initial offers race) {i attempts : Nat}
    {offered : Registry φ} {seen : Allocation φ}
    (hfound : race.callers[i]? = some (.trying offered seen attempts))
    (hsame : race.cell.isSame seen = true) : race.cell = seen :=
  h.cell.eq (h.callers i _ hfound).2.1 (by simpa [Allocation.isSame] using hsame)

/-- What a step does to the cell: nothing, and then nobody has replaced anything, or the caller at
the position puts its offer there and has replaced what was there. -/
theorem Sound.cell_step (h : Sound initial offers race) (position : Nat) :
    ((race.step position).cell = race.cell ∧
      ∀ i previous, (race.step position).Replaced i previous → race.Replaced i previous) ∨
    ∃ offered, offers[position]? = some offered ∧
      race.cell.registry.version ≤ offered.version ∧
      (race.step position).cell = ⟨some position, offered⟩ ∧
      (race.step position).Replaced position race.cell ∧
      (∀ previous, ¬race.Replaced position previous) ∧
      ∀ i previous, i ≠ position → (race.step position).Replaced i previous →
        race.Replaced i previous := by
  rcases race.step_cases position with ⟨hsame, _⟩ | ⟨caller, cell, next, hfound, hmove, hstep⟩
  · rw [hsame]
    exact .inl ⟨rfl, fun _ _ hreplaced => hreplaced⟩
  · have helsewhere (i : Nat) (previous : Allocation φ) (hne : i ≠ position)
        (hreplaced : (race.step position).Replaced i previous) : race.Replaced i previous := by
      obtain ⟨attempts, hi⟩ := hreplaced
      rcases callers_step hi with hbefore | ⟨heq, _⟩
      · exact ⟨attempts, hbefore⟩
      · exact absurd heq hne
    have hnext : (race.step position).callers[position]? = some next := by
      rw [hstep, getElem?_set_callers hfound, if_pos rfl]
    have hunswapped (h : ∀ previous attempts, next ≠ .replaced previous attempts) (i : Nat)
        (previous : Allocation φ) (hreplaced : (race.step position).Replaced i previous) :
        race.Replaced i previous := by
      by_cases heq : i = position
      · subst heq
        obtain ⟨attempts, hi⟩ := hreplaced
        exact absurd (Option.some.inj (hnext.symm.trans hi)) (h previous attempts)
      · exact helsewhere i previous heq hreplaced
    cases hmove with
    | read | refuse | retry => exact .inl ⟨by rw [hstep], hunswapped (by simp)⟩
    | swap attempts hle hsame =>
      have hcell := h.seen_eq_cell hfound hsame
      obtain ⟨hposition, _, _⟩ := h.callers position _ hfound
      refine .inr ⟨_, hposition, hcell ▸ hle, by rw [hstep], ?_, ?_, helsewhere⟩
      · rw [hcell]
        exact ⟨_, hnext⟩
      · intro previous hreplaced
        obtain ⟨tries, hreplaced⟩ := hreplaced
        simp [hfound] at hreplaced

/-- The version in the cell never decreases. -/
theorem Sound.version_le_step (h : Sound initial offers race) (position : Nat) :
    race.cell.registry.version ≤ (race.step position).cell.registry.version := by
  rcases h.cell_step position with ⟨hsame, _⟩ | ⟨offered, _, hle, hswapped, _⟩
  · exact Nat.le_of_eq (by rw [hsame])
  · rw [hswapped]
    exact hle

/-- A move accounts for the caller that makes it. -/
theorem Sound.accounted_step (h : Sound initial offers race) (position : Nat) {i : Nat}
    {caller : Caller φ} (hfound : (race.step position).callers[i]? = some caller) :
    Accounted initial offers (race.step position) i caller := by
  have hlater (caller : Caller φ) (hknown : Accounted initial offers race i caller) :
      Accounted initial offers (race.step position) i caller :=
    hknown.mono (fun i previous hreplaced => hreplaced.step position) (h.version_le_step position)
  rcases callers_step hfound with hbefore | ⟨rfl, before, cell, hi, hmove, hstep⟩
  · exact hlater caller (h.callers i caller hbefore)
  · have hknown := h.callers i before hi
    cases hmove with
    | read offered => exact hlater _ ⟨hknown, h.cell, Nat.le_refl _⟩
    | refuse attempts hlt =>
      obtain ⟨hi, _, hseen⟩ := hknown
      exact hlater (.refused ..) ⟨_, hi, rfl, hlt, hseen⟩
    | swap attempts hle hsame =>
      obtain ⟨hi, hinstalled, _⟩ := hknown
      refine ⟨_, hi, hinstalled.mono fun i previous hreplaced => hreplaced.step _, hle, ?_⟩
      exact Nat.le_of_eq (by rw [hstep])
    | retry attempts hle hother => exact hlater _ ⟨hknown.1, h.cell, Nat.le_refl _⟩

/-- An allocation made by a caller that has replaced nothing was never in use. -/
theorem Installed.maker_ne {a : Allocation φ} (ha : Installed initial offers race a) {i : Nat}
    (hunswapped : ∀ previous, ¬race.Replaced i previous) : a.maker ≠ some i := by
  intro hmaker
  rcases ha with rfl | ⟨j, offered, previous, _, hreplaced, rfl⟩
  · simp at hmaker
  · have : j = i := by simpa using hmaker
    subst this
    exact hunswapped previous hreplaced

theorem Sound.installed (h : Sound initial offers race) {i : Nat} {previous : Allocation φ}
    (hreplaced : race.Replaced i previous) : Installed initial offers race previous := by
  obtain ⟨attempts, hfound⟩ := hreplaced
  obtain ⟨_, _, hinstalled, _⟩ := h.callers i _ hfound
  exact hinstalled

theorem Sound.step (h : Sound initial offers race) (position : Nat) :
    Sound initial offers (race.step position) := by
  have hkept (a : Allocation φ) (ha : Installed initial offers race a) :
      Installed initial offers (race.step position) a :=
    ha.mono fun i previous hreplaced => hreplaced.step position
  have hlength : (race.step position).callers.length = offers.length := by
    rw [length_step, h.length]
  refine ⟨hlength, ?_, fun i caller hfound => h.accounted_step position hfound, ?_, ?_⟩ <;>
    rcases h.cell_step position with
      ⟨hsame, hunswapped⟩ | ⟨offered, hposition, _, hswapped, hhere, hfirst, helsewhere⟩
  · rw [hsame]
    exact hkept _ h.cell
  · rw [hswapped]
    exact .inr ⟨position, offered, race.cell, hposition, hhere, rfl⟩
  · intro i previous hreplaced
    rw [hsame]
    exact h.fresh i previous (hunswapped i previous hreplaced)
  · intro i previous hreplaced
    rw [hswapped]
    by_cases hi : i = position
    · subst hi
      rw [hreplaced.unique hhere]
      exact h.cell.maker_ne hfirst
    · exact (h.installed (helsewhere i previous hi hreplaced)).maker_ne hfirst
  · intro i j previous other hreplaced hreplaced' hmakers
    exact h.single i j previous other (hunswapped i previous hreplaced)
      (hunswapped j other hreplaced') hmakers
  · intro i j previous other hreplaced hreplaced' hmakers
    by_cases hi : i = position <;> by_cases hj : j = position
    · rw [hi, hj]
    · subst hi
      rw [hreplaced.unique hhere] at hmakers
      exact absurd hmakers.symm (h.fresh j other (helsewhere j other hj hreplaced'))
    · subst hj
      rw [hreplaced'.unique hhere] at hmakers
      exact absurd hmakers (h.fresh i previous (helsewhere i previous hi hreplaced))
    · exact h.single i j previous other (helsewhere i previous hi hreplaced)
        (helsewhere j other hj hreplaced') hmakers

theorem Sound.run (h : Sound initial offers race) (schedule : List Nat) :
    Sound initial offers (race.run schedule) :=
  run_induction (fun _ position hsound => hsound.step position) schedule h

end

end Race

end RdmRegistry
