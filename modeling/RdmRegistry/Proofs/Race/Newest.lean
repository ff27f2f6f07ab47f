/-
The newest version wins. While a race is watched, the version in the cell only ever grows, so what
readers see grows with it; a caller is refused only by a version that it saw in the cell itself; and
when all callers are done the cell holds the greatest version there ever was.
-/
import RdmRegistry.Proofs.Race.Linearizable

namespace RdmRegistry

variable {φ : Type}

namespace Race

variable {race : Race φ}

/-- What a trying caller has seen was there before the step, or the caller looks at it now. -/
theorem trying_step {position i attempts : Nat} {offered : Registry φ} {seen : Allocation φ}
    (hfound : (race.step position).callers[i]? = some (.trying offered seen attempts)) :
    race.callers[i]? = some (.trying offered seen attempts) ∨ seen = (race.step position).cell := by
  rcases callers_step hfound with hbefore | ⟨rfl, before, cell, _, hmove, hstep⟩
  · exact .inl hbefore
  · rw [hstep]
    cases hmove with
    | read | retry => exact .inr rfl

/-- A caller was refused before the step, or it gives up now because of what it has seen. -/
theorem refused_step {position i current version attempts : Nat}
    (hfound : (race.step position).callers[i]? = some (.refused current version attempts)) :
    race.callers[i]? = some (.refused current version attempts) ∨
      ∃ offered seen, race.callers[i]? = some (.trying offered seen attempts) ∧
        current = seen.registry.version := by
  rcases callers_step hfound with hbefore | ⟨rfl, before, cell, hi, hmove, _⟩
  · exact .inl hbefore
  · cases hmove with
    | refuse => exact .inr ⟨_, _, hi, rfl⟩

variable {initial : Registry φ} {offers : List (Registry φ)}

theorem Installed.version_mem {a : Allocation φ} (ha : Installed initial offers race a) :
    a.registry.version ∈ initial.version :: offers.map Registry.version := by
  rcases ha with rfl | ⟨i, offered, _, hi, _, rfl⟩
  · exact List.mem_cons_self ..
  · exact List.mem_cons_of_mem _ (List.mem_map_of_mem (List.mem_of_getElem? hi))

/-- When a caller is done its offer is not newer than the cell. -/
theorem Sound.version_le_of_done (h : Sound initial offers race) {i : Nat} {offered : Registry φ}
    (hi : offers[i]? = some offered) {caller : Caller φ}
    (hfound : race.callers[i]? = some caller) (hdone : caller.isDone = true) :
    offered.version ≤ race.cell.registry.version := by
  have hknown := h.callers i caller hfound
  cases caller with
  | waiting | trying => simp [Caller.isDone] at hdone
  | replaced previous attempts =>
    obtain ⟨own, hi', _, _, hbelow⟩ := hknown
    rw [hi, Option.some.injEq] at hi'
    rw [hi']
    exact hbelow
  | refused current version attempts =>
    obtain ⟨own, hi', rfl, hlt, hbelow⟩ := hknown
    rw [hi, Option.some.injEq] at hi'
    rw [hi']
    omega

end Race

namespace Watched

variable {initial : Registry φ} {offers : List (Registry φ)} {watched : Watched φ}

/-! ## The invariant -/

/-- The invariant of a watched race: every snapshot is of something that was in the cell, not newer
than the cell, and not older than the snapshots before it. -/
structure Sound (initial : Registry φ) (offers : List (Registry φ)) (watched : Watched φ) :
    Prop where
  race : Race.Sound initial offers watched.race
  installed : ∀ snapshot ∈ watched.snapshots,
    Race.Installed initial offers watched.race snapshot.2
  known : ∀ snapshot ∈ watched.snapshots,
    snapshot.2.registry.version ≤ watched.race.cell.registry.version
  ascending : watched.snapshots.Pairwise fun a b => a.2.registry.version ≤ b.2.registry.version

theorem Sound.start (initial : Registry φ) (offers : List (Registry φ)) :
    Sound initial offers (start initial offers) where
  race := Race.Sound.start initial offers
  installed snapshot hmem := by simp [Watched.start] at hmem
  known snapshot hmem := by simp [Watched.start] at hmem
  ascending := List.Pairwise.nil

theorem Sound.version_le_step (h : Sound initial offers watched) (turn : Turn) :
    watched.race.cell.registry.version ≤ (watched.step turn).race.cell.registry.version := by
  cases turn with
  | caller position => exact h.race.version_le_step position
  | reader name => exact Nat.le_refl _

theorem Sound.step (h : Sound initial offers watched) (turn : Turn) :
    Sound initial offers (watched.step turn) := by
  cases turn with
  | caller position =>
    refine ⟨h.race.step position, ?_, ?_, h.ascending⟩
    · intro snapshot hmem
      exact (h.installed snapshot hmem).mono fun i previous hreplaced => hreplaced.step position
    · intro snapshot hmem
      exact Nat.le_trans (h.known snapshot hmem) (h.race.version_le_step position)
  | reader name =>
    refine ⟨h.race, ?_, ?_, ?_⟩
    · intro snapshot hmem
      rcases List.mem_append.mp hmem with hmem | hmem
      · exact h.installed snapshot hmem
      · rw [List.mem_singleton.mp hmem]
        exact h.race.cell
    · intro snapshot hmem
      rcases List.mem_append.mp hmem with hmem | hmem
      · exact h.known snapshot hmem
      · rw [List.mem_singleton.mp hmem]
        exact Nat.le_refl _
    · refine List.pairwise_append.mpr ⟨h.ascending, List.pairwise_singleton _ _, ?_⟩
      intro earlier hmem last hlast
      rw [List.mem_singleton.mp hlast]
      exact h.known earlier hmem

theorem Sound.run (h : Sound initial offers watched) (turns : List Turn) :
    Sound initial offers (watched.run turns) := by
  induction turns generalizing watched with
  | nil => exact h
  | cons turn turns ih => exact ih (h.step turn)

/-! ## From moment to moment -/

/-- One turn later something has happened, or the turns are over. -/
theorem run_take_succ (watched : Watched φ) (turns : List Turn) (time : Nat) :
    watched.run (turns.take (time + 1)) = watched.run (turns.take time) ∨
      ∃ turn, watched.run (turns.take (time + 1)) = (watched.run (turns.take time)).step turn := by
  rw [List.take_add_one]
  cases turns[time]? with
  | none => exact .inl (by simp)
  | some turn => exact .inr ⟨turn, by simp [run, List.foldl_append]⟩

/-- The version in the cell never decreases. -/
theorem Sound.version_le_take (h : Sound initial offers watched) (turns : List Turn)
    {earlier later : Nat} (hle : earlier ≤ later) :
    (watched.run (turns.take earlier)).race.cell.registry.version ≤
      (watched.run (turns.take later)).race.cell.registry.version := by
  obtain ⟨offset, rfl⟩ := Nat.exists_eq_add_of_le hle
  clear hle
  induction offset with
  | zero => exact Nat.le_refl _
  | succ offset ih =>
    refine Nat.le_trans ih ?_
    rcases run_take_succ watched turns (earlier + offset) with hsame | ⟨turn, hstep⟩
    · exact Nat.le_of_eq (by rw [← Nat.add_assoc, hsame])
    · rw [← Nat.add_assoc, hstep]
      exact (h.run _).version_le_step turn

/-- At some moment up to the given time the caller at a position is trying, and the version is in
the cell. -/
def MeetsVersion (watched : Watched φ) (turns : List Turn) (time i version : Nat) : Prop :=
  ∃ earlier ≤ time, ∃ offered seen attempts,
    (watched.run (turns.take earlier)).race.callers[i]? = some (.trying offered seen attempts) ∧
      (watched.run (turns.take earlier)).race.cell.registry.version = version

theorem MeetsVersion.succ {turns : List Turn} {time i version : Nat}
    (h : watched.MeetsVersion turns time i version) :
    watched.MeetsVersion turns (time + 1) i version := by
  obtain ⟨earlier, hle, hmet⟩ := h
  exact ⟨earlier, by omega, hmet⟩

/-- Whatever a caller tries against or was refused by, it met in the cell while it was trying. -/
structure MetAll (watched : Watched φ) (turns : List Turn) (time : Nat) : Prop where
  tries : ∀ i offered seen attempts,
    (watched.run (turns.take time)).race.callers[i]? = some (.trying offered seen attempts) →
      watched.MeetsVersion turns time i seen.registry.version
  refusals : ∀ i current version attempts,
    (watched.run (turns.take time)).race.callers[i]? = some (.refused current version attempts) →
      watched.MeetsVersion turns time i current

theorem MetAll.of_same {turns : List Turn} {time : Nat} (h : watched.MetAll turns time)
    (hsame : (watched.run (turns.take (time + 1))).race = (watched.run (turns.take time)).race) :
    watched.MetAll turns (time + 1) where
  tries i offered seen attempts hfound :=
    (h.tries i offered seen attempts (hsame ▸ hfound)).succ
  refusals i current version attempts hfound :=
    (h.refusals i current version attempts (hsame ▸ hfound)).succ

theorem MetAll.of_step {turns : List Turn} {time position : Nat} (h : watched.MetAll turns time)
    (hstep : (watched.run (turns.take (time + 1))).race =
      (watched.run (turns.take time)).race.step position) :
    watched.MetAll turns (time + 1) where
  tries i offered seen attempts hfound := by
    have hnow := hfound
    rw [hstep] at hfound
    rcases Race.trying_step hfound with hbefore | hlooked
    · exact (h.tries i offered seen attempts hbefore).succ
    · exact ⟨time + 1, Nat.le_refl _, offered, seen, attempts, hnow, by rw [hstep, hlooked]⟩
  refusals i current version attempts hfound := by
    rw [hstep] at hfound
    rcases Race.refused_step hfound with hbefore | ⟨offered, seen, htrying, rfl⟩
    · exact (h.refusals i current version attempts hbefore).succ
    · exact (h.tries i offered seen attempts htrying).succ

theorem metAll_start (initial : Registry φ) (offers : List (Registry φ)) (turns : List Turn)
    (time : Nat) : (start initial offers).MetAll turns time := by
  induction time with
  | zero =>
    constructor
    · intro i offered seen attempts hfound
      simp [run, start, Race.start] at hfound
    · intro i current version attempts hfound
      simp [run, start, Race.start] at hfound
  | succ time ih =>
    rcases run_take_succ (start initial offers) turns time with hsame | ⟨turn, hstep⟩
    · exact ih.of_same (by rw [hsame])
    · cases turn with
      | reader name => exact ih.of_same (by rw [hstep]; rfl)
      | caller position => exact ih.of_step (by rw [hstep]; rfl)

/-! ## The newest version -/

theorem exists_refused_of_answer? {race : Race φ} {i : Nat} {failure : Failure}
    (hreturned : race.answer? i = some (.error failure)) :
    ∃ current version attempts, failure = .stale current version ∧
      race.callers[i]? = some (.refused current version attempts) := by
  simp only [Race.answer?, Option.bind_eq_some_iff] at hreturned
  obtain ⟨caller, hfound, hreturned⟩ := hreturned
  cases caller with
  | waiting | trying | replaced => simp [Caller.answer?] at hreturned
  | refused current version attempts =>
    simp only [Caller.answer?, Option.some.injEq, Except.error.injEq] at hreturned
    exact ⟨current, version, attempts, hreturned.symm, hfound⟩

/-- A refused call offered a version below one that it met in the cell while it was trying. -/
theorem meets_newer_of_error {turns : List Turn} {i : Nat} {failure : Failure}
    (hreturned : ((start initial offers).run turns).race.answer? i = some (.error failure)) :
    ∃ offered current, offers[i]? = some offered ∧ failure = .stale current offered.version ∧
      offered.version < current ∧ ∃ time seen attempts,
        ((start initial offers).run (turns.take time)).race.callers[i]? =
          some (.trying offered seen attempts) ∧
        ((start initial offers).run (turns.take time)).race.cell.registry.version = current := by
  have hbegun : Sound initial offers (start initial offers) := Sound.start initial offers
  obtain ⟨current, version, attempts, rfl, hfound⟩ := exists_refused_of_answer? hreturned
  obtain ⟨offered, hi, rfl, hlt, _⟩ := (hbegun.run turns).race.callers i _ hfound
  have hwhole : turns.take turns.length = turns := List.take_length
  rw [← hwhole] at hfound
  obtain ⟨time, _, own, seen, tries, htrying, hmet⟩ :=
    (metAll_start initial offers turns turns.length).refusals i current _ attempts hfound
  have hknown := (hbegun.run (turns.take time)).race.callers i _ htrying
  have hsame : own = offered := by simpa [hi] using hknown.1.symm
  rw [hsame] at htrying
  exact ⟨offered, current, hi, rfl, hlt, time, seen, tries, htrying, hmet⟩

/-- Once every caller is done, the cell holds the greatest of the first version and those
offered. -/
theorem Sound.max?_eq_of_isDone (h : Sound initial offers watched)
    (hfirst : initial.version ≤ watched.race.cell.registry.version)
    (hdone : watched.race.isDone = true) :
    (initial.version :: offers.map Registry.version).max? =
      some watched.race.cell.registry.version := by
  rw [List.max?_eq_some_iff]
  refine ⟨h.race.cell.version_mem, ?_⟩
  intro version hmem
  rcases List.mem_cons.mp hmem with rfl | hmem
  · exact hfirst
  · obtain ⟨offered, hmem', rfl⟩ := List.mem_map.mp hmem
    obtain ⟨i, hi⟩ := List.mem_iff_getElem?.mp hmem'
    obtain ⟨caller, hfound⟩ := h.race.exists_caller hi
    have hdone := List.all_eq_true.mp hdone caller (List.mem_of_getElem? hfound)
    exact h.race.version_le_of_done hi hfound hdone

/-- **The newest version wins**, whoever goes when: the version in use never decreases, and neither
do the versions in the snapshots of one reader, each of which is the first registry or one that a call
put in use; a call is refused only for a version above its own that was in use while it was trying,
so never with the greatest version of all; and once all calls have returned, the version in use is
that greatest one. -/
theorem newest_wins (initial : Registry φ) (offers : List (Registry φ)) (turns : List Turn) :
    let moment (time : Nat) := (start initial offers).run (turns.take time)
    let ended := (start initial offers).run turns
    (∀ earlier later, earlier ≤ later →
      (moment earlier).race.cell.registry.version ≤ (moment later).race.cell.registry.version) ∧
    (∀ name, (ended.snapshotsOf name).Pairwise fun a b =>
      a.registry.version ≤ b.registry.version) ∧
    (∀ name, ∀ snapshot ∈ ended.snapshotsOf name, snapshot = ⟨none, initial⟩ ∨
      ∃ i offered previous, offers[i]? = some offered ∧
        ended.race.answer? i = some (.ok previous) ∧ snapshot = ⟨some i, offered⟩) ∧
    (∀ i failure, ended.race.answer? i = some (.error failure) →
      ∃ offered current, offers[i]? = some offered ∧ failure = .stale current offered.version ∧
        offered.version < current ∧ ∃ time seen attempts,
          (moment time).race.callers[i]? = some (.trying offered seen attempts) ∧
          (moment time).race.cell.registry.version = current) ∧
    (∀ i offered, offers[i]? = some offered →
      (∀ version ∈ initial.version :: offers.map Registry.version, version ≤ offered.version) →
      ∀ failure, ended.race.answer? i ≠ some (.error failure)) ∧
    (ended.race.isDone = true → (initial.version :: offers.map Registry.version).max? =
      some ended.race.cell.registry.version) := by
  intro moment ended
  have hbegun : Sound initial offers (start initial offers) := Sound.start initial offers
  have hsound : Sound initial offers ended := hbegun.run turns
  have hwhole : moment turns.length = ended := by
    simp only [moment, ended, List.take_length]
  have hgrows (earlier later : Nat) (hle : earlier ≤ later) :
      (moment earlier).race.cell.registry.version ≤ (moment later).race.cell.registry.version :=
    hbegun.version_le_take turns hle
  refine ⟨hgrows, ?_, ?_, fun i failure hreturned => meets_newer_of_error hreturned, ?_, ?_⟩
  · intro name
    exact List.pairwise_map.mpr (hsound.ascending.filter _)
  · intro name snapshot hmem
    obtain ⟨named, htaken, rfl⟩ := List.mem_map.mp hmem
    rcases hsound.installed named (List.mem_filter.mp htaken).1 with
      hfirst | ⟨i, offered, previous, hi, hreplaced, hmaker⟩
    · exact .inl hfirst
    · exact .inr ⟨i, offered, previous, hi, Race.answer?_eq_ok_iff.mpr hreplaced, hmaker⟩
  · intro i offered hi hgreatest failure hreturned
    obtain ⟨own, current, hi', _, hlt, time, _, _, _, hmet⟩ := meets_newer_of_error hreturned
    have hsame : own = offered := by simpa [hi] using hi'.symm
    rw [hsame] at hlt
    have hbelow := hgreatest _ (hbegun.run (turns.take time)).race.cell.version_mem
    omega
  · intro hdone
    have hfirst := hgrows 0 turns.length (Nat.zero_le _)
    rw [hwhole] at hfirst
    exact hsound.max?_eq_of_isDone hfirst hdone

/-- Both callers read version 5; the second one's swap comes too late, and what it meets is
newer. -/
example :
    let bare (version : Nat) : Registry Unit := .ofCatalogs version .empty []
    let ended := (start (bare 5) [bare 7, bare 6]).run
      [.caller 0, .caller 1, .caller 0, .reader 0, .caller 1, .caller 1]
    ended.race.answer? 1 = some (.error (.stale 7 6)) ∧
      (ended.snapshotsOf 0).map (·.registry.version) = [7] :=
  ⟨rfl, rfl⟩

end Watched

end RdmRegistry
