/-
A race is as good as its calls made one after the other. A call takes effect at one of its steps: a
swap when it happens, a refusal already when the caller sees the registry that is too new for its
offer, which it does in the step before it gives up. In the order of these steps every call gets the
answer that it would get if it were made alone at that moment.
-/
import RdmRegistry.Proofs.Race.Soundness

namespace RdmRegistry

variable {φ : Type}

/-! ## One call after the other -/

namespace Allocation

/-- The answer to a replacement that nothing interrupts, and the allocation in use after it. The
caller at the position makes it. -/
def replace (cell : Allocation φ) (position : Nat) (offered : Registry φ) :
    Except Failure (Allocation φ) × Allocation φ :=
  match ((⟨cell.registry⟩ : Live φ).replace offered).outcome with
  | .ok (previous, live) => (.ok ⟨cell.maker, previous⟩, ⟨some position, live.current⟩)
  | .error failure => (.error failure, cell)

/-- The answers to replacements one after another, and the allocation in use after them. -/
def replaceAll (cell : Allocation φ) :
    List (Nat × Registry φ) → List (Except Failure (Allocation φ)) × Allocation φ
  | [] => ([], cell)
  | (position, offered) :: calls =>
    let (answer, next) := cell.replace position offered
    let (answers, last) := next.replaceAll calls
    (answer :: answers, last)

variable {cell last : Allocation φ} {position : Nat} {offered : Registry φ}

theorem replace_of_older (hlt : offered.version < cell.registry.version) :
    cell.replace position offered =
      (.error (.stale cell.registry.version offered.version), cell) := by
  have hrefused : ((⟨cell.registry⟩ : Live φ).replace offered).outcome = _ :=
    Live.outcome_replace_of_older hlt
  rw [replace, hrefused]

theorem replace_of_newer (hle : cell.registry.version ≤ offered.version) :
    cell.replace position offered = (.ok cell, ⟨some position, offered⟩) := by
  have hswapped : ((⟨cell.registry⟩ : Live φ).replace offered).outcome = _ :=
    Live.outcome_replace_of_newer hle
  rw [replace, hswapped]

/-- A failed replacement leaves the allocation in use. -/
theorem replace_snd_of_error {failure : Failure}
    (hfailed : (cell.replace position offered).1 = .error failure) :
    (cell.replace position offered).2 = cell := by
  by_cases hlt : offered.version < cell.registry.version
  · rw [replace_of_older hlt]
  · rw [replace_of_newer (by omega)] at hfailed
    simp at hfailed

theorem replaceAll_concat {calls : List (Nat × Registry φ)}
    {answers : List (Except Failure (Allocation φ))} {answer : Except Failure (Allocation φ)}
    {next : Allocation φ} (hreplaced : cell.replaceAll calls = (answers, last))
    (halone : last.replace position offered = (answer, next)) :
    cell.replaceAll (calls ++ [(position, offered)]) = (answers ++ [answer], next) := by
  induction calls generalizing cell answers with
  | nil =>
    simp only [replaceAll, Prod.mk.injEq] at hreplaced
    obtain ⟨rfl, rfl⟩ := hreplaced
    simp only [List.nil_append, replaceAll, halone]
  | cons call calls ih =>
    simp only [replaceAll, Prod.mk.injEq] at hreplaced
    obtain ⟨rfl, hrest⟩ := hreplaced
    simp only [List.cons_append, replaceAll]
    rw [ih (Prod.ext rfl hrest)]

/-- Calls that fail can be left out. -/
theorem replaceAll_filter {answer? : Nat → Option (Except Failure (Allocation φ))}
    (keep : Nat × Registry φ → Bool) {calls : List (Nat × Registry φ)}
    {answers : List (Except Failure (Allocation φ))}
    (hreplaced : cell.replaceAll calls = (answers, last))
    (hanswered : calls.map (answer? ·.1) = answers.map some)
    (hfailed : ∀ call ∈ calls, keep call = false →
      ∃ failure, answer? call.1 = some (.error failure)) :
    ∃ answers, cell.replaceAll (calls.filter keep) = (answers, last) ∧
      (calls.filter keep).map (answer? ·.1) = answers.map some := by
  induction calls generalizing cell answers with
  | nil => exact ⟨answers, hreplaced, hanswered⟩
  | cons call calls ih =>
    simp only [replaceAll, Prod.mk.injEq] at hreplaced
    obtain ⟨rfl, hrest⟩ := hreplaced
    simp only [List.map_cons, List.cons.injEq] at hanswered
    obtain ⟨hfirst, hanswered⟩ := hanswered
    obtain ⟨answers, hkept, hagree⟩ := ih (Prod.ext rfl hrest) hanswered
      (fun other hmem => hfailed other (List.mem_cons_of_mem _ hmem))
    cases hkeep : keep call with
    | true =>
      refine ⟨(cell.replace call.1 call.2).1 :: answers, ?_, ?_⟩
      · simp only [List.filter_cons, hkeep, if_true, replaceAll, hkept]
      · simp only [List.filter_cons, hkeep, if_true, List.map_cons, hfirst, hagree]
    | false =>
      obtain ⟨failure, hrefused⟩ := hfailed call (List.mem_cons_self ..) hkeep
      rw [hrefused, Option.some.injEq] at hfirst
      rw [replace_snd_of_error hfirst.symm] at hkept
      refine ⟨answers, ?_, ?_⟩
      · simpa only [List.filter_cons, hkeep, if_false, Bool.false_eq_true] using hkept
      · simpa only [List.filter_cons, hkeep, if_false, Bool.false_eq_true] using hagree

end Allocation

/-! ## When an answer is certain -/

/-- What the caller has returned. -/
def Caller.answer? : Caller φ → Option (Except Failure (Allocation φ))
  | .replaced previous _ => some (.ok previous)
  | .refused current offered _ => some (.error (.stale current offered))
  | _ => none

/-- What the caller has returned or, having seen a registry too new for its offer, will return. -/
def Caller.verdict? : Caller φ → Option (Except Failure (Allocation φ))
  | .waiting _ => none
  | .trying offered seen _ =>
    if offered.version < seen.registry.version then
      some (.error (.stale seen.registry.version offered.version))
    else none
  | .replaced previous _ => some (.ok previous)
  | .refused current offered _ => some (.error (.stale current offered))

namespace Race

/-- What the caller at a position has returned. -/
def answer? (race : Race φ) (i : Nat) : Option (Except Failure (Allocation φ)) :=
  race.callers[i]?.bind Caller.answer?

/-- What the caller at a position returns for certain. -/
def verdict? (race : Race φ) (i : Nat) : Option (Except Failure (Allocation φ)) :=
  race.callers[i]?.bind Caller.verdict?

/-- The call whose answer becomes certain by a step of the caller at a position, if there is one. -/
def settled (race : Race φ) (position : Nat) : List (Nat × Registry φ) :=
  match race.callers[position]? with
  | some (.waiting offered) =>
    if offered.version < race.cell.registry.version then [(position, offered)] else []
  | some (.trying offered seen _) =>
    if offered.version < seen.registry.version then []
    else if race.cell.isSame seen || offered.version < race.cell.registry.version then
      [(position, offered)]
    else []
  | _ => []

/-- The calls of a run in the order in which their answers become certain. -/
def order (race : Race φ) : List Nat → List (Nat × Registry φ)
  | [] => []
  | position :: schedule => race.settled position ++ (race.step position).order schedule

/-- In a run, one call returns before the other has read the cell. -/
def Precedes (race : Race φ) (schedule : List Nat) (earlier later : Nat) : Prop :=
  ∃ k, ((race.run (schedule.take k)).answer? earlier).isSome = true ∧
    ∃ offered, (race.run (schedule.take k)).callers[later]? = some (.waiting offered)

theorem order_append (race : Race φ) (earlier later : List Nat) :
    race.order (earlier ++ later) = race.order earlier ++ (race.run earlier).order later := by
  induction earlier generalizing race with
  | nil => rfl
  | cons position earlier ih =>
    simp only [List.cons_append, order, run_cons, ih, List.append_assoc]

/-- An answer that was returned is the one that was certain. -/
theorem verdict?_of_answer? {race : Race φ} {i : Nat} {answer : Except Failure (Allocation φ)}
    (hreturned : race.answer? i = some answer) : race.verdict? i = some answer := by
  simp only [answer?, Option.bind_eq_some_iff] at hreturned
  obtain ⟨caller, hfound, hreturned⟩ := hreturned
  cases caller with
  | waiting | trying => simp [Caller.answer?] at hreturned
  | replaced | refused =>
    simp only [verdict?, hfound, Option.bind_some]
    exact hreturned

/-- What is certain and was not returned yet is a refusal. -/
theorem error_of_verdict? {race : Race φ} {i : Nat} {answer : Except Failure (Allocation φ)}
    (hcertain : race.verdict? i = some answer) (hrunning : race.answer? i = none) :
    ∃ failure, answer = .error failure := by
  simp only [verdict?, Option.bind_eq_some_iff] at hcertain
  obtain ⟨caller, hfound, hcertain⟩ := hcertain
  simp only [answer?, hfound, Option.bind_some] at hrunning
  cases caller with
  | waiting => simp [Caller.verdict?] at hcertain
  | trying offered seen attempts =>
    simp only [Caller.verdict?] at hcertain
    split at hcertain
    · exact ⟨_, (Option.some.inj hcertain).symm⟩
    · simp at hcertain
  | replaced | refused => simp [Caller.answer?] at hrunning

section

variable {initial : Registry φ} {offers : List (Registry φ)} {race : Race φ}

/-- The step settles the offer of the caller at the position: the answer is the one that the call
gets when it is made alone at this moment, and the step leaves the cell as that call does. -/
def Settles (race : Race φ) (position : Nat) (offered : Registry φ) : Prop :=
  race.settled position = [(position, offered)] ∧ race.verdict? position = none ∧
    ∃ answer, race.cell.replace position offered = (answer, (race.step position).cell) ∧
      ∀ i, (race.step position).verdict? i = if i = position then some answer else race.verdict? i

/-- The step settles nothing. -/
def Idles (race : Race φ) (position : Nat) : Prop :=
  race.settled position = [] ∧ (race.step position).cell = race.cell ∧
    ∀ i, (race.step position).verdict? i = race.verdict? i

theorem verdict?_step {position : Nat} {caller next : Caller φ} {cell : Allocation φ}
    (hfound : race.callers[position]? = some caller)
    (hstep : race.step position = { cell, callers := race.callers.set position next }) (i : Nat) :
    (race.step position).verdict? i = if i = position then next.verdict? else race.verdict? i := by
  simp only [verdict?, hstep, getElem?_set_callers hfound]
  split <;> rfl

theorem idles_of_verdict? {position : Nat} {caller next : Caller φ}
    (hfound : race.callers[position]? = some caller)
    (hstep : race.step position = ⟨race.cell, race.callers.set position next⟩)
    (hsettled : race.settled position = []) (hunchanged : next.verdict? = caller.verdict?) :
    race.Idles position := by
  refine ⟨hsettled, by rw [hstep], fun i => ?_⟩
  rw [verdict?_step hfound hstep, hunchanged]
  split
  · next heq => simp only [heq, verdict?, hfound, Option.bind_some]
  · rfl

/-- A caller that looks at the cell settles its refusal, or it settles nothing. -/
theorem settles_or_idles_of_look {position attempts : Nat} {caller : Caller φ}
    {offered : Registry φ} (hfound : race.callers[position]? = some caller)
    (hstep : race.step position =
      ⟨race.cell, race.callers.set position (.trying offered race.cell attempts)⟩)
    (hunsettled : caller.verdict? = none)
    (hsettled : race.settled position =
      if offered.version < race.cell.registry.version then [(position, offered)] else []) :
    race.Settles position offered ∨ race.Idles position := by
  by_cases hlt : offered.version < race.cell.registry.version
  · rw [if_pos hlt] at hsettled
    refine .inl ⟨hsettled, ?_, .error (.stale race.cell.registry.version offered.version), ?_, ?_⟩
    · simp only [verdict?, hfound, Option.bind_some, hunsettled]
    · rw [hstep]
      exact Allocation.replace_of_older hlt
    · intro i
      rw [verdict?_step hfound hstep]
      simp only [Caller.verdict?, hlt, if_true]
  · rw [if_neg hlt] at hsettled
    refine .inr (idles_of_verdict? hfound hstep hsettled ?_)
    rw [hunsettled]
    simp only [Caller.verdict?, hlt, if_false]

/-- Every step settles the offer of the caller that makes it, or it settles nothing. -/
theorem Sound.settles_or_idles (h : Sound initial offers race) (position : Nat) :
    (∃ offered, offers[position]? = some offered ∧ race.Settles position offered) ∨
      race.Idles position := by
  rcases race.step_cases position with ⟨hsame, hdone⟩ | ⟨caller, cell, next, hfound, hmove, hstep⟩
  · refine .inr ⟨?_, by rw [hsame], by simp [hsame]⟩
    cases hfound : race.callers[position]? with
    | none => simp only [settled, hfound]
    | some caller =>
      have := hdone caller hfound
      cases caller with
      | waiting | trying => simp [Caller.isDone] at this
      | replaced | refused => simp only [settled, hfound]
  · have hknown := h.callers position caller hfound
    cases hmove with
    | read offered =>
      have hlooked := settles_or_idles_of_look hfound hstep rfl (by simp only [settled, hfound])
      exact hlooked.imp_left fun hsettles => ⟨offered, hknown, hsettles⟩
    | refuse attempts hlt =>
      refine .inr (idles_of_verdict? hfound hstep ?_ ?_)
      · simp only [settled, hfound, hlt, if_true]
      · simp only [Caller.verdict?, hlt, if_true]
    | @swap offered seen attempts hle hsame =>
      have hcell : race.cell = seen := h.seen_eq_cell hfound hsame
      have hnot : ¬offered.version < seen.registry.version := by omega
      refine .inl ⟨offered, hknown.1, ?_, ?_, .ok seen, ?_, verdict?_step hfound hstep⟩
      · simp only [settled, hfound, hnot, hsame, if_true, if_false, Bool.true_or]
      · simp only [verdict?, hfound, Option.bind_some, Caller.verdict?, hnot, if_false]
      · rw [hstep, hcell]
        exact Allocation.replace_of_newer hle
    | @retry offered seen attempts hle hother =>
      have hnot : ¬offered.version < seen.registry.version := by omega
      have hlooked : race.Settles position offered ∨ race.Idles position := by
        refine settles_or_idles_of_look hfound hstep ?_ ?_
        · simp only [Caller.verdict?, hnot, if_false]
        · simp [settled, hfound, hnot, hother]
      exact hlooked.imp_left fun hsettles => ⟨offered, hknown.1, hsettles⟩

/-! ## The sequential order -/

/-- The calls, in this order, are those whose answers are certain, and made one after the other from
the allocation given they get these answers and leave the cell as it is. -/
structure Sequenced (first : Allocation φ) (offers : List (Registry φ)) (race : Race φ)
    (calls : List (Nat × Registry φ)) : Prop where
  positions : (calls.map Prod.fst).Nodup
  offered : ∀ call ∈ calls, offers[call.1]? = some call.2
  certain : ∀ i, i ∈ calls.map Prod.fst ↔ (race.verdict? i).isSome = true
  replaced : ∃ answers, first.replaceAll calls = (answers, race.cell) ∧
    calls.map (race.verdict? ·.1) = answers.map some

theorem Sequenced.start (initial : Registry φ) (offers : List (Registry φ)) :
    Sequenced ⟨none, initial⟩ offers (start initial offers) [] where
  positions := List.nodup_nil
  offered call hmem := by simp at hmem
  certain i := by
    have huncertain : (Race.start initial offers).verdict? i = none := by
      simp only [verdict?, Race.start, List.getElem?_map]
      cases offers[i]? <;> rfl
    simp [huncertain]
  replaced := ⟨[], rfl, rfl⟩

theorem Sequenced.step {first : Allocation φ} {calls : List (Nat × Registry φ)}
    (h : Sequenced first offers race calls) (hsound : Sound initial offers race) (position : Nat) :
    Sequenced first offers (race.step position) (calls ++ race.settled position) := by
  obtain ⟨answers, hreplaced, hanswered⟩ := h.replaced
  rcases hsound.settles_or_idles position with
    ⟨offered, hposition, hsettled, hunsettled, answer, halone, hverdict⟩ |
      ⟨hsettled, hcell, hverdict⟩
  · have hnew : position ∉ calls.map Prod.fst := by
      rw [h.certain, hunsettled]
      simp
    have hothers (call : Nat × Registry φ) (hmem : call ∈ calls) :
        (race.step position).verdict? call.1 = race.verdict? call.1 := by
      have : call.1 ≠ position := fun heq => hnew (heq ▸ List.mem_map_of_mem hmem)
      rw [hverdict, if_neg this]
    rw [hsettled]
    refine ⟨?_, ?_, fun i => ?_, answers ++ [answer], ?_, ?_⟩
    · rw [List.map_append, List.nodup_append]
      refine ⟨h.positions, by simp, ?_⟩
      intro i hmem j hj
      have : j = position := by simpa using hj
      rw [this]
      exact fun hsame => hnew (hsame ▸ hmem)
    · intro call hmem
      rcases List.mem_append.mp hmem with hmem | hmem
      · exact h.offered call hmem
      · rw [List.mem_singleton.mp hmem]
        exact hposition
    · rw [List.map_append, List.mem_append, h.certain, hverdict]
      by_cases heq : i = position <;> simp [heq]
    · exact Allocation.replaceAll_concat hreplaced halone
    · rw [List.map_append, List.map_append, List.map_congr_left hothers, hanswered]
      simp [hverdict]
  · have hsame : (race.step position).verdict? = race.verdict? := funext hverdict
    rw [hsettled, List.append_nil]
    refine ⟨h.positions, h.offered, ?_, answers, ?_, ?_⟩
    · rw [hsame]
      exact h.certain
    · rw [hcell]
      exact hreplaced
    · rw [hsame]
      exact hanswered

theorem Sequenced.run {first : Allocation φ} {calls : List (Nat × Registry φ)}
    (h : Sequenced first offers race calls) (hsound : Sound initial offers race)
    (schedule : List Nat) :
    Sequenced first offers (race.run schedule) (calls ++ race.order schedule) := by
  induction schedule generalizing race calls with
  | nil =>
    rw [order, List.append_nil]
    exact h
  | cons position schedule ih =>
    rw [run_cons, order, ← List.append_assoc]
    exact ih (h.step hsound position) (hsound.step position)

/-- The order of a run does not contradict the order in time. -/
theorem Sequenced.pairwise_order {first : Allocation φ} (h : Sequenced first offers race [])
    (hsound : Sound initial offers race) (schedule : List Nat) :
    (race.order schedule).Pairwise fun a b => ¬race.Precedes schedule b.1 a.1 := by
  rw [List.pairwise_iff_forall_sublist]
  intro a b hboth hprecedes
  obtain ⟨k, hreturned, offered, hwaiting⟩ := hprecedes
  have hsplit : race.order schedule = race.order (schedule.take k) ++
      (race.run (schedule.take k)).order (schedule.drop k) := by
    rw [← order_append, List.take_append_drop]
  have hearly := h.run hsound (schedule.take k)
  rw [List.nil_append] at hearly
  have hb : b.1 ∈ (race.order (schedule.take k)).map Prod.fst := by
    obtain ⟨answer, hreturned⟩ := Option.isSome_iff_exists.mp hreturned
    rw [hearly.certain, verdict?_of_answer? hreturned]
    rfl
  have ha : a.1 ∉ (race.order (schedule.take k)).map Prod.fst := by
    rw [hearly.certain]
    simp [verdict?, hwaiting, Caller.verdict?]
  have hpositions : ((race.order schedule).map Prod.fst).Nodup := (h.run hsound schedule).positions
  rw [hsplit, List.map_append, List.nodup_append] at hpositions
  have hboth := hboth.map Prod.fst
  rw [hsplit, List.map_append] at hboth
  -- a pair that begins after the early part lies beyond it as a whole
  obtain ⟨front, back, hpair, hfront, hback⟩ := List.sublist_append_iff.mp hboth
  cases front with
  | nil =>
    have hb' : b.1 ∈ back := by
      rw [List.nil_append] at hpair
      rw [← hpair]
      simp
    exact hpositions.2.2 b.1 hb b.1 (hback.subset hb') rfl
  | cons i front =>
    simp only [List.map_cons, List.cons_append, List.cons.injEq] at hpair
    rw [← hpair.1] at hfront
    exact ha (hfront.subset (List.mem_cons_self ..))

/-! ## The calls that returned -/

/-- The calls that have returned, of those that are certain. -/
def returned (race : Race φ) (calls : List (Nat × Registry φ)) : List (Nat × Registry φ) :=
  calls.filter fun call => (race.answer? call.1).isSome

theorem Sequenced.mem_returned {first : Allocation φ} {calls : List (Nat × Registry φ)}
    (h : Sequenced first offers race calls) (i : Nat) (offered : Registry φ) :
    (i, offered) ∈ race.returned calls ↔
      offers[i]? = some offered ∧ (race.answer? i).isSome = true := by
  rw [returned, List.mem_filter]
  constructor
  · intro hgiven
    exact ⟨h.offered _ hgiven.1, hgiven.2⟩
  · intro hgiven
    obtain ⟨answer, hanswered⟩ := Option.isSome_iff_exists.mp hgiven.2
    have hcertain : (race.verdict? i).isSome = true := by
      rw [verdict?_of_answer? hanswered]
      rfl
    obtain ⟨call, hmem, rfl⟩ := List.mem_map.mp ((h.certain i).mpr hcertain)
    have hown : call.2 = offered := by simpa [hgiven.1] using (h.offered call hmem).symm
    rw [← hown]
    exact ⟨hmem, hgiven.2⟩

/-- A call that is certain but has not returned will be refused, and refusals can be left out. -/
theorem Sequenced.replaceAll_returned {first : Allocation φ} {calls : List (Nat × Registry φ)}
    (h : Sequenced first offers race calls) :
    ∃ answers, first.replaceAll (race.returned calls) = (answers, race.cell) ∧
      (race.returned calls).map (race.answer? ·.1) = answers.map some := by
  obtain ⟨answers, hreplaced, hanswered⟩ := h.replaced
  have hfailed (call : Nat × Registry φ) (hmem : call ∈ calls)
      (hrunning : (race.answer? call.1).isSome = false) :
      ∃ failure, race.verdict? call.1 = some (.error failure) := by
    have hcertain := (h.certain call.1).mp (List.mem_map_of_mem hmem)
    obtain ⟨answer, hcertain⟩ := Option.isSome_iff_exists.mp hcertain
    obtain ⟨failure, rfl⟩ := error_of_verdict? hcertain (by simpa using hrunning)
    exact ⟨failure, hcertain⟩
  obtain ⟨answers, hreplaced, hanswered⟩ := Allocation.replaceAll_filter
    (fun call => (race.answer? call.1).isSome) hreplaced hanswered hfailed
  refine ⟨answers, hreplaced, ?_⟩
  rw [← hanswered]
  refine List.map_congr_left fun call hmem => ?_
  obtain ⟨answer, hreturned⟩ := Option.isSome_iff_exists.mp (List.mem_filter.mp hmem).2
  rw [hreturned, verdict?_of_answer? hreturned]

/-! ## What was in the cell -/

/-- What is in the cell stays there, or a caller replaces it. -/
theorem Sound.cell_run (h : Sound initial offers race) (schedule : List Nat) :
    (race.run schedule).cell = race.cell ∨ ∃ i, (race.run schedule).Replaced i race.cell := by
  induction schedule generalizing race with
  | nil => exact .inl rfl
  | cons position schedule ih =>
    rw [run_cons]
    rcases h.cell_step position with ⟨hsame, _⟩ | ⟨offered, _, _, _, hreplaced, _⟩
    · rw [← hsame]
      exact ih (h.step position)
    · exact .inr ⟨position, hreplaced.run schedule⟩

theorem answer?_eq_ok_iff {i : Nat} {previous : Allocation φ} :
    race.answer? i = some (.ok previous) ↔ race.Replaced i previous := by
  constructor
  · intro hreturned
    simp only [answer?, Option.bind_eq_some_iff] at hreturned
    obtain ⟨caller, hfound, hreturned⟩ := hreturned
    cases caller with
    | waiting | trying | refused => simp [Caller.answer?] at hreturned
    | replaced other attempts =>
      simp only [Caller.answer?, Option.some.injEq, Except.ok.injEq] at hreturned
      exact ⟨attempts, hreturned ▸ hfound⟩
  · intro hreplaced
    obtain ⟨attempts, hfound⟩ := hreplaced
    simp only [answer?, hfound, Option.bind_some, Caller.answer?]

/-- **Whatever the interleaving, the calls that returned have an order** that does not contradict
the order in time, and made one after the other in it they get the same answers and leave the same
registry in use. Everything that was ever in the cell and no longer is was given back by exactly one
of them, and what is still there by none. -/
theorem linearizable (initial : Registry φ) (offers : List (Registry φ)) (schedule : List Nat) :
    let begun := start initial offers
    let race := begun.run schedule
    ∃ (calls : List (Nat × Registry φ)) (answers : List (Except Failure (Allocation φ))),
      (calls.map Prod.fst).Nodup ∧
      (∀ i offered, (i, offered) ∈ calls ↔
        offers[i]? = some offered ∧ (race.answer? i).isSome = true) ∧
      calls.Pairwise (fun a b => ¬begun.Precedes schedule b.1 a.1) ∧
      begun.cell.replaceAll calls = (answers, race.cell) ∧
      calls.map (race.answer? ·.1) = answers.map some ∧
      (∀ k, let cell := (begun.run (schedule.take k)).cell
        cell = race.cell ∨ ∃ i, race.answer? i = some (.ok cell) ∧
          ∀ j previous, race.answer? j = some (.ok previous) →
            previous.isSame cell = true → j = i) ∧
      ∀ i previous, race.answer? i = some (.ok previous) → previous.isSame race.cell = false := by
  intro begun race
  have hsound : Sound initial offers begun := Sound.start initial offers
  have hstart : Sequenced begun.cell offers begun [] := Sequenced.start initial offers
  have hsequenced : Sequenced begun.cell offers race (begun.order schedule) :=
    hstart.run hsound schedule
  have hended : Sound initial offers race := hsound.run schedule
  obtain ⟨answers, hreplaced, hanswered⟩ := hsequenced.replaceAll_returned
  refine ⟨race.returned (begun.order schedule), answers, ?_, hsequenced.mem_returned, ?_, hreplaced,
    hanswered, ?_, ?_⟩
  · exact hsequenced.positions.sublist (List.filter_sublist.map Prod.fst)
  · exact (hstart.pairwise_order hsound schedule).filter _
  · intro k cell
    have hlater : (begun.run (schedule.take k)).run (schedule.drop k) = race := by
      rw [← run_append, List.take_append_drop]
    have hkept := (hsound.run (schedule.take k)).cell_run (schedule.drop k)
    rw [hlater] at hkept
    rcases hkept with hsame | ⟨i, hi⟩
    · exact .inl hsame.symm
    · refine .inr ⟨i, answer?_eq_ok_iff.mpr hi, fun j previous hj hsame => ?_⟩
      have hmakers : previous.maker = cell.maker := by simpa [Allocation.isSame] using hsame
      exact hended.single j i previous cell (answer?_eq_ok_iff.mp hj) hi hmakers
  · intro i previous hi
    have hfresh := hended.fresh i previous (answer?_eq_ok_iff.mp hi)
    simpa [Allocation.isSame] using hfresh

end

end Race

end RdmRegistry
