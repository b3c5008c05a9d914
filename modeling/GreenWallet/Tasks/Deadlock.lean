import Mathlib.Data.Fintype.EquivFin
import Mathlib.Order.WellFounded
import GreenWallet.Tasks.Dependencies

/-!
# Groups that are stuck

A task that waits for its inputs is looked at in every pass and left alone. A group makes headway
in every pass as long as its tasks need only each other, and not in a circle. Tasks that wait for
each other in a circle do so for good, whatever else happens.
-/
namespace GreenWallet.Tasks
open GreenWallet.Library

namespace World
variable {ι : Type}

/-- The group is on its way: it has not failed, and no task of it has, but not all have finished. -/
structure Open (w : World ι) (g : GroupId) : Prop where
  status : (w.groups g).status ≠ .failed
  unfinished : w.allFinished g = false
  unfailed : w.anyFailed g = false

/-- The tasks of the group need only tasks of the group. -/
def Closed (w : World ι) (g : GroupId) : Prop :=
  ∀ t ∈ (w.groups g).tasks, ∀ u ∈ (w.tasks t).inputs, u ∈ (w.groups g).tasks

/-- The task has not begun, and nothing is under way for it. -/
structure Idle (w : World ι) (t : ι) : Prop where
  status : w.status t = .ready ∨ w.status t = .failed
  calls : ∀ c ∈ w.calls, c.task ≠ t
  authHandler : (w.tasks t).authHandler = false
  prompt : (w.tasks t).prompt = none

/-- Each of the tasks needs one of them. -/
structure Deadlocked (C : Set ι) (w : World ι) : Prop where
  idle : ∀ t ∈ C, w.Idle t
  needs : ∀ t ∈ C, ∃ u ∈ C, u ∈ (w.tasks t).inputs

theorem Deadlocked.not_due {C : Set ι} {w : World ι} (h : Deadlocked C w) {t : ι} (ht : t ∈ C) :
    w.isDue t = false := by
  obtain ⟨u, hu, hneeds⟩ := h.needs t ht
  by_contra hdue
  have hfinished := (isDue_iff.mp (eq_true_of_ne_false hdue)).2 u hneeds
  cases (h.idle u hu).status with
  | inl hready => rw [hready] at hfinished; cases hfinished
  | inr hfailed => rw [hfailed] at hfinished; cases hfinished

/-- The task of an open group is due if its inputs have finished. -/
theorem Open.isDue {w : World ι} {g : GroupId} (h : w.Open g) {t : ι}
    (ht : t ∈ (w.groups g).tasks) (hopen : w.status t ≠ .finished)
    (hinputs : ∀ u ∈ (w.tasks t).inputs, w.status u = .finished) : w.isDue t = true := by
  have hfailed : w.status t ≠ .failed := by
    intro hfailed
    have hany := h.unfailed
    rw [anyFailed, List.any_eq_false] at hany
    exact hany t ht (by simp [hfailed])
  refine isDue_iff.mpr ⟨?_, hinputs⟩
  cases hstatus : w.status t with
  | ready => exact .inl rfl
  | active => exact .inr rfl
  | finished => exact absurd hstatus hopen
  | failed => exact absurd hstatus hfailed

theorem Open.exists_unfinished {w : World ι} {g : GroupId} (h : w.Open g) :
    ∃ t ∈ (w.groups g).tasks, w.status t ≠ .finished := by
  have hsome := h.unfinished
  rw [allFinished, List.all_eq_false] at hsome
  obtain ⟨t, ht, hopen⟩ := hsome
  exact ⟨t, ht, by simpa using hopen⟩

theorem tasks_showActive (w : World ι) (g : GroupId) : (w.showActive g).tasks = w.tasks := by
  unfold showActive setGroupStatus
  split_ifs <;> rfl

theorem isDue_showActive (w : World ι) (g : GroupId) (t : ι) :
    (w.showActive g).isDue t = w.isDue t := by
  unfold isDue status
  rw [tasks_showActive]

theorem Deadlocked.congr {C : Set ι} {w w' : World ι} (h : Deadlocked C w)
    (htasks : w'.tasks = w.tasks) (hcalls : ∀ c ∈ w'.calls, c ∈ w.calls) : Deadlocked C w' where
  idle := by
    intro t ht
    have hidle := h.idle t ht
    refine ⟨?_, fun c hc => hidle.calls c (hcalls c hc), ?_, ?_⟩
    · rw [status, htasks]
      exact hidle.status
    · rw [htasks]
      exact hidle.authHandler
    · rw [htasks]
      exact hidle.prompt
  needs := by
    rw [htasks]
    exact h.needs

theorem Deadlocked.foldl {C : Set ι} {α : Type} {body : World ι → α → World ι}
    (hbody : ∀ w x, Deadlocked C w → Deadlocked C (body w x)) (xs : List α) {w : World ι}
    (h : Deadlocked C w) : Deadlocked C (xs.foldl body w) := by
  induction xs generalizing w with
  | nil => exact h
  | cons x xs ih => exact ih (hbody w x h)

theorem Deadlocked.setGroupStatus {C : Set ι} {w : World ι} (h : Deadlocked C w) (g : GroupId)
    (s : Status) : Deadlocked C (w.setGroupStatus g s) := by
  unfold World.setGroupStatus
  split_ifs
  · exact h
  · exact h.congr rfl fun _ hc => hc

theorem Deadlocked.showActive {C : Set ι} {w : World ι} (h : Deadlocked C w) (g : GroupId) :
    Deadlocked C (w.showActive g) := by
  unfold World.showActive
  split_ifs
  · exact h.setGroupStatus g .active
  · exact h

variable [DecidableEq ι]

theorem updates_showActive (w : World ι) (g : GroupId) (t : ι) :
    (w.showActive g).updates t = w.updates t := by
  unfold showActive
  split_ifs
  · exact updates_setGroupStatus w g .active t
  · rfl

/-- Edges that are drawn change nothing for the tasks that wait. -/
theorem Deadlocked.setTask {C : Set ι} {w : World ι} (h : Deadlocked C w) (u : ι)
    {f : Task ι → Task ι} (hstatus : (f (w.tasks u)).status = (w.tasks u).status)
    (hauth : (f (w.tasks u)).authHandler = (w.tasks u).authHandler)
    (hprompt : (f (w.tasks u)).prompt = (w.tasks u).prompt)
    (hinputs : (w.tasks u).inputs ⊆ (f (w.tasks u)).inputs) : Deadlocked C (w.setTask u f) where
  idle := by
    intro t ht
    have hidle := h.idle t ht
    by_cases htu : t = u
    · subst htu
      constructor
      · rw [status_setTask w t hstatus]
        exact hidle.status
      · exact hidle.calls
      · simpa [World.setTask, hauth] using hidle.authHandler
      · simpa [World.setTask, hprompt] using hidle.prompt
    · constructor
      · rw [status_setTask w u hstatus]
        exact hidle.status
      · exact hidle.calls
      · simpa [World.setTask, htu] using hidle.authHandler
      · simpa [World.setTask, htu] using hidle.prompt
  needs := by
    intro t ht
    obtain ⟨v, hv, hneeds⟩ := h.needs t ht
    refine ⟨v, hv, ?_⟩
    by_cases htu : t = u
    · subst htu
      simpa [World.setTask] using hinputs hneeds
    · simpa [World.setTask, htu] using hneeds

theorem Deadlocked.insertInput {C : Set ι} {w : World ι} (h : Deadlocked C w) (t u : ι) :
    Deadlocked C (w.insertInput t u) :=
  h.setTask t (f := fun task => { task with inputs := task.inputs.insert u }) rfl rfl rfl
    fun _ hv => List.mem_insert_of_mem hv

theorem Deadlocked.insertOutput {C : Set ι} {w : World ι} (h : Deadlocked C w) (t u : ι) :
    Deadlocked C (w.insertOutput t u) :=
  h.setTask t (f := fun task => { task with outputs := task.outputs.insert u }) rfl rfl rfl
    fun _ hv => hv

variable [Fintype ι]

/-! ### Headway -/

theorem updates_le_foldl_visit (seen : ι → Surroundings) (ts : List ι) (w : World ι) (t : ι) :
    w.updates t ≤ (ts.foldl (visit seen) w).updates t := by
  induction ts generalizing w with
  | nil => exact Nat.le_refl _
  | cons u ts ih =>
      have hfirst : w.updates t ≤ (visit seen w u).updates t := by
        rw [updates_visit]
        exact Nat.le_add_right _ _
      exact Nat.le_trans hfirst (ih (visit seen w u))

theorem visit_of_not_due (seen : ι → Surroundings) {w : World ι} {t : ι} (h : w.isDue t = false) :
    visit seen w t = w := by
  simp [visit, h]

/-- The first task that is due is updated, whatever becomes of the others. -/
theorem exists_updated (seen : ι → Surroundings) {ts : List ι} {w : World ι}
    (h : ∃ t ∈ ts, w.isDue t = true) : ∃ t ∈ ts, w.updates t < (ts.foldl (visit seen) w).updates t := by
  induction ts with
  | nil =>
      obtain ⟨t, ht, -⟩ := h
      cases ht
  | cons u ts ih =>
      rw [List.foldl_cons]
      cases hdue : w.isDue u with
      | true =>
          have hvisit : w.updates u < (visit seen w u).updates u := by
            rw [updates_visit, if_pos ⟨rfl, hdue⟩]
            exact Nat.lt_succ_self _
          exact ⟨u, List.mem_cons_self, Nat.lt_of_lt_of_le hvisit (updates_le_foldl_visit seen ts _ u)⟩
      | false =>
          rw [visit_of_not_due seen hdue]
          obtain ⟨t, ht, htdue⟩ := h
          have hrest : t ∈ ts := by
            cases List.mem_cons.mp ht with
            | inl hsame =>
                rw [hsame, hdue] at htdue
                cases htdue
            | inr hrest => exact hrest
          obtain ⟨v, hv, hupdated⟩ := ih ⟨t, hrest, htdue⟩
          exact ⟨v, List.mem_cons_of_mem _ hv, hupdated⟩

theorem foldl_visit_of_not_due (seen : ι → Surroundings) {ts : List ι} {w : World ι}
    (h : ∀ t ∈ ts, w.isDue t = false) : ts.foldl (visit seen) w = w := by
  induction ts with
  | nil => rfl
  | cons u ts ih =>
      rw [List.foldl_cons, visit_of_not_due seen (h u List.mem_cons_self)]
      exact ih fun t ht => h t (List.mem_cons_of_mem _ ht)

/-- A pass over an open group shows that tasks are at work, and then goes over the tasks. -/
theorem Open.groupUpdate {w : World ι} {g : GroupId} (h : w.Open g) (seen : ι → Surroundings) :
    w.groupUpdate seen g = (w.groups g).tasks.foldl (visit seen) (w.showActive g) := by
  simp [World.groupUpdate, h.status, h.unfinished, h.unfailed]

/-- A pass over an open group updates a task exactly if one is due before. -/
theorem Open.updates_iff {w : World ι} {g : GroupId} (h : w.Open g) (seen : ι → Surroundings) :
    (∃ t ∈ (w.groups g).tasks, w.updates t < (w.groupUpdate seen g).updates t) ↔
      ∃ t ∈ (w.groups g).tasks, w.isDue t = true := by
  rw [h.groupUpdate]
  constructor
  · intro ⟨t, _, hupdated⟩
    by_contra hnone
    have hquiet : ∀ u ∈ (w.groups g).tasks, (w.showActive g).isDue u = false := by
      intro u hu
      rw [isDue_showActive]
      by_contra hdue
      exact hnone ⟨u, hu, eq_true_of_ne_false hdue⟩
    rw [foldl_visit_of_not_due seen hquiet, updates_showActive] at hupdated
    exact Nat.lt_irrefl _ hupdated
  · intro ⟨t, ht, hdue⟩
    obtain ⟨u, hu, hupdated⟩ := exists_updated seen (w := w.showActive g)
      ⟨t, ht, (isDue_showActive w g t).trans hdue⟩
    rw [updates_showActive] at hupdated
    exact ⟨u, hu, hupdated⟩

/-- **A group makes headway.** A pass over an open group whose tasks need only each other, and not
in a circle, updates at least one of them. -/
theorem group_advances {w : World ι} {g : GroupId} (hopen : w.Open g) (hclosed : w.Closed g)
    (hacyclic : ∀ t, ¬ Relation.TransGen (fun u v => u ∈ (w.tasks v).inputs) t t)
    (seen : ι → Surroundings) :
    ∃ t ∈ (w.groups g).tasks, w.updates t < (w.groupUpdate seen g).updates t := by
  have hirrefl : Std.Irrefl (Relation.TransGen fun u v => u ∈ (w.tasks v).inputs) := ⟨hacyclic⟩
  have hwell := Finite.wellFounded_of_trans_of_irrefl
    (Relation.TransGen fun u v => u ∈ (w.tasks v).inputs)
  obtain ⟨t, ⟨ht, hunfinished⟩, hleast⟩ := hwell.has_min
    {t | t ∈ (w.groups g).tasks ∧ w.status t ≠ .finished} hopen.exists_unfinished
  rw [hopen.updates_iff]
  refine ⟨t, ht, hopen.isDue ht hunfinished ?_⟩
  intro u hu
  by_contra hinput
  exact hleast u ⟨hclosed t ht u hu, hinput⟩ (.single hu)

/-! ### Tasks that wait for each other -/

/-- What of a task does not depend on its status. -/
theorem tasks_setStatus (w : World ι) (u : ι) (s : Status) (t : ι) :
    ((w.setStatus u s).tasks t).inputs = (w.tasks t).inputs ∧
      ((w.setStatus u s).tasks t).authHandler = (w.tasks t).authHandler ∧
      ((w.setStatus u s).tasks t).prompt = (w.tasks t).prompt := by
  apply setStatus_invariant (I := fun v => (v.tasks t).inputs = (w.tasks t).inputs ∧
    (v.tasks t).authHandler = (w.tasks t).authHandler ∧ (v.tasks t).prompt = (w.tasks t).prompt)
  · intro v u s hv
    by_cases htu : t = u
    · subst htu
      simpa [write, setTask, emit] using hv
    · simpa [write, setTask, emit, htu] using hv
  · exact ⟨rfl, rfl, rfl⟩

theorem calls_setStatus (w : World ι) (u : ι) (s : Status) : (w.setStatus u s).calls = w.calls :=
  setStatus_invariant (I := fun v => v.calls = w.calls) (fun _ _ _ hv => hv) rfl u s

theorem status_setStatus_or (w : World ι) {t u : ι} (s : Status) (h : t = u → s = .failed) :
    (w.setStatus u s).status t = w.status t ∨ (w.setStatus u s).status t = .failed := by
  by_cases hs : s = .failed
  · subst hs
    apply setStatus_failed_invariant (I := fun v => v.status t = w.status t ∨ v.status t = .failed)
    · intro v u hv
      rw [status_write]
      split_ifs
      · exact .inr rfl
      · exact hv
    · exact .inl rfl
  · rw [status_setStatus hs, if_neg fun htu => hs (h htu)]
    exact .inl rfl

theorem Deadlocked.setStatus {C : Set ι} {w : World ι} (h : Deadlocked C w) (u : ι) {s : Status}
    (hs : u ∈ C → s = .failed) : Deadlocked C (w.setStatus u s) where
  idle := by
    intro t ht
    have hidle := h.idle t ht
    obtain ⟨-, hauth, hprompt⟩ := tasks_setStatus w u s t
    constructor
    · have hfailing : t = u → s = .failed := by
        intro htu
        exact hs (htu ▸ ht)
      cases status_setStatus_or w s hfailing with
      | inl hsame => exact hsame ▸ hidle.status
      | inr hfailed => exact .inr hfailed
    · rw [calls_setStatus]
      exact hidle.calls
    · exact hauth.trans hidle.authHandler
    · exact hprompt.trans hidle.prompt
  needs := by
    intro t ht
    rw [(tasks_setStatus w u s t).1]
    exact h.needs t ht

/-- Whatever other tasks do, the tasks go on waiting. -/
theorem keptBy_deadlocked {C : Set ι} {u : ι} (hu : u ∉ C) : KeptBy u (Deadlocked C) where
  setStatus w s h := h.setStatus u fun hmem => absurd hmem hu
  start w p h := by
    constructor
    · intro t ht
      have hidle := h.idle t ht
      refine ⟨hidle.status, ?_, hidle.authHandler, hidle.prompt⟩
      intro c hc
      cases List.mem_append.mp hc with
      | inl hold => exact hidle.calls c hold
      | inr hnew =>
          rw [List.mem_singleton.mp hnew]
          intro htu
          have htu : u = t := htu
          exact hu (htu ▸ ht)
    · exact h.needs
  setUnlocking w unlocking h := ⟨fun t ht => ⟨(h.idle t ht).status, (h.idle t ht).calls,
    (h.idle t ht).authHandler, (h.idle t ht).prompt⟩, h.needs⟩
  setTask w f _ h := by
    have hsame : ∀ t ∈ C, (w.setTask u f).tasks t = w.tasks t := by
      intro t ht
      have htu : t ≠ u := fun htu => hu (htu ▸ ht)
      simp [setTask, htu]
    constructor
    · intro t ht
      have hidle := h.idle t ht
      constructor
      · rw [status, hsame t ht]
        exact hidle.status
      · exact hidle.calls
      · rw [hsame t ht]
        exact hidle.authHandler
      · rw [hsame t ht]
        exact hidle.prompt
    · intro t ht
      rw [hsame t ht]
      exact h.needs t ht

theorem Deadlocked.visit {C : Set ι} {w : World ι} (h : Deadlocked C w) (seen : ι → Surroundings)
    (t : ι) : Deadlocked C (visit seen w t) := by
  by_cases ht : t ∈ C
  · rw [visit_of_not_due seen (h.not_due ht)]
    exact h
  · unfold World.visit
    split_ifs
    · have hemitted : Deadlocked C (w.emit [.update t]) := h.congr rfl fun _ hc => hc
      exact (keptBy_deadlocked ht).update hemitted (seen t)
    · exact h

theorem Deadlocked.groupUpdate {C : Set ι} {w : World ι} (h : Deadlocked C w)
    (seen : ι → Surroundings) (g : GroupId) : Deadlocked C (w.groupUpdate seen g) := by
  have hswept : Deadlocked C (w.sweep (w.groups g).tasks) :=
    Deadlocked.foldl (fun w t hw => hw.setStatus t fun _ => rfl) _ h
  simp only [World.groupUpdate]
  split_ifs
  · exact h
  · exact h.setGroupStatus g .finished
  · exact hswept.setGroupStatus g .failed
  · exact Deadlocked.foldl (fun w t hw => hw.visit seen t) _ (h.showActive g)

theorem Deadlocked.next {C : Set ι} {w : World ι} (h : Deadlocked C w) {e : Event ι}
    (he : w.enabled e) : Deadlocked C (w.next e) := by
  cases e with
  | pass d seen =>
      have hgroups : Deadlocked C ((w.dispatchers d).groups.foldl (World.groupUpdate seen) w) :=
        Deadlocked.foldl (fun w g hw => hw.groupUpdate seen g) _ h
      simp only [World.next, dispatcherUpdate, updateBusy, setBusy]
      split_ifs
      · exact hgroups
      · exact hgroups.congr rfl fun _ hc => hc
  | completes c report =>
      have hc : c.task ∉ C := by
        intro hc
        exact (h.idle c.task hc).calls c he rfl
      have hdropped : Deadlocked C (w.drop c) := h.congr rfl fun _ => mem_calls_of_mem_drop
      exact (keptBy_deadlocked hc).complete hdropped c.pending report
  | lost t => exact h.congr rfl fun _ => mem_calls_of_mem_lose
  | requestCode t method =>
      have ht : t ∉ C := by
        intro ht
        cases he.2.symm.trans (h.idle t ht).authHandler
      exact (keptBy_deadlocked ht).start w _ h
  | resolveCode t code =>
      have ht : t ∉ C := by
        intro ht
        cases he.2.symm.trans (h.idle t ht).authHandler
      exact (keptBy_deadlocked ht).start w _ h
  | selectDevice t resolution =>
      have ht : t ∉ C := by
        intro ht
        have hprompt : (w.tasks t).prompt = some .device := he
        cases hprompt.symm.trans (h.idle t ht).prompt
      exact (keptBy_deadlocked ht).startResolver h resolution
  | needs t u => exact (h.insertInput t u).insertOutput u t
  | then_ t u => exact (h.insertOutput t u).insertInput u t
  | groupAdd g t =>
      simp only [World.next, groupAdd]
      split_ifs
      · exact h
      · exact h.congr rfl fun _ hc => hc
  | groupRemove g t => exact h.congr rfl fun _ hc => hc
  | dispatcherAdd d g =>
      simp only [World.next, dispatcherAdd]
      split_ifs
      · exact h
      · exact h.congr rfl fun _ hc => hc
  | dispatcherRemove d g => exact h.congr rfl fun _ hc => hc

/-! ### Stuck for good -/

theorem Deadlocked.updates_foldl_visit {C : Set ι} {w : World ι} (h : Deadlocked C w)
    (seen : ι → Surroundings) {t : ι} (ht : t ∈ C) (ts : List ι) :
    (ts.foldl (World.visit seen) w).updates t = w.updates t := by
  induction ts generalizing w with
  | nil => rfl
  | cons u ts ih =>
      have hnot : ¬ (t = u ∧ w.isDue u = true) := by
        intro ⟨htu, hdue⟩
        rw [← htu, h.not_due ht] at hdue
        cases hdue
      rw [List.foldl_cons, ih (h.visit seen u), updates_visit, if_neg hnot, Nat.add_zero]

theorem Deadlocked.updates_groupUpdate {C : Set ι} {w : World ι} (h : Deadlocked C w)
    (seen : ι → Surroundings) {t : ι} (ht : t ∈ C) (g : GroupId) :
    (w.groupUpdate seen g).updates t = w.updates t := by
  by_cases hopen : w.Open g
  · rw [hopen.groupUpdate, (h.showActive g).updates_foldl_visit seen ht, updates_showActive]
  · rw [groupUpdate_eq]
    have hnone : (w.enterGroup g).2 = [] := by
      simp only [enterGroup]
      split_ifs with hfailed hall hany
      · rfl
      · rfl
      · rfl
      · exact absurd ⟨hfailed, eq_false_of_ne_true hall, eq_false_of_ne_true hany⟩ hopen
    rw [hnone, List.foldl_nil, updates_enterGroup]

theorem Deadlocked.updates_groups {C : Set ι} {w : World ι} (h : Deadlocked C w)
    (seen : ι → Surroundings) {t : ι} (ht : t ∈ C) (gs : List GroupId) :
    (gs.foldl (World.groupUpdate seen) w).updates t = w.updates t := by
  induction gs generalizing w with
  | nil => rfl
  | cons g gs ih => rw [List.foldl_cons, ih (h.groupUpdate seen g), h.updates_groupUpdate seen ht]

theorem Deadlocked.updates_next {C : Set ι} {w : World ι} (h : Deadlocked C w) (e : Event ι) {t : ι}
    (ht : t ∈ C) : (w.next e).updates t = w.updates t := by
  by_cases hpass : e.isPass = false
  · exact updates_of_offTasks (log_client w ⟨e, hpass⟩) t
  · cases e with
    | pass d seen =>
        have hgroups := h.updates_groups seen ht (w.dispatchers d).groups
        exact (updates_updateBusy _ d t).trans hgroups
    | _ => exact absurd rfl hpass

theorem deadlocked_run {C : Set ι} {w : World ι} (h : Deadlocked C w) {es : List (Event ι)}
    (hes : reactive.Valid w es) {t : ι} (ht : t ∈ C) :
    Deadlocked C (reactive.run w es) ∧ (reactive.run w es).updates t = w.updates t :=
  Reactive.run_invariant (R := reactive)
    (I := fun v => Deadlocked C v ∧ v.updates t = w.updates t)
    (fun _ e hv he => ⟨hv.1.next he, (hv.1.updates_next e ht).trans hv.2⟩) ⟨h, rfl⟩ hes

/-- The tasks of the group that have not finished. -/
def unfinished (w : World ι) (g : GroupId) : Set ι :=
  {t | t ∈ (w.groups g).tasks ∧ w.status t ≠ .finished}

theorem deadlocked_of_stalls {w : World ι} {g : GroupId} (hopen : w.Open g) (hclosed : w.Closed g)
    (hidle : ∀ t ∈ w.unfinished g, w.Idle t) {seen : ι → Surroundings}
    (hstalls : ∀ t ∈ (w.groups g).tasks, (w.groupUpdate seen g).updates t = w.updates t) :
    Deadlocked (w.unfinished g) w where
  idle := hidle
  needs := by
    intro t ⟨ht, hunfinished⟩
    by_contra hnone
    have hdue : w.isDue t = true := by
      refine hopen.isDue ht hunfinished ?_
      intro u hu
      by_contra hinput
      exact hnone ⟨u, ⟨hclosed t ht u hu, hinput⟩, hu⟩
    obtain ⟨v, hv, hupdated⟩ := (hopen.updates_iff seen).mpr ⟨t, ht, hdue⟩
    rw [hstalls v hv] at hupdated
    exact Nat.lt_irrefl _ hupdated

/-- **A group that is stuck stays stuck.** If a pass updates no task of an open group whose tasks
need only each other, and nothing is under way for those that have not finished, then none of
these is ever updated, and none finishes, whatever happens from then on. -/
theorem stalled_for_good {w : World ι} {g : GroupId} (hopen : w.Open g) (hclosed : w.Closed g)
    (hidle : ∀ t ∈ w.unfinished g, w.Idle t) {seen : ι → Surroundings}
    (hstalls : ∀ t ∈ (w.groups g).tasks, (w.groupUpdate seen g).updates t = w.updates t)
    {es : List (Event ι)} (hes : reactive.Valid w es) {t : ι} (ht : t ∈ w.unfinished g) :
    (reactive.run w es).updates t = w.updates t ∧ (reactive.run w es).status t ≠ .finished := by
  have hrun := deadlocked_run (deadlocked_of_stalls hopen hclosed hidle hstalls) hes ht
  refine ⟨hrun.2, ?_⟩
  intro hfinished
  cases (hrun.1.idle t ht).status with
  | inl hready => cases hready.symm.trans hfinished
  | inr hfailed => cases hfailed.symm.trans hfinished

/-- Two tasks of a group, before the first pass, with these edges between them. -/
def twoTasks (edges : List (Event (Fin 2))) : World (Fin 2) :=
  reactive.run (fresh (pair .loadCurrencies .loadAssets)) (edges ++ secondFails.take 3)

theorem group_advances_secondNeedsFirst :
    ∃ t ∈ ((twoTasks [.needs 1 0]).groups 0).tasks,
      (twoTasks [.needs 1 0]).updates t <
        ((twoTasks [.needs 1 0]).groupUpdate (fun _ => {}) 0).updates t := by
  have hopen : (twoTasks [.needs 1 0]).Open 0 := by
    constructor <;> decide +kernel
  have hless : ∀ u v : Fin 2, u ∈ ((twoTasks [.needs 1 0]).tasks v).inputs → u < v := by
    decide +kernel
  refine group_advances hopen (by unfold Closed; decide +kernel) ?_ _
  intro t ht
  have hchain : ∀ u v, Relation.TransGen
      (fun u v => u ∈ ((twoTasks [.needs 1 0]).tasks v).inputs) u v → u < v := by
    intro u v huv
    induction huv with
    | single h => exact hless _ _ h
    | tail _ h ih => exact Nat.lt_trans ih (hless _ _ h)
  exact Nat.lt_irrefl _ (hchain t t ht)

theorem stalled_for_good_circle :
    (reactive.run (twoTasks [.needs 1 0, .needs 0 1])
      [.pass 0 fun _ => {}, .pass 0 fun _ => {}]).status 0 ≠ .finished := by
  have hopen : (twoTasks [.needs 1 0, .needs 0 1]).Open 0 := by
    constructor <;> decide +kernel
  have hclosed : (twoTasks [.needs 1 0, .needs 0 1]).Closed 0 := by
    unfold Closed
    decide +kernel
  have hidle : ∀ t, (twoTasks [.needs 1 0, .needs 0 1]).Idle t := by
    intro t
    constructor
    · revert t
      decide +kernel
    · revert t
      decide +kernel
    · revert t
      decide +kernel
    · revert t
      decide +kernel
  have hstalls : ∀ t ∈ ((twoTasks [.needs 1 0, .needs 0 1]).groups 0).tasks,
      ((twoTasks [.needs 1 0, .needs 0 1]).groupUpdate (fun _ => {}) 0).updates t =
        (twoTasks [.needs 1 0, .needs 0 1]).updates t := by decide +kernel
  have hes : reactive.Valid (twoTasks [.needs 1 0, .needs 0 1])
      [.pass 0 fun _ => {}, .pass 0 fun _ => {}] := ⟨trivial, trivial, trivial⟩
  exact (stalled_for_good hopen hclosed (fun t _ => hidle t) hstalls hes
    ⟨by decide +kernel, by decide +kernel⟩).2

end World
end GreenWallet.Tasks
