import GreenWallet.Tasks.Shape

/-!
# Terminal statuses

`setStatus` looks only for a change: it leaves `Finished` and `Failed` as readily as
it enters them. Whether a run keeps to them is decided where a status is written,
which is in the sweep of a group, in an update that fails at once, and in the
continuation of a completed call.
-/
namespace GreenWallet.Tasks
open GreenWallet.Library

variable {ι : Type} [Fintype ι] [DecidableEq ι]

namespace World

/-- A round of the loop over a group's tasks does no harm. -/
def VisitSpares (seen : ι → Surroundings) (w : World ι) (t : ι) : Prop :=
  w.isDue t = true → w.failsAtOnce (seen t) t = true → w.Spares t

/-- A group that has a failed task has no task whose failure reaches a finished one,
itself included. The updates of other groups are taken one by one, as they come. -/
def GroupSpares (seen : ι → Surroundings) (w : World ι) (g : GroupId) : Prop :=
  (w.groups g).status ≠ .failed → w.allFinished g = false →
    if w.anyFailed g then ∀ t ∈ (w.groups g).tasks, w.Spares t
    else (Reactive.loop (visit seen)).Along (VisitSpares seen) (w.showActive g) (w.groups g).tasks

/-- The completion does not come late: the task is not over with another status, and if
it fails, its failure reaches no finished task. -/
def OnTime (w : World ι) (c : Call ι) (report : Report) : Prop :=
  ∀ s, w.verdict c report = some s → w.Allows c.task s

end World

/-- The event comes neither from the dispatcher nor from the answer to a call, and starts no
resolver. -/
def Event.isQuiet : Event ι → Bool
  | .pass .. | .completes .. | .selectDevice .. => false
  | _ => true

/-- The event finds the tasks in such a state that it leaves no terminal status. -/
def Event.Spares (w : World ι) : Event ι → Prop
  | .pass d seen =>
      (Reactive.loop (World.groupUpdate seen)).Along (World.GroupSpares seen) w
        (w.dispatchers d).groups
  | .completes c report => w.OnTime c report
  | .selectDevice t resolution => ∀ s, resolution.verdict = some s → w.Allows t s
  | _ => True

/-- Once a task has finished or failed its status stays as it is, and it has emitted one
of the two signals, once. -/
structure TerminalAbsorbing (types : ι → TaskType) (es : List (Event ι)) : Prop where
  kept : ∀ fs gs, es = fs ++ gs → ∀ t,
    ((World.reactive.run (.fresh types) fs).status t).isTerminal = true →
      (World.reactive.run (.fresh types) es).status t =
        (World.reactive.run (.fresh types) fs).status t
  /-- Nor is a terminal status left for a moment, within the handling of an event. -/
  throughout : (World.reactive.run (.fresh types) es).Absorbing
  once : ∀ t, ((World.reactive.run (.fresh types) es).outcomes t).length ≤ 1

namespace World

theorem UpdateShape.evolves {w w' : World ι} {t : ι} {fails : Bool}
    (h : UpdateShape w t fails w') : w.Evolves w' := by
  cases h with
  | waits h => exact h.evolves
  | goesOn h => exact (evolves_setStatus w t .active).trans h.evolves
  | finishes => exact evolves_setStatus w t .finished
  | finishesAtOnce => exact (evolves_setStatus w t .active).trans (evolves_setStatus _ t .finished)
  | fails h =>
      exact ((evolves_setStatus w t .active).trans h.evolves).trans (evolves_setStatus _ t .failed)

/-- A task that is on its way may become `Active` or finish; only a failure can harm. -/
theorem UpdateShape.absorbing_iff {w w' : World ι} {t : ι} {fails : Bool}
    (h : UpdateShape w t fails w') (hw : w.Logged) (ht : (w.status t).isTerminal = false) :
    w'.Absorbing ↔ w.Absorbing ∧ (fails = true → w.Spares t) := by
  have hactive : (w.setStatus t .active).Absorbing ↔ w.Absorbing := by
    rw [absorbing_setStatus_iff hw]
    simp [Allows, ht]
  cases h with
  | waits h => simp [h.absorbing_iff]
  | goesOn h => simp [h.absorbing_iff, hactive]
  | finishes =>
      rw [absorbing_setStatus_iff hw]
      simp [Allows, ht]
  | finishesAtOnce =>
      have hstatus : (w.setStatus t .active).status t = .active := by
        rw [status_setStatus (by decide), if_pos rfl]
      rw [absorbing_setStatus_iff ((evolves_setStatus w t .active).logged hw), hactive]
      simp [Allows, hstatus, Status.isTerminal]
  | fails h =>
      have hlogged := h.logged ((evolves_setStatus w t .active).logged hw)
      rw [absorbing_setStatus_iff hlogged, h.absorbing_iff, hactive, allows_failed, h.spares_iff,
        spares_setStatus_active ht]
      simp

omit [Fintype ι] in
theorem alike_emit_update (w : World ι) (t : ι) : w.Alike (w.emit [.update t]) :=
  .emit w (by simp [Signal.isQuiet])

theorem evolves_visit (seen : ι → Surroundings) (w : World ι) (t : ι) :
    w.Evolves (visit seen w t) := by
  unfold visit
  split_ifs
  · exact (alike_emit_update w t).evolves.trans (update_shape _ (seen t) t).evolves
  · exact .refl w

theorem absorbing_visit_iff (seen : ι → Surroundings) {w : World ι} (hw : w.Logged) (t : ι) :
    (visit seen w t).Absorbing ↔ w.Absorbing ∧ w.VisitSpares seen t := by
  by_cases hdue : w.isDue t = true
  · rw [visit, if_pos hdue]
    have hquiet := alike_emit_update w t
    have hway : (w.status t).isTerminal = false := by
      simp only [isDue, Bool.and_eq_true, Bool.or_eq_true, beq_iff_eq] at hdue
      rcases hdue.1 with h | h
      · rw [h]
        rfl
      · rw [h]
        rfl
    have hshape := update_shape (w.emit [.update t]) (seen t) t
    rw [hshape.absorbing_iff (hquiet.logged hw) hway, hquiet.absorbing_iff, hquiet.spares_iff]
    exact and_congr_right fun _ => ⟨fun h _ => h, fun h => h hdue⟩
  · rw [visit, if_neg hdue]
    exact ⟨fun h => ⟨h, fun h => (hdue h).elim⟩, And.left⟩

theorem sweep_eq (w : World ι) (ts : List ι) :
    w.sweep ts = failure.floodAll (Fintype.card ι + 1) ts w := by
  have hbody : (fun (w : World ι) t => w.setStatus t .failed) =
      fun w t => failure.flood (Fintype.card ι + 1) t w :=
    funext fun w => funext fun t => setStatus_failed w t
  rw [sweep, hbody, Marking.floodAll]

omit [Fintype ι] in
theorem alike_showActive (w : World ι) (g : GroupId) : w.Alike (w.showActive g) := by
  unfold showActive
  split_ifs
  · exact alike_setGroupStatus w g .active
  · exact .refl w

theorem evolves_groupUpdate (seen : ι → Surroundings) (w : World ι) (g : GroupId) :
    w.Evolves (w.groupUpdate seen g) := by
  simp only [groupUpdate]
  split_ifs
  · exact .refl w
  · exact (alike_setGroupStatus w g .finished).evolves
  · exact (evolves_foldl (fun w t => evolves_setStatus w t .failed) w _).trans
      (alike_setGroupStatus _ g .failed).evolves
  · exact (alike_showActive w g).evolves.trans (evolves_foldl (evolves_visit seen) _ _)

theorem absorbing_groupUpdate_iff (seen : ι → Surroundings) {w : World ι} (hw : w.Logged)
    (g : GroupId) : (w.groupUpdate seen g).Absorbing ↔ w.Absorbing ∧ w.GroupSpares seen g := by
  by_cases hover : (w.groups g).status = .failed
  · simp [groupUpdate, GroupSpares, hover]
  by_cases hall : w.allFinished g = true
  · simp [groupUpdate, GroupSpares, hover, hall, (alike_setGroupStatus w g .finished).absorbing_iff]
  by_cases hfailed : w.anyFailed g = true
  · rw [groupUpdate, if_neg hover, if_neg hall, if_pos hfailed]
    simp only [GroupSpares, hover, hall, hfailed, if_true, ne_eq, not_false_eq_true, true_imp_iff]
    rw [(alike_setGroupStatus _ g .failed).absorbing_iff, sweep_eq, absorbing_floodAll_iff hw]
  · have hquiet := alike_showActive w g
    have hloop := Reactive.run_iff_along (R := Reactive.loop (visit seen)) (I := Absorbing)
      (J := Logged) (fun v t hv => (evolves_visit seen v t).logged hv)
      (fun v t hv => absorbing_visit_iff seen hv t) (hquiet.logged hw) (w.groups g).tasks
    rw [Reactive.run_loop, hquiet.absorbing_iff] at hloop
    simpa [groupUpdate, GroupSpares, hover, hall, hfailed] using hloop

theorem Concludes.evolves {w w' : World ι} {t : ι} {verdict : Option Status}
    (h : w.Concludes t verdict w') : w.Evolves w' := by
  obtain ⟨w₁, hquiet, hsame⟩ := h
  refine Evolves.trans ?_ hsame.evolves
  cases verdict with
  | none => exact hquiet.evolves
  | some s => exact hquiet.evolves.trans (evolves_setStatus w₁ t s)

theorem Concludes.absorbing_iff {w w' : World ι} {t : ι} {verdict : Option Status}
    (h : w.Concludes t verdict w') (hw : w.Logged) :
    w'.Absorbing ↔ w.Absorbing ∧ ∀ s, verdict = some s → w.Allows t s := by
  obtain ⟨w₁, hquiet, hsame⟩ := h
  rw [hsame.absorbing_iff]
  cases verdict with
  | none => simp [conclude, hquiet.absorbing_iff]
  | some s =>
      rw [conclude, absorbing_setStatus_iff (hquiet.logged hw), hquiet.absorbing_iff,
        hquiet.allows_iff]
      simp

omit [Fintype ι] in
theorem alike_drop (w : World ι) (c : Call ι) : w.Alike (w.drop c) :=
  .of_log rfl (fun _ => rfl) fun _ => rfl

/-- Drawing edges, filling groups, asking the user and losing an answer writes no status. -/
theorem next_quiet (w : World ι) {e : Event ι} (h : e.isQuiet = true) :
    (w.next e).log = w.log ∧ ∀ u, (w.next e).status u = w.status u := by
  cases e with
  | pass | completes | selectDevice => cases h
  | needs t u =>
      refine ⟨rfl, fun v => ?_⟩
      exact (status_insertOutput _ u t v).trans (status_insertInput w t u v)
  | then_ t u =>
      refine ⟨rfl, fun v => ?_⟩
      exact (status_insertInput _ u t v).trans (status_insertOutput w t u v)
  | groupAdd g t =>
      simp only [next, groupAdd]
      split_ifs <;> exact ⟨rfl, fun _ => rfl⟩
  | dispatcherAdd d g =>
      simp only [next, dispatcherAdd]
      split_ifs <;> exact ⟨rfl, fun _ => rfl⟩
  | lost | requestCode | resolveCode | groupRemove | dispatcherRemove => exact ⟨rfl, fun _ => rfl⟩

theorem evolves_next (w : World ι) (e : Event ι) : w.Evolves (w.next e) := by
  by_cases hquiet : e.isQuiet = true
  · exact .of_log (w.next_quiet hquiet).1 (w.next_quiet hquiet).2
  cases e with
  | pass d seen =>
      exact (evolves_foldl (evolves_groupUpdate seen) w _).trans (alike_setBusy _ d _).evolves
  | completes c report =>
      exact (alike_drop w c).evolves.trans (complete_concludes _ c report).evolves
  | selectDevice t resolution => exact (concludes_startResolver w t resolution).evolves
  | _ => exact (hquiet rfl).elim

theorem absorbing_next_iff {w : World ι} (hw : w.Logged) (e : Event ι) :
    (w.next e).Absorbing ↔ w.Absorbing ∧ e.Spares w := by
  have hquiet : e.isQuiet = true → ((w.next e).Absorbing ↔ w.Absorbing) := by
    intro h
    simp only [Absorbing, history, (w.next_quiet h).1]
  cases e with
  | pass d seen =>
      have hloop := Reactive.run_iff_along (R := Reactive.loop (groupUpdate seen)) (I := Absorbing)
        (J := Logged) (fun v g hv => (evolves_groupUpdate seen v g).logged hv)
        (fun v g hv => absorbing_groupUpdate_iff seen hv g) hw (w.dispatchers d).groups
      rw [Reactive.run_loop] at hloop
      exact (alike_setBusy _ d _).absorbing_iff.trans hloop
  | completes c report =>
      have hdrop := alike_drop w c
      have hconcludes := complete_concludes (w.drop c) c report
      refine (hconcludes.absorbing_iff (hdrop.logged hw)).trans ?_
      simp only [hdrop.absorbing_iff, hdrop.allows_iff, Event.Spares, OnTime]
      rfl
  | selectDevice t resolution => exact (concludes_startResolver w t resolution).absorbing_iff hw
  | _ => exact (hquiet rfl).trans (by simp [Event.Spares])

theorem evolves_run (w : World ι) (es : List (Event ι)) : w.Evolves (reactive.run w es) :=
  evolves_foldl evolves_next w es

end World

/-- A history in which only the last status is terminal has at most one such status. -/
theorem filter_isTerminal_length_le {l : List Status}
    (h : ∀ s ∈ l.dropLast, s.isTerminal = false) : (l.filter Status.isTerminal).length ≤ 1 := by
  rcases List.eq_nil_or_concat l with rfl | ⟨l, s, rfl⟩
  · exact Nat.zero_le 1
  · rw [List.concat_eq_append, List.dropLast_concat] at h
    have hnone : l.filter Status.isTerminal = [] := by
      rw [List.filter_eq_nil_iff]
      intro s hs
      simp [h s hs]
    rw [List.concat_eq_append, List.filter_append, hnone, List.nil_append]
    exact List.length_filter_le _ _

theorem TerminalAbsorbing.of_absorbing {types : ι → TaskType} {es : List (Event ι)}
    (h : (World.reactive.run (.fresh types) es).Absorbing) : TerminalAbsorbing types es := by
  have hlogged : ∀ fs, (World.reactive.run (.fresh types) fs).Logged := fun fs =>
    (World.evolves_run (.fresh types) fs).logged (.fresh types)
  refine ⟨?_, h, fun t => ?_⟩
  · rintro fs gs rfl t hterminal
    rw [Reactive.run_append] at h ⊢
    obtain ⟨rest, hrest⟩ := (World.evolves_run (World.reactive.run (.fresh types) fs) gs).history t
    have hstatus := (hlogged fs).status t
    have hend := (hlogged (fs ++ gs)).status t
    rw [Reactive.run_append, ← hrest] at hend
    rcases List.eq_nil_or_concat rest with rfl | ⟨rest', s, rfl⟩
    · rw [hend, hstatus, List.append_nil]
    · -- The status would be left, so it must not have been terminal.
      have hbefore := h t
      rw [← hrest, List.concat_eq_append, ← List.append_assoc, List.dropLast_concat] at hbefore
      rcases List.eq_nil_or_concat ((World.reactive.run (.fresh types) fs).history t) with
        hnil | ⟨l, s', hl⟩
      · rw [hstatus, hnil] at hterminal
        cases hterminal
      · rw [hstatus, hl, List.concat_eq_append, List.getLastD_concat] at hterminal
        rw [hbefore s' (by rw [hl]; simp)] at hterminal
        cases hterminal
  · rw [(hlogged es).outcomes t]
    exact filter_isTerminal_length_le (h t)

/-- A run keeps to terminal statuses exactly if every pass and every completion of it
finds the tasks in a state that it leaves no terminal status of. -/
theorem terminalAbsorbing_iff (types : ι → TaskType) (es : List (Event ι)) :
    TerminalAbsorbing types es ↔
      World.reactive.Along (fun w e => e.Spares w) (.fresh types) es := by
  have hrun := Reactive.run_iff_along (R := World.reactive (ι := ι)) (I := World.Absorbing)
    (J := World.Logged) (fun w e hw => (World.evolves_next w e).logged hw)
    (fun w e hw => World.absorbing_next_iff hw e) (World.Logged.fresh types) es
  constructor
  · intro h
    exact (hrun.mp h.throughout).2
  · intro h
    exact .of_absorbing (hrun.mpr ⟨.fresh types, h⟩)

/-- The types of two tasks of one group. -/
def pair (first second : TaskType) : Fin 2 → TaskType := fun t => if t = 0 then first else second

/-- Two tasks of one group are started, and the call of the second one fails. -/
def secondFails : List (Event (Fin 2)) :=
  [.groupAdd 0 0, .groupAdd 0 1, .dispatcherAdd 0 0, .pass 0 fun _ => {},
    .completes ⟨1, .call⟩ { ok := false, details := "id_invalid_pin" }, .pass 0 fun _ => {}]

/-- The call of the first task is completed after its group was failed. -/
def lateCompletion : List (Event (Fin 2)) := secondFails ++ [.completes ⟨0, .call⟩ {}]

theorem not_terminalAbsorbing_secondFails :
    (World.reactive.Valid (.fresh (pair .getTransactions .login)) lateCompletion ∧
      ¬ TerminalAbsorbing (pair .getTransactions .login) lateCompletion) ∧
    World.reactive.Valid (.fresh (pair .loadAssets .login)) secondFails ∧
      ¬ TerminalAbsorbing (pair .loadAssets .login) secondFails := by
  refine ⟨⟨by decide, fun h => ?_⟩, by decide, fun h => ?_⟩
  · have hkept := h.kept secondFails [.completes ⟨0, .call⟩ {}] rfl 0
    exact absurd hkept (by decide)
  · have hkept := h.kept (secondFails.take 4) (secondFails.drop 4) (by simp) 0
    exact absurd hkept (by decide)

end GreenWallet.Tasks
