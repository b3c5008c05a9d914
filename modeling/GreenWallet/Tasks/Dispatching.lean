import GreenWallet.Tasks.Frame
import GreenWallet.Tasks.Terminal

/-!
# A pass, piece by piece

A pass works on copies: of the groups of the dispatcher, and of the tasks of a group
once it comes to the group. Between two calls of a pass the handlers of its signals
run, which add and remove tasks, draw edges and start more work. Here every call of
a pass is a step, and whatever is not a pass comes before, after and between its
steps; a pass that nothing interrupts is `dispatcherUpdate`.
-/
namespace GreenWallet.Tasks
open GreenWallet.Library

variable {ι : Type}

def Event.isPass : Event ι → Bool
  | .pass .. => true
  | _ => false

/-- What others than the dispatchers do. -/
abbrev ClientEvent (ι : Type) := { e : Event ι // e.isPass = false }

/-- A task of the copy, and the group whose copy it is. -/
structure Visit (ι : Type) where
  group : GroupId
  task : ι
deriving DecidableEq, Repr

/-- What is left of a pass. -/
structure Pass (ι : Type) where
  dispatcher : DispatcherId
  groups : List GroupId
  visits : List (Visit ι) := []
deriving DecidableEq, Repr

structure Dispatching (ι : Type) where
  world : World ι
  pass : Option (Pass ι) := none

inductive Step (ι : Type) where
  | pass (d : DispatcherId)
  | work (seen : Surroundings)
  | client (e : ClientEvent ι)

namespace World

theorem groupStatus_setGroupStatus (w : World ι) (g h : GroupId) (s : Status) :
    ((w.setGroupStatus g s).groups h).status = if h = g then s else (w.groups h).status := by
  unfold setGroupStatus
  split_ifs with hs hg hg
  · rw [hg, hs]
  · rfl
  · simp [setGroup, emit, hg]
  · simp [setGroup, emit, hg]

omit ι in
theorem resolution_verdict_ne_active (resolution : Resolution) :
    resolution.verdict ≠ some .active := by
  cases resolution <;> simp [Resolution.verdict]

theorem verdict_ne_active (w : World ι) (c : Call ι) (report : Report) :
    w.verdict c report ≠ some .active := by
  have hhandler : ∀ (b : Bool) (report : Report), handlerVerdict b report ≠ some .active := by
    intro b report
    have hresolution := resolution_verdict_ne_active report.resolution
    unfold handlerVerdict
    split
    · simp
    · simp
    · simp
    · simp
    · split_ifs
      · exact hresolution
      · simp
    · simp
  simp only [verdict]
  cases c.pending with
  | call =>
      dsimp only
      split_ifs
      · exact hhandler _ _
      · simp
      · simp
  | requestCode | resolveCode | handlerCall =>
      dsimp only
      split_ifs
      · exact hhandler _ _
      · simp
  | resolver | connect | connectTimeout | disconnected =>
      dsimp only
      split_ifs <;> simp
  | work =>
      dsimp only
      split
      · simp
      · simp
      · split_ifs <;> simp
      · split_ifs <;> simp
  | fetch key =>
      dsimp only
      split
      · split_ifs <;> simp
      · simp
  | identifyUser => simp

variable [DecidableEq ι] {w w' : World ι}

/-- How often the dispatchers have called `update` of the task. -/
def updates (w : World ι) (t : ι) : ℕ := w.log.count (.update t)

/-- How often the task has become `Active`. -/
def starts (w : World ι) (t : ι) : ℕ := (w.history t).count .active

theorem updates_of_offTasks (h : w'.offTasks.log = w.offTasks.log) (t : ι) :
    w'.updates t = w.updates t := by
  have hcount : ∀ v : World ι, v.updates t = v.offTasks.log.count (.update t) := fun v =>
    (List.count_filter (by rfl)).symm
  rw [hcount, hcount, h]

theorem updates_emit_update (w : World ι) (t u : ι) :
    (w.emit [.update t]).updates u = w.updates u + if u = t then 1 else 0 := by
  rw [updates, updates, emit, List.count_append]
  by_cases hu : u = t
  · simp [hu]
  · simp [hu, Ne.symm hu]

theorem updates_setGroupStatus (w : World ι) (g : GroupId) (s : Status) (t : ι) :
    (w.setGroupStatus g s).updates t = w.updates t := by
  unfold setGroupStatus
  split_ifs
  · rfl
  · rw [updates, emit, List.count_append]
    cases s <;> simp [groupOutcomeSignal, updates, setGroup]

theorem updates_updateBusy (w : World ι) (d : DispatcherId) (t : ι) :
    (w.updateBusy d).updates t = w.updates t := by
  unfold updateBusy setBusy
  split_ifs
  · rfl
  · rw [updates, emit, List.count_append]
    simp [updates, setDispatcher]

omit [DecidableEq ι] in
theorem groups_updateBusy (w : World ι) (d : DispatcherId) : (w.updateBusy d).groups = w.groups := by
  unfold updateBusy setBusy
  split_ifs <;> rfl

theorem Alike.starts (h : w.Alike w') (t : ι) : w'.starts t = w.starts t := by
  rw [World.starts, World.starts, h.history]

theorem starts_write (w : World ι) {t u : ι} {s : Status} (h : u = t → s ≠ .active) :
    (w.write t s).starts u = w.starts u := by
  rw [starts, history_write]
  split_ifs with hu
  · rw [List.count_append, List.count_singleton, starts]
    simp [h hu]
  · rfl

variable [Fintype ι]

/-- No task but the one that is written to starts, and this one only if `Active` is written. -/
theorem starts_setStatus (w : World ι) {t u : ι} {s : Status} (h : u = t → s ≠ .active) :
    (w.setStatus t s).starts u = w.starts u := by
  by_cases hs : s = .failed
  · subst hs
    apply setStatus_failed_invariant (I := fun v => v.starts u = w.starts u)
    · intro v t hv
      rw [starts_write v fun _ => by decide, hv]
    · rfl
  · rw [setStatus_eq_write hs]
    split_ifs
    · rfl
    · exact starts_write w h

theorem groups_visit (w : World ι) (seen : ι → Surroundings) (t : ι) :
    (visit seen w t).groups = w.groups := by
  unfold visit
  split_ifs
  · exact congrArg OffTasks.groups (offTasks_update (w.emit [.update t]) (seen t) t)
  · rfl

theorem updates_visit (w : World ι) (seen : ι → Surroundings) (t u : ι) :
    (visit seen w t).updates u = w.updates u + if u = t ∧ w.isDue t = true then 1 else 0 := by
  unfold visit
  split_ifs with hdue hu hu
  · rw [updates_of_offTasks (congrArg _ (offTasks_update _ (seen t) t)), updates_emit_update, if_pos hu.1]
  · rw [updates_of_offTasks (congrArg _ (offTasks_update _ (seen t) t)), updates_emit_update,
      if_neg fun h => hu ⟨h, hdue⟩]
  · exact absurd hu.2 hdue
  · rfl

/-- An `update` starts no other task. -/
theorem UpdateShape.starts {t u : ι} {fails : Bool} (h : UpdateShape w t fails w') (hu : u ≠ t) :
    w'.starts u = w.starts u := by
  have hset : ∀ (v : World ι) (s : Status), (v.setStatus t s).starts u = v.starts u := fun v s =>
    starts_setStatus v fun h => absurd h hu
  cases h with
  | waits h => exact h.starts u
  | goesOn h => rw [h.starts, hset]
  | finishes => exact hset w .finished
  | finishesAtOnce => rw [hset, hset]
  | fails h => rw [hset, h.starts, hset]

theorem starts_visit (w : World ι) (seen : ι → Surroundings) {t u : ι}
    (h : ¬ (u = t ∧ w.isDue t = true)) : (visit seen w t).starts u = w.starts u := by
  unfold visit
  split_ifs with hdue
  · rw [(update_shape _ (seen t) t).starts fun hu => h ⟨hu, hdue⟩, (alike_emit_update w t).starts]
  · rfl

theorem offTasks_sweep (w : World ι) (ts : List ι) : (w.sweep ts).offTasks = w.offTasks := by
  induction ts generalizing w with
  | nil => rfl
  | cons t ts ih => exact (ih (w.setStatus t .failed)).trans (offTasks_setStatus w t .failed)

theorem groups_sweep (w : World ι) (ts : List ι) : (w.sweep ts).groups = w.groups :=
  congrArg OffTasks.groups (offTasks_sweep w ts)

theorem starts_sweep (w : World ι) (ts : List ι) (u : ι) : (w.sweep ts).starts u = w.starts u := by
  induction ts generalizing w with
  | nil => rfl
  | cons t ts ih => exact (ih (w.setStatus t .failed)).trans (starts_setStatus w fun _ => by decide)

/-- `TaskGroup::update` up to its last loop, with the tasks that the loop goes over. -/
def enterGroup (w : World ι) (g : GroupId) : World ι × List ι :=
  let tasks := (w.groups g).tasks
  if (w.groups g).status = .failed then (w, [])
  else if w.allFinished g then (w.setGroupStatus g .finished, [])
  else if w.anyFailed g then ((w.sweep tasks).setGroupStatus g .failed, [])
  else (w.showActive g, tasks)

theorem groupUpdate_eq (seen : ι → Surroundings) (w : World ι) (g : GroupId) :
    w.groupUpdate seen g = (w.enterGroup g).2.foldl (visit seen) (w.enterGroup g).1 := by
  simp only [groupUpdate, enterGroup]
  split_ifs <;> rfl

theorem updates_enterGroup (w : World ι) (g : GroupId) (t : ι) :
    (w.enterGroup g).1.updates t = w.updates t := by
  simp only [enterGroup]
  split_ifs
  · rfl
  · exact updates_setGroupStatus w g .finished t
  · rw [updates_setGroupStatus, updates_of_offTasks (congrArg _ (offTasks_sweep w _))]
  · unfold showActive
    split_ifs
    · exact updates_setGroupStatus w g .active t
    · rfl

theorem starts_enterGroup (w : World ι) (g : GroupId) (t : ι) :
    (w.enterGroup g).1.starts t = w.starts t := by
  simp only [enterGroup]
  split_ifs
  · rfl
  · exact (alike_setGroupStatus w g .finished).starts t
  · rw [(alike_setGroupStatus _ g .failed).starts, starts_sweep]
  · exact (alike_showActive w g).starts t

/-- A group that has failed stays as it is, and no task of it is looked at. -/
theorem enterGroup_failed {w : World ι} {g : GroupId} (h : (w.groups g).status = .failed) :
    w.enterGroup g = (w, []) := by
  simp only [enterGroup, h, if_true]

theorem groupStatus_enterGroup_of_ne (w : World ι) {g h : GroupId} (hne : h ≠ g) :
    ((w.enterGroup g).1.groups h).status = (w.groups h).status := by
  have hset : ∀ (v : World ι) (s : Status),
      ((v.setGroupStatus g s).groups h).status = (v.groups h).status := fun v s => by
    rw [groupStatus_setGroupStatus, if_neg hne]
  simp only [enterGroup]
  split_ifs
  · rfl
  · exact hset w .finished
  · rw [hset, groups_sweep]
  · unfold showActive
    split_ifs
    · exact hset w .active
    · rfl

/-- The loop over the tasks is only reached if the group has not failed. -/
theorem groupStatus_of_mem_enterGroup {w : World ι} {g : GroupId} {t : ι}
    (h : t ∈ (w.enterGroup g).2) : ((w.enterGroup g).1.groups g).status ≠ .failed := by
  simp only [enterGroup] at h ⊢
  split_ifs at h ⊢ with hfailed hall hany
  · cases h
  · cases h
  · cases h
  · unfold showActive
    split_ifs
    · rw [groupStatus_setGroupStatus, if_pos rfl]
      decide
    · exact hfailed

/-- Whatever is not a pass lets groups and dispatchers say nothing. -/
theorem log_client (w : World ι) (e : ClientEvent ι) :
    (w.next e.1).offTasks.log = w.offTasks.log := by
  obtain ⟨e, he⟩ := e
  by_cases hquiet : e.isQuiet = true
  · simp only [offTasks, (w.next_quiet hquiet).1]
  · cases e with
    | pass => cases he
    | completes c report =>
        exact congrArg OffTasks.log ((offTasks_complete (w.drop c) c report).trans rfl)
    | selectDevice t resolution => exact congrArg OffTasks.log (offTasks_startResolver w t resolution)
    | _ => exact absurd rfl hquiet

theorem groupStatus_client (w : World ι) (e : ClientEvent ι) (g : GroupId) :
    ((w.next e.1).groups g).status = (w.groups g).status := by
  obtain ⟨e, he⟩ := e
  cases e with
  | pass => cases he
  | completes c report =>
      exact congrArg (fun o => (o.groups g).status) (offTasks_complete (w.drop c) c report)
  | selectDevice t resolution =>
      exact congrArg (fun o => (o.groups g).status) (offTasks_startResolver w t resolution)
  | groupAdd h t =>
      simp only [next, groupAdd]
      split_ifs
      · rfl
      · by_cases hg : g = h <;> simp [setGroup, hg]
  | groupRemove h t => by_cases hg : g = h <;> simp [next, groupRemove, setGroup, hg]
  | dispatcherAdd d h =>
      simp only [next, dispatcherAdd]
      split_ifs <;> rfl
  | _ => rfl

/-- A status other than `Active` starts nothing. -/
theorem Concludes.starts {w w' : World ι} {u : ι} {verdict : Option Status}
    (h : w.Concludes u verdict w') (hactive : verdict ≠ some .active) (t : ι) :
    w'.starts t = w.starts t := by
  obtain ⟨w₁, hbefore, hafter⟩ := h
  rw [hafter.starts, ← hbefore.starts]
  cases verdict with
  | none => rfl
  | some s => exact starts_setStatus w₁ fun _ hs => hactive (congrArg some hs)

theorem starts_client (w : World ι) (e : ClientEvent ι) (t : ι) :
    (w.next e.1).starts t = w.starts t := by
  obtain ⟨e, he⟩ := e
  by_cases hquiet : e.isQuiet = true
  · simp only [starts, history, (w.next_quiet hquiet).1]
  · cases e with
    | pass => cases he
    | completes c report =>
        have hconcludes := complete_concludes (w.drop c) c report
        rw [next, hconcludes.starts (verdict_ne_active (w.drop c) c report), (alike_drop w c).starts]
    | selectDevice u resolution =>
        exact (concludes_startResolver w u resolution).starts
          (resolution_verdict_ne_active resolution) t
    | _ => exact absurd rfl hquiet

end World

variable [Fintype ι] [DecidableEq ι]

namespace Dispatching

def work (s : Dispatching ι) (seen : Surroundings) : Dispatching ι :=
  match s.pass with
  | none => s
  | some ⟨d, groups, v :: visits⟩ =>
      { world := s.world.visit (fun _ => seen) v.task, pass := some ⟨d, groups, visits⟩ }
  | some ⟨d, g :: groups, []⟩ =>
      let entered := s.world.enterGroup g
      { world := entered.1, pass := some ⟨d, groups, entered.2.map (Visit.mk g)⟩ }
  | some ⟨d, [], []⟩ => { world := s.world.updateBusy d }

def next (s : Dispatching ι) : Step ι → Dispatching ι
  | .pass d =>
      match s.pass with
      | none => { s with pass := some { dispatcher := d, groups := (s.world.dispatchers d).groups } }
      | some _ => s
  | .work seen => s.work seen
  | .client e => { s with world := s.world.next e }

/-- Passes are not nested. -/
def enabled (s : Dispatching ι) : Step ι → Prop
  | .pass _ => s.pass = none
  | .work _ => s.pass ≠ none
  | .client e => s.world.enabled e

instance (s : Dispatching ι) : (e : Step ι) → Decidable (s.enabled e)
  | .pass _ => inferInstanceAs (Decidable (s.pass = none))
  | .work _ => inferInstanceAs (Decidable (s.pass ≠ none))
  | .client e => inferInstanceAs (Decidable (s.world.enabled e))

def reactive : Reactive (Dispatching ι) (Step ι) (Signal ι) where
  enabled := enabled
  next := next
  emits s e := (s.next e).world.log.drop s.world.log.length

instance (s : Dispatching ι) (e : Step ι) : Decidable (reactive.enabled s e) :=
  inferInstanceAs (Decidable (s.enabled e))

/-- The dispatchers and tasks before anything happens. -/
def fresh (types : ι → TaskType) : Dispatching ι := { world := .fresh types }

/-- What a step does: it is an event, or a call that a pass makes, or nothing. -/
inductive StepShape (s : Dispatching ι) : Step ι → Dispatching ι → Prop
  | nested (d : DispatcherId) : StepShape s (.pass d) s
  | idle (seen : Surroundings) : s.pass = none → StepShape s (.work seen) s
  | opens (d : DispatcherId) :
      StepShape s (.pass d) ⟨s.world, some ⟨d, (s.world.dispatchers d).groups, []⟩⟩
  | visits {d : DispatcherId} {groups : List GroupId} {v : Visit ι} {visits : List (Visit ι)}
      (seen : Surroundings) : s.pass = some ⟨d, groups, v :: visits⟩ →
      StepShape s (.work seen)
        ⟨s.world.visit (fun _ => seen) v.task, some ⟨d, groups, visits⟩⟩
  | enters {d : DispatcherId} {g : GroupId} {groups : List GroupId} (seen : Surroundings) :
      s.pass = some ⟨d, g :: groups, []⟩ →
      StepShape s (.work seen)
        ⟨(s.world.enterGroup g).1, some ⟨d, groups, (s.world.enterGroup g).2.map (Visit.mk g)⟩⟩
  | closes {d : DispatcherId} (seen : Surroundings) : s.pass = some ⟨d, [], []⟩ →
      StepShape s (.work seen) ⟨s.world.updateBusy d, none⟩
  | client (e : ClientEvent ι) : StepShape s (.client e) ⟨s.world.next e.1, s.pass⟩

theorem step_shape (s : Dispatching ι) (e : Step ι) : StepShape s e (s.next e) := by
  obtain ⟨w, pass⟩ := s
  cases e with
  | pass d =>
      cases pass with
      | none => exact .opens d
      | some pass => exact .nested d
  | work seen =>
      cases pass with
      | none => exact .idle seen rfl
      | some pass =>
          obtain ⟨d, groups, visits⟩ := pass
          cases visits with
          | cons v visits => exact .visits seen rfl
          | nil =>
              cases groups with
              | cons g groups => exact .enters seen rfl
              | nil => exact .closes seen rfl
  | client e => exact .client e

theorem reachable_visits (seen : ι → Surroundings) (d : DispatcherId) (groups : List GroupId)
    (g : GroupId) (ts : List ι) (w : World ι) :
    reactive.Reachable ⟨w, some ⟨d, groups, ts.map (Visit.mk g)⟩⟩
      ⟨ts.foldl (World.visit seen) w, some ⟨d, groups, []⟩⟩ := by
  induction ts generalizing w with
  | nil => exact .refl _
  | cons t ts ih =>
      apply Reactive.Reachable.step (e := .work (seen t))
      · exact Option.some_ne_none _
      · exact ih (World.visit seen w t)

theorem reachable_groups (seen : ι → Surroundings) (d : DispatcherId) (groups : List GroupId)
    (w : World ι) :
    reactive.Reachable ⟨w, some ⟨d, groups, []⟩⟩
      ⟨(groups.foldl (World.groupUpdate seen) w).updateBusy d, none⟩ := by
  induction groups generalizing w with
  | nil =>
      apply Reactive.Reachable.step (e := .work {})
      · exact Option.some_ne_none _
      · exact .refl _
  | cons g groups ih =>
      apply Reactive.Reachable.step (e := .work {})
      · exact Option.some_ne_none _
      · have hvisits := reachable_visits seen d groups g (w.enterGroup g).2 (w.enterGroup g).1
        rw [← World.groupUpdate_eq] at hvisits
        exact hvisits.trans (ih (w.groupUpdate seen g))

/-- A pass that is not interrupted is `dispatcherUpdate`. -/
theorem reachable_dispatcherUpdate (seen : ι → Surroundings) (w : World ι) (d : DispatcherId) :
    reactive.Reachable ⟨w, none⟩ ⟨w.dispatcherUpdate seen d, none⟩ := by
  apply Reactive.Reachable.step (e := .pass d)
  · exact rfl
  · exact reachable_groups seen d (w.dispatchers d).groups w

/-- The runs in which passes are single steps are among those in which they are not. -/
theorem reachable_run {w : World ι} {es : List (Event ι)} (h : World.reactive.Valid w es) :
    reactive.Reachable ⟨w, none⟩ ⟨World.reactive.run w es, none⟩ := by
  induction es generalizing w with
  | nil => exact .refl _
  | cons e es ih =>
      refine Reactive.Reachable.trans ?_ (ih h.2)
      by_cases hpass : e.isPass = false
      · apply Reactive.Reachable.step (e := .client ⟨e, hpass⟩)
        · exact h.1
        · exact .refl _
      · cases e with
        | pass d seen => exact reachable_dispatcherUpdate seen w d
        | _ => exact absurd rfl hpass

end Dispatching
end GreenWallet.Tasks
