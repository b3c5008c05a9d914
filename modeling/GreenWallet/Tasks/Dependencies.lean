import GreenWallet.Tasks.Dispatching

/-!
# Dependency order

The loop of a pass asks for the statuses of the inputs right before it calls
`update`, so nothing that has happened since the copy was made can mislead it. That
the group has not failed is asked for once, before the loop: it stays true because a
group's status is written by its own `TaskGroup::update` alone.
-/
namespace GreenWallet.Tasks
open GreenWallet.Library

variable {ι : Type}

theorem World.isDue_iff {w : World ι} {t : ι} :
    w.isDue t = true ↔ (w.status t = .ready ∨ w.status t = .active) ∧
      ∀ u ∈ (w.tasks t).inputs, w.status u = .finished := by
  simp [isDue]

variable [Fintype ι] [DecidableEq ι]

namespace Dispatching

/-- The step calls `update` of the task. -/
def Updates (s : Dispatching ι) (e : Step ι) (t : ι) : Prop :=
  s.world.updates t < (s.next e).world.updates t

/-- The step starts the operation of the task. -/
def Starts (s : Dispatching ι) (e : Step ι) (t : ι) : Prop :=
  s.world.starts t < (s.next e).world.starts t

/-- The next call of the pass is for the task, in the loop of the group. -/
def Visiting (s : Dispatching ι) (g : GroupId) (t : ι) : Prop :=
  ∃ d groups visits, s.pass = some ⟨d, groups, ⟨g, t⟩ :: visits⟩

/-- The step keeps to the order of the dependencies. -/
structure InOrder (s : Dispatching ι) (e : Step ι) : Prop where
  /-- A task is updated only when it is on its way and its inputs have finished. -/
  updates : ∀ t, s.Updates e t →
    (s.world.status t = .ready ∨ s.world.status t = .active) ∧
      ∀ u ∈ (s.world.tasks t).inputs, s.world.status u = .finished
  /-- Only an `update` starts a task. -/
  starts : ∀ t, s.Starts e t → s.Updates e t
  failedInput : ∀ t u, u ∈ (s.world.tasks t).inputs → s.world.status u = .failed →
    ¬ s.Updates e t ∧ ¬ s.Starts e t
  /-- A task is updated only in the loop of a group, and not of a failed one. -/
  group : ∀ t, s.Updates e t → ∃ g, s.Visiting g t ∧ (s.world.groups g).status ≠ .failed
  failedGroup : ∀ g, (s.world.groups g).status = .failed →
    ((s.next e).world.groups g).status = .failed

/-- The groups whose tasks are being looped over have not failed. -/
def Unfailed (s : Dispatching ι) : Prop :=
  ∀ pass, s.pass = some pass → ∀ v ∈ pass.visits, (s.world.groups v.group).status ≠ .failed

omit [Fintype ι] [DecidableEq ι] in
theorem unfailed_fresh (types : ι → TaskType) : (fresh types).Unfailed := by
  intro pass hpass
  cases hpass

theorem StepShape.unfailed {s s' : Dispatching ι} {e : Step ι} (h : StepShape s e s')
    (hs : s.Unfailed) : s'.Unfailed := by
  cases h with
  | nested d => exact hs
  | idle seen hpass => exact hs
  | opens d =>
      rintro pass ⟨⟩ v hv
      cases hv
  | closes seen hpass => rintro pass ⟨⟩
  | visits seen hpass =>
      rintro pass ⟨⟩ v hv
      rw [World.groups_visit]
      exact hs _ hpass v (List.mem_cons_of_mem _ hv)
  | enters seen hpass =>
      rintro pass ⟨⟩ v hv
      obtain ⟨t, ht, rfl⟩ := List.mem_map.mp hv
      exact World.groupStatus_of_mem_enterGroup ht
  | client e =>
      intro pass hpass v hv
      rw [World.groupStatus_client]
      exact hs pass hpass v hv

/-- Only a visit of a due task calls its `update`. -/
theorem StepShape.updates {s s' : Dispatching ι} {e : Step ι} (h : StepShape s e s') {t : ι}
    (ht : s.world.updates t < s'.world.updates t) :
    s.world.isDue t = true ∧ ∃ g, s.Visiting g t := by
  cases h with
  | nested d => exact absurd ht (lt_irrefl _)
  | idle seen hpass => exact absurd ht (lt_irrefl _)
  | opens d => exact absurd ht (lt_irrefl _)
  | @visits d groups v visits seen hpass =>
      rw [World.updates_visit] at ht
      by_cases hdue : t = v.task ∧ s.world.isDue v.task = true
      · obtain ⟨rfl, hdue⟩ := hdue
        exact ⟨hdue, v.group, d, groups, visits, hpass⟩
      · rw [if_neg hdue] at ht
        exact absurd ht (lt_irrefl _)
  | enters seen hpass =>
      rw [World.updates_enterGroup] at ht
      exact absurd ht (lt_irrefl _)
  | closes seen hpass =>
      rw [World.updates_updateBusy] at ht
      exact absurd ht (lt_irrefl _)
  | client e =>
      rw [World.updates_of_offTasks (World.log_client s.world e)] at ht
      exact absurd ht (lt_irrefl _)

theorem StepShape.starts {s s' : Dispatching ι} {e : Step ι} (h : StepShape s e s') {t : ι}
    (ht : s.world.starts t < s'.world.starts t) : s.world.updates t < s'.world.updates t := by
  cases h with
  | nested d => exact absurd ht (lt_irrefl _)
  | idle seen hpass => exact absurd ht (lt_irrefl _)
  | opens d => exact absurd ht (lt_irrefl _)
  | @visits d groups v visits seen hpass =>
      rw [World.updates_visit]
      by_cases hdue : t = v.task ∧ s.world.isDue v.task = true
      · rw [if_pos hdue]
        exact Nat.lt_succ_self _
      · rw [World.starts_visit _ _ hdue] at ht
        exact absurd ht (lt_irrefl _)
  | enters seen hpass =>
      rw [World.starts_enterGroup] at ht
      exact absurd ht (lt_irrefl _)
  | closes seen hpass =>
      exact absurd ((World.alike_setBusy s.world _ _).starts t) ht.ne'
  | client e =>
      rw [World.starts_client] at ht
      exact absurd ht (lt_irrefl _)

/-- A failed group stays failed. -/
theorem StepShape.failedGroup {s s' : Dispatching ι} {e : Step ι} (h : StepShape s e s')
    {g : GroupId} (hg : (s.world.groups g).status = .failed) :
    (s'.world.groups g).status = .failed := by
  cases h with
  | nested d => exact hg
  | idle seen hpass => exact hg
  | opens d => exact hg
  | visits seen hpass =>
      rw [World.groups_visit]
      exact hg
  | @enters d g' groups seen hpass =>
      by_cases hne : g = g'
      · subst hne
        rw [World.enterGroup_failed hg]
        exact hg
      · rw [World.groupStatus_enterGroup_of_ne _ hne]
        exact hg
  | closes seen hpass =>
      rw [World.groups_updateBusy]
      exact hg
  | client e =>
      rw [World.groupStatus_client]
      exact hg

theorem inOrder_of_unfailed {s : Dispatching ι} (hs : s.Unfailed) (e : Step ι) : s.InOrder e := by
  have hupdates : ∀ t, s.Updates e t → _ := fun t ht =>
    World.isDue_iff.mp ((step_shape s e).updates ht).1
  have hstarts : ∀ t, s.Starts e t → s.Updates e t := fun t ht => (step_shape s e).starts ht
  refine ⟨hupdates, hstarts, ?_, ?_, fun g hg => (step_shape s e).failedGroup hg⟩
  · intro t u hu hfailed
    have hnot : ¬ s.Updates e t := by
      intro ht
      have hfinished := (hupdates t ht).2 u hu
      rw [hfailed] at hfinished
      cases hfinished
    exact ⟨hnot, fun ht => hnot (hstarts t ht)⟩
  · intro t ht
    obtain ⟨g, d, groups, visits, hpass⟩ := ((step_shape s e).updates ht).2
    exact ⟨g, ⟨d, groups, visits, hpass⟩, hs _ hpass _ List.mem_cons_self⟩

end Dispatching

/-- Every step of every run keeps to the order of the dependencies, whatever happens
between the calls of a pass. -/
theorem along_inOrder (types : ι → TaskType) (es : List (Step ι)) :
    Dispatching.reactive.Along Dispatching.InOrder (.fresh types) es := by
  apply Reactive.along_of_at
  intro fs e gs _
  apply Dispatching.inOrder_of_unfailed
  apply Reactive.run_invariant (P := fun _ _ => True)
  · intro s e hs _
    exact (Dispatching.step_shape s e).unfailed hs
  · exact Dispatching.unfailed_fresh types
  · exact Reactive.along_of_at fun _ _ _ _ => trivial

end GreenWallet.Tasks
