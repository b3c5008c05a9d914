import GreenWallet.Tasks.Dispatching

/-!
# The outcome of a group

`TaskGroup::update` reads the status of a group off its tasks each time it is called
and announces what it has become. Only `Failed` is final: it is asked for before
anything else, and a failed group says nothing any more. A group that has finished is
looked at like any other, so a task that is added to it, or one that fails after all,
has it announce an outcome once more.
-/
namespace GreenWallet.Tasks
open GreenWallet.Library

variable {ι : Type}

/-- The signal is `finished` or `failed` of the group. -/
def Signal.isOutcomeOfGroup (g : GroupId) : Signal ι → Bool
  | .groupFinished h => h = g
  | .groupFailed h => h = g
  | _ => false

namespace World

def groupOutcomes (w : World ι) (g : GroupId) : List (Signal ι) :=
  w.log.filter (Signal.isOutcomeOfGroup g)

/-- No group has completed twice. -/
def CompletedOnce (w : World ι) : Prop := ∀ g, (w.groupOutcomes g).length ≤ 1

/-- A group has announced that it failed exactly if it has failed. -/
def GroupLogged (w : World ι) : Prop :=
  ∀ g, .groupFailed g ∈ w.groupOutcomes g ↔ (w.groups g).status = .failed

/-- A group that has announced that it finished is found either finished as it was, or
with a task on its way and none that has failed. -/
def StaysComplete (w : World ι) (g : GroupId) : Prop :=
  .groupFinished g ∈ w.log →
    if w.allFinished g then (w.groups g).status = .finished else w.anyFailed g = false

theorem groupOutcomes_of_offTasks {w w' : World ι} (h : w'.offTasks.log = w.offTasks.log)
    (g : GroupId) : w'.groupOutcomes g = w.groupOutcomes g := by
  have hfilter : ∀ v : World ι, v.groupOutcomes g =
      v.offTasks.log.filter (Signal.isOutcomeOfGroup g) := by
    intro v
    rw [groupOutcomes, offTasks, List.filter_filter]
    congr 1
    funext signal
    cases signal <;> simp [Signal.isOutcomeOfGroup, Signal.isOfTask]
  rw [hfilter, hfilter, h]

theorem groupOutcomes_emit (w : World ι) {signals : List (Signal ι)} {g : GroupId}
    (h : ∀ signal ∈ signals, signal.isOutcomeOfGroup g = false) :
    (w.emit signals).groupOutcomes g = w.groupOutcomes g := by
  have hnone : signals.filter (Signal.isOutcomeOfGroup g) = [] := by
    apply List.filter_eq_nil_iff.mpr
    intro signal hsignal
    simp [h signal hsignal]
  rw [groupOutcomes, groupOutcomes, emit, List.filter_append, hnone, List.append_nil]

theorem groupOutcomes_updateBusy (w : World ι) (d : DispatcherId) (g : GroupId) :
    (w.updateBusy d).groupOutcomes g = w.groupOutcomes g := by
  unfold updateBusy setBusy
  split_ifs
  · rfl
  · rw [groupOutcomes_emit]
    · rfl
    · simp [Signal.isOutcomeOfGroup]

theorem groupOutcomes_setGroupStatus (w : World ι) (g h : GroupId) (s : Status) :
    (w.setGroupStatus g s).groupOutcomes h =
      w.groupOutcomes h ++ if h = g ∧ (w.groups g).status ≠ s then groupOutcomeSignal g s else [] := by
  unfold setGroupStatus
  by_cases hs : (w.groups g).status = s
  · simp [hs]
  · rw [if_neg hs, groupOutcomes, emit, List.filter_append,
      List.filter_cons_of_neg (by simp [Signal.isOutcomeOfGroup])]
    by_cases hg : h = g
    · subst hg
      have hall : (groupOutcomeSignal h s : List (Signal ι)).filter (Signal.isOutcomeOfGroup h) =
          groupOutcomeSignal h s := by
        cases s <;> simp [groupOutcomeSignal, Signal.isOutcomeOfGroup]
      rw [hall, if_pos ⟨rfl, hs⟩]
      rfl
    · have hnone : (groupOutcomeSignal g s : List (Signal ι)).filter
          (Signal.isOutcomeOfGroup h) = [] := by
        cases s <;> simp [groupOutcomeSignal, Signal.isOutcomeOfGroup, Ne.symm hg]
      rw [hnone, if_neg fun hand => hg hand.1]
      rfl

/-- The outcome that `TaskGroup::update` announces. -/
def announced (w : World ι) (g : GroupId) : List (Signal ι) :=
  if (w.groups g).status = .failed then []
  else if w.allFinished g then
    if (w.groups g).status = .finished then [] else [.groupFinished g]
  else if w.anyFailed g then [.groupFailed g]
  else []

theorem mem_announced_groupFailed {w : World ι} {g : GroupId} :
    .groupFailed g ∈ w.announced g ↔
      (w.groups g).status ≠ .failed ∧ w.allFinished g = false ∧ w.anyFailed g = true := by
  unfold announced
  split_ifs <;> simp_all

variable [DecidableEq ι] [Fintype ι]

theorem groupOutcomes_visit (w : World ι) (seen : ι → Surroundings) (t : ι) (g : GroupId) :
    (visit seen w t).groupOutcomes g = w.groupOutcomes g := by
  unfold visit
  split_ifs
  · rw [groupOutcomes_of_offTasks (congrArg _ (offTasks_update _ (seen t) t)), groupOutcomes_emit]
    simp [Signal.isOutcomeOfGroup]
  · rfl

theorem groupOutcomes_enterGroup (w : World ι) (g h : GroupId) :
    (w.enterGroup g).1.groupOutcomes h =
      w.groupOutcomes h ++ if h = g then w.announced g else [] := by
  by_cases hfailed : (w.groups g).status = .failed
  · simp [enterGroup, announced, hfailed]
  by_cases hall : w.allFinished g = true
  · simp only [enterGroup, announced, if_neg hfailed, if_pos hall]
    rw [groupOutcomes_setGroupStatus]
    by_cases hh : h = g
    · by_cases hs : (w.groups g).status = .finished <;> simp [hh, hs, groupOutcomeSignal]
    · simp [hh]
  by_cases hany : w.anyFailed g = true
  · simp only [enterGroup, announced, if_neg hfailed, if_neg hall, if_pos hany]
    rw [groupOutcomes_setGroupStatus, groups_sweep,
      groupOutcomes_of_offTasks (congrArg _ (offTasks_sweep w _))]
    simp [hfailed, groupOutcomeSignal]
  · simp only [enterGroup, announced, if_neg hfailed, if_neg hall, if_neg hany, ite_self,
      List.append_nil]
    unfold showActive
    split_ifs <;> simp [groupOutcomes_setGroupStatus, groupOutcomeSignal]

theorem groupStatus_enterGroup_failed (w : World ι) (g : GroupId) :
    ((w.enterGroup g).1.groups g).status = .failed ↔
      (w.groups g).status = .failed ∨ w.allFinished g = false ∧ w.anyFailed g = true := by
  by_cases hfailed : (w.groups g).status = .failed
  · simp [enterGroup_failed hfailed, hfailed]
  by_cases hall : w.allFinished g = true
  · simp [enterGroup, hfailed, hall, groupStatus_setGroupStatus]
  by_cases hany : w.anyFailed g = true
  · simp [enterGroup, hfailed, hall, hany, groupStatus_setGroupStatus]
  · simp only [enterGroup, if_neg hfailed, if_neg hall, if_neg hany]
    unfold showActive
    split_ifs <;> simp [groupStatus_setGroupStatus, hfailed, hany]

theorem GroupLogged.enterGroup {w : World ι} (hw : w.GroupLogged) (g : GroupId) :
    (w.enterGroup g).1.GroupLogged := by
  intro h
  rw [groupOutcomes_enterGroup]
  by_cases hh : h = g
  · subst hh
    rw [if_pos rfl, List.mem_append, hw h, mem_announced_groupFailed, groupStatus_enterGroup_failed]
    tauto
  · rw [if_neg hh, List.append_nil, groupStatus_enterGroup_of_ne w hh, hw h]

omit [DecidableEq ι] [Fintype ι] in
theorem mem_groupOutcomes {w : World ι} {g : GroupId} {signal : Signal ι} :
    signal ∈ w.groupOutcomes g ↔ signal ∈ w.log ∧ signal.isOutcomeOfGroup g = true :=
  List.mem_filter

omit [DecidableEq ι] [Fintype ι] in
theorem groupOutcomes_eq_nil_iff {w : World ι} {g : GroupId} :
    w.groupOutcomes g = [] ↔ .groupFinished g ∉ w.log ∧ .groupFailed g ∉ w.groupOutcomes g := by
  constructor
  · intro hnil
    rw [hnil]
    refine ⟨fun hfinished => ?_, List.not_mem_nil⟩
    have hmem := mem_groupOutcomes (g := g).mpr
      ⟨hfinished, by simp [Signal.isOutcomeOfGroup]⟩
    rw [hnil] at hmem
    cases hmem
  · intro ⟨hfinished, hfailed⟩
    apply List.eq_nil_iff_forall_not_mem.mpr
    intro signal hsignal
    obtain ⟨hlog, hout⟩ := mem_groupOutcomes.mp hsignal
    cases signal with
    | groupFinished h =>
        obtain rfl : h = g := by simpa [Signal.isOutcomeOfGroup] using hout
        exact hfinished hlog
    | groupFailed h =>
        obtain rfl : h = g := by simpa [Signal.isOutcomeOfGroup] using hout
        exact hfailed hsignal
    | _ => cases hout

omit [DecidableEq ι] [Fintype ι] in
/-- A group that has failed, and completed once, has not finished. -/
theorem not_finished_of_failed {w : World ι} {g : GroupId} (hw : w.GroupLogged)
    (honce : (w.groupOutcomes g).length ≤ 1) (hfailed : (w.groups g).status = .failed) :
    .groupFinished g ∉ w.log := by
  intro hlog
  have hfinished : .groupFinished g ∈ w.groupOutcomes g :=
    mem_groupOutcomes.mpr ⟨hlog, by simp [Signal.isOutcomeOfGroup]⟩
  have hmem := (hw g).mpr hfailed
  cases hl : w.groupOutcomes g with
  | nil =>
      rw [hl] at hmem
      cases hmem
  | cons signal rest =>
      rw [hl] at honce hmem hfinished
      obtain rfl : rest = [] := by simpa using honce
      rw [List.mem_singleton] at hmem hfinished
      rw [← hmem] at hfinished
      cases hfinished

omit [DecidableEq ι] [Fintype ι] in
theorem length_append_announced {w : World ι} (hw : w.GroupLogged) (g : GroupId) :
    (w.groupOutcomes g ++ w.announced g).length ≤ 1 ↔
      (w.groupOutcomes g).length ≤ 1 ∧ w.StaysComplete g := by
  have hone : ∀ signal : Signal ι, (w.groups g).status ≠ .failed →
      ((w.groupOutcomes g ++ [signal]).length ≤ 1 ↔ .groupFinished g ∉ w.log) := by
    intro signal hfailed
    simp [groupOutcomes_eq_nil_iff, hw g, hfailed]
  have hlength : .groupFinished g ∉ w.log → (w.groups g).status ≠ .failed →
      (w.groupOutcomes g).length ≤ 1 := by
    intro hlog hfailed
    rw [groupOutcomes_eq_nil_iff.mpr ⟨hlog, (hw g).not.mpr hfailed⟩]
    exact Nat.zero_le 1
  by_cases hfailed : (w.groups g).status = .failed
  · rw [announced, if_pos hfailed, List.append_nil]
    exact ⟨fun h => ⟨h, fun hlog => absurd hlog (not_finished_of_failed hw h hfailed)⟩, And.left⟩
  by_cases hall : w.allFinished g = true
  · by_cases hs : (w.groups g).status = .finished
    · simp [announced, StaysComplete, hall, hs]
    · rw [announced, if_neg hfailed, if_pos hall, if_neg hs, hone _ hfailed]
      simp only [StaysComplete, if_pos hall]
      exact ⟨fun h => ⟨hlength h hfailed, fun hlog => absurd hlog h⟩, fun h hlog => hs (h.2 hlog)⟩
  by_cases hany : w.anyFailed g = true
  · rw [announced, if_neg hfailed, if_neg hall, if_pos hany, hone _ hfailed]
    simp only [StaysComplete, if_neg hall, hany, reduceCtorEq]
    exact ⟨fun h => ⟨hlength h hfailed, h⟩, And.right⟩
  · rw [announced, if_neg hfailed, if_neg hall, if_neg hany, List.append_nil]
    simp [StaysComplete, hall, hany]

/-- An update announces no second outcome exactly if it finds the group as it completed. -/
theorem completedOnce_enterGroup_iff {w : World ι} (hw : w.GroupLogged) (g : GroupId) :
    (w.enterGroup g).1.CompletedOnce ↔ w.CompletedOnce ∧ w.StaysComplete g := by
  have hself : (w.enterGroup g).1.groupOutcomes g = w.groupOutcomes g ++ w.announced g := by
    rw [groupOutcomes_enterGroup, if_pos rfl]
  have hother : ∀ h, h ≠ g → (w.enterGroup g).1.groupOutcomes h = w.groupOutcomes h := by
    intro h hne
    rw [groupOutcomes_enterGroup, if_neg hne, List.append_nil]
  constructor
  · intro hnext
    have hg := hnext g
    rw [hself, length_append_announced hw] at hg
    refine ⟨fun h => ?_, hg.2⟩
    by_cases hne : h = g
    · rw [hne]
      exact hg.1
    · rw [← hother h hne]
      exact hnext h
  · intro ⟨honce, hstays⟩ h
    by_cases hne : h = g
    · rw [hne, hself, length_append_announced hw]
      exact ⟨honce g, hstays⟩
    · rw [hother h hne]
      exact honce h

end World

namespace Dispatching

/-- A pass comes to a group only while it is not complete, or still as it completed. -/
def KeepsComplete (s : Dispatching ι) : Step ι → Prop
  | .work _ => ∀ d g groups, s.pass = some ⟨d, g :: groups, []⟩ → s.world.StaysComplete g
  | _ => True

variable [DecidableEq ι] [Fintype ι]

/-- A step that says anything about a group comes to the group. -/
theorem StepShape.enters_or_quiet {s s' : Dispatching ι} {e : Step ι} (h : StepShape s e s') :
    (∃ g, s'.world = (s.world.enterGroup g).1 ∧ (s.KeepsComplete e ↔ s.world.StaysComplete g)) ∨
      s.KeepsComplete e ∧ ∀ g, s'.world.groupOutcomes g = s.world.groupOutcomes g ∧
        (s'.world.groups g).status = (s.world.groups g).status := by
  cases h with
  | nested d => exact .inr ⟨trivial, fun g => ⟨rfl, rfl⟩⟩
  | idle seen hpass =>
      refine .inr ⟨fun d g groups hsome => ?_, fun g => ⟨rfl, rfl⟩⟩
      rw [hpass] at hsome
      cases hsome
  | opens d => exact .inr ⟨trivial, fun g => ⟨rfl, rfl⟩⟩
  | visits seen hpass =>
      refine .inr ⟨fun d g groups hsome => ?_, fun g => ?_⟩
      · rw [hpass] at hsome
        cases hsome
      · rw [World.groups_visit]
        exact ⟨World.groupOutcomes_visit _ _ _ g, rfl⟩
  | @enters d g groups seen hpass =>
      refine .inl ⟨g, rfl, fun h => h d g groups hpass, fun h d' g' groups' hsome => ?_⟩
      rw [hpass] at hsome
      cases hsome
      exact h
  | closes seen hpass =>
      refine .inr ⟨fun d g groups hsome => ?_, fun g => ?_⟩
      · rw [hpass] at hsome
        cases hsome
      · rw [World.groups_updateBusy]
        exact ⟨World.groupOutcomes_updateBusy _ _ g, rfl⟩
  | client e =>
      refine .inr ⟨trivial, fun g => ?_⟩
      exact ⟨World.groupOutcomes_of_offTasks (World.log_client s.world e) g,
        World.groupStatus_client s.world e g⟩

theorem groupLogged_next {s : Dispatching ι} (hs : s.world.GroupLogged) (e : Step ι) :
    (s.next e).world.GroupLogged := by
  rcases (step_shape s e).enters_or_quiet with ⟨g, hworld, -⟩ | ⟨-, hquiet⟩
  · rw [hworld]
    exact hs.enterGroup g
  · intro g
    rw [(hquiet g).1, (hquiet g).2, hs g]

theorem completedOnce_next_iff {s : Dispatching ι} (hs : s.world.GroupLogged) (e : Step ι) :
    (s.next e).world.CompletedOnce ↔ s.world.CompletedOnce ∧ s.KeepsComplete e := by
  rcases (step_shape s e).enters_or_quiet with ⟨g, hworld, hkeeps⟩ | ⟨hkeeps, hquiet⟩
  · rw [hworld, World.completedOnce_enterGroup_iff hs, hkeeps]
  · simp only [World.CompletedOnce, fun g => (hquiet g).1, hkeeps, and_true]

end Dispatching

variable [DecidableEq ι] [Fintype ι]

/-- Every group completes at most once in a run exactly if each time a pass comes to a
group that has announced that it finished, the group is still finished, or has a task on
its way and none that has failed. -/
theorem completesOnce_iff (types : ι → TaskType) (es : List (Step ι)) :
    (Dispatching.reactive.run (.fresh types) es).world.CompletedOnce ↔
      Dispatching.reactive.Along Dispatching.KeepsComplete (.fresh types) es := by
  have hrun := Reactive.run_iff_along (R := Dispatching.reactive (ι := ι))
    (I := fun s => s.world.CompletedOnce) (J := fun s => s.world.GroupLogged)
    (fun s e hs => Dispatching.groupLogged_next hs e)
    (fun s e hs => Dispatching.completedOnce_next_iff hs e) (s := .fresh types)
    (fun g => by simp [Dispatching.fresh, World.fresh, World.groupOutcomes]) es
  rw [hrun]
  exact and_iff_right fun g => Nat.zero_le 1

/-- The dispatcher, the group and its task. -/
def first : Fin 2 := ⟨0, Nat.two_pos⟩

/-- The task that is added later. -/
def second : Fin 2 := ⟨1, Nat.one_lt_two⟩

/-- A pass of one dispatcher, in so many calls. -/
def passOf (calls : ℕ) : List (Step (Fin 2)) :=
  .pass first :: List.replicate calls (.work { ready := true })

def client (e : Event (Fin 2)) (h : e.isPass = false := by rfl) : Step (Fin 2) := .client ⟨e, h⟩

/-- The dispatcher is given the group, with these tasks. -/
def added (ts : List (Fin 2)) : List (Step (Fin 2)) :=
  ts.map (fun t => client (.groupAdd first t)) ++ [client (.dispatcherAdd first first)]

def completes (c : Call (Fin 2)) (report : Report) : Step (Fin 2) := client (.completes c report)

/-- The group finishes with its only task, is given another one and is at work again. -/
def taskAddedLater : List (Step (Fin 2)) :=
  [client (.groupAdd first first), client (.dispatcherAdd first first)] ++ passOf 3 ++
    [client (.completes ⟨first, .call⟩ {})] ++ passOf 2 ++ [client (.groupAdd first second)] ++
    passOf 4 ++ passOf 4 ++ [client (.completes ⟨second, .call⟩ {})] ++ passOf 2

/-- The code is sent twice, and the second call fails once the group has finished. -/
def codeSentTwice : List (Step (Fin 2)) :=
  [client (.groupAdd first first), client (.dispatcherAdd first first)] ++ passOf 3 ++
    [client (.completes ⟨first, .call⟩ { status := some (.resolveCode "sms") }),
      client (.resolveCode first "123456"), client (.resolveCode first "123456"),
      client (.completes ⟨first, .resolveCode "123456"⟩ {})] ++ passOf 2 ++
    [client (.completes ⟨first, .resolveCode "123456"⟩ { ok := false })] ++ passOf 2

theorem not_completesOnce_taskAddedLater :
    (Dispatching.reactive.Valid (.fresh (pair .createAccount .loadAccount)) taskAddedLater ∧
      ¬ (Dispatching.reactive.run (.fresh (pair .createAccount .loadAccount))
        taskAddedLater).world.CompletedOnce) ∧
    Dispatching.reactive.Valid (.fresh (pair .createAccount .loadAccount)) codeSentTwice ∧
      ¬ (Dispatching.reactive.run (.fresh (pair .createAccount .loadAccount))
        codeSentTwice).world.CompletedOnce := by
  refine ⟨⟨by decide, fun h => ?_⟩, by decide, fun h => ?_⟩
  · exact absurd (h 0) (by decide)
  · exact absurd (h 0) (by decide)

end GreenWallet.Tasks
