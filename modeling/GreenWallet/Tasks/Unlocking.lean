import GreenWallet.Tasks.Alone
import GreenWallet.Tasks.Once

/-!
# The unlocking flag

A task that sets up or unlocks a device sets the flag of the device before it asks for
`auth_user`, and clears it where it hears of the end: from the answer, or from the device
being disconnected. `JadeUnlockTask` hears neither unless it is `Active`, and gives up with
the flag set on a device without an api, whose null pointer `JadeSetupTask` dereferences.
`JadeSetupTask` hears of no disconnection, and waits for an answer that does not come.
-/
namespace GreenWallet.Tasks
open GreenWallet.Library

namespace Dispatching.Move

/-- `auth_user` is answered. -/
def Answers : Dispatching.Move → Prop
  | .completes .work _ => True
  | _ => False

/-- The device will not answer any more. -/
def Disconnects : Dispatching.Move → Prop
  | .completes .disconnected _ | .loses => True
  | _ => False

end Dispatching.Move

/-- The task asks its device for `auth_user` and sets the unlocking flag. -/
def TaskType.setsUnlocking (type : TaskType) : Prop := type = .jadeSetup ∨ type = .jadeUnlock

theorem TaskType.setsUnlocking.isOfLogin {type : TaskType} (h : type.setsUnlocking) :
    type.isOfLogin = true := by
  rcases h with rfl | rfl <;> rfl

theorem TaskType.setsUnlocking.authUser {type : TaskType} (h : type.setsUnlocking) :
    type.authUser = some .work := by
  rcases h with rfl | rfl <;> rfl

namespace View

/-- The `update` comes to `authUser` of a device that has no api. -/
def AsksWithoutApi (v : View) : Dispatching.Move → Prop
  | .updates seen =>
      v.status = .ready ∧ seen.device = true ∧ seen.network = true ∧ seen.api = false ∧
        (v.type = .jadeSetup ∧ (seen.deviceState = .uninitialized ∨ seen.deviceState = .unsaved) ∨
          v.type = .jadeUnlock ∧ seen.deviceState ≠ .ready)
  | _ => False

/-! ### What its steps come to -/

/-- What an `update` comes to, of a task that sets the flag. -/
inductive Updated (v : View) (seen : Surroundings) : View → Prop
  | stays (h : v.type = .jadeUnlock → ¬ v.AsksWithoutApi (.updates seen)) : Updated v seen v
  | finishes (hready : v.status = .ready)
      (h : v.type = .jadeUnlock → ¬ v.AsksWithoutApi (.updates seen)) :
      Updated v seen (v.set .finished)
  | asks (hready : v.status = .ready)
      (h : v.type = .jadeUnlock → ¬ v.AsksWithoutApi (.updates seen)) {v' : View}
      (hactive : v'.status = .active) (hflag : v'.unlocking = true)
      (hcount : v'.pendings.count .work = v.pendings.count .work + 1) : Updated v seen v'
  | givesUp (hready : v.status = .ready) (htype : v.type = .jadeUnlock)
      (h : v.AsksWithoutApi (.updates seen)) :
      Updated v seen (((v.set .active).setUnlocking true).set .failed)

theorem update_of_not_ready {v : View} (htype : v.type.setsUnlocking) (hready : v.status ≠ .ready)
    (seen : Surroundings) : v.update seen = v := by
  rcases htype with htype | htype
  · simp [View.update, htype, jadeSetup, whenReady, hready]
  · simp [View.update, htype, jadeUnlock, whenReady, hready]

theorem updated_jadeSetup {v : View} (htype : v.type = .jadeSetup) (hready : v.status = .ready)
    (seen : Surroundings) : v.Updated seen (v.update seen) := by
  have hnot : v.type = .jadeUnlock → ¬ v.AsksWithoutApi (.updates seen) := by simp [htype]
  simp only [View.update, htype, jadeSetup, whenReady, hready, true_and]
  split_ifs
  · exact .finishes hready hnot
  · exact .asks hready hnot (by simp [View.start, View.setUnlocking]) rfl
      (by simp [View.start, View.setUnlocking])
  · exact .stays hnot
  · exact .stays hnot

theorem updated_jadeUnlock {v : View} (htype : v.type = .jadeUnlock) (hready : v.status = .ready)
    (seen : Surroundings) : v.Updated seen (v.update seen) := by
  simp only [View.update, htype, jadeUnlock, whenReady, hready, true_and]
  split_ifs with hdevice hstate hnetwork hapi
  · exact .finishes hready fun _ => by simp [AsksWithoutApi, htype, hstate]
  · exact .asks hready (fun _ => by simp [AsksWithoutApi, hapi])
      (by simp [View.start, View.setUnlocking]) rfl (by simp [View.start, View.setUnlocking])
  · apply Updated.givesUp hready htype
    simp [AsksWithoutApi, htype, hready, hdevice, hstate, hnetwork, hapi]
  · exact .stays fun _ => by simp [AsksWithoutApi, hnetwork]
  · exact .stays fun _ => by simp [AsksWithoutApi, hdevice]

theorem updated {v : View} (htype : v.type.setsUnlocking) (seen : Surroundings) :
    v.Updated seen (v.update seen) := by
  by_cases hready : v.status = .ready
  · rcases htype with htype | htype
    · exact updated_jadeSetup htype hready seen
    · exact updated_jadeUnlock htype hready seen
  · rw [update_of_not_ready htype hready]
    exact .stays fun _ hasks => hready hasks.1

/-- What a continuation comes to, of a task that sets the flag: the answer and the disconnection
are heard of, or leave all as it is. -/
inductive Completed (v : View) : Pending → View → Prop
  | heard {p : Pending} {s : Status} (hp : p = .work ∨ p = .disconnected)
      (hs : s = .finished ∨ s = .failed)
      (hactive : p = .disconnected ∨ v.type = .jadeUnlock → v.status = .active) :
      Completed v p (((v.drop p).setUnlocking false).set s)
  | unheard {p : Pending} (hp : p = .disconnected ∨ p = .work ∧ v.type = .jadeUnlock)
      (hactive : v.status ≠ .active) : Completed v p (v.drop p)
  | other {p : Pending} (hwork : p ≠ .work) (hp : p ≠ .disconnected) : Completed v p (v.drop p)

theorem completed {v : View} (htype : v.type.setsUnlocking) (p : Pending) (report : Report) :
    v.Completed p ((v.drop p).complete p report) := by
  cases p with
  | work =>
      rcases htype with htype | htype
      · rw [complete_jadeSetup (v := v.drop .work) htype]
        exact .heard (.inl rfl) report.outcome_cases (by simp [htype])
      · by_cases hactive : v.status = .active
        · rw [complete_jadeUnlock (v := v.drop .work) htype hactive]
          exact .heard (.inl rfl) report.outcome_cases fun _ => hactive
        · rw [complete_jadeUnlock_late (v := v.drop .work) htype hactive]
          exact .unheard (.inr ⟨rfl, htype⟩) hactive
  | disconnected =>
      by_cases hactive : v.status = .active
      · rw [complete_disconnected (v := v.drop .disconnected) hactive]
        exact .heard (.inr rfl) (.inr rfl) fun _ => hactive
      · rw [complete_disconnected_late (v := v.drop .disconnected) hactive]
        exact .unheard (.inl rfl) hactive
  | _ => exact .other (by simp) (by simp)

/-! ### What holds of the task -/

/-- A task is asked for its login once, and sets the flag as it is. The flag stays set while the
answer is outstanding, and the task has finished only with the flag cleared. -/
structure Asks (v : View) : Prop where
  ready : v.status = .ready → v.pendings = [] ∧ v.unlocking = false
  active : v.status = .active → v.unlocking = true
  finished : v.status = .finished → .work ∉ v.pendings ∧ v.unlocking = false
  failed : v.status = .failed → .work ∈ v.pendings → v.unlocking = true
  once : v.pendings.count .work ≤ 1

theorem Asks.fresh (type : TaskType) : ({ type := type } : View).Asks where
  ready _ := ⟨rfl, rfl⟩
  active h := by cases h
  finished h := by cases h
  failed h := by cases h
  once := Nat.zero_le 1

theorem Asks.updated {v v' : View} {seen : Surroundings} (h : v.Asks) (hv : v.Updated seen v') :
    v'.Asks := by
  cases hv with
  | stays => exact h
  | finishes hready =>
      obtain ⟨hpendings, hflag⟩ := h.ready hready
      constructor <;> simp [hpendings, hflag]
  | asks hready _ hactive hflag hcount =>
      rw [(h.ready hready).1] at hcount
      constructor <;> simp [hactive, hflag, hcount]
  | givesUp hready =>
      constructor <;> simp [View.setUnlocking, (h.ready hready).1]

theorem Asks.not_ready {v : View} (h : v.Asks) {p : Pending} (hmem : p ∈ v.pendings) :
    v.status ≠ .ready := by
  intro hready
  rw [(h.ready hready).1] at hmem
  cases hmem

theorem Asks.work_not_mem_erase {v : View} (h : v.Asks) : .work ∉ v.pendings.erase .work := by
  have honce := h.once
  intro hmem
  have hpos := List.count_pos_iff.mpr hmem
  rw [List.count_erase_self] at hpos
  omega

/-- Once `auth_user` is answered, or the device disconnected, nothing is outstanding. -/
theorem Asks.work_not_mem_drop {v : View} (h : v.Asks) {p : Pending}
    (hp : p = .work ∨ p = .disconnected) : .work ∉ (v.drop p).pendings := by
  rcases hp with rfl | rfl
  · rw [drop_of_ne (by simp)]
    exact h.work_not_mem_erase
  · rw [drop_disconnected, List.erase_comm]
    exact fun hmem => h.work_not_mem_erase (List.mem_of_mem_erase hmem)

theorem Asks.work_not_mem_lose {v : View} (h : v.Asks) (htype : v.type.setsUnlocking) :
    .work ∉ v.lose.pendings := by
  simp only [lose, htype.authUser, Option.elim_some]
  exact h.work_not_mem_erase

theorem mem_drop_iff {v : View} {p : Pending} (hwork : p ≠ .work) (hp : p ≠ .disconnected) :
    .work ∈ (v.drop p).pendings ↔ .work ∈ v.pendings := by
  rw [drop_of_ne hp]
  exact List.mem_erase_of_ne (Ne.symm hwork)

theorem Asks.drop {v : View} (h : v.Asks) {p : Pending} (hwork : p ≠ .work)
    (hp : p ≠ .disconnected) (hmem : p ∈ v.pendings) : (v.drop p).Asks where
  ready hready := absurd hready (h.not_ready hmem)
  active := h.active
  finished hfinished := by
    rw [mem_drop_iff hwork hp]
    exact h.finished hfinished
  failed hfailed := by
    rw [mem_drop_iff hwork hp]
    exact h.failed hfailed
  once := ((v.sublist_drop p).count_le _).trans h.once

/-- What becomes of the calls once nothing is outstanding is no matter. -/
theorem Asks.over {v : View} (h : v.Asks) (hready : v.status ≠ .ready) {pendings : List Pending}
    (hnone : .work ∉ pendings) : ({ v with pendings := pendings } : View).Asks where
  ready hr := absurd hr hready
  active := h.active
  finished hfinished := ⟨hnone, (h.finished hfinished).2⟩
  failed _ hmem := absurd hmem hnone
  once := by
    rw [List.count_eq_zero.mpr hnone]
    exact Nat.zero_le 1

/-- The end is heard of, and nothing is outstanding. -/
theorem Asks.heard {v : View} {s : Status} (hs : s = .finished ∨ s = .failed)
    (hnone : .work ∉ v.pendings) : ((v.setUnlocking false).set s).Asks := by
  have hcount : v.pendings.count .work = 0 := List.count_eq_zero.mpr hnone
  constructor
  · rcases hs with rfl | rfl <;> simp
  · rcases hs with rfl | rfl <;> simp
  · intro _
    simpa [View.setUnlocking] using hnone
  · intro _ hmem
    exact absurd (by simpa [View.setUnlocking] using hmem) hnone
  · simp [View.setUnlocking, hcount]

theorem Asks.completed {v v' : View} {p : Pending} (h : v.Asks) (hmem : p ∈ v.pendings)
    (hv : v.Completed p v') : v'.Asks := by
  cases hv with
  | heard hp hs => exact Asks.heard hs (h.work_not_mem_drop hp)
  | unheard hp hactive =>
      exact h.over (h.not_ready hmem) (h.work_not_mem_drop (hp.symm.imp_left And.left))
  | other hwork hp => exact h.drop hwork hp hmem

theorem Becomes.asks {v v' : View} {m : Dispatching.Move} (hb : v.Becomes m v') (h : v.Asks)
    (htype : v.type.setsUnlocking) : v'.Asks := by
  cases hb with
  | stays => exact h
  | failed =>
      constructor
      · simp [write]
      · simp [write]
      · simp [write]
      · intro _ hmem
        cases hs : v.status with
        | ready => exact absurd hs (h.not_ready hmem)
        | active => exact h.active hs
        | finished => exact absurd hmem (h.finished hs).1
        | failed => exact h.failed hs hmem
      · exact h.once
  | updates seen => exact h.updated (updated htype seen)
  | completes p report hmem => exact h.completed hmem (completed htype p report)
  | loses hlost =>
      obtain ⟨p, -, hmem⟩ := (Option.any_eq_true _ _).mp hlost
      exact h.over (h.not_ready (of_decide_eq_true hmem)) (h.work_not_mem_lose htype)

/-! ### The flag of one task -/

/-- Over, with nothing outstanding, and the flag cleared. -/
def Cleared (v : View) : Prop :=
  v.status.isTerminal = true → .work ∉ v.pendings → v.unlocking = false

/-- The step fails the task, which is `Active`, and is none of its own. -/
def FailsFromOutside (v v' : View) (m : Dispatching.Move) : Prop :=
  v.status = .active ∧ m = .others ∧ v'.status = .failed

/-- `auth_user` is outstanding, and will not be answered any more. -/
def LosesAuthUser (v : View) (m : Dispatching.Move) : Prop := .work ∈ v.pendings ∧ m.Disconnects

/-- The last that could have cleared the flag is gone with the step. -/
def Unheard (v v' : View) : Dispatching.Move → Prop
  | .others => v.status = .active ∧ v'.status = .failed ∧ .work ∉ v.pendings
  | .updates seen => v.type = .jadeUnlock ∧ v.AsksWithoutApi (.updates seen)
  | .completes .work _ => v.type = .jadeUnlock ∧ v.status = .failed
  | .completes .disconnected _ => .work ∈ v.pendings ∧ v.status = .failed
  | .completes _ _ => False
  | .loses => v.status = .failed

theorem cleared_of_unlocking {v : View} (h : v.unlocking = false) : v.Cleared := fun _ _ => h

theorem cleared_of_outstanding {v : View} (h : .work ∈ v.pendings) : v.Cleared :=
  fun _ hnone => absurd h hnone

theorem cleared_heard (v : View) (s : Status) : ((v.setUnlocking false).set s).Cleared := by
  apply cleared_of_unlocking
  rw [set_unlocking]
  rfl

/-- A failure from outside leaves the flag set for good if nothing is outstanding. -/
theorem cleared_failed_iff {v : View} (h : v.Asks) (hcleared : v.Cleared) :
    (v.write .failed).Cleared ↔ ¬ (v.status = .active ∧ .work ∉ v.pendings) := by
  cases hs : v.status with
  | ready => exact iff_of_true (cleared_of_unlocking (h.ready hs).2) (by simp)
  | active =>
      have hflag : v.unlocking = true := h.active hs
      simp [Cleared, View.write, Status.isTerminal, hflag]
  | finished => exact iff_of_true (cleared_of_unlocking (h.finished hs).2) (by simp)
  | failed =>
      refine iff_of_true (fun _ hnone => ?_) (by simp)
      exact hcleared (by rw [hs]; rfl) hnone

theorem cleared_updated_iff {v v' : View} {seen : Surroundings} (h : v.Asks) (hcleared : v.Cleared)
    (hv : v.Updated seen v') : v'.Cleared ↔ ¬ v.Unheard v' (.updates seen) := by
  rw [Unheard, not_and]
  cases hv with
  | stays hnot => exact iff_of_true hcleared hnot
  | finishes hready hnot =>
      refine iff_of_true (cleared_of_unlocking ?_) hnot
      rw [set_unlocking]
      exact (h.ready hready).2
  | asks hready hnot hactive hflag hcount =>
      refine iff_of_true (cleared_of_outstanding ?_) hnot
      rw [← List.count_pos_iff, hcount]
      exact Nat.succ_pos _
  | givesUp hready hunlock hasks =>
      refine iff_of_false (fun hnext => ?_) fun hnot => hnot hunlock hasks
      have hflag := hnext (by simp [Status.isTerminal])
        (by simp [View.setUnlocking, (h.ready hready).1])
      simp [View.setUnlocking] at hflag

/-- An end that is not heard of leaves the flag as it is. -/
theorem cleared_over_iff {v : View} (h : v.Asks) (hmem : .work ∈ v.pendings)
    {pendings : List Pending} (hnone : .work ∉ pendings) :
    ({ v with pendings := pendings } : View).Cleared ↔ v.status ≠ .failed := by
  cases hs : v.status with
  | ready => exact absurd hs (h.not_ready hmem)
  | active => simp [Cleared, Status.isTerminal]
  | finished => exact absurd hmem (h.finished hs).1
  | failed => simp [Cleared, Status.isTerminal, hnone, h.failed hs hmem]

theorem cleared_completed_iff {v v' : View} {p : Pending} (h : v.Asks) (hcleared : v.Cleared)
    (hmem : p ∈ v.pendings) (hv : v.Completed p v') (report : Report) :
    v'.Cleared ↔ ¬ v.Unheard v' (.completes p report) := by
  cases hv with
  | heard hp hs hactive =>
      refine iff_of_true (cleared_heard _ _) ?_
      rcases hp with rfl | rfl
      · rintro ⟨hunlock, hfailed⟩
        rw [hactive (.inr hunlock)] at hfailed
        cases hfailed
      · rintro ⟨-, hfailed⟩
        rw [hactive (.inl rfl)] at hfailed
        cases hfailed
  | unheard hp hactive =>
      rcases hp with rfl | ⟨rfl, hunlock⟩
      · by_cases hwork : .work ∈ v.pendings
        · simp only [Unheard, hwork, true_and]
          exact cleared_over_iff h hwork (h.work_not_mem_drop (.inr rfl))
        · exact iff_of_true (fun hterminal _ => hcleared hterminal hwork) fun hand => hwork hand.1
      · simp only [Unheard, hunlock, true_and]
        exact cleared_over_iff h hmem (h.work_not_mem_drop (.inl rfl))
  | other hwork hp =>
      refine iff_of_true (fun hterminal hnone => hcleared hterminal fun hmem => hnone ?_) ?_
      · exact (mem_drop_iff hwork hp).mpr hmem
      · cases p <;> first | exact id | contradiction

theorem Becomes.cleared_iff {v v' : View} {m : Dispatching.Move} (hb : v.Becomes m v')
    (h : v.Asks) (htype : v.type.setsUnlocking) (hcleared : v.Cleared) :
    v'.Cleared ↔ ¬ v.Unheard v' m := by
  cases hb with
  | stays =>
      refine iff_of_true hcleared ?_
      rintro ⟨hactive, hfailed, -⟩
      rw [hactive] at hfailed
      cases hfailed
  | failed =>
      rw [cleared_failed_iff h hcleared]
      simp [Unheard, write]
  | updates seen => exact cleared_updated_iff h hcleared (updated htype seen)
  | completes p report hmem =>
      exact cleared_completed_iff h hcleared hmem (completed htype p report) report
  | loses hlost =>
      rw [htype.authUser, Option.any_some] at hlost
      exact cleared_over_iff h (of_decide_eq_true hlost) (h.work_not_mem_lose htype)

/-- What is known of the login of a task from whether its `auth_user` was lost and whether it was
failed from outside. -/
structure Recalls (v : View) (lost failed : Prop) : Prop where
  ready : v.status = .ready → ¬ lost ∧ ¬ failed
  active : v.status = .active → (.work ∈ v.pendings ↔ ¬ lost) ∧ ¬ failed
  failed : v.status = .failed → .work ∈ v.pendings → failed

section
variable {v v' : View} {lost failed : Prop}

theorem Recalls.updated {seen : Surroundings} (hr : v.Recalls lost failed) (h : v.Asks)
    (hv : v.Updated seen v') : v'.Recalls lost failed := by
  cases hv with
  | stays => exact hr
  | finishes => constructor <;> simp
  | asks hready _ hactive hflag hcount =>
      obtain ⟨hlost, hfailed⟩ := hr.ready hready
      have hmem : .work ∈ v'.pendings := by
        rw [← List.count_pos_iff, hcount]
        exact Nat.succ_pos _
      constructor <;> simp [hactive, hmem, hlost, hfailed]
  | givesUp hready => constructor <;> simp [View.setUnlocking, (h.ready hready).1]

theorem recalls_heard {s : Status} (hs : s = .finished ∨ s = .failed) (hnone : .work ∉ v.pendings) :
    ((v.setUnlocking false).set s).Recalls lost failed := by
  constructor
  · rcases hs with rfl | rfl <;> simp
  · rcases hs with rfl | rfl <;> simp
  · intro _ hmem
    exact absurd (by simpa [View.setUnlocking] using hmem) hnone

/-- What is not heard of leaves the task as it is, with nothing outstanding. -/
theorem Recalls.over (hr : v.Recalls lost failed) (hready : v.status ≠ .ready)
    {pendings : List Pending} (hnone : .work ∉ pendings) {lost' : Prop}
    (hlost : v.status = .active → lost') :
    ({ v with pendings := pendings } : View).Recalls lost' failed where
  ready hs := absurd hs hready
  active hs := ⟨iff_of_false hnone (not_not_intro (hlost hs)), (hr.active hs).2⟩
  failed _ hmem := absurd hmem hnone

theorem Recalls.completed {p : Pending} (hr : v.Recalls lost failed) (h : v.Asks)
    (hmem : p ∈ v.pendings) (hv : v.Completed p v') (report : Report) :
    v'.Recalls (v.LosesAuthUser (.completes p report) ∨ lost) failed := by
  cases hv with
  | heard hp hs => exact recalls_heard hs (h.work_not_mem_drop hp)
  | unheard hp hactive =>
      exact hr.over (h.not_ready hmem) (h.work_not_mem_drop (hp.symm.imp_left And.left))
        fun hs => absurd hs hactive
  | other hwork hp =>
      have hquiet : ¬ v.LosesAuthUser (.completes p report) := by
        cases p <;> first | exact And.right | contradiction
      rw [or_iff_right hquiet]
      constructor
      · exact hr.ready
      · exact fun hs => ⟨(mem_drop_iff hwork hp).trans (hr.active hs).1, (hr.active hs).2⟩
      · exact fun hs hdropped => hr.failed hs (mem_of_mem_drop hdropped)

end

theorem Becomes.recalls {v v' : View} {m : Dispatching.Move} {lost failed : Prop}
    (hb : v.Becomes m v') (h : v.Asks) (htype : v.type.setsUnlocking)
    (hr : v.Recalls lost failed) :
    v'.Recalls (v.LosesAuthUser m ∨ lost) (v.FailsFromOutside v' m ∨ failed) := by
  have hquiet (hm : ¬ m.Disconnects) : (v.LosesAuthUser m ∨ lost) = lost :=
    propext (or_iff_right fun hloses => hm hloses.2)
  have hown (hm : m ≠ .others) : (v.FailsFromOutside v' m ∨ failed) = failed :=
    propext (or_iff_right fun hfails => hm hfails.2.1)
  cases hb with
  | stays =>
      have hnot : ¬ v.FailsFromOutside v .others := by
        rintro ⟨hactive, -, hfailed⟩
        rw [hactive] at hfailed
        cases hfailed
      rw [hquiet id, propext (or_iff_right hnot)]
      exact hr
  | failed =>
      rw [hquiet id]
      constructor
      · simp [write]
      · simp [write]
      · intro _ hmem
        cases hs : v.status with
        | ready => exact absurd hs (h.not_ready hmem)
        | active => exact .inl ⟨hs, rfl, rfl⟩
        | finished => exact absurd hmem (h.finished hs).1
        | failed => exact .inr (hr.failed hs hmem)
  | updates seen =>
      rw [hquiet id, hown (by simp)]
      exact hr.updated h (updated htype seen)
  | completes p report hmem =>
      rw [hown (by simp)]
      exact hr.completed h hmem (completed htype p report) report
  | loses hlost =>
      rw [htype.authUser, Option.any_some] at hlost
      have hmem : .work ∈ v.pendings := of_decide_eq_true hlost
      rw [hown (by simp)]
      exact hr.over (h.not_ready hmem) (h.work_not_mem_lose htype) fun _ => .inl ⟨hmem, trivial⟩

/-- While `auth_user` is outstanding, the task has failed exactly if it was failed from outside. -/
theorem Recalls.failed_iff {v : View} {lost failed : Prop} (hr : v.Recalls lost failed)
    (h : v.Asks) (hmem : .work ∈ v.pendings) : v.status = .failed ↔ failed := by
  cases hs : v.status with
  | ready => exact absurd hs (h.not_ready hmem)
  | active => simp [(hr.active hs).2]
  | finished => exact absurd hmem (h.finished hs).1
  | failed => simp [hr.failed hs hmem]

/-- What leaves the flag set, told from what has happened to the task. -/
theorem Becomes.unheard_iff {v v' : View} {m : Dispatching.Move} {lost failed : Prop}
    (hb : v.Becomes m v') (h : v.Asks) (htype : v.type.setsUnlocking) (hr : v.Recalls lost failed) :
    ¬ v.Unheard v' m ↔
      (v.type = .jadeUnlock → ¬ v.AsksWithoutApi m) ∧
      (v.type = .jadeUnlock → m.Answers → ¬ failed) ∧
      (v.LosesAuthUser m → ¬ failed) ∧ (v.FailsFromOutside v' m → ¬ lost) := by
  cases hb with
  | stays =>
      have hnot : ¬ (v.status = .active ∧ v.status = .failed) := by
        rintro ⟨hactive, hfailed⟩
        rw [hactive] at hfailed
        cases hfailed
      refine iff_of_true (fun hunheard => hnot ⟨hunheard.1, hunheard.2.1⟩) ⟨?_, ?_, ?_, ?_⟩
      · exact fun _ => id
      · exact fun _ => False.elim
      · exact fun hloses => hloses.2.elim
      · exact fun hfails => absurd ⟨hfails.1, hfails.2.2⟩ hnot
  | failed =>
      have hasks : ¬ v.AsksWithoutApi .others := id
      have hanswers : ¬ Dispatching.Move.others.Answers := id
      have hloses : ¬ v.LosesAuthUser .others := And.right
      simp only [hasks, hanswers, hloses, not_false_eq_true, false_imp_iff, imp_true_iff, true_and]
      simp only [Unheard, FailsFromOutside, write, true_and, and_true, not_and, not_not]
      exact imp_congr_right fun hactive => (hr.active hactive).1
  | updates seen =>
      have hanswers : ¬ (Dispatching.Move.updates seen).Answers := id
      have hloses : ¬ v.LosesAuthUser (.updates seen) := And.right
      have hfails : ¬ v.FailsFromOutside (v.update seen) (.updates seen) := fun hfails => by
        cases hfails.2.1
      simp [Unheard, hanswers, hloses, hfails]
  | completes p report hmem =>
      have hasks : ¬ v.AsksWithoutApi (.completes p report) := id
      have hfails : ∀ w, ¬ v.FailsFromOutside w (.completes p report) := fun w hfails => by
        cases hfails.2.1
      cases p with
      | work =>
          have hloses : ¬ v.LosesAuthUser (.completes .work report) := And.right
          simp [Unheard, hasks, hfails, hloses, Dispatching.Move.Answers, hr.failed_iff h hmem]
      | disconnected =>
          by_cases hwork : .work ∈ v.pendings
          · simp [Unheard, hasks, hfails, LosesAuthUser, hwork, Dispatching.Move.Answers,
              Dispatching.Move.Disconnects, hr.failed_iff h hwork]
          · simp [Unheard, hasks, hfails, LosesAuthUser, hwork, Dispatching.Move.Answers]
      | _ =>
          simp [Unheard, hasks, hfails, LosesAuthUser, Dispatching.Move.Answers,
            Dispatching.Move.Disconnects]
  | loses hlost =>
      rw [htype.authUser, Option.any_some] at hlost
      have hmem : .work ∈ v.pendings := of_decide_eq_true hlost
      have hasks : ¬ v.AsksWithoutApi .loses := id
      have hfails : ¬ v.FailsFromOutside v.lose .loses := fun hfails => by
        cases hfails.2.1
      simp [Unheard, hasks, hfails, LosesAuthUser, hmem, Dispatching.Move.Answers,
        Dispatching.Move.Disconnects, hr.failed_iff h hmem]

end View

variable {ι : Type} [Fintype ι] [DecidableEq ι]

namespace Dispatching

/-- Whatever sets the flag has cleared it once it is over and nothing is outstanding. -/
def Cleared (types : ι → TaskType) (s : Dispatching ι) : Prop :=
  ∀ t, (types t).setsUnlocking → (s.world.status t).isTerminal = true →
    ⟨t, .work⟩ ∉ s.world.calls → s.world.unlocking t = false

/-- The step is an `update` that comes to `authUser` of a device that has no api. -/
def AsksWithoutApi (t : ι) (s : Dispatching ι) (e : Step ι) : Prop :=
  (s.world.view t).AsksWithoutApi (s.move t e)

/-- The step completes the `auth_user` of the task. -/
def AnswersAuthUser (t : ι) (s : Dispatching ι) (e : Step ι) : Prop := (s.move t e).Answers

/-- With the step the `auth_user` of the task, which is outstanding, will not be answered: the
task is told that the device is disconnected, or is not told. -/
def LosesAuthUser (t : ι) (s : Dispatching ι) (e : Step ι) : Prop :=
  (s.world.view t).LosesAuthUser (s.move t e)

/-- The step fails the `Active` task, and is none of its own: a sweep, or a failure that
reaches it. -/
def FailsFromOutside (t : ι) (s : Dispatching ι) (e : Step ι) : Prop :=
  (s.world.view t).FailsFromOutside ((s.next e).world.view t) (s.move t e)

/-- What is known of every task that sets the flag. -/
structure Asking (types : ι → TaskType) (s : Dispatching ι) (t : ι) : Prop where
  type : (s.world.view t).type = types t
  ofLogin : (s.world.view t).OfLogin
  asks : (s.world.view t).Asks

omit [Fintype ι] in
theorem Asking.fresh (types : ι → TaskType) {t : ι} (ht : (types t).setsUnlocking) :
    (fresh types).Asking types t where
  type := rfl
  ofLogin := .fresh ht.isOfLogin
  asks := .fresh (types t)

omit [Fintype ι] in
theorem Asking.setsUnlocking {types : ι → TaskType} {s : Dispatching ι} {t : ι}
    (h : s.Asking types t) (ht : (types t).setsUnlocking) :
    (s.world.view t).type.setsUnlocking := by
  rwa [h.type]

theorem Asking.next {types : ι → TaskType} {s : Dispatching ι} {t : ι} (h : s.Asking types t)
    (ht : (types t).setsUnlocking) {e : Step ι} (he : s.enabled e) :
    (s.next e).Asking types t := by
  have hb := s.step_becomes he h.ofLogin
  exact
    { type := hb.type.trans h.type
      ofLogin := hb.ofLogin h.ofLogin
      asks := hb.asks h.asks (h.setsUnlocking ht) }

omit [Fintype ι] in
theorem cleared_iff {types : ι → TaskType} {s : Dispatching ι} :
    s.Cleared types ↔ ∀ t, (types t).setsUnlocking → (s.world.view t).Cleared := by
  simp only [Cleared, View.Cleared, World.mem_pendings]
  rfl

/-- No task that sets the flag is left with it by the step. -/
def Hears (types : ι → TaskType) (s : Dispatching ι) (e : Step ι) : Prop :=
  ∀ t, (types t).setsUnlocking →
    ¬ (s.world.view t).Unheard ((s.next e).world.view t) (s.move t e)

theorem cleared_next_iff {types : ι → TaskType} {s : Dispatching ι}
    (hs : ∀ t, (types t).setsUnlocking → s.Asking types t) {e : Step ι} (he : s.enabled e)
    (hcleared : s.Cleared types) : (s.next e).Cleared types ↔ s.Hears types e := by
  rw [cleared_iff] at hcleared ⊢
  refine forall_congr' fun t => forall_congr' fun ht => ?_
  have h := hs t ht
  exact (s.step_becomes he h.ofLogin).cleared_iff h.asks (h.setsUnlocking ht) (hcleared t ht)

/-- What is known of a task that sets the flag from what has happened to it. -/
structure Recalled (types : ι → TaskType) (t : ι) (es : List (Step ι)) (s : Dispatching ι) :
    Prop where
  asking : s.Asking types t
  recalls : (s.world.view t).Recalls (reactive.Happens (LosesAuthUser t) (.fresh types) es)
    (reactive.Happens (FailsFromOutside t) (.fresh types) es)

theorem recalled_run {types : ι → TaskType} {t : ι} (ht : (types t).setsUnlocking)
    {es : List (Step ι)} (hes : reactive.Valid (.fresh types) es) :
    Recalled types t es (reactive.run (.fresh types) es) := by
  apply Reactive.run_history (I := Recalled types t)
  · refine ⟨.fresh types ht, ⟨fun _ => ⟨?_, ?_⟩, ?_, ?_⟩⟩
    · exact Reactive.not_happens_nil
    · exact Reactive.not_happens_nil
    · intro hactive
      cases hactive
    · intro hfailed
      cases hfailed
  · rintro fs e gs rfl ⟨hasking, hrecalls⟩
    have he : (reactive.run (.fresh types) fs).enabled e := Reactive.Along.at fs hes
    have hb := step_becomes _ he hasking.ofLogin
    refine ⟨hasking.next ht he, ?_⟩
    rw [Reactive.happens_concat, Reactive.happens_concat]
    exact hb.recalls hasking.asks (hasking.setsUnlocking ht) hrecalls

/-- No setup dereferences the null pointer of a missing api, and the flag is always cleared. -/
structure ClearsUnlocking (types : ι → TaskType) (es : List (Step ι)) : Prop where
  survives : reactive.Along
    (fun s e => ∀ t, types t = .jadeSetup → ¬ s.AsksWithoutApi t e) (.fresh types) es
  cleared : reactive.Always (Cleared types) (.fresh types) es

/-- What the next step of a run does to no task that sets the flag. -/
structure HearsOf (types : ι → TaskType) (fs : List (Step ι)) (e : Step ι) : Prop where
  api : ∀ t, (types t).setsUnlocking → ¬ AsksWithoutApi t (reactive.run (.fresh types) fs) e
  /-- No unlock is answered after it was failed from outside. -/
  answers : ∀ t, types t = .jadeUnlock →
    AnswersAuthUser t (reactive.run (.fresh types) fs) e →
      ¬ reactive.Happens (FailsFromOutside t) (.fresh types) fs
  /-- Nothing is both failed from outside and left without an answer, in either order. -/
  lost : ∀ t, (types t).setsUnlocking →
    LosesAuthUser t (reactive.run (.fresh types) fs) e →
      ¬ reactive.Happens (FailsFromOutside t) (.fresh types) fs
  failed : ∀ t, (types t).setsUnlocking →
    FailsFromOutside t (reactive.run (.fresh types) fs) e →
      ¬ reactive.Happens (LosesAuthUser t) (.fresh types) fs

theorem hearsOf_iff {types : ι → TaskType} {fs : List (Step ι)} {e : Step ι}
    (hes : reactive.Valid (.fresh types) (fs ++ [e])) :
    HearsOf types fs e ↔
      (∀ t, types t = .jadeSetup → ¬ AsksWithoutApi t (reactive.run (.fresh types) fs) e) ∧
        (reactive.run (.fresh types) fs).Hears types e := by
  obtain ⟨hfs, he, -⟩ := (reactive.along_append _ _ fs [e]).mp hes
  have hheard := fun t (ht : (types t).setsUnlocking) =>
    have h := recalled_run ht hfs
    (step_becomes _ he h.asking.ofLogin).unheard_iff h.asking.asks (h.asking.setsUnlocking ht)
      h.recalls
  have htype : ∀ t, (types t).setsUnlocking →
      ((reactive.run (.fresh types) fs).world.view t).type = types t := fun t ht =>
    (recalled_run ht hfs).asking.type
  constructor
  · intro h
    refine ⟨fun t ht => h.api t (.inl ht), fun t ht => (hheard t ht).mpr ?_⟩
    rw [htype t ht]
    exact ⟨fun _ => h.api t ht, fun hunlock => h.answers t hunlock, h.lost t ht, h.failed t ht⟩
  · intro ⟨hsetup, hhears⟩
    have hparts := fun t ht => (hheard t ht).mp (hhears t ht)
    constructor
    · rintro t (ht | ht)
      · exact hsetup t ht
      · exact (hparts t (.inr ht)).1 ((htype t (.inr ht)).trans ht)
    · intro t ht
      exact (hparts t (.inr ht)).2.1 ((htype t (.inr ht)).trans ht)
    · exact fun t ht => (hparts t ht).2.2.1
    · exact fun t ht => (hparts t ht).2.2.2

/-- In every run the flag is cleared as long as the dispatchers live, exactly if no task comes
to `authUser` of a device without an api, no unlock is answered after it was failed from outside
while it was `Active`, and nothing that is so failed loses its answer, before or after. -/
theorem clearsUnlocking_iff (types : ι → TaskType) {es : List (Step ι)}
    (hes : reactive.Valid (.fresh types) es) :
    ClearsUnlocking types es ↔ ∀ fs e gs, es = fs ++ e :: gs → HearsOf types fs e := by
  have hfresh : (fresh types).Cleared types := fun _ _ _ _ => rfl
  have hasking : ∀ t, (types t).setsUnlocking → (fresh types).Asking types t :=
    fun t ht => .fresh types ht
  have halways := Reactive.always_iff_along (R := reactive)
    (J := fun s => ∀ t, (types t).setsUnlocking → s.Asking types t)
    (fun s e hs he t ht => (hs t ht).next ht he) (fun s e hs he => cleared_next_iff hs he)
    hasking hfresh hes
  have hvalid : ∀ fs e gs, es = fs ++ e :: gs → reactive.Valid (.fresh types) (fs ++ [e]) := by
    rintro fs e gs rfl
    rw [← List.singleton_append, ← List.append_assoc] at hes
    exact ((reactive.along_append _ _ (fs ++ [e]) gs).mp hes).1
  constructor
  · intro ⟨hsurvives, hcleared⟩ fs e gs hsplit
    rw [hearsOf_iff (hvalid fs e gs hsplit)]
    rw [halways] at hcleared
    rw [hsplit] at hsurvives hcleared
    exact ⟨hsurvives.at fs, hcleared.at fs⟩
  · intro hhears
    have hsteps := fun fs e gs hsplit =>
      (hearsOf_iff (hvalid fs e gs hsplit)).mp (hhears fs e gs hsplit)
    exact ⟨Reactive.along_of_at fun fs e gs hsplit => (hsteps fs e gs hsplit).1,
      halways.mpr (Reactive.along_of_at fun fs e gs hsplit => (hsteps fs e gs hsplit).2)⟩

/-- The unlock asks for `auth_user` and is answered. -/
def unlockAnswered : List (Step (Fin 2)) :=
  added [first] ++ passOf 3 ++ [completes ⟨first, .work⟩ {}]

theorem clearsUnlocking_iff_unlockAnswered :
    ClearsUnlocking (pair .jadeUnlock .createAccount) unlockAnswered ↔
      ∀ fs e gs, unlockAnswered = fs ++ e :: gs →
        HearsOf (pair .jadeUnlock .createAccount) fs e :=
  clearsUnlocking_iff (pair .jadeUnlock .createAccount) (by decide)

/-- The device has lost its api when the unlock gets to it. -/
def unlockWithoutApi : List (Step (Fin 2)) :=
  added [first] ++ [.pass first, .work {}, .work { api := false }]

/-- The other task of the group fails, and the group fails the unlock. -/
def unlockFailed : List (Step (Fin 2)) :=
  added [first, second] ++ passOf 4 ++ [completes ⟨second, .call⟩ { ok := false }] ++ passOf 2

/-- Then the user's pin is accepted. -/
def unlockAnsweredLate : List (Step (Fin 2)) := unlockFailed ++ [completes ⟨first, .work⟩ {}]

/-- Or the device is disconnected. -/
def unlockDisconnectedLate : List (Step (Fin 2)) :=
  unlockFailed ++ [completes ⟨first, .disconnected⟩ {}]

/-- The device is disconnected while it is set up, and then the other task of the group fails. -/
def setupDisconnected : List (Step (Fin 2)) :=
  added [first, second] ++ [.pass first, .work {}, .work { deviceState := .unsaved },
    .work { ready := true }, .work {}, client (.lost first),
    completes ⟨second, .call⟩ { ok := false }] ++ passOf 2

theorem not_clearsUnlocking :
    (reactive.Valid (.fresh (pair .jadeUnlock .createAccount)) unlockWithoutApi ∧
      ¬ ClearsUnlocking (pair .jadeUnlock .createAccount) unlockWithoutApi) ∧
    (reactive.Valid (.fresh (pair .jadeUnlock .createAccount)) unlockAnsweredLate ∧
      ¬ ClearsUnlocking (pair .jadeUnlock .createAccount) unlockAnsweredLate) ∧
    (reactive.Valid (.fresh (pair .jadeUnlock .createAccount)) unlockDisconnectedLate ∧
      ¬ ClearsUnlocking (pair .jadeUnlock .createAccount) unlockDisconnectedLate) ∧
    reactive.Valid (.fresh (pair .jadeSetup .createAccount)) setupDisconnected ∧
      ¬ ClearsUnlocking (pair .jadeSetup .createAccount) setupDisconnected := by
  refine ⟨⟨by decide, fun h => ?_⟩, ⟨by decide, fun h => ?_⟩, ⟨by decide, fun h => ?_⟩, by decide,
    fun h => ?_⟩
  · exact absurd (h.cleared.last first (.inr rfl)) (by decide)
  · exact absurd (h.cleared.last first (.inr rfl)) (by decide)
  · exact absurd (h.cleared.last first (.inr rfl)) (by decide)
  · exact absurd (h.cleared.last first (.inl rfl)) (by decide)

end Dispatching
end GreenWallet.Tasks
