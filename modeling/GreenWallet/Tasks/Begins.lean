import GreenWallet.Tasks.Deadlock
import GreenWallet.Tasks.View

/-!
# How a task begins

The edges that are drawn stay, so a task goes on waiting for each of its inputs. A task that no
dispatcher has updated has nothing under way, and finishes by nothing that happens to the others.
What has finished has said so.
-/
namespace GreenWallet.Tasks
open GreenWallet.Library

variable {ι : Type}

namespace World

/-- A task says that it has finished when it does. -/
def Told (w : World ι) : Prop := ∀ t, w.status t = .finished → .finished t ∈ w.log

variable [DecidableEq ι]

/-- The task has been constructed, and perhaps failed; it has done nothing else. -/
structure Unbegun (w : World ι) (t : ι) : Prop where
  status : (w.view t).status = .ready ∨ (w.view t).status = .failed
  prompt : (w.view t).prompt = none
  pendings : (w.view t).pendings = []
  finished : (w.view t).finished = 0
  authHandler : (w.tasks t).authHandler = false

variable [Fintype ι]

/-! ### Inputs -/

@[simp] theorem inputs_setStatus (w : World ι) (u : ι) (s : Status) (t : ι) :
    ((w.setStatus u s).tasks t).inputs = (w.tasks t).inputs := (tasks_setStatus w u s t).1

omit [Fintype ι] in
theorem inputs_setTask (w : World ι) (u : ι) {f : Task ι → Task ι}
    (h : ∀ task, (f task).inputs = task.inputs) (t : ι) :
    ((w.setTask u f).tasks t).inputs = (w.tasks t).inputs := by
  by_cases htu : t = u
  · subst htu
    simp [setTask, h]
  · simp [setTask, htu]

omit [Fintype ι] in
@[simp] theorem inputs_setError (w : World ι) (u : ι) (error : String) (t : ι) :
    ((w.setError u error).tasks t).inputs = (w.tasks t).inputs := by
  apply inputs_setTask
  exact fun _ => rfl

omit [Fintype ι] in
@[simp] theorem inputs_setPrompt (w : World ι) (u : ι) (prompt : Prompt) (t : ι) :
    ((w.setPrompt u prompt).tasks t).inputs = (w.tasks t).inputs := by
  apply inputs_setTask
  exact fun _ => rfl

omit [Fintype ι] in
@[simp] theorem inputs_setResolver (w : World ι) (u : ι) (resolver : Bool) (t : ι) :
    ((w.setResolver u resolver).tasks t).inputs = (w.tasks t).inputs := by
  apply inputs_setTask
  exact fun _ => rfl

omit [Fintype ι] in
@[simp] theorem inputs_setAuthHandler (w : World ι) (u t : ι) :
    ((w.setAuthHandler u).tasks t).inputs = (w.tasks t).inputs := by
  apply inputs_setTask
  exact fun _ => rfl

omit [Fintype ι] [DecidableEq ι] in
@[simp] theorem inputs_start (w : World ι) (u : ι) (p : Pending) (t : ι) :
    ((w.start u p).tasks t).inputs = (w.tasks t).inputs := rfl

omit [Fintype ι] [DecidableEq ι] in
@[simp] theorem inputs_emit (w : World ι) (signals : List (Signal ι)) (t : ι) :
    ((w.emit signals).tasks t).inputs = (w.tasks t).inputs := rfl

/-- Whatever class the task is of, its `update` writes statuses, starts calls and emits. -/
theorem inputs_update (w : World ι) (seen : Surroundings) (u t : ι) :
    ((w.update seen u).tasks t).inputs = (w.tasks t).inputs := by
  unfold update
  split <;> simp only [AuthHandlerTask.update, LoginTask.update, SendTransactionTask.update,
    ConnectTask.update, LoadTwoFactorConfigTask.update, GetWatchOnlyDetailsTask.update,
    LoadCurrenciesTask.update, SendNLocktimesTask.update, GetSystemMessageTask.update,
    HttpRequestTask.update, LoadAssetsTask.update, SyncAccountsTask.update,
    LoadPaymentsTask.update, JadeSetupTask.update, JadeUnlockTask.update, JadeIdentifyTask.update,
    LwkCreateSessionTask.update, SignupCreateWalletTask.update, SignupPersistWalletTask.update,
    WatchOnlyCreateWalletTask.update, whenReady, launch, finishAtOnce]
  all_goals repeat' split
  all_goals simp

@[simp] theorem inputs_startResolver (w : World ι) (u : ι) (resolution : Resolution) (t : ι) :
    ((AuthHandlerTask.startResolver u w resolution).tasks t).inputs = (w.tasks t).inputs := by
  cases resolution <;>
    simp [AuthHandlerTask.startResolver, AuthHandlerTask.resolverResolved,
      AuthHandlerTask.resolveCode, AuthHandlerTask.resolverFailed]

@[simp] theorem inputs_next (w : World ι) (u : ι) (report : Report) (t : ι) :
    ((AuthHandlerTask.next u w report).tasks t).inputs = (w.tasks t).inputs := by
  unfold AuthHandlerTask.next
  split_ifs
  · cases report.status with
    | none => exact inputs_setStatus w u .failed t
    | some status =>
        cases status with
        | done => exact inputs_setStatus w u .finished t
        | error error => simp [AuthHandlerTask.handleError]
        | requestCode methods =>
            simp only [AuthHandlerTask.handleRequestCode]
            split
            · exact inputs_start w u _ t
            · exact inputs_setPrompt w u _ t
        | resolveCode method => exact inputs_setPrompt w u _ t
        | requiredData =>
            simp only [AuthHandlerTask.handleRequiredData]
            split_ifs
            · exact inputs_startResolver w u report.resolution t
            · exact inputs_setPrompt w u _ t
        | call => exact inputs_start w u _ t
  · exact inputs_setStatus w u .finished t

theorem inputs_complete (w : World ι) (c : Call ι) (report : Report) (t : ι) :
    ((w.complete c report).tasks t).inputs = (w.tasks t).inputs := by
  unfold complete
  split <;> simp only [AuthHandlerTask.called, AuthHandlerTask.stepped, AuthHandlerTask.resolved,
    AuthHandlerTask.resolverResolved, AuthHandlerTask.resolveCode, AuthHandlerTask.resolverFailed,
    ConnectTask.connected, ConnectTask.timedOut, JadeUnlockTask.disconnected,
    JadeUnlockTask.answered, JadeSetupTask.answered, SendNLocktimesTask.sent,
    LoadPaymentsTask.fetched, worked]
  all_goals repeat' split
  all_goals simp

theorem inputs_sweep (w : World ι) (ts : List ι) (t : ι) :
    ((w.sweep ts).tasks t).inputs = (w.tasks t).inputs := by
  induction ts generalizing w with
  | nil => rfl
  | cons u ts ih => exact (ih (w.setStatus u .failed)).trans (inputs_setStatus w u .failed t)

omit [Fintype ι] [DecidableEq ι] in
theorem tasks_setGroupStatus (w : World ι) (g : GroupId) (s : Status) :
    (w.setGroupStatus g s).tasks = w.tasks := by
  unfold setGroupStatus
  split_ifs <;> rfl

omit [Fintype ι] [DecidableEq ι] in
theorem tasks_updateBusy (w : World ι) (d : DispatcherId) : (w.updateBusy d).tasks = w.tasks := by
  unfold updateBusy setBusy
  split_ifs <;> rfl

theorem inputs_enterGroup (w : World ι) (g : GroupId) (t : ι) :
    ((w.enterGroup g).1.tasks t).inputs = (w.tasks t).inputs := by
  simp only [enterGroup]
  split_ifs
  · rfl
  · rw [tasks_setGroupStatus]
  · rw [tasks_setGroupStatus, inputs_sweep]
  · rw [tasks_showActive]

omit [Fintype ι] in
@[simp] theorem inputs_insertOutput (w : World ι) (u v t : ι) :
    ((w.insertOutput u v).tasks t).inputs = (w.tasks t).inputs := by
  apply inputs_setTask
  exact fun _ => rfl

omit [Fintype ι] in
theorem inputs_insertInput (w : World ι) (u v t : ι) :
    ((w.insertInput u v).tasks t).inputs =
      if t = u then (w.tasks t).inputs.insert v else (w.tasks t).inputs := by
  by_cases htu : t = u
  · subst htu
    simp [insertInput, setTask]
  · simp [insertInput, setTask, htu]

omit [Fintype ι] in
theorem subset_insertInput (w : World ι) (u v t : ι) :
    (w.tasks t).inputs ⊆ ((w.insertInput u v).tasks t).inputs := by
  rw [inputs_insertInput]
  split_ifs
  · exact fun x hx => List.mem_insert_of_mem hx
  · exact List.Subset.refl _

theorem inputs_client (w : World ι) (e : ClientEvent ι) (t : ι) :
    (w.tasks t).inputs ⊆ ((w.next e.1).tasks t).inputs := by
  obtain ⟨e, hclient⟩ := e
  cases e with
  | pass => cases hclient
  | completes c report =>
      rw [next, inputs_complete]
      exact List.Subset.refl _
  | selectDevice u resolution =>
      rw [next, inputs_startResolver]
      exact List.Subset.refl _
  | needs u v =>
      rw [next, needs, inputs_insertOutput]
      exact subset_insertInput w u v t
  | then_ u v =>
      rw [next, then_, ← inputs_insertOutput w u v t]
      exact subset_insertInput _ v u t
  | groupAdd g u =>
      simp only [next, groupAdd]
      split_ifs
      · exact List.Subset.refl _
      · exact List.Subset.refl _
  | dispatcherAdd d g =>
      simp only [next, dispatcherAdd]
      split_ifs
      · exact List.Subset.refl _
      · exact List.Subset.refl _
  | lost | requestCode | resolveCode | groupRemove | dispatcherRemove => exact List.Subset.refl _

omit [Fintype ι] in
theorem tasks_groupAdd (w : World ι) (g : GroupId) (t : ι) : (w.groupAdd g t).tasks = w.tasks := by
  unfold groupAdd
  split_ifs <;> rfl

omit [Fintype ι] [DecidableEq ι] in
theorem tasks_dispatcherAdd (w : World ι) (d : DispatcherId) (g : GroupId) :
    (w.dispatcherAdd d g).tasks = w.tasks := by
  unfold dispatcherAdd
  split_ifs <;> rfl

omit [Fintype ι] in
theorem mem_inputs_then (w : World ι) (t u : ι) : t ∈ ((w.then_ t u).tasks u).inputs := by
  rw [then_, inputs_insertInput, if_pos rfl]
  exact List.mem_insert_self

/-! ### What has finished has said so -/

omit [Fintype ι] in
theorem Told.write {w : World ι} (h : w.Told) (t : ι) (s : Status) : (w.write t s).Told := by
  intro u hu
  rw [status_write] at hu
  rw [log_write]
  split_ifs at hu with hut
  · subst hut hu
    exact List.mem_append_right _ (by simp [outcomeSignal])
  · exact List.mem_append_left _ (h u hu)

omit [Fintype ι] in
theorem mem_outcomes {w : World ι} {t : ι} : .finished t ∈ w.outcomes t ↔ .finished t ∈ w.log := by
  simp [outcomes, Signal.isOutcomeOf]

omit [Fintype ι] in
theorem Told.alike {w w' : World ι} (h : w.Told) (hw : w.Alike w') : w'.Told := by
  intro t ht
  rw [hw.status] at ht
  rw [← mem_outcomes, hw.outcomes, mem_outcomes]
  exact h t ht

theorem Told.setStatus {w : World ι} (h : w.Told) (t : ι) (s : Status) : (w.setStatus t s).Told :=
  setStatus_invariant (fun _ t s hw => hw.write t s) h t s

theorem UpdateShape.told {w w' : World ι} {t : ι} {fails : Bool} (h : UpdateShape w t fails w')
    (hw : w.Told) : w'.Told := by
  cases h with
  | waits h => exact hw.alike h
  | goesOn h => exact (hw.setStatus t .active).alike h
  | finishes => exact hw.setStatus t .finished
  | finishesAtOnce => exact (hw.setStatus t .active).setStatus t .finished
  | fails h => exact ((hw.setStatus t .active).alike h).setStatus t .failed

theorem Concludes.told {w w' : World ι} {t : ι} {verdict : Option Status}
    (h : w.Concludes t verdict w') (hw : w.Told) : w'.Told := by
  obtain ⟨w₁, hbefore, hafter⟩ := h
  cases verdict with
  | none => exact (hw.alike hbefore).alike hafter
  | some s => exact ((hw.alike hbefore).setStatus t s).alike hafter

theorem Told.visit {w : World ι} (h : w.Told) (seen : ι → Surroundings) (t : ι) :
    (visit seen w t).Told := by
  unfold World.visit
  split_ifs
  · exact (update_shape _ (seen t) t).told (h.alike (alike_emit_update w t))
  · exact h

theorem Told.sweep {w : World ι} (h : w.Told) (ts : List ι) : (w.sweep ts).Told := by
  induction ts generalizing w with
  | nil => exact h
  | cons t ts ih => exact ih (h.setStatus t .failed)

theorem Told.enterGroup {w : World ι} (h : w.Told) (g : GroupId) : (w.enterGroup g).1.Told := by
  simp only [World.enterGroup]
  split_ifs
  · exact h
  · exact h.alike (alike_setGroupStatus w g .finished)
  · exact (h.sweep _).alike (alike_setGroupStatus _ g .failed)
  · exact h.alike (alike_showActive w g)

theorem Told.client {w : World ι} (h : w.Told) (e : ClientEvent ι) : (w.next e.1).Told := by
  obtain ⟨e, hclient⟩ := e
  by_cases hquiet : e.isQuiet = true
  · obtain ⟨hlog, hstatus⟩ := w.next_quiet hquiet
    intro t ht
    rw [hstatus] at ht
    rw [hlog]
    exact h t ht
  · cases e with
    | pass => cases hclient
    | completes c report => exact (complete_concludes (w.drop c) c report).told (h.alike (alike_drop w c))
    | selectDevice t resolution => exact (concludes_startResolver w t resolution).told h
    | _ => exact absurd rfl hquiet

/-! ### What has not begun -/

omit [Fintype ι] in
theorem Unbegun.orFailed {w w' : World ι} {t : ι} (h : w.Unbegun t)
    (hview : View.OrFailed (w.view t) (w'.view t))
    (hauth : (w'.tasks t).authHandler = (w.tasks t).authHandler) : w'.Unbegun t := by
  have hauthHandler := hauth.trans h.authHandler
  cases hview with
  | inl hsame =>
      constructor
      · rw [hsame]
        exact h.status
      · rw [hsame]
        exact h.prompt
      · rw [hsame]
        exact h.pendings
      · rw [hsame]
        exact h.finished
      · exact hauthHandler
  | inr hfailed =>
      constructor
      · rw [hfailed]
        exact .inr rfl
      · rw [hfailed]
        exact h.prompt
      · rw [hfailed]
        exact h.pendings
      · rw [hfailed]
        exact h.finished
      · exact hauthHandler

/-- Whatever the others do, the task does not begin. -/
theorem keptBy_unbegun {t u : ι} (hu : u ≠ t) : KeptBy u fun w => w.Unbegun t where
  setStatus w s h := h.orFailed (view_setStatus_of_ne w hu s) (tasks_setStatus w u s t).2.1
  start w p h := h.orFailed (.inl (view_start_of_ne w hu p)) rfl
  setUnlocking w unlocking h := h.orFailed (.inl (view_setUnlocking_of_ne w hu unlocking)) rfl
  setTask w f _ h := by
    apply h.orFailed (.inl (view_setTask_of_ne w hu f))
    simp [setTask, Ne.symm hu]

theorem Unbegun.sweep {w : World ι} {t : ι} (h : w.Unbegun t) (ts : List ι) :
    (w.sweep ts).Unbegun t := by
  induction ts generalizing w with
  | nil => exact h
  | cons u ts ih =>
      exact ih (h.orFailed (view_setStatus_orFailed w u t) (tasks_setStatus w u .failed t).2.1)

theorem Unbegun.enterGroup {w : World ι} {t : ι} (h : w.Unbegun t) (g : GroupId) :
    (w.enterGroup g).1.Unbegun t := by
  have hset : ∀ (v : World ι) (s : Status), v.Unbegun t → (v.setGroupStatus g s).Unbegun t := by
    intro v s hv
    apply hv.orFailed (.inl (view_setGroupStatus v g s t))
    rw [tasks_setGroupStatus]
  simp only [World.enterGroup]
  split_ifs
  · exact h
  · exact hset w .finished h
  · exact hset _ .failed (h.sweep _)
  · unfold World.showActive
    split_ifs
    · exact hset w .active h
    · exact h

omit [Fintype ι] in
theorem authHandler_setTask (w : World ι) (u : ι) {f : Task ι → Task ι}
    (h : ∀ task, (f task).authHandler = task.authHandler) (t : ι) :
    ((w.setTask u f).tasks t).authHandler = (w.tasks t).authHandler := by
  by_cases htu : t = u
  · subst htu
    simp [setTask, h]
  · simp [setTask, htu]

omit [Fintype ι] in
theorem Unbegun.insertInput {w : World ι} {t : ι} (h : w.Unbegun t) (u v : ι) :
    (w.insertInput u v).Unbegun t := by
  apply h.orFailed (.inl (view_insertInput w u v t))
  apply authHandler_setTask
  exact fun _ => rfl

omit [Fintype ι] in
theorem Unbegun.insertOutput {w : World ι} {t : ι} (h : w.Unbegun t) (u v : ι) :
    (w.insertOutput u v).Unbegun t := by
  apply h.orFailed (.inl (view_insertOutput w u v t))
  apply authHandler_setTask
  exact fun _ => rfl

theorem Unbegun.client {w : World ι} {t : ι} (h : w.Unbegun t) {e : ClientEvent ι}
    (he : w.enabled e.1) : (w.next e.1).Unbegun t := by
  obtain ⟨e, hclient⟩ := e
  have hasked : ∀ u, (w.tasks u).authHandler = true → u ≠ t := by
    rintro u hu rfl
    rw [h.authHandler] at hu
    cases hu
  cases e with
  | pass => cases hclient
  | completes c report =>
      have hc : c.task ≠ t := by
        rintro rfl
        have hmem : c.pending ∈ (w.view c.task).pendings := mem_pendings.mpr he
        rw [h.pendings] at hmem
        cases hmem
      have hdrop : (w.drop c).Unbegun t := h.orFailed (.inl (view_drop_of_ne w hc)) rfl
      exact (keptBy_unbegun hc).complete hdrop c.pending report
  | lost u =>
      have hu : u ≠ t := by
        rintro rfl
        obtain ⟨p, -, hmem⟩ := (Option.any_eq_true _ _).mp he
        have hpending : p ∈ (w.view u).pendings := mem_pendings.mpr (of_decide_eq_true hmem)
        rw [h.pendings] at hpending
        cases hpending
      exact h.orFailed (.inl (view_lose_of_ne w hu)) rfl
  | requestCode u method => exact (keptBy_unbegun (hasked u he.2)).start w _ h
  | resolveCode u code => exact (keptBy_unbegun (hasked u he.2)).start w _ h
  | selectDevice u resolution =>
      have hu : u ≠ t := by
        rintro rfl
        have hprompt : (w.tasks u).prompt = some .device := he
        have hnone : (w.tasks u).prompt = none := h.prompt
        rw [hnone] at hprompt
        cases hprompt
      exact (keptBy_unbegun hu).startResolver h resolution
  | needs u v => exact (h.insertInput u v).insertOutput v u
  | then_ u v => exact (h.insertOutput u v).insertInput v u
  | groupAdd g u =>
      simp only [World.next, groupAdd]
      split_ifs
      · exact h
      · exact h.orFailed (.inl rfl) rfl
  | dispatcherAdd d g =>
      simp only [World.next, dispatcherAdd]
      split_ifs
      · exact h
      · exact h.orFailed (.inl rfl) rfl
  | groupRemove | dispatcherRemove => exact h.orFailed (.inl rfl) rfl

/-! ### Sending -/

theorem calls_launch (w : World ι) (t : ι) (p : Pending) :
    (launch t w p).calls = w.calls ++ [⟨t, p⟩] := by
  rw [launch, World.start, calls_setStatus]

theorem update_sendTransaction {w : World ι} {t : ι} (htype : (w.tasks t).type = .sendTransaction)
    {seen : Surroundings} (hmock : seen.mockSend = false) :
    w.update seen t =
      if w.status t = .ready ∧ (seen.details && seen.connected) = true then launch t w .call
      else w := by
  simp [World.update, htype, SendTransactionTask.update, hmock, AuthHandlerTask.update, whenReady,
    TaskType.active]

end World

namespace Dispatching
variable [Fintype ι] [DecidableEq ι]

/-- The task whose `call` the step starts. -/
def calling (s : Dispatching ι) : Step ι → Option ι
  | .work seen =>
      s.updating.filter fun t =>
        s.world.calls.count ⟨t, .call⟩ < (s.next (.work seen)).world.calls.count ⟨t, .call⟩
  | _ => none

omit [Fintype ι] [DecidableEq ι] in
theorem isDue_of_updating {s : Dispatching ι} {t : ι} (h : s.updating = some t) :
    s.world.isDue t = true := by
  unfold updating at h
  split at h
  · rw [Option.ite_none_right_eq_some, Option.some_inj] at h
    obtain ⟨hdue, rfl⟩ := h
    exact hdue
  · cases h

/-- The step is the `update` of the task. -/
theorem world_next_updating {s : Dispatching ι} {t : ι} (h : s.updating = some t)
    (seen : Surroundings) :
    (s.next (.work seen)).world = (s.world.emit [.update t]).update seen t := by
  have hdue := isDue_of_updating h
  unfold updating at h
  split at h
  · rename_i d groups v visits hpass
    rw [Option.ite_none_right_eq_some, Option.some_inj] at h
    obtain ⟨-, rfl⟩ := h
    simp [next, work, hpass, World.visit, hdue]
  · cases h

theorem updating_of_calling {s : Dispatching ι} {e : Step ι} {t : ι} (h : s.calling e = some t) :
    ∃ seen, e = .work seen ∧ s.updating = some t := by
  cases e with
  | work seen =>
      simp only [calling, Option.filter_eq_some_iff] at h
      exact ⟨seen, rfl, h.1⟩
  | pass | client => cases h

/-- Unless the sending is mocked, an update calls the library with details or does nothing. -/
theorem calling_send {s : Dispatching ι} {t : ι} (ht : s.updating = some t)
    (htype : (s.world.tasks t).type = .sendTransaction) {seen : Surroundings} :
    (s.calling (.work seen) = some t → seen.mockSend = false ∧ seen.details = true) ∧
      (seen.mockSend = false → s.calling (.work seen) ≠ some t →
        (s.next (.work seen)).world = s.world.emit [.update t]) := by
  have hworld := world_next_updating ht seen
  have hcalling : s.calling (.work seen) = some t ↔
      s.world.calls.count ⟨t, .call⟩ < (s.next (.work seen)).world.calls.count ⟨t, .call⟩ := by
    simp [calling, ht, Option.filter_eq_some_iff]
  cases hmock : seen.mockSend with
  | true =>
      have hcalls : (s.next (.work seen)).world.calls = s.world.calls := by
        rw [hworld, World.update]
        simp [World.emit, htype, SendTransactionTask.update, hmock, finishAtOnce,
          World.calls_setStatus]
      refine ⟨?_, fun hmocked => absurd hmocked (by decide)⟩
      rw [hcalling, hcalls]
      exact fun h => absurd h (Nat.lt_irrefl _)
  | false =>
      have hemit : ((s.world.emit [.update t]).tasks t).type = .sendTransaction := htype
      rw [World.update_sendTransaction hemit hmock] at hworld
      split_ifs at hworld with hcan
      · refine ⟨fun _ => ⟨rfl, ?_⟩, ?_⟩
        · simp only [Bool.and_eq_true] at hcan
          exact hcan.2.1
        · intro _ hnot
          refine absurd (hcalling.mpr ?_) hnot
          rw [hworld, World.calls_launch]
          simp [World.emit]
      · refine ⟨?_, fun _ _ => hworld⟩
        rw [hcalling, hworld]
        exact fun h => absurd h (Nat.lt_irrefl _)

/-- The edges that are drawn stay. -/
theorem inputs_next (s : Dispatching ι) (e : Step ι) (t : ι) :
    (s.world.tasks t).inputs ⊆ ((s.next e).world.tasks t).inputs := by
  have hshape := step_shape s e
  generalize s.next e = s' at hshape ⊢
  cases hshape with
  | nested | idle | opens => exact List.Subset.refl _
  | @visits d groups v visits seen hpass =>
      dsimp only
      unfold World.visit
      split_ifs
      · rw [World.inputs_update, World.inputs_emit]
        exact List.Subset.refl _
      · exact List.Subset.refl _
  | enters seen hpass =>
      rw [World.inputs_enterGroup]
      exact List.Subset.refl _
  | closes seen hpass =>
      rw [World.tasks_updateBusy]
      exact List.Subset.refl _
  | client e => exact World.inputs_client s.world e t

theorem told_next {s : Dispatching ι} (h : s.world.Told) (e : Step ι) : (s.next e).world.Told := by
  have hshape := step_shape s e
  generalize s.next e = s' at hshape ⊢
  cases hshape with
  | nested | idle | opens => exact h
  | visits seen hpass => exact h.visit (fun _ => seen) _
  | enters seen hpass => exact h.enterGroup _
  | closes seen hpass => exact h.alike (World.alike_setBusy s.world _ _)
  | client e => exact h.client e

/-- A task that has not begun begins when it is updated, and not before. -/
theorem unbegun_next {s : Dispatching ι} {t : ι} (h : s.world.Unbegun t) {e : Step ι}
    (he : s.enabled e) (hupdate : ∀ seen, e = .work seen → s.updating ≠ some t) :
    (s.next e).world.Unbegun t := by
  have hshape := step_shape s e
  generalize s.next e = s' at hshape ⊢
  cases hshape with
  | nested | idle | opens => exact h
  | @visits d groups v visits seen hpass =>
      dsimp only
      unfold World.visit
      split_ifs with hdue
      · have hv : v.task ≠ t := by
          intro hv
          apply hupdate seen rfl
          rw [← hv]
          simp [updating, hpass, hdue]
        have hemit : (s.world.emit [.update v.task]).Unbegun t :=
          h.orFailed (.inl (World.view_emit_update s.world v.task t)) rfl
        exact (World.keptBy_unbegun hv).update hemit seen
      · exact h
  | enters seen hpass => exact h.enterGroup _
  | closes seen hpass =>
      apply h.orFailed (.inl (World.view_updateBusy s.world _ t))
      rw [World.tasks_updateBusy]
  | client e => exact h.client he

end Dispatching
end GreenWallet.Tasks
