import GreenWallet.Tasks.Propagation

/-!
# The history of a task

The log tells for every task the statuses it has had since it was constructed, and
how often it emitted `finished` or `failed`. `Absorbing` says that no status was
left once it was terminal. A write keeps it exactly when the status it writes over
is not terminal, and the failure of a task exactly when it reaches no task that has
finished.
-/
namespace GreenWallet.Tasks
open GreenWallet.Library

variable {ι : Type} [DecidableEq ι]

/-- The status that the signal announces for the task. -/
def Signal.statusOf (t : ι) : Signal ι → Option Status
  | .statusChanged u s => if u = t then some s else none
  | _ => none

/-- The signal is `finished` or `failed` of the task. -/
def Signal.isOutcomeOf (t : ι) : Signal ι → Bool
  | .finished u => u = t
  | .failed u _ => u = t
  | _ => false

/-- The signal tells nothing about the status of a task. -/
def Signal.isQuiet : Signal ι → Bool
  | .statusChanged .. | .finished _ | .failed .. => false
  | _ => true

namespace World

def history (w : World ι) (t : ι) : List Status := w.log.filterMap (Signal.statusOf t)

def outcomes (w : World ι) (t : ι) : List (Signal ι) := w.log.filter (Signal.isOutcomeOf t)

/-- The log agrees with the statuses, and every terminal status was announced once. -/
structure Logged (w : World ι) : Prop where
  status : ∀ t, w.status t = (w.history t).getLastD .ready
  outcomes : ∀ t, (w.outcomes t).length = ((w.history t).filter Status.isTerminal).length

/-- Only the last status of a task can be terminal. -/
def Absorbing (w : World ι) : Prop :=
  ∀ t, ∀ s ∈ (w.history t).dropLast, s.isTerminal = false

theorem history_write (w : World ι) (t : ι) (s : Status) (u : ι) :
    (w.write t s).history u = if u = t then w.history u ++ [s] else w.history u := by
  have hout : ∀ error, (outcomeSignal t error s).filterMap (Signal.statusOf u) = [] := by
    intro error
    cases s <;> rfl
  rw [history, log_write, List.filterMap_append, List.filterMap_cons, hout]
  by_cases hu : u = t
  · simp [Signal.statusOf, history, hu]
  · simp [Signal.statusOf, history, hu, Ne.symm hu]

theorem outcomes_write (w : World ι) (t : ι) (s : Status) (u : ι) :
    ((w.write t s).outcomes u).length =
      (w.outcomes u).length + if u = t ∧ s.isTerminal then 1 else 0 := by
  rw [outcomes, log_write, List.filter_append, List.length_append]
  by_cases hu : u = t
  · cases s <;> simp [outcomes, outcomeSignal, Signal.isOutcomeOf, Status.isTerminal, hu]
  · cases s <;> simp [outcomes, outcomeSignal, Signal.isOutcomeOf, hu, Ne.symm hu]

theorem Logged.write {w : World ι} (h : w.Logged) (t : ι) (s : Status) : (w.write t s).Logged := by
  refine ⟨fun u => ?_, fun u => ?_⟩
  · rw [status_write, history_write]
    split_ifs with hu
    · simp
    · exact h.status u
  · rw [outcomes_write, history_write, h.outcomes u]
    by_cases hu : u = t
    · cases hs : s.isTerminal <;> simp [hu, hs]
    · simp [hu]

theorem Logged.fresh (types : ι → TaskType) : (fresh types).Logged :=
  ⟨fun _ => rfl, fun _ => rfl⟩

theorem Absorbing.fresh (types : ι → TaskType) : (fresh types).Absorbing := by
  intro t s hs
  cases hs

/-- A write is one more status of the task, so the one before must not be terminal. -/
theorem absorbing_write_iff {w : World ι} (h : w.Logged) (t : ι) (s : Status) :
    (w.write t s).Absorbing ↔ w.Absorbing ∧ (w.status t).isTerminal = false := by
  have hlast : ∀ l : List Status, (∀ s ∈ l, s.isTerminal = false) ↔
      (∀ s ∈ l.dropLast, s.isTerminal = false) ∧ (l.getLastD .ready).isTerminal = false := by
    intro l
    rcases List.eq_nil_or_concat l with rfl | ⟨l, s, rfl⟩
    · simp [Status.isTerminal]
    · simp [or_imp, forall_and]
  constructor
  · intro hw
    have hself := hw t
    rw [history_write, if_pos rfl, List.dropLast_concat, hlast, ← h.status t] at hself
    refine ⟨fun u => ?_, hself.2⟩
    by_cases hu : u = t
    · rw [hu]
      exact hself.1
    · have hother := hw u
      rwa [history_write, if_neg hu] at hother
  · intro ⟨hw, ht⟩ u
    rw [history_write]
    split_ifs with hu
    · rw [hu, List.dropLast_concat, hlast, ← h.status t]
      exact ⟨hw t, ht⟩
    · exact hw u

theorem status_setTask (w : World ι) (t : ι) {f : Task ι → Task ι}
    (h : (f (w.tasks t)).status = (w.tasks t).status) (u : ι) :
    (w.setTask t f).status u = w.status u := by
  by_cases hu : u = t
  · subst hu
    simpa [status, setTask] using h
  · simp [status, setTask, hu]

theorem status_insertOutput (w : World ι) (t u v : ι) :
    (w.insertOutput t u).status v = w.status v :=
  status_setTask w t (f := fun task => { task with outputs := task.outputs.insert u }) rfl v

theorem status_insertInput (w : World ι) (t u v : ι) :
    (w.insertInput t u).status v = w.status v :=
  status_setTask w t (f := fun task => { task with inputs := task.inputs.insert u }) rfl v

/-- Nothing that counts for the statuses has changed. -/
structure Alike (w w' : World ι) : Prop where
  status : ∀ t, w'.status t = w.status t
  outputs : ∀ t, (w'.tasks t).outputs = (w.tasks t).outputs
  history : ∀ t, w'.history t = w.history t
  outcomes : ∀ t, w'.outcomes t = w.outcomes t

namespace Alike
variable {w w' w'' : World ι}

theorem refl (w : World ι) : w.Alike w :=
  ⟨fun _ => rfl, fun _ => rfl, fun _ => rfl, fun _ => rfl⟩

theorem trans (h : w.Alike w') (h' : w'.Alike w'') : w.Alike w'' where
  status t := (h'.status t).trans (h.status t)
  outputs t := (h'.outputs t).trans (h.outputs t)
  history t := (h'.history t).trans (h.history t)
  outcomes t := (h'.outcomes t).trans (h.outcomes t)

/-- The log is as it was, and so are the status and the outputs of every task. -/
theorem of_log (hlog : w'.log = w.log) (hstatus : ∀ t, w'.status t = w.status t)
    (houtputs : ∀ t, (w'.tasks t).outputs = (w.tasks t).outputs) : w.Alike w' where
  status := hstatus
  outputs := houtputs
  history t := by rw [World.history, World.history, hlog]
  outcomes t := by rw [World.outcomes, World.outcomes, hlog]

theorem emit (w : World ι) {signals : List (Signal ι)}
    (h : ∀ signal ∈ signals, signal.isQuiet = true) : w.Alike (w.emit signals) where
  status _ := rfl
  outputs _ := rfl
  history t := by
    have hnone : signals.filterMap (Signal.statusOf t) = [] := by
      rw [List.filterMap_eq_nil_iff]
      intro signal hsignal
      have hq := h signal hsignal
      cases signal <;> first | rfl | cases hq
    simp [World.history, World.emit, List.filterMap_append, hnone]
  outcomes t := by
    have hnone : signals.filter (Signal.isOutcomeOf t) = [] := by
      rw [List.filter_eq_nil_iff]
      intro signal hsignal
      have hq := h signal hsignal
      cases signal <;> first | (cases hq; done) | simp [Signal.isOutcomeOf]
    simp [World.outcomes, World.emit, List.filter_append, hnone]

theorem setTask (w : World ι) (t : ι) {f : Task ι → Task ι}
    (hstatus : (f (w.tasks t)).status = (w.tasks t).status)
    (houtputs : (f (w.tasks t)).outputs = (w.tasks t).outputs) : w.Alike (w.setTask t f) := by
  refine of_log rfl (status_setTask w t hstatus) (fun u => ?_)
  by_cases hu : u = t
  · subst hu
    simpa [World.setTask] using houtputs
  · simp [World.setTask, hu]

theorem logged (h : w.Alike w') (hw : w.Logged) : w'.Logged where
  status t := by rw [h.status, h.history, hw.status t]
  outcomes t := by rw [h.outcomes, h.history, hw.outcomes t]

theorem absorbing_iff (h : w.Alike w') : w'.Absorbing ↔ w.Absorbing := by
  simp only [Absorbing, h.history]

end Alike

theorem alike_start (w : World ι) (t : ι) (p : Pending) : w.Alike (w.start t p) :=
  .of_log rfl (fun _ => rfl) fun _ => rfl

theorem alike_setError (w : World ι) (t : ι) (error : String) : w.Alike (w.setError t error) :=
  .setTask w t rfl rfl

theorem alike_setPrompt (w : World ι) (t : ι) (prompt : Prompt) : w.Alike (w.setPrompt t prompt) :=
  .setTask w t rfl rfl

theorem alike_setResolver (w : World ι) (t : ι) (resolver : Bool) :
    w.Alike (w.setResolver t resolver) := .setTask w t rfl rfl

theorem alike_setAuthHandler (w : World ι) (t : ι) : w.Alike (w.setAuthHandler t) :=
  .setTask w t rfl rfl

theorem alike_setGroup (w : World ι) (g : GroupId) (f : TaskGroup ι → TaskGroup ι) :
    w.Alike (w.setGroup g f) := .of_log rfl (fun _ => rfl) fun _ => rfl

theorem alike_setGroupStatus (w : World ι) (g : GroupId) (s : Status) :
    w.Alike (w.setGroupStatus g s) := by
  unfold setGroupStatus
  split_ifs
  · exact .refl w
  · refine (alike_setGroup w g _).trans (.emit _ ?_)
    intro signal hsignal
    cases s <;> simp [groupOutcomeSignal] at hsignal <;>
      first | rw [hsignal]; rfl | rcases hsignal with rfl | rfl <;> rfl

theorem alike_setDispatcher (w : World ι) (d : DispatcherId)
    (f : TaskDispatcher → TaskDispatcher) : w.Alike (w.setDispatcher d f) :=
  .of_log rfl (fun _ => rfl) fun _ => rfl

theorem alike_setBusy (w : World ι) (d : DispatcherId) (busy : Bool) :
    w.Alike (w.setBusy d busy) := by
  unfold setBusy
  split_ifs
  · exact .refl w
  · refine (alike_setDispatcher w d _).trans (.emit _ ?_)
    intro signal hsignal
    rw [List.mem_singleton.mp hsignal]
    rfl

/-- The log goes on, and goes on agreeing with the statuses. -/
structure Evolves (w w' : World ι) : Prop where
  logged : w.Logged → w'.Logged
  history : ∀ t, w.history t <+: w'.history t

theorem Evolves.refl (w : World ι) : w.Evolves w := ⟨id, fun _ => List.prefix_rfl⟩

theorem Evolves.trans {w w' w'' : World ι} (h : w.Evolves w') (h' : w'.Evolves w'') :
    w.Evolves w'' := ⟨h'.logged ∘ h.logged, fun t => (h.history t).trans (h'.history t)⟩

theorem Alike.evolves {w w' : World ι} (h : w.Alike w') : w.Evolves w' where
  logged := h.logged
  history t := by rw [h.history t]

theorem Evolves.of_log {w w' : World ι} (hlog : w'.log = w.log)
    (hstatus : ∀ t, w'.status t = w.status t) : w.Evolves w' := by
  have hhistory : ∀ t, w'.history t = w.history t := fun t => by
    rw [World.history, World.history, hlog]
  refine ⟨fun h => ⟨fun t => ?_, fun t => ?_⟩, fun t => ?_⟩
  · rw [hstatus, hhistory, h.status t]
  · rw [World.outcomes, hlog, hhistory]
    exact h.outcomes t
  · rw [hhistory]

theorem evolves_write (w : World ι) (t : ι) (s : Status) : w.Evolves (w.write t s) where
  logged h := h.write t s
  history u := by
    rw [history_write]
    split_ifs
    · exact List.prefix_append _ _
    · exact List.prefix_rfl

theorem evolves_foldl {α : Type} {body : World ι → α → World ι}
    (h : ∀ (w : World ι) (a : α), w.Evolves (body w a)) (w : World ι) (as : List α) :
    w.Evolves (as.foldl body w) := by
  induction as generalizing w with
  | nil => exact .refl w
  | cons a as ih => exact (h w a).trans (ih (body w a))

section Setting
variable [Fintype ι]

theorem evolves_setStatus (w : World ι) (t : ι) (s : Status) : w.Evolves (w.setStatus t s) :=
  setStatus_invariant (I := w.Evolves) (fun v t s h => h.trans (evolves_write v t s)) (.refl w) t s

/-- The failure of the task reaches no task that has finished. -/
def Spares (w : World ι) (t : ι) : Prop := ∀ u, w.FailureReaches t u → w.status u ≠ .finished

/-- Writing the status to the task leaves no terminal status. -/
def Allows (w : World ι) (t : ι) (s : Status) : Prop :=
  if s = .failed then w.Spares t else w.status t = s ∨ (w.status t).isTerminal = false

theorem allows_failed (w : World ι) (t : ι) : w.Allows t .failed ↔ w.Spares t := by
  rw [Allows, if_pos rfl]

/-- Failing tasks one after the other leaves no terminal status exactly if the failure
of none of them reaches a finished task. -/
theorem absorbing_floodAll_iff {w : World ι} (h : w.Logged) (ts : List ι) :
    (failure.floodAll (Fintype.card ι + 1) ts w).Absorbing ↔
      w.Absorbing ∧ ∀ t ∈ ts, w.Spares t := by
  -- Until its own turn a task that has not failed keeps the status it had.
  have hside : ∀ (v : World ι) (t : ι),
      (v.Logged ∧ ∀ u, v.status u ≠ .failed → v.status u = w.status u) → v.status t ≠ .failed →
      (v.write t .failed).Logged ∧
        ∀ u, (v.write t .failed).status u ≠ .failed → (v.write t .failed).status u = w.status u := by
    intro v t ⟨hv, hsame⟩ _
    refine ⟨hv.write t .failed, fun u hu => ?_⟩
    rw [status_write] at hu ⊢
    split_ifs at hu ⊢ with hut
    · exact (hu rfl).elim
    · exact hsame u hu
  refine failure.keeps_floodAll_iff (I := Absorbing) (G := fun u => w.status u ≠ .finished)
    hside ?_ ts (left_lt_depth w) ⟨h, fun _ _ => rfl⟩
  intro v t ⟨hv, hsame⟩ ht
  refine (absorbing_write_iff hv t .failed).trans (and_congr_right fun _ => ?_)
  have hne : v.status t ≠ .failed := ht
  rw [← hsame t hne]
  revert hne
  cases v.status t <;> simp [Status.isTerminal]

theorem absorbing_setStatus_iff {w : World ι} (h : w.Logged) (t : ι) (s : Status) :
    (w.setStatus t s).Absorbing ↔ w.Absorbing ∧ w.Allows t s := by
  by_cases hs : s = .failed
  · subst hs
    have hall := absorbing_floodAll_iff h [t]
    rw [setStatus_failed, allows_failed]
    simpa using hall
  · rw [setStatus_eq_write hs, Allows, if_neg hs]
    split_ifs with hw
    · simp [hw]
    · rw [absorbing_write_iff h]
      simp [hw]

theorem failureReaches_congr {w w' : World ι}
    (houtputs : ∀ t, (w'.tasks t).outputs = (w.tasks t).outputs)
    (hfailed : ∀ t, w'.status t = .failed ↔ w.status t = .failed) (t u : ι) :
    w'.FailureReaches t u ↔ w.FailureReaches t u := by
  have hsucc : failure.succ w' = failure.succ w := funext houtputs
  exact ⟨fun hr => hr.of_fewer hsucc fun u hu => (hfailed u).mpr hu,
    fun hr => hr.of_fewer hsucc.symm fun u hu => (hfailed u).mp hu⟩

theorem spares_congr {w w' : World ι} (houtputs : ∀ t, (w'.tasks t).outputs = (w.tasks t).outputs)
    (hfailed : ∀ t, w'.status t = .failed ↔ w.status t = .failed)
    (hfinished : ∀ t, w'.status t = .finished ↔ w.status t = .finished) (t : ι) :
    w'.Spares t ↔ w.Spares t := by
  simp only [Spares, failureReaches_congr houtputs hfailed, ne_eq, hfinished]

/-- A task that is on its way stays as harmless when it becomes `Active`. -/
theorem spares_setStatus_active {w : World ι} {t : ι} (h : (w.status t).isTerminal = false)
    (u : ι) : (w.setStatus t .active).Spares u ↔ w.Spares u := by
  have hkind : ∀ s : Status, s.isTerminal = true → ∀ v,
      ((w.setStatus t .active).status v = s ↔ w.status v = s) := by
    intro s hs v
    rw [status_setStatus (by decide)]
    split_ifs with hv
    · rw [hv]
      constructor
      · intro hsame
        subst hsame
        cases hs
      · intro hsame
        subst hsame
        rw [h] at hs
        cases hs
    · rfl
  exact spares_congr (outputs_setStatus w t .active) (hkind .failed rfl) (hkind .finished rfl) u

namespace Alike
variable {w w' : World ι}

theorem spares_iff (h : w.Alike w') (t : ι) : w'.Spares t ↔ w.Spares t :=
  spares_congr h.outputs (fun t => by rw [h.status]) (fun t => by rw [h.status]) t

theorem allows_iff (h : w.Alike w') (t : ι) (s : Status) : w'.Allows t s ↔ w.Allows t s := by
  simp only [Allows, h.spares_iff, h.status]

end Alike
end Setting
end World
end GreenWallet.Tasks
