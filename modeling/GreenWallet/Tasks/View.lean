import GreenWallet.Tasks.Dependencies

/-!
# One task among others

The view of a task is what a run shows of it alone: its status, the calls it waits for,
how often it emitted `finished`, and its flag on the device. Its own `update` and its own
continuations change the view as they say; all that the others can do to a task is fail it.
-/
namespace GreenWallet.Tasks
open GreenWallet.Library

structure View where
  type : TaskType
  status : Status := .ready
  prompt : Option Prompt := none
  /-- What the task waits for. -/
  pendings : List Pending := []
  /-- How often the task has emitted `finished`. -/
  finished : ℕ := 0
  /-- The flag of the device as the task last set it. -/
  unlocking : Bool := false
deriving DecidableEq, Repr

namespace View

def write (v : View) (s : Status) : View :=
  { v with
    status := s
    finished := if s = .finished then v.finished + 1 else v.finished }

/-- `setStatus` of the task itself. -/
def set (v : View) (s : Status) : View := if v.status = s then v else v.write s

def start (v : View) (p : Pending) : View := { v with pendings := v.pendings ++ [p] }

def setUnlocking (v : View) (unlocking : Bool) : View := { v with unlocking := unlocking }

def drop (v : View) (p : Pending) : View :=
  { v with
    pendings :=
      if p = .disconnected then (v.pendings.erase p).erase .work else v.pendings.erase p }

def lose (v : View) : View := { v with pendings := v.type.authUser.elim v.pendings v.pendings.erase }

/-- The task is as it was, or it has been failed. -/
def OrFailed (v v' : View) : Prop := v' = v ∨ v' = v.write .failed

theorem OrFailed.refl (v : View) : OrFailed v v := .inl rfl

theorem OrFailed.trans {v v' v'' : View} (h : OrFailed v v') (h' : OrFailed v' v'') :
    OrFailed v v'' := by
  rcases h with rfl | rfl
  · exact h'
  · rcases h' with rfl | rfl
    · exact .inr rfl
    · exact .inr rfl

/-- No task of an auth handler, nor one that asks for a device: the user has no part in it. -/
structure Plain (v : View) : Prop where
  type : v.type.isAuthHandler = false
  prompt : v.prompt = none

end View

variable {ι : Type} [DecidableEq ι]

/-- The flag that the task sets by the signal. -/
def Signal.unlockingOf (t : ι) : Signal ι → Option Bool
  | .setUnlocking u unlocking => if u = t then some unlocking else none
  | _ => none

/-- The signal shows in no view. -/
def Signal.isHidden : Signal ι → Bool
  | .finished _ | .setUnlocking .. => false
  | _ => true

namespace World

/-- What the task waits for. -/
def pendings (w : World ι) (t : ι) : List Pending :=
  w.calls.filterMap fun c => if c.task = t then some c.pending else none

/-- The flag of the device as the task last set it. -/
def unlocking (w : World ι) (t : ι) : Bool :=
  (w.log.filterMap (Signal.unlockingOf t)).getLastD false

def view (w : World ι) (t : ι) : View where
  type := (w.tasks t).type
  status := w.status t
  prompt := (w.tasks t).prompt
  pendings := w.pendings t
  finished := w.log.count (.finished t)
  unlocking := w.unlocking t

@[simp] theorem view_type (w : World ι) (t : ι) : (w.view t).type = (w.tasks t).type := rfl

@[simp] theorem view_status (w : World ι) (t : ι) : (w.view t).status = w.status t := rfl

theorem mem_pendings {w : World ι} {t : ι} {p : Pending} :
    p ∈ (w.view t).pendings ↔ ⟨t, p⟩ ∈ w.calls := by
  simp only [view, pendings, List.mem_filterMap, Option.ite_none_right_eq_some,
    Option.some.injEq]
  constructor
  · rintro ⟨⟨u, q⟩, hmem, rfl, rfl⟩
    exact hmem
  · intro hmem
    exact ⟨⟨t, p⟩, hmem, rfl, rfl⟩

theorem count_pendings (w : World ι) (t : ι) (p : Pending) :
    (w.view t).pendings.count p = w.calls.count ⟨t, p⟩ := by
  simp only [view, pendings]
  induction w.calls with
  | nil => rfl
  | cons c calls ih =>
      obtain ⟨u, q⟩ := c
      by_cases hu : u = t
      · simp [hu, List.count_cons, ih]
      · simp [hu, ih]

/-- The view is that of a world with the same tasks, calls and log. -/
theorem view_congr {w w' : World ι} {t : ι} (htask : w'.tasks t = w.tasks t)
    (hcalls : w'.calls = w.calls) (hlog : w'.log = w.log) : w'.view t = w.view t := by
  simp only [view, status, pendings, unlocking, htask, hcalls, hlog]

theorem unlocking_emit (w : World ι) {t : ι} {signals : List (Signal ι)}
    (h : signals.filterMap (Signal.unlockingOf t) = []) :
    (w.emit signals).unlocking t = w.unlocking t := by
  simp only [unlocking, emit, List.filterMap_append, h, List.append_nil]

theorem view_emit (w : World ι) {signals : List (Signal ι)}
    (h : ∀ signal ∈ signals, signal.isHidden = true) (t : ι) :
    (w.emit signals).view t = w.view t := by
  have hnone : .finished t ∉ signals := by
    intro hmem
    cases h _ hmem
  have hfinished : (w.emit signals).log.count (.finished t) = w.log.count (.finished t) := by
    rw [emit, List.count_append, List.count_eq_zero.mpr hnone, Nat.add_zero]
  have hflag : signals.filterMap (Signal.unlockingOf t) = [] := by
    apply List.filterMap_eq_nil_iff.mpr
    intro signal hsignal
    have hhidden := h signal hsignal
    cases signal <;> first | rfl | cases hhidden
  simp only [view, hfinished, unlocking_emit w hflag]
  rfl

theorem view_emit_update (w : World ι) (t u : ι) : (w.emit [.update t]).view u = w.view u := by
  apply view_emit
  simp [Signal.isHidden]

theorem view_start (w : World ι) (t : ι) (p : Pending) :
    (w.start t p).view t = (w.view t).start p := by
  simp [view, status, pendings, unlocking, World.start, View.start]

theorem view_start_of_ne (w : World ι) {t u : ι} (h : u ≠ t) (p : Pending) :
    (w.start u p).view t = w.view t := by
  simp [view, status, pendings, unlocking, World.start, h]

theorem view_setUnlocking (w : World ι) (t : ι) (unlocking : Bool) :
    (w.emit [.setUnlocking t unlocking]).view t = (w.view t).setUnlocking unlocking := by
  simp [view, status, pendings, World.unlocking, emit, View.setUnlocking, List.count_append,
    Signal.unlockingOf]

theorem view_setUnlocking_of_ne (w : World ι) {t u : ι} (h : u ≠ t) (unlocking : Bool) :
    (w.emit [.setUnlocking u unlocking]).view t = w.view t := by
  simp [view, status, pendings, World.unlocking, emit, List.count_append, Signal.unlockingOf, h]

theorem view_setTask_of_ne (w : World ι) {t u : ι} (h : u ≠ t) (f : Task ι → Task ι) :
    (w.setTask u f).view t = w.view t := by
  have htask : (w.setTask u f).tasks t = w.tasks t := by simp [setTask, Ne.symm h]
  exact view_congr htask rfl rfl

theorem view_insertInput (w : World ι) (u v t : ι) : (w.insertInput u v).view t = w.view t := by
  by_cases hu : u = t
  · subst hu
    simp [view, status, insertInput, setTask, pendings, unlocking]
  · exact view_setTask_of_ne w hu _

theorem view_insertOutput (w : World ι) (u v t : ι) : (w.insertOutput u v).view t = w.view t := by
  by_cases hu : u = t
  · subst hu
    simp [view, status, insertOutput, setTask, pendings, unlocking]
  · exact view_setTask_of_ne w hu _

theorem pendingsOf_erase (t : ι) (p : Pending) (calls : List (Call ι)) :
    (calls.erase ⟨t, p⟩).filterMap (fun c => if c.task = t then some c.pending else none) =
      (calls.filterMap fun c => if c.task = t then some c.pending else none).erase p := by
  induction calls with
  | nil => rfl
  | cons c calls ih =>
      obtain ⟨u, q⟩ := c
      by_cases hu : u = t
      · by_cases hq : q = p
        · simp [hu, hq]
        · simp [hu, hq, ih]
      · simp [hu, ih]

theorem pendingsOf_erase_of_ne {t : ι} {c : Call ι} (h : c.task ≠ t) (calls : List (Call ι)) :
    (calls.erase c).filterMap (fun c => if c.task = t then some c.pending else none) =
      calls.filterMap fun c => if c.task = t then some c.pending else none := by
  induction calls with
  | nil => rfl
  | cons c' calls ih =>
      by_cases hc : c' = c
      · simp [hc, h]
      · rw [List.erase_cons_tail (by simpa using hc), List.filterMap_cons, List.filterMap_cons, ih]

theorem view_drop (w : World ι) (t : ι) (p : Pending) :
    (w.drop ⟨t, p⟩).view t = (w.view t).drop p := by
  simp only [view, pendings, World.drop, View.drop]
  split_ifs
  · rw [pendingsOf_erase, pendingsOf_erase]
    rfl
  · rw [pendingsOf_erase]
    rfl

theorem view_drop_of_ne (w : World ι) {t : ι} {c : Call ι} (h : c.task ≠ t) :
    (w.drop c).view t = w.view t := by
  simp only [view, pendings, World.drop]
  split_ifs
  · have hwork : (⟨c.task, .work⟩ : Call ι).task ≠ t := h
    rw [pendingsOf_erase_of_ne hwork, pendingsOf_erase_of_ne h]
    rfl
  · rw [pendingsOf_erase_of_ne h]
    rfl

theorem view_lose (w : World ι) (t : ι) : (w.lose t).view t = (w.view t).lose := by
  simp only [view, pendings, World.lose, View.lose]
  cases (w.tasks t).type.authUser with
  | none => rfl
  | some p =>
      simp only [Option.elim_some]
      rw [pendingsOf_erase]
      rfl

theorem view_lose_of_ne (w : World ι) {t u : ι} (h : u ≠ t) :
    (w.lose u).view t = w.view t := by
  simp only [view, pendings, World.lose]
  cases (w.tasks u).type.authUser with
  | none => rfl
  | some p =>
      have hcall : (⟨u, p⟩ : Call ι).task ≠ t := h
      simp only [Option.elim_some]
      rw [pendingsOf_erase_of_ne hcall]
      rfl

theorem count_finished_outcome (t u : ι) (error : String) (s : Status) :
    (Signal.statusChanged u s :: outcomeSignal u error s).count (.finished t) =
      if t = u ∧ s = .finished then 1 else 0 := by
  by_cases h : t = u
  · cases s <;> simp [outcomeSignal, h]
  · cases s <;> simp [outcomeSignal, h, Ne.symm h]

theorem filterMap_unlockingOf_outcome (t u : ι) (error : String) (s : Status) :
    (Signal.statusChanged u s :: outcomeSignal u error s).filterMap (Signal.unlockingOf t) = [] := by
  cases s <;> rfl

theorem view_write (w : World ι) (t : ι) (s : Status) :
    (w.write t s).view t = (w.view t).write s := by
  have htask : ((w.write t s).tasks t) = { w.tasks t with status := s } := by
    simp [World.write, setTask, emit]
  have hfinished : (w.write t s).log.count (.finished t) =
      if s = .finished then w.log.count (.finished t) + 1 else w.log.count (.finished t) := by
    rw [log_write, List.count_append, count_finished_outcome]
    split_ifs <;> simp_all
  have hflag : (w.write t s).unlocking t = w.unlocking t :=
    (w.setTask t _).unlocking_emit (filterMap_unlockingOf_outcome t t _ s)
  simp only [view, status, htask, hfinished, hflag, View.write]
  rfl

theorem view_write_of_ne (w : World ι) {t u : ι} (h : u ≠ t) (s : Status) :
    (w.write u s).view t = w.view t := by
  have hfinished : (w.write u s).log.count (.finished t) = w.log.count (.finished t) := by
    rw [log_write, List.count_append, count_finished_outcome, if_neg fun hand => h hand.1.symm]
    rfl
  have hflag : (w.write u s).unlocking t = w.unlocking t :=
    (w.setTask u _).unlocking_emit (filterMap_unlockingOf_outcome t u _ s)
  have htask : (w.write u s).tasks t = w.tasks t := by
    simp [World.write, setTask, emit, Ne.symm h]
  simp only [view, status, htask, hfinished, hflag]
  rfl

variable [Fintype ι]

theorem view_setStatus_orFailed (w : World ι) (u t : ι) :
    View.OrFailed (w.view t) ((w.setStatus u .failed).view t) := by
  apply setStatus_failed_invariant (I := fun w' => View.OrFailed (w.view t) (w'.view t))
  · intro w' u h
    by_cases hu : u = t
    · subst hu
      rw [view_write]
      exact h.trans (.inr rfl)
    · rw [view_write_of_ne w' hu]
      exact h
  · exact .refl _

theorem view_setStatus (w : World ι) (t : ι) (s : Status) :
    (w.setStatus t s).view t = (w.view t).set s := by
  rw [View.set, view_status]
  by_cases hs : s = .failed
  · subst hs
    have hfailed : (w.setStatus t .failed).status t = .failed := by
      rw [status_setStatus_failed]
      by_cases h : w.status t = .failed
      · exact .inl h
      · exact .inr ⟨h, .refl⟩
    rcases view_setStatus_orFailed w t t with h | h
    · rw [h, if_pos]
      rw [← view_status, h, view_status] at hfailed
      exact hfailed
    · split_ifs with hbefore
      · rw [h]
        simp [View.write, view, hbefore]
      · exact h
  · rw [setStatus_eq_write hs]
    split_ifs
    · rfl
    · exact view_write w t s

theorem view_setStatus_of_ne (w : World ι) {t u : ι} (h : u ≠ t) (s : Status) :
    View.OrFailed (w.view t) ((w.setStatus u s).view t) := by
  by_cases hs : s = .failed
  · subst hs
    exact view_setStatus_orFailed w u t
  · rw [setStatus_eq_write hs]
    split_ifs
    · exact .refl _
    · exact .inl (view_write_of_ne w h s)

/-- All that a task does to another one is fail it. -/
theorem keptBy_view (w : World ι) {t u : ι} (h : u ≠ t) :
    KeptBy u fun w' => View.OrFailed (w.view t) (w'.view t) where
  setStatus w' s hw := hw.trans (view_setStatus_of_ne w' h s)
  start w' p hw := by rwa [view_start_of_ne w' h]
  setUnlocking w' unlocking hw := by rwa [view_setUnlocking_of_ne w' h]
  setTask w' f _ hw := by rwa [view_setTask_of_ne w' h]

theorem view_sweep (w : World ι) (ts : List ι) (t : ι) :
    View.OrFailed (w.view t) ((w.sweep ts).view t) := by
  induction ts generalizing w with
  | nil => exact .refl _
  | cons u ts ih => exact (view_setStatus_orFailed w u t).trans (ih (w.setStatus u .failed))

omit [Fintype ι] in
theorem view_setGroupStatus (w : World ι) (g : GroupId) (s : Status) (t : ι) :
    (w.setGroupStatus g s).view t = w.view t := by
  unfold setGroupStatus
  split_ifs
  · rfl
  · rw [view_emit]
    · rfl
    · cases s <;> simp [groupOutcomeSignal, Signal.isHidden]

theorem view_enterGroup (w : World ι) (g : GroupId) (t : ι) :
    View.OrFailed (w.view t) ((w.enterGroup g).1.view t) := by
  simp only [enterGroup]
  split_ifs
  · exact .refl _
  · exact .inl (view_setGroupStatus w g .finished t)
  · rw [view_setGroupStatus]
    exact view_sweep w _ t
  · unfold showActive
    split_ifs
    · exact .inl (view_setGroupStatus w g .active t)
    · exact .refl _

omit [Fintype ι] in
theorem view_updateBusy (w : World ι) (d : DispatcherId) (t : ι) :
    (w.updateBusy d).view t = w.view t := by
  unfold updateBusy setBusy
  split_ifs
  · rfl
  · rw [view_emit]
    · rfl
    · simp [Signal.isHidden]

/-- A task that asks for no device starts no resolver, and can only be failed by one. -/
theorem view_selectDevice (w : World ι) {t u : ι} {resolution : Resolution}
    (he : w.enabled (.selectDevice u resolution)) (ht : (w.view t).Plain) :
    View.OrFailed (w.view t) ((w.next (.selectDevice u resolution)).view t) := by
  have hu : u ≠ t := by
    rintro rfl
    have hprompt : (w.tasks u).prompt = some .device := he
    have hnone : (w.tasks u).prompt = none := ht.prompt
    rw [hnone] at hprompt
    cases hprompt
  exact (keptBy_view w hu).startResolver (.refl _) resolution

/-- Whatever else is neither a pass nor the end of a call leaves the view of a plain task alone. -/
theorem view_quiet (w : World ι) {e : Event ι} (h : e.isQuiet = true) (hlost : ∀ u, e ≠ .lost u)
    (he : w.enabled e) {t : ι} (ht : (w.view t).Plain) : (w.next e).view t = w.view t := by
  have hother : ∀ u, (w.tasks u).type.isAuthHandler = true → u ≠ t := by
    rintro u hu rfl
    rw [← view_type, ht.type] at hu
    cases hu
  cases e with
  | pass | completes | selectDevice => cases h
  | lost u => exact absurd rfl (hlost u)
  | requestCode u method => exact view_start_of_ne w (hother u he.1) _
  | resolveCode u code => exact view_start_of_ne w (hother u he.1) _
  | needs u v => exact (view_insertOutput _ v u t).trans (view_insertInput w u v t)
  | then_ u v => exact (view_insertInput _ v u t).trans (view_insertOutput w u v t)
  | groupAdd g u =>
      simp only [next, groupAdd]
      split_ifs <;> rfl
  | dispatcherAdd d g =>
      simp only [next, dispatcherAdd]
      split_ifs <;> rfl
  | groupRemove | dispatcherRemove => rfl

/-! ## What every step keeps -/

/-- The tasks keep their classes, and the log goes on. -/
structure Extends (w w' : World ι) : Prop where
  type : ∀ t, (w'.tasks t).type = (w.tasks t).type
  log : w.log <+: w'.log

omit [DecidableEq ι] [Fintype ι] in
theorem Extends.refl (w : World ι) : w.Extends w := ⟨fun _ => rfl, List.prefix_rfl⟩

omit [DecidableEq ι] [Fintype ι] in
theorem Extends.trans {w w' w'' : World ι} (h : w.Extends w') (h' : w'.Extends w'') :
    w.Extends w'' := ⟨fun t => (h'.type t).trans (h.type t), h.log.trans h'.log⟩

omit [DecidableEq ι] [Fintype ι] in
theorem extends_emit (w : World ι) (signals : List (Signal ι)) : w.Extends (w.emit signals) :=
  ⟨fun _ => rfl, List.prefix_append _ _⟩

omit [Fintype ι] in
theorem extends_setTask (w : World ι) (t : ι) {f : Task ι → Task ι}
    (h : ∀ task, (f task).type = task.type) : w.Extends (w.setTask t f) where
  type u := by
    by_cases hu : u = t
    · subst hu
      simpa [setTask] using h (w.tasks u)
    · simp [setTask, hu]
  log := List.prefix_rfl

omit [Fintype ι] in
theorem extends_write (w : World ι) (t : ι) (s : Status) : w.Extends (w.write t s) where
  type u := (extends_setTask w t (f := fun task => { task with status := s }) fun _ => rfl).type u
  log := List.prefix_append _ _

omit [Fintype ι] in
theorem extends_insertInput (w : World ι) (t u : ι) : w.Extends (w.insertInput t u) :=
  extends_setTask w t fun _ => rfl

omit [Fintype ι] in
theorem extends_insertOutput (w : World ι) (t u : ι) : w.Extends (w.insertOutput t u) :=
  extends_setTask w t fun _ => rfl

theorem extends_setStatus (w : World ι) (t : ι) (s : Status) : w.Extends (w.setStatus t s) := by
  apply setStatus_invariant (I := w.Extends)
  · intro w' t s h
    exact h.trans (extends_write w' t s)
  · exact .refl w

theorem keptBy_extends (w : World ι) (t : ι) : KeptBy t w.Extends where
  setStatus w' s h := h.trans (extends_setStatus w' t s)
  start _ _ h := ⟨h.type, h.log⟩
  setUnlocking w' _ h := h.trans (extends_emit w' _)
  setTask w' _ hf h := h.trans (extends_setTask w' t hf)

theorem extends_sweep (w : World ι) (ts : List ι) : w.Extends (w.sweep ts) := by
  induction ts generalizing w with
  | nil => exact .refl w
  | cons t ts ih => exact (extends_setStatus w t .failed).trans (ih (w.setStatus t .failed))

omit [DecidableEq ι] [Fintype ι] in
theorem extends_setGroupStatus (w : World ι) (g : GroupId) (s : Status) :
    w.Extends (w.setGroupStatus g s) := by
  unfold setGroupStatus
  split_ifs
  · exact .refl w
  · exact ⟨fun _ => rfl, List.prefix_append _ _⟩

theorem extends_enterGroup (w : World ι) (g : GroupId) : w.Extends (w.enterGroup g).1 := by
  simp only [enterGroup]
  split_ifs
  · exact .refl w
  · exact extends_setGroupStatus w g .finished
  · exact (extends_sweep w _).trans (extends_setGroupStatus _ g .failed)
  · unfold showActive
    split_ifs
    · exact extends_setGroupStatus w g .active
    · exact .refl w

omit [DecidableEq ι] [Fintype ι] in
theorem extends_updateBusy (w : World ι) (d : DispatcherId) : w.Extends (w.updateBusy d) := by
  unfold updateBusy setBusy
  split_ifs
  · exact .refl w
  · exact ⟨fun _ => rfl, List.prefix_append _ _⟩

theorem extends_client (w : World ι) (e : ClientEvent ι) : w.Extends (w.next e.1) := by
  obtain ⟨e, hclient⟩ := e
  cases e with
  | pass => cases hclient
  | completes c report =>
      have hdrop : w.Extends (w.drop c) := ⟨fun _ => rfl, List.prefix_rfl⟩
      exact (keptBy_extends w c.task).complete hdrop c.pending report
  | lost | requestCode | resolveCode => exact ⟨fun _ => rfl, List.prefix_rfl⟩
  | selectDevice t resolution => exact (keptBy_extends w t).startResolver (.refl w) resolution
  | needs t u => exact (extends_insertInput w t u).trans (extends_insertOutput _ u t)
  | then_ t u => exact (extends_insertOutput w t u).trans (extends_insertInput _ u t)
  | groupAdd g t =>
      simp only [next, groupAdd]
      split_ifs <;> exact ⟨fun _ => rfl, List.prefix_rfl⟩
  | dispatcherAdd d g =>
      simp only [next, dispatcherAdd]
      split_ifs <;> exact ⟨fun _ => rfl, List.prefix_rfl⟩
  | groupRemove | dispatcherRemove => exact ⟨fun _ => rfl, List.prefix_rfl⟩

end World

namespace Dispatching
variable [Fintype ι]

theorem extends_next (s : Dispatching ι) (e : Step ι) : s.world.Extends (s.next e).world := by
  have hshape := step_shape s e
  generalize s.next e = s' at hshape ⊢
  cases hshape with
  | nested | idle | opens => exact .refl s.world
  | @visits d groups v visits seen hpass =>
      unfold World.visit
      split_ifs
      · exact (World.keptBy_extends s.world v.task).update (s.world.extends_emit _) seen
      · exact .refl s.world
  | enters => exact s.world.extends_enterGroup _
  | closes => exact s.world.extends_updateBusy _
  | client e => exact s.world.extends_client e

/-- What a step emits is counted by the views. -/
theorem count_emits (s : Dispatching ι) (e : Step ι) (t : ι) :
    (s.world.view t).finished + (reactive.emits s e).count (.finished t) =
      ((s.next e).world.view t).finished := by
  obtain ⟨signals, hlog⟩ := (s.extends_next e).log
  have hemits : reactive.emits s e = signals := by
    simp only [reactive, ← hlog, List.drop_left]
  rw [hemits]
  simp only [World.view, ← hlog, List.count_append]

/-- The task that the next call of the pass is an `update` of. -/
def updating (s : Dispatching ι) : Option ι :=
  match s.pass with
  | some ⟨_, _, v :: _⟩ => if s.world.isDue v.task then some v.task else none
  | _ => none

/-- What a step means to one task. -/
inductive Move where
  | others
  | updates (seen : Surroundings)
  | completes (p : Pending) (report : Report)
  | loses

def move (s : Dispatching ι) (t : ι) : Step ι → Move
  | .work seen => if s.updating = some t then .updates seen else .others
  | .client ⟨.completes c report, _⟩ =>
      if c.task = t then .completes c.pending report else .others
  | .client ⟨.lost u, _⟩ => if u = t then .loses else .others
  | _ => .others

/-- What a step makes of one task. -/
inductive ViewStep (s : Dispatching ι) (t : ι) : Move → View → Prop
  | others {v : View} : View.OrFailed (s.world.view t) v → ViewStep s t .others v
  | updates (seen : Surroundings) :
      ViewStep s t (.updates seen) (((s.world.emit [.update t]).update seen t).view t)
  | completes (p : Pending) (report : Report) : ⟨t, p⟩ ∈ s.world.calls →
      ViewStep s t (.completes p report) (((s.world.drop ⟨t, p⟩).complete ⟨t, p⟩ report).view t)
  | loses : s.world.enabled (.lost t) → ViewStep s t .loses ((s.world.lose t).view t)

/-- Whatever the others do, a plain task is changed by its own `update`, its own continuations and
the loss of its `auth_user`, or it is failed. -/
theorem step_view (s : Dispatching ι) {e : Step ι} (he : s.enabled e) {t : ι}
    (ht : (s.world.view t).Plain) : ViewStep s t (s.move t e) ((s.next e).world.view t) := by
  have hshape := step_shape s e
  generalize s.next e = s' at hshape ⊢
  cases hshape with
  | nested | opens => exact .others (.refl _)
  | idle seen hpass =>
      have hmove : s.move t (.work seen) = .others := by simp [move, updating, hpass]
      rw [hmove]
      exact .others (.refl _)
  | @visits d groups v visits seen hpass =>
      unfold World.visit
      by_cases hdue : s.world.isDue v.task = true
      · rw [if_pos hdue]
        by_cases hv : v.task = t
        · subst hv
          have hmove : s.move v.task (.work seen) = .updates seen := by
            simp [move, updating, hpass, hdue]
          rw [hmove]
          exact .updates seen
        · have hmove : s.move t (.work seen) = .others := by
            simp [move, updating, hpass, hdue, hv]
          have hsame : (s.world.emit [.update v.task]).view t = s.world.view t :=
            World.view_emit_update s.world v.task t
          rw [hmove]
          exact .others ((World.keptBy_view s.world hv).update (.inl hsame) seen)
      · have hmove : s.move t (.work seen) = .others := by simp [move, updating, hpass, hdue]
        rw [if_neg hdue, hmove]
        exact .others (.refl _)
  | @enters d g groups seen hpass =>
      have hmove : s.move t (.work seen) = .others := by simp [move, updating, hpass]
      rw [hmove]
      exact .others (World.view_enterGroup s.world g t)
  | closes seen hpass =>
      have hmove : s.move t (.work seen) = .others := by simp [move, updating, hpass]
      rw [hmove]
      exact .others (.inl (World.view_updateBusy s.world _ t))
  | client e =>
      obtain ⟨e, hclient⟩ := e
      by_cases hquiet : e.isQuiet = true ∧ ∀ u, e ≠ .lost u
      · have hmove : s.move t (.client ⟨e, hclient⟩) = .others := by
          cases e with
          | lost u => exact absurd rfl (hquiet.2 u)
          | pass | completes | selectDevice => cases hquiet.1
          | _ => rfl
        rw [hmove]
        exact .others (.inl (s.world.view_quiet hquiet.1 hquiet.2 he ht))
      · cases e with
        | pass => cases hclient
        | completes c report =>
            obtain ⟨u, p⟩ := c
            by_cases hu : u = t
            · subst hu
              have hmove : s.move u (.client ⟨.completes ⟨u, p⟩ report, hclient⟩) =
                  .completes p report := if_pos rfl
              rw [hmove]
              exact .completes p report he
            · have hmove : s.move t (.client ⟨.completes ⟨u, p⟩ report, hclient⟩) = .others :=
                if_neg hu
              have hsame : (s.world.drop ⟨u, p⟩).view t = s.world.view t :=
                s.world.view_drop_of_ne hu
              rw [hmove]
              exact .others ((World.keptBy_view s.world hu).complete (.inl hsame) p report)
        | lost u =>
            by_cases hu : u = t
            · subst hu
              have hmove : s.move u (.client ⟨.lost u, hclient⟩) = .loses := if_pos rfl
              rw [hmove]
              exact .loses he
            · have hmove : s.move t (.client ⟨.lost u, hclient⟩) = .others := if_neg hu
              rw [hmove]
              exact .others (.inl (s.world.view_lose_of_ne hu))
        | selectDevice u resolution => exact .others (World.view_selectDevice s.world he ht)
        | _ => exact absurd ⟨rfl, by simp⟩ hquiet

end Dispatching
end GreenWallet.Tasks
