import GreenWallet.Tasks.Propagation
import GreenWallet.Tasks.Completion

/-!
# What tasks leave alone

A task writes statuses, its own and through `Failed` those of others, waits for calls, and
keeps its flag and its own data: what these keep, every `update` and every continuation
keeps. It never touches a group or a dispatcher, and none of what these emit comes from it:
the groups, the dispatchers and their part of the log are the same after as before.
-/
namespace GreenWallet.Tasks

variable {ι : Type}

/-- The signal comes from a task, not from a group or a dispatcher. -/
def Signal.isOfTask : Signal ι → Bool
  | .statusChanged .. | .finished _ | .failed .. | .setUnlocking .. => true
  | _ => false

namespace World

/-- The groups, the dispatchers, and what they have emitted. -/
structure OffTasks (ι : Type) where
  groups : GroupId → TaskGroup ι
  dispatchers : DispatcherId → TaskDispatcher
  log : List (Signal ι)

def offTasks (w : World ι) : OffTasks ι :=
  { groups := w.groups
    dispatchers := w.dispatchers
    log := w.log.filter fun signal => !signal.isOfTask }

@[simp] theorem offTasks_start (w : World ι) (t : ι) (p : Pending) :
    (w.start t p).offTasks = w.offTasks := rfl

theorem offTasks_emit (w : World ι) {signals : List (Signal ι)}
    (h : ∀ signal ∈ signals, signal.isOfTask = true) : (w.emit signals).offTasks = w.offTasks := by
  have hnone : signals.filter (fun signal => !signal.isOfTask) = [] := by
    apply List.filter_eq_nil_iff.mpr
    intro signal hsignal
    simp [h signal hsignal]
  simp only [offTasks, emit, List.filter_append, hnone, List.append_nil]

@[simp] theorem offTasks_setUnlocking (w : World ι) (t : ι) (unlocking : Bool) :
    (w.emit [.setUnlocking t unlocking]).offTasks = w.offTasks := by
  apply offTasks_emit
  simp [Signal.isOfTask]

variable [DecidableEq ι]

@[simp] theorem offTasks_setTask (w : World ι) (t : ι) (f : Task ι → Task ι) :
    (w.setTask t f).offTasks = w.offTasks := rfl

@[simp] theorem offTasks_drop (w : World ι) (c : Call ι) : (w.drop c).offTasks = w.offTasks := rfl

theorem mem_calls_of_mem_drop {w : World ι} {c other : Call ι} (h : other ∈ (w.drop c).calls) :
    other ∈ w.calls := by
  simp only [World.drop] at h
  split_ifs at h
  · exact List.mem_of_mem_erase (List.mem_of_mem_erase h)
  · exact List.mem_of_mem_erase h

theorem mem_calls_of_mem_lose {w : World ι} {t : ι} {c : Call ι} (h : c ∈ (w.lose t).calls) :
    c ∈ w.calls := by
  cases hauth : (w.tasks t).type.authUser with
  | none => simpa [lose, hauth] using h
  | some p =>
      simp only [lose, hauth, Option.elim_some] at h
      exact List.mem_of_mem_erase h

theorem offTasks_write (w : World ι) (t : ι) (s : Status) :
    (w.write t s).offTasks = w.offTasks := by
  unfold write
  rw [offTasks_emit, offTasks_setTask]
  intro signal hsignal
  cases s <;> simp [outcomeSignal] at hsignal <;> rcases hsignal with rfl | rfl <;> rfl

variable [Fintype ι]

@[simp] theorem offTasks_setStatus (w : World ι) (t : ι) (s : Status) :
    (w.setStatus t s).offTasks = w.offTasks := by
  apply setStatus_invariant (I := fun w' => w'.offTasks = w.offTasks)
  · intro w' t s h
    rw [offTasks_write, h]
  · rfl

/-- Kept by whatever a task does, but for what concerns its resolver. -/
structure KeptBut (t : ι) (I : World ι → Prop) : Prop where
  setStatus : ∀ w s, I w → I (w.setStatus t s)
  start : ∀ w p, p ≠ .resolver → I w → I (w.start t p)
  setUnlocking : ∀ w unlocking, I w → I (w.emit [.setUnlocking t unlocking])
  setTask : ∀ w f, (∀ task : Task ι, (f task).type = task.type ∧ (f task).resolver = task.resolver) →
    I w → I (w.setTask t f)

/-- Kept by whatever a task does: by a status of it, a call of it, its flag and its own data.
The class of a task is no data: it never changes. -/
structure KeptBy (t : ι) (I : World ι → Prop) : Prop where
  setStatus : ∀ w s, I w → I (w.setStatus t s)
  start : ∀ w p, I w → I (w.start t p)
  setUnlocking : ∀ w unlocking, I w → I (w.emit [.setUnlocking t unlocking])
  setTask : ∀ w f, (∀ task : Task ι, (f task).type = task.type) → I w → I (w.setTask t f)

/-- Whether the continuation of a call goes on to the status of the handler. -/
def asksHandler (w : World ι) (c : Call ι) (report : Report) : Bool :=
  match c.pending with
  | .call => report.ok && (report.handler || (w.tasks c.task).authHandler)
  | .requestCode _ | .resolveCode _ | .handlerCall => report.ok && (w.tasks c.task).authHandler
  | _ => false

/-- The resolver that the continuation of a call starts, if it does. -/
def resolverOf (w : World ι) (c : Call ι) (report : Report) : Option Resolution :=
  if w.asksHandler c report = true ∧ report.status = some .requiredData ∧ report.device = true then
    some report.resolution
  else none

namespace KeptBut
variable {t : ι} {I : World ι → Prop} {w : World ι}

omit [DecidableEq ι] [Fintype ι] in
theorem whenReady {can : Bool} {go : World ι → World ι} (h : I w) (hgo : I (go w)) :
    I (whenReady t w can go) := by
  unfold Tasks.whenReady
  split_ifs
  · exact hgo
  · exact h

variable (hI : KeptBut t I)
include hI

theorem launch (h : I w) {p : Pending} (hp : p ≠ .resolver) : I (launch t w p) :=
  hI.start _ p hp (hI.setStatus w .active h)

theorem finishAtOnce (h : I w) : I (finishAtOnce t w) :=
  hI.setStatus _ .finished (hI.setStatus w .active h)

theorem authHandler (h : I w) (seen : Surroundings) : I (AuthHandlerTask.update seen t w) :=
  whenReady h (hI.launch h (by decide))

theorem connect (h : I w) (seen : Surroundings) (timeout : Int) :
    I (ConnectTask.update seen t w timeout) := by
  have hactive := hI.setStatus w .active h
  unfold ConnectTask.update
  split
  · split_ifs
    · exact h
    · exact hI.finishAtOnce h
    · exact hI.start _ .connect (by decide) (hI.start _ .connectTimeout (by decide) hactive)
    · exact hI.start _ .connect (by decide) hactive
  · split_ifs
    · exact hI.setStatus w .finished h
    · exact h
  · exact h

theorem update (h : I w) (seen : Surroundings) : I (w.update seen t) := by
  have hactive := hI.setStatus w .active h
  have hfinished := hI.setStatus w .finished h
  unfold World.update
  cases (w.tasks t).type
  case connect timeout => exact hI.connect h seen timeout
  case login =>
    unfold LoginTask.update
    split_ifs
    · exact hfinished
    · exact hI.authHandler h seen
  case sendTransaction =>
    unfold SendTransactionTask.update
    split_ifs
    · exact hI.finishAtOnce h
    · exact hI.authHandler h seen
  case loadTwoFactorConfig | getWatchOnlyDetails =>
    apply whenReady h
    split_ifs
    · exact hfinished
    · exact hI.launch h (by decide)
    · exact h
  case loadCurrencies | sendNLocktimes | getSystemMessage | httpRequest | loadPayments =>
    exact whenReady h (hI.launch h (by decide))
  case loadAssets =>
    apply whenReady h
    split_ifs
    · exact hI.launch h (by decide)
    · exact hfinished
  case syncAccounts =>
    simp only [SyncAccountsTask.update]
    split_ifs
    · exact hI.setStatus _ .finished hactive
    · exact hactive
    · exact hfinished
    · exact h
  case jadeSetup =>
    apply whenReady h
    split_ifs
    · exact hfinished
    · exact hI.start _ .work (by decide) (hI.setUnlocking _ true hactive)
    · exact h
  case jadeUnlock =>
    apply whenReady h
    simp only
    split_ifs
    · exact hfinished
    · exact hI.start _ .work (by decide)
        (hI.start _ .disconnected (by decide) (hI.setUnlocking _ true hactive))
    · exact hI.setStatus _ .failed (hI.setUnlocking _ true hactive)
    · exact h
  case jadeIdentify =>
    apply whenReady h
    split
    · exact h
    · exact hI.start w .identifyUser (by decide) h
    · exact hI.launch h (by decide)
  case lwkCreateSession =>
    apply whenReady h
    simp only
    split_ifs
    · exact hI.setStatus _ .finished hactive
    · exact hI.start _ .work (by decide) hactive
    · exact hI.setStatus _ .failed hactive
  case signupCreateWallet | signupPersistWallet | watchOnlyCreateWallet =>
    exact whenReady h (hI.finishAtOnce h)
  all_goals exact hI.authHandler h seen

theorem setAuthHandler (h : I w) : I (w.setAuthHandler t) :=
  hI.setTask w _ (fun _ => ⟨rfl, rfl⟩) h

theorem fails (h : I w) (error : String) : I ((w.setError t error).setStatus t .failed) :=
  hI.setStatus _ .failed (hI.setTask w _ (fun _ => ⟨rfl, rfl⟩) h)

theorem next (h : I w) (report : Report)
    (hresolver : (w.tasks t).authHandler = true → report.status = some .requiredData →
      report.device = true → I (AuthHandlerTask.startResolver t w report.resolution)) :
    I (AuthHandlerTask.next t w report) := by
  unfold AuthHandlerTask.next
  split_ifs with hhandler
  · split
    · exact hI.setStatus w .failed h
    · exact hI.setStatus w .finished h
    · exact hI.fails h _
    · unfold AuthHandlerTask.handleRequestCode
      split
      · exact hI.start w _ Pending.noConfusion h
      · exact hI.setTask w _ (fun _ => ⟨rfl, rfl⟩) h
    · unfold AuthHandlerTask.promptCode
      exact hI.setTask w _ (fun _ => ⟨rfl, rfl⟩) h
    · rename_i hstatus
      unfold AuthHandlerTask.handleRequiredData
      split_ifs with hdevice
      · exact hresolver hhandler hstatus hdevice
      · exact hI.setTask w _ (fun _ => ⟨rfl, rfl⟩) h
    · exact hI.start w .handlerCall Pending.noConfusion h
  · exact hI.setStatus w .finished h

theorem stepped (h : I w) (report : Report)
    (hresolver : report.ok = true → (w.tasks t).authHandler = true →
      report.status = some .requiredData → report.device = true →
        I (AuthHandlerTask.startResolver t w report.resolution)) :
    I (AuthHandlerTask.stepped t w report) := by
  unfold AuthHandlerTask.stepped
  split_ifs with hok
  · exact hI.next h report (hresolver hok)
  · exact hI.setStatus w .failed h

theorem worked (h : I w) (report : Report) : I (worked t w report) := by
  unfold Tasks.worked
  split
  · exact hI.setStatus w .finished h
  · exact hI.setStatus w .finished h
  · unfold SendNLocktimesTask.sent
    split_ifs
    · exact hI.setStatus w .finished h
    · exact hI.fails h report.details
  · exact hI.setStatus _ _ (hI.setUnlocking w false h)
  · unfold JadeUnlockTask.answered
    split_ifs
    · exact h
    · exact hI.setStatus _ .finished (hI.setUnlocking w false h)
    · exact hI.setStatus _ .failed (hI.setUnlocking w false h)
  · exact hI.setStatus w _ h

/-- A continuation, unless it is that of a resolver. -/
theorem complete (h : I w) {p : Pending} (hp : p ≠ .resolver) (report : Report)
    (hresolver : ∀ w' resolution, I w' → w.resolverOf ⟨t, p⟩ report = some resolution →
      I (AuthHandlerTask.startResolver t w' resolution)) : I (w.complete ⟨t, p⟩ report) := by
  unfold World.complete
  cases p with
  | call =>
      simp only [AuthHandlerTask.called]
      split_ifs with hok hhandler
      · refine hI.next (hI.setAuthHandler h) report fun _ hstatus hdevice => ?_
        exact hresolver _ _ (hI.setAuthHandler h)
          (if_pos ⟨by simp [asksHandler, hok, hhandler], hstatus, hdevice⟩)
      · refine hI.next h report fun hauth hstatus hdevice => ?_
        exact hresolver w _ h (if_pos ⟨by simp [asksHandler, hok, hauth], hstatus, hdevice⟩)
      · exact hI.setStatus w .ready h
      · exact hI.fails h report.details
  | requestCode | resolveCode | handlerCall =>
      refine hI.stepped h report fun hok hauth hstatus hdevice => ?_
      exact hresolver w _ h (if_pos ⟨by simp [asksHandler, hok, hauth], hstatus, hdevice⟩)
  | resolver => exact absurd rfl hp
  | connect =>
      simp only [ConnectTask.connected]
      split_ifs
      · exact h
      · exact hI.setStatus w .finished h
      · exact hI.fails h report.details
      · exact hI.setTask w _ (fun _ => ⟨rfl, rfl⟩) h
  | connectTimeout =>
      simp only [ConnectTask.timedOut]
      split_ifs
      · exact hI.fails h "timeout error"
      · exact h
  | work => exact hI.worked h report
  | fetch key =>
      simp only [LoadPaymentsTask.fetched]
      split
      · split_ifs
        · exact hI.start w _ Pending.noConfusion h
        · exact hI.setStatus w .finished h
      · exact hI.setStatus w .finished h
  | identifyUser => exact h
  | disconnected =>
      simp only [JadeUnlockTask.disconnected]
      split_ifs
      · exact h
      · exact hI.setStatus _ .failed (hI.setUnlocking w false h)

end KeptBut

namespace KeptBy
variable {t : ι} {I : World ι → Prop} {w : World ι} (hI : KeptBy t I)
include hI

theorem but : KeptBut t I where
  setStatus := hI.setStatus
  start w p _ := hI.start w p
  setUnlocking := hI.setUnlocking
  setTask w f hf := hI.setTask w f fun task => (hf task).1

theorem update (h : I w) (seen : Surroundings) : I (w.update seen t) := hI.but.update h seen

theorem setResolver (h : I w) (resolver : Bool) : I (w.setResolver t resolver) :=
  hI.setTask w _ (fun _ => rfl) h

theorem resolverResolved (h : I w) (code : String) :
    I (AuthHandlerTask.resolverResolved t w code) := hI.start _ _ (hI.setResolver h false)

theorem resolverFailed (h : I w) (error : String) : I (AuthHandlerTask.resolverFailed t w error) :=
  hI.but.fails (hI.setResolver h false) error

theorem startResolver (h : I w) (resolution : Resolution) :
    I (AuthHandlerTask.startResolver t w resolution) := by
  unfold AuthHandlerTask.startResolver
  cases resolution with
  | later => exact hI.setResolver (hI.start w .resolver h) true
  | resolved code => exact hI.setResolver (hI.resolverResolved h code) true
  | failed error => exact hI.setResolver (hI.resolverFailed h error) true

theorem complete (h : I w) (p : Pending) (report : Report) : I (w.complete ⟨t, p⟩ report) := by
  by_cases hp : p = .resolver
  · subst hp
    unfold World.complete AuthHandlerTask.resolved
    split_ifs
    · exact hI.resolverResolved h report.details
    · exact hI.resolverFailed h report.details
  · exact hI.but.complete h hp report fun w' resolution hw' _ => hI.startResolver hw' resolution

end KeptBy

theorem keptBy_offTasks (w : World ι) (t : ι) : KeptBy t fun w' => w'.offTasks = w.offTasks where
  setStatus w' s h := (offTasks_setStatus w' t s).trans h
  start _ _ h := h
  setUnlocking w' unlocking h := (offTasks_setUnlocking w' t unlocking).trans h
  setTask _ _ _ h := h

/-- An `update` leaves groups and dispatchers alone. -/
theorem offTasks_update (w : World ι) (seen : Surroundings) (t : ι) :
    (w.update seen t).offTasks = w.offTasks := (keptBy_offTasks w t).update rfl seen

/-- A continuation leaves groups and dispatchers alone. -/
theorem offTasks_complete (w : World ι) (c : Call ι) (report : Report) :
    (w.complete c report).offTasks = w.offTasks :=
  (keptBy_offTasks w c.task).complete rfl c.pending report

theorem offTasks_startResolver (w : World ι) (t : ι) (resolution : Resolution) :
    (AuthHandlerTask.startResolver t w resolution).offTasks = w.offTasks :=
  (keptBy_offTasks w t).startResolver rfl resolution

end World
end GreenWallet.Tasks
