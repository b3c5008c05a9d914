import GreenWallet.Tasks.Completion
import GreenWallet.Tasks.History

/-!
# What an update and a completion write

Every `update` of a task writes the status of this task alone, in one of five ways;
only `LwkCreateSessionTask` and `JadeUnlockTask` can fail at once. A continuation
writes at most one status, which is read off the report: the continuations of
`ConnectTask` and of `JadeUnlockTask` also look at the present status, the others
do not.
-/
namespace GreenWallet.Tasks
open GreenWallet.Library

/-- The status that a resolver stands for when it is started. -/
def Resolution.verdict : Resolution → Option Status
  | .failed _ => some .failed
  | _ => none

namespace World
variable {ι : Type} [Fintype ι] [DecidableEq ι]

omit [Fintype ι] in
theorem alike_setUnlocking (w : World ι) (t : ι) (unlocking : Bool) :
    w.Alike (w.emit [.setUnlocking t unlocking]) := by
  apply Alike.emit w
  simp [Signal.isQuiet]

/-- `update` gives up on the spot: off mainnet, or on a device without an api. -/
def failsAtOnce (w : World ι) (seen : Surroundings) (t : ι) : Bool :=
  match (w.tasks t).type with
  | .lwkCreateSession => w.status t == .ready && !seen.boltzSession && !seen.mainnet
  | .jadeUnlock =>
      w.status t == .ready && seen.device && seen.deviceState != .ready && seen.network && !seen.api
  | _ => false

/-- The ways in which an `update` ends; the flag tells whether the task failed at once. -/
inductive UpdateShape (w : World ι) (t : ι) : Bool → World ι → Prop
  | waits {w' : World ι} : w.Alike w' → UpdateShape w t false w'
  | goesOn {w' : World ι} : (w.setStatus t .active).Alike w' → UpdateShape w t false w'
  | finishes : UpdateShape w t false (w.setStatus t .finished)
  | finishesAtOnce : UpdateShape w t false ((w.setStatus t .active).setStatus t .finished)
  | fails {w' : World ι} : (w.setStatus t .active).Alike w' →
      UpdateShape w t true (w'.setStatus t .failed)

theorem updateShape_stays (w : World ι) (t : ι) : UpdateShape w t false w := .waits (.refl w)

theorem updateShape_launch (w : World ι) (t : ι) (p : Pending) :
    UpdateShape w t false (launch t w p) := .goesOn (alike_start _ t p)

theorem updateShape_whenReady {w : World ι} {t : ι} {can : Bool} {go : World ι → World ι}
    (h : w.status t = .ready → can = true → UpdateShape w t false (go w)) :
    UpdateShape w t false (whenReady t w can go) := by
  unfold whenReady
  split_ifs with hcan
  · exact h hcan.1 hcan.2
  · exact updateShape_stays w t

theorem updateShape_authHandler (w : World ι) (seen : Surroundings) (t : ι) :
    UpdateShape w t false (AuthHandlerTask.update seen t w) :=
  updateShape_whenReady fun _ _ => updateShape_launch w t .call

theorem updateShape_login (w : World ι) (seen : Surroundings) (t : ι) :
    UpdateShape w t false (LoginTask.update seen t w) := by
  unfold LoginTask.update
  split_ifs
  · exact .finishes
  · exact updateShape_authHandler w seen t

theorem updateShape_sendTransaction (w : World ι) (seen : Surroundings) (t : ι) :
    UpdateShape w t false (SendTransactionTask.update seen t w) := by
  unfold SendTransactionTask.update
  split_ifs
  · exact .finishesAtOnce
  · exact updateShape_authHandler w seen t

theorem updateShape_connect (w : World ι) (seen : Surroundings) (t : ι) (timeout : Int) :
    UpdateShape w t false (ConnectTask.update seen t w timeout) := by
  unfold ConnectTask.update
  cases w.status t with
  | ready =>
      dsimp only
      split_ifs
      · exact updateShape_stays w t
      · exact .finishesAtOnce
      · exact .goesOn ((alike_start _ t _).trans (alike_start _ t _))
      · exact .goesOn (alike_start _ t _)
  | active =>
      dsimp only
      split_ifs
      · exact .finishes
      · exact updateShape_stays w t
  | finished | failed => exact updateShape_stays w t

theorem updateShape_wallet (w : World ι) (seen : Surroundings) (t : ι) :
    UpdateShape w t false (whenReady t w seen.wallet fun w =>
      if seen.watchOnly then w.setStatus t .finished
      else if seen.ready then launch t w .work
      else w) := by
  apply updateShape_whenReady
  intro _ _
  split_ifs
  · exact .finishes
  · exact updateShape_launch w t .work
  · exact updateShape_stays w t

theorem updateShape_loadAssets (w : World ι) (seen : Surroundings) (t : ι) :
    UpdateShape w t false (LoadAssetsTask.update seen t w) := by
  apply updateShape_whenReady
  intro _ _
  split_ifs
  · exact updateShape_launch w t .work
  · exact .finishes

theorem updateShape_syncAccounts (w : World ι) (seen : Surroundings) (t : ι) :
    UpdateShape w t false (SyncAccountsTask.update seen t w) := by
  unfold SyncAccountsTask.update
  cases hs : w.status t with
  | ready =>
      simp only [if_true]
      split_ifs
      · exact .finishesAtOnce
      · exact .goesOn (.refl _)
  | active =>
      simp only [reduceCtorEq, if_false, hs, true_and]
      split_ifs
      · exact .finishes
      · exact updateShape_stays w t
  | finished | failed =>
      simp only [reduceCtorEq, if_false, hs, false_and]
      exact updateShape_stays w t

theorem updateShape_jadeSetup (w : World ι) (seen : Surroundings) (t : ι) :
    UpdateShape w t false (JadeSetupTask.update seen t w) := by
  apply updateShape_whenReady
  intro _ _
  split_ifs
  · exact .finishes
  · exact .goesOn ((alike_setUnlocking _ t true).trans (alike_start _ t _))
  · exact updateShape_stays w t

theorem updateShape_jadeIdentify (w : World ι) (seen : Surroundings) (t : ι) :
    UpdateShape w t false (JadeIdentifyTask.update seen t w) := by
  apply updateShape_whenReady
  intro _ _
  cases seen.deviceState with
  | locked => exact updateShape_stays w t
  | temporary => exact .waits (alike_start w t _)
  | uninitialized | unsaved | ready => exact updateShape_launch w t .work

theorem updateShape_jadeUnlock {w : World ι} (seen : Surroundings) {t : ι}
    (htype : (w.tasks t).type = .jadeUnlock) :
    UpdateShape w t (w.failsAtOnce seen t) (JadeUnlockTask.update seen t w) := by
  have hquiet := alike_setUnlocking (w.setStatus t .active) t true
  rw [JadeUnlockTask.update, whenReady, failsAtOnce, htype]
  by_cases hcan : w.status t = .ready ∧ seen.device = true
  · rw [if_pos hcan]
    simp only [hcan.1, hcan.2]
    split_ifs with hstate hnetwork hapi
    · simpa [hstate] using UpdateShape.finishes
    · simpa [hapi] using
        UpdateShape.goesOn (hquiet.trans ((alike_start _ t .disconnected).trans
          (alike_start _ t .work)))
    · have hlocked : (seen.deviceState != .ready) = true := by simpa using hstate
      simpa [hlocked, hnetwork, hapi] using UpdateShape.fails hquiet
    · simpa [hnetwork] using updateShape_stays w t
  · rw [if_neg hcan]
    have hflag : (w.status t == .ready && seen.device) = false := by
      simpa using hcan
    simpa [hflag] using updateShape_stays w t

theorem updateShape_lwkCreateSession {w : World ι} (seen : Surroundings) {t : ι}
    (htype : (w.tasks t).type = .lwkCreateSession) :
    UpdateShape w t (w.failsAtOnce seen t) (LwkCreateSessionTask.update seen t w) := by
  rw [LwkCreateSessionTask.update, whenReady, failsAtOnce, htype]
  by_cases hready : w.status t = .ready
  · simp only [hready, and_self, if_true]
    split_ifs with hsession hmainnet
    · simpa [hsession] using UpdateShape.finishesAtOnce
    · simpa [hmainnet] using UpdateShape.goesOn (alike_start (w.setStatus t .active) t .work)
    · simpa [hsession, hmainnet] using UpdateShape.fails (Alike.refl (w.setStatus t .active))
  · have hflag : (w.status t == .ready) = false := by simpa using hready
    simpa [hready, hflag] using updateShape_stays w t

theorem update_shape (w : World ι) (seen : Surroundings) (t : ι) :
    UpdateShape w t (w.failsAtOnce seen t) (w.update seen t) := by
  unfold update
  cases htype : (w.tasks t).type
  case jadeUnlock => exact updateShape_jadeUnlock seen htype
  case lwkCreateSession => exact updateShape_lwkCreateSession seen htype
  all_goals simp only [failsAtOnce, htype]
  case connect timeout => exact updateShape_connect w seen t timeout
  case login => exact updateShape_login w seen t
  case sendTransaction => exact updateShape_sendTransaction w seen t
  case loadTwoFactorConfig | getWatchOnlyDetails => exact updateShape_wallet w seen t
  case loadCurrencies | sendNLocktimes | getSystemMessage | httpRequest =>
    exact updateShape_whenReady fun _ _ => updateShape_launch w t .work
  case loadAssets => exact updateShape_loadAssets w seen t
  case syncAccounts => exact updateShape_syncAccounts w seen t
  case loadPayments => exact updateShape_whenReady fun _ _ => updateShape_launch w t _
  case jadeSetup => exact updateShape_jadeSetup w seen t
  case jadeIdentify => exact updateShape_jadeIdentify w seen t
  case signupCreateWallet | signupPersistWallet | watchOnlyCreateWallet =>
    exact updateShape_whenReady fun _ _ => .finishesAtOnce
  all_goals exact updateShape_authHandler w seen t

/-- The status that an answer of the auth handler stands for. -/
def handlerVerdict (authHandler : Bool) (report : Report) : Option Status :=
  match authHandler, report.status with
  | false, _ => some .finished
  | true, none => some .failed
  | true, some .done => some .finished
  | true, some (.error _) => some .failed
  | true, some .requiredData => if report.device then report.resolution.verdict else none
  | true, some _ => none

/-- The status that a report stands for: what the continuation writes, if it does. -/
def verdict (w : World ι) (c : Call ι) (report : Report) : Option Status :=
  let t := c.task
  let outcome := if report.ok then some Status.finished else some .failed
  match c.pending with
  | .call =>
      if report.ok then
        handlerVerdict (report.handler || (w.tasks t).authHandler) report
      else if report.details = "id_you_are_not_connected" then some .ready
      else some .failed
  | .requestCode _ | .resolveCode _ | .handlerCall =>
      if report.ok then handlerVerdict (w.tasks t).authHandler report else some .failed
  | .resolver => if report.ok then none else some .failed
  | .connect =>
      if w.status t ≠ .active then none
      else if "session already connected".toList <:+: report.details.toList then some .finished
      else if report.details ≠ "" then some .failed
      else none
  | .connectTimeout =>
      if w.status t = .active ∧ report.connected = false then some .failed else none
  | .work =>
      match (w.tasks t).type with
      | .loadTwoFactorConfig | .loadCurrencies => some .finished
      | .jadeUnlock => if w.status t ≠ .active then none else outcome
      | _ => outcome
  | .fetch _ =>
      match report.page with
      | some page => if page.remaining > 0 then none else some .finished
      | none => some .finished
  | .identifyUser => none
  | .disconnected => if w.status t ≠ .active then none else some .failed

/-- The task is given the status, if there is one. -/
def conclude (w : World ι) (t : ι) : Option Status → World ι
  | none => w
  | some s => w.setStatus t s

/-- The world is left as it was but for one status. -/
def Concludes (w : World ι) (t : ι) (verdict : Option Status) (w' : World ι) : Prop :=
  ∃ w₁ : World ι, w.Alike w₁ ∧ (w₁.conclude t verdict).Alike w'

theorem concludes_none {w w' : World ι} {t : ι} (h : w.Alike w') : w.Concludes t none w' :=
  ⟨w', h, .refl w'⟩

theorem concludes_some (w : World ι) (t : ι) (s : Status) :
    w.Concludes t (some s) (w.setStatus t s) := ⟨w, .refl w, .refl _⟩

theorem Alike.concludes {w w₁ w' : World ι} {t : ι} {verdict : Option Status} (h : w.Alike w₁)
    (hc : w₁.Concludes t verdict w') : w.Concludes t verdict w' := by
  obtain ⟨w₂, h₂, hw'⟩ := hc
  exact ⟨w₂, h.trans h₂, hw'⟩

theorem Concludes.alike {w w' w'' : World ι} {t : ι} {verdict : Option Status}
    (hc : w.Concludes t verdict w') (h : w'.Alike w'') : w.Concludes t verdict w'' := by
  obtain ⟨w₁, h₁, hw'⟩ := hc
  exact ⟨w₁, h₁, hw'.trans h⟩

theorem concludes_failed (w : World ι) (t : ι) (error : String) :
    w.Concludes t (some .failed) ((w.setError t error).setStatus t .failed) :=
  (alike_setError w t error).concludes (concludes_some _ t .failed)

theorem concludes_resolverFailed (w : World ι) (t : ι) (error : String) :
    w.Concludes t (some .failed) (AuthHandlerTask.resolverFailed t w error) :=
  (alike_setResolver w t false).concludes (concludes_failed _ t error)

omit [Fintype ι] in
theorem alike_resolverResolved (w : World ι) (t : ι) (code : String) :
    w.Alike (AuthHandlerTask.resolverResolved t w code) :=
  (alike_setResolver w t false).trans (alike_start _ t _)

theorem concludes_startResolver (w : World ι) (t : ι) (resolution : Resolution) :
    w.Concludes t resolution.verdict (AuthHandlerTask.startResolver t w resolution) := by
  unfold AuthHandlerTask.startResolver
  cases resolution with
  | later => exact concludes_none ((alike_start w t _).trans (alike_setResolver _ t true))
  | resolved code =>
      exact concludes_none ((alike_resolverResolved w t code).trans (alike_setResolver _ t true))
  | failed error => exact (concludes_resolverFailed w t error).alike (alike_setResolver _ t true)

theorem concludes_next (w : World ι) (t : ι) (report : Report) :
    w.Concludes t (handlerVerdict (w.tasks t).authHandler report)
      (AuthHandlerTask.next t w report) := by
  unfold AuthHandlerTask.next handlerVerdict
  cases hh : (w.tasks t).authHandler with
  | false => exact concludes_some w t .finished
  | true =>
      rcases report.status with _ | status
      · exact concludes_some w t .failed
      cases status with
      | done => exact concludes_some w t .finished
      | error error => exact concludes_failed w t error
      | requestCode methods =>
          apply concludes_none
          simp only [if_true, AuthHandlerTask.handleRequestCode]
          split
          · exact alike_start w t _
          · exact alike_setPrompt w t _
      | resolveCode method => exact concludes_none (alike_setPrompt w t _)
      | requiredData =>
          simp only [if_true, AuthHandlerTask.handleRequiredData]
          split_ifs
          · exact concludes_startResolver w t report.resolution
          · exact concludes_none (alike_setPrompt w t _)
      | call => exact concludes_none (alike_start w t _)

theorem concludes_called (w : World ι) (t : ι) (report : Report) :
    w.Concludes t (w.verdict ⟨t, .call⟩ report) (AuthHandlerTask.called t w report) := by
  simp only [verdict, AuthHandlerTask.called]
  by_cases hok : report.ok = true
  · rw [if_pos hok, if_pos hok]
    by_cases hh : report.handler = true
    · have hset : ((w.setAuthHandler t).tasks t).authHandler = true := by
        simp [setAuthHandler, setTask]
      have hnext := concludes_next (w.setAuthHandler t) t report
      rw [hset] at hnext
      simpa [hh] using (alike_setAuthHandler w t).concludes hnext
    · simpa [hh] using concludes_next w t report
  · rw [if_neg hok, if_neg hok]
    split_ifs
    · exact concludes_some w t .ready
    · exact concludes_failed w t report.details

theorem concludes_stepped (w : World ι) (t : ι) (report : Report) :
    w.Concludes t
      (if report.ok then handlerVerdict (w.tasks t).authHandler report else some .failed)
      (AuthHandlerTask.stepped t w report) := by
  unfold AuthHandlerTask.stepped
  split_ifs
  · exact concludes_next w t report
  · exact concludes_some w t .failed

theorem concludes_resolved (w : World ι) (t : ι) (report : Report) :
    w.Concludes t (if report.ok then none else some .failed)
      (AuthHandlerTask.resolved t w report) := by
  unfold AuthHandlerTask.resolved
  split_ifs
  · exact concludes_none (alike_resolverResolved w t report.details)
  · exact concludes_resolverFailed w t report.details

theorem concludes_connected (w : World ι) (t : ι) (report : Report) :
    w.Concludes t (w.verdict ⟨t, .connect⟩ report) (ConnectTask.connected t w report) := by
  simp only [verdict, ConnectTask.connected]
  split_ifs
  · exact concludes_none (.refl w)
  · exact concludes_some w t .finished
  · exact concludes_failed w t report.details
  · exact concludes_none (alike_setError w t _)

theorem concludes_timedOut (w : World ι) (t : ι) (report : Report) :
    w.Concludes t (w.verdict ⟨t, .connectTimeout⟩ report) (ConnectTask.timedOut t w report) := by
  simp only [verdict, ConnectTask.timedOut]
  split_ifs
  · exact concludes_failed w t _
  · exact concludes_none (.refl w)

theorem concludes_disconnected (w : World ι) (t : ι) (report : Report) :
    w.Concludes t (w.verdict ⟨t, .disconnected⟩ report) (JadeUnlockTask.disconnected t w) := by
  simp only [verdict, JadeUnlockTask.disconnected]
  split_ifs
  · exact concludes_none (.refl w)
  · exact (alike_setUnlocking w t false).concludes (concludes_some _ t .failed)

theorem concludes_fetched (w : World ι) (t : ι) (report : Report) (key : String) :
    w.Concludes t (w.verdict ⟨t, .fetch key⟩ report) (LoadPaymentsTask.fetched t w report key) := by
  simp only [verdict, LoadPaymentsTask.fetched]
  cases report.page with
  | none => exact concludes_some w t .finished
  | some page =>
      dsimp only
      split_ifs
      · exact concludes_none (alike_start w t _)
      · exact concludes_some w t .finished

theorem concludes_outcome (w : World ι) (t : ι) (ok : Bool) :
    w.Concludes t (if ok then some .finished else some .failed)
      (w.setStatus t (if ok then .finished else .failed)) := by
  cases ok
  · exact concludes_some w t .failed
  · exact concludes_some w t .finished

theorem concludes_worked (w : World ι) (t : ι) (report : Report) :
    w.Concludes t (w.verdict ⟨t, .work⟩ report) (worked t w report) := by
  simp only [verdict, worked]
  cases (w.tasks t).type
  case loadTwoFactorConfig | loadCurrencies => exact concludes_some w t .finished
  case sendNLocktimes =>
    simp only [SendNLocktimesTask.sent]
    split_ifs
    · exact concludes_some w t .finished
    · exact concludes_failed w t report.details
  case jadeSetup => exact (alike_setUnlocking w t false).concludes (concludes_outcome _ t report.ok)
  case jadeUnlock =>
    simp only [JadeUnlockTask.answered]
    by_cases hactive : w.status t ≠ .active
    · rw [if_pos hactive, if_pos hactive]
      exact concludes_none (.refl w)
    · rw [if_neg hactive, if_neg hactive]
      exact (alike_setUnlocking w t false).concludes (concludes_outcome _ t report.ok)
  all_goals exact concludes_outcome w t report.ok

theorem complete_concludes (w : World ι) (c : Call ι) (report : Report) :
    w.Concludes c.task (w.verdict c report) (w.complete c report) := by
  obtain ⟨t, pending⟩ := c
  cases pending with
  | call => exact concludes_called w t report
  | requestCode | resolveCode | handlerCall => exact concludes_stepped w t report
  | resolver => exact concludes_resolved w t report
  | connect => exact concludes_connected w t report
  | connectTimeout => exact concludes_timedOut w t report
  | work => exact concludes_worked w t report
  | fetch key => exact concludes_fetched w t report key
  | identifyUser => exact concludes_none (.refl w)
  | disconnected => exact concludes_disconnected w t report

end World
end GreenWallet.Tasks
