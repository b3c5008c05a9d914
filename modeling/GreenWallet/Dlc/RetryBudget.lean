import GreenWallet.Dlc.Failures

/-!
# The retry budget

While the bound stays what it is, every failed submission costs its operation
one retry until `m_max_retries` are used up, and only then fails it. The count
survives a re-tracking of the order and is cleared when it is untracked.

An answer about an order that is not tracked is dropped, if it names the order or
the DLC. A failure names nothing, so the failure of a request made for an order
that is gone may still reach others.
-/
namespace GreenWallet.Dlc
open GreenWallet.Library
open Std (ExtTreeMap)

/-- What is kept of one operation: its count is in bounds, and goes with it. -/
structure Cell.Budget (maxRetries : Int) (c : Cell) : Prop where
  bounded : ∀ count, c.retryCount = some count → 0 ≤ count ∧ count ≤ maxRetries
  tracked : c.retryCount.isSome = true → c.operation.isSome = true

def Effect.isRetry : Effect → Bool
  | .emit _ (.operationRetrying ..) => true
  | _ => false

namespace Cell
variable {maxRetries : Int} {k : String} {c : Cell} {i : Input}

theorem Budget.getD (h : c.Budget maxRetries) (hM : 0 ≤ maxRetries) :
    0 ≤ c.retryCount.getD 0 ∧ c.retryCount.getD 0 ≤ maxRetries := by
  cases hc : c.retryCount with
  | none => exact ⟨Int.le_refl 0, hM⟩
  | some count => exact h.bounded count hc

theorem react_retryCount (op : OrderOperation)
    (hsubmit : ∀ submitting awaiting text error, i ≠ .submitFailed submitting awaiting text error) :
    (react maxRetries k op c.retryCount i).retryCount = c.retryCount := by
  cases i with
  | submitFailed submitting awaiting text error => exact (hsubmit _ _ _ _ rfl).elim
  | submitAccept signatures | signSubmitted response | detail detail
  | contextFailed awaiting error =>
      simp only [react]
      split_ifs <;> rfl
  | _ => rfl

theorem budget_step (hM : 0 ≤ maxRetries) (h : c.Budget maxRetries) :
    (c.step maxRetries k i).1.Budget maxRetries := by
  have hcount := h.getD hM
  cases i with
  | track order =>
      simp only [step, track]
      split_ifs <;> exact ⟨h.bounded, fun _ => rfl⟩
  | untrack => exact ⟨by simp [step], by simp [step]⟩
  | submitFailed submitting awaiting text error =>
      cases hop : c.operation with
      | none => simpa only [step, hop] using h
      | some op =>
          simp only [step, hop, react]
          split_ifs with hs hlt
          · refine ⟨?_, fun _ => rfl⟩
            rintro count ⟨⟩
            omega
          · refine ⟨?_, fun _ => rfl⟩
            rintro count ⟨⟩
            exact hcount
          · exact ⟨h.bounded, fun _ => rfl⟩
  | _ =>
      cases hop : c.operation with
      | none => simpa only [step, hop] using h
      | some op =>
          simp only [step, hop]
          refine ⟨?_, fun _ => rfl⟩
          rw [react_retryCount op (by simp)]
          exact h.bounded

/-- A count goes up by the retries an operation tells of. -/
theorem step_retries (hi : i ≠ .untrack) :
    ((c.step maxRetries k i).1.retryCount.getD 0) =
      c.retryCount.getD 0 + ((c.step maxRetries k i).2.countP Effect.isRetry : ℕ) := by
  cases i with
  | track order =>
      simp only [step, track]
      split_ifs <;> simp [announce, Effect.isRetry]
  | untrack => exact (hi rfl).elim
  | submitFailed submitting awaiting text error =>
      cases hop : c.operation with
      | none => simp [step, hop]
      | some op =>
          simp only [step, hop, react]
          split_ifs <;> simp [announce, Effect.isRetry]
  | submitAccept | signSubmitted | detail | contextFailed =>
      cases hop : c.operation with
      | none => simp [step, hop]
      | some op =>
          simp only [step, hop, react]
          split_ifs <;> simp [announce, Effect.isRetry]
  | poll =>
      cases hop : c.operation with
      | none => simp [step, hop]
      | some op => cases hs : op.state <;> simp [step, hop, react, hs, Effect.isRetry]
  | _ =>
      cases hop : c.operation with
      | none => simp [step, hop]
      | some op => simp [step, hop, react, announce, Effect.isRetry]

/-- A failed submission fails an operation that has used up its retries. -/
theorem step_error {op op' : OrderOperation} {submitting awaiting : OperationState}
    {text error : String} (h : c.Budget maxRetries) (hM : 0 ≤ maxRetries)
    (hawaiting : awaiting ≠ .error) (hop : c.operation = some op) (hne : op.state ≠ .error)
    (hop' : (c.step maxRetries k (.submitFailed submitting awaiting text error)).1.operation =
      some op') (hstate : op'.state = .error) : c.retryCount.getD 0 = maxRetries := by
  have hcount := h.getD hM
  simp only [step, hop, react] at hop'
  split_ifs at hop' with hs hlt
  · cases hop'
    exact (hawaiting hstate).elim
  · omega
  · cases hop'
    exact (hne hstate).elim

end Cell
/-- `operation_retrying` for the order. -/
def Effect.retriesOrder (k : String) : Effect → Bool
  | .emit _ (.operationRetrying orderId _) => orderId = k
  | _ => false

def SystemEvent.untracks (k : String) : SystemEvent → Bool
  | .call (.untrackOrder orderId) => orderId = k
  | _ => false

/-- The retries told of an order since it was last untracked. -/
def retriesSinceUntracked (k : String) (steps : List (System × SystemEvent × List Effect)) : ℕ :=
  steps.foldl
    (fun n step =>
      if step.2.1.untracks k then 0 else n + step.2.2.countP (Effect.retriesOrder k))
    0

/-- The machine before the run, with its bound on the retries. -/
def startWith (maxRetries : Int) : System := { machine := { maxRetries := maxRetries } }

namespace System
variable {S : System}

theorem countP_retriesOrder (hS : S.machine.WellKeyed) (e : SystemEvent) (k : String) :
    (S.emits e).countP (Effect.retriesOrder k) =
      ((S.machine.cell k).step S.machine.maxRetries k (S.input e k)).2.countP Effect.isRetry := by
  rw [← emits_filter hS e k, List.countP_filter]
  apply List.countP_congr
  intro x hx
  cases x with
  | call j request => simp [Effect.retriesOrder, Effect.isRetry]
  | emit j signal =>
      cases signal with
      | operationRetrying orderId attempt =>
          have hj : j = orderId := tells_operation hS hx (by simp [Signal.tellsFailureOf])
          simp [Effect.retriesOrder, Effect.isRetry, Effect.operation, hj]
      | _ => simp [Effect.retriesOrder, Effect.isRetry]

theorem untracks_of_input {e : SystemEvent} {k : String} (h : S.input e k = .untrack) :
    e.untracks k = true := by
  obtain ⟨event, hevent, hroute⟩ := input_eq h (by simp)
  rw [DLCStateMachine.route_untrack hroute] at hevent
  rw [SystemEvent.toEvent_untrack hevent]
  simp [SystemEvent.untracks]

theorem input_of_untracks {e : SystemEvent} {k : String} (h : e.untracks k = true) :
    S.input e k = .untrack := by
  cases e with
  | call event =>
      cases event with
      | untrackOrder orderId =>
          have hk : orderId = k := by simpa [SystemEvent.untracks] using h
          simp [input, SystemEvent.toEvent, DLCStateMachine.route, DLCStateMachine.addressed, hk]
      | _ => cases h
  | _ => cases h

theorem next_maxRetries (S : System) {e : SystemEvent}
    (he : ∀ n, e ≠ .call (.setMaxRetries n)) :
    (S.next e).machine.maxRetries = S.machine.maxRetries := by
  change (S.outcome e).machine.maxRetries = S.machine.maxRetries
  cases e with
  | call event =>
      exact DLCStateMachine.handle_maxRetries S.machine fun n hn => he n (by rw [hn])
  | queryDlc dlcId => rfl
  | _ => exact DLCStateMachine.handle_maxRetries S.machine (by simp)

end System

/-- The invariant of a run: bounds, counts and the retries told so far agree. -/
structure Accounted (maxRetries : Int) (es : List SystemEvent) (S : System) : Prop where
  wellKeyed : S.machine.WellKeyed
  constant : S.machine.maxRetries = maxRetries
  budget : ∀ k, (S.machine.cell k).Budget maxRetries
  counted : ∀ k, (retriesSinceUntracked k (negotiation.trace (startWith maxRetries) es) : Int) =
    (S.retryCount k).getD 0

theorem accounted_start (maxRetries : Int) : Accounted maxRetries [] (startWith maxRetries) where
  wellKeyed := System.start_wellKeyed _ _
  constant := rfl
  budget k := by
    have hcell : (startWith maxRetries).machine.cell k = {} := by
      simp [startWith, DLCStateMachine.cell]
    rw [hcell]
    exact ⟨by simp, by simp⟩
  counted k := by
    simp [retriesSinceUntracked, Reactive.trace, System.retryCount, startWith]

theorem accounted_run {maxRetries : Int} (hM : 0 ≤ maxRetries) {es : List SystemEvent}
    (hes : ∀ n, .call (.setMaxRetries n) ∉ es) :
    Accounted maxRetries es (negotiation.run (startWith maxRetries) es) := by
  apply negotiation.run_history (I := Accounted maxRetries) (accounted_start maxRetries)
  intro fs e gs hsplit h
  have he : ∀ n, e ≠ .call (.setMaxRetries n) := by
    rintro n rfl
    exact hes n (by simp [hsplit])
  refine ⟨System.next_wellKeyed e h.wellKeyed, (System.next_maxRetries _ he).trans h.constant,
    ?_, ?_⟩
  · intro k
    change ((System.next _ e).machine.cell k).Budget maxRetries
    rw [System.next_cell h.wellKeyed, h.constant]
    exact Cell.budget_step hM (h.budget k)
  · intro k
    change _ = ((System.next _ e).retryCount k).getD 0
    rw [negotiation.trace_concat, retriesSinceUntracked, List.foldl_append,
      System.next_retryCount h.wellKeyed]
    by_cases hu : e.untracks k = true
    · simp [hu, System.input_of_untracks hu, Cell.step]
    · have hi : (negotiation.run (startWith maxRetries) fs).input e k ≠ .untrack :=
        fun hi => hu (System.untracks_of_input hi)
      have hcount := h.counted k
      unfold retriesSinceUntracked at hcount
      rw [Cell.step_retries hi, ← System.countP_retriesOrder h.wellKeyed]
      simp only [List.foldl_cons, List.foldl_nil, hu, System.cell_retryCount]
      rw [← hcount]
      push_cast
      rfl

namespace Response

def isSubmitFailure : Response → Bool
  | .acceptSubmitFailed _ | .signSubmitFailed _ => true
  | _ => false

end Response

/-- The response is for an order, or a DLC, that no operation stands for. A
failure is for the order its request was issued for. -/
def ForUntracked (S : System) (p : Pending) : Response → Prop
  | .acceptContextReady context => S.operation context.orderId = none
  | .acceptSubmitted order => S.operation order.orderId = none
  | .signContextReady context => ∀ k op, S.operation k = some op → op.dlcId ≠ context.dlcId
  | .signSubmitted response => ∀ k op, S.operation k = some op → op.dlcId ≠ response.dlcId
  | .dlcReady detail => ∀ k op, S.operation k = some op → op.dlcId ≠ detail.dlcId
  | _ => ∃ X, p.issuer = some X ∧ S.operation X = none

/-- The failure of a request made for an order that is gone finds no operation in
the state its handler sweeps. -/
def GoneFailuresSweepNothing (maxRetries : Int) (es : List SystemEvent) : Prop :=
  ∀ fs p r gs a, es = fs ++ .deliver p r :: gs → r.sweeps = some a →
    ForUntracked (negotiation.run (startWith maxRetries) fs) p r →
    ∀ k, (negotiation.run (startWith maxRetries) fs).state k ≠ some a

/-- The event changes nothing and has no effect. -/
def System.Ignores (S : System) (e : SystemEvent) : Prop :=
  (S.next e).machine = S.machine ∧ S.emits e = []

/-- The counts of a run, and what becomes of answers about untracked orders. -/
structure RetryCounts (maxRetries : Int) (es : List SystemEvent) : Prop where
  bounded : ∀ fs gs, es = fs ++ gs → ∀ k count,
    (negotiation.run (startWith maxRetries) fs).retryCount k = some count →
    0 ≤ count ∧ count ≤ maxRetries
  counted : ∀ fs gs, es = fs ++ gs → ∀ k,
    (retriesSinceUntracked k (negotiation.trace (startWith maxRetries) fs) : Int) =
      ((negotiation.run (startWith maxRetries) fs).retryCount k).getD 0
  exhausted : ∀ fs p r gs, es = fs ++ .deliver p r :: gs → r.isSubmitFailure = true → ∀ k s,
    (negotiation.run (startWith maxRetries) fs).state k = some s → s ≠ .error →
    (negotiation.run (startWith maxRetries) (fs ++ [.deliver p r])).state k = some .error →
    ((negotiation.run (startWith maxRetries) fs).retryCount k).getD 0 = maxRetries
  tracked : ∀ fs gs, es = fs ++ gs → ∀ k,
    ((negotiation.run (startWith maxRetries) fs).retryCount k).isSome = true →
    ((negotiation.run (startWith maxRetries) fs).operation k).isSome = true
  keyed : ∀ fs gs, es = fs ++ gs → ∀ k op,
    (negotiation.run (startWith maxRetries) fs).operation k = some op → op.orderId = k
  dropsAnswers : ∀ fs p r gs, es = fs ++ .deliver p r :: gs → r.sweeps = none →
    ForUntracked (negotiation.run (startWith maxRetries) fs) p r →
    (negotiation.run (startWith maxRetries) fs).Ignores (.deliver p r)

structure RetryBudget (maxRetries : Int) (es : List SystemEvent) : Prop extends
    RetryCounts maxRetries es where
  dropsFailures : ∀ fs p r gs a, es = fs ++ .deliver p r :: gs → r.sweeps = some a →
    ForUntracked (negotiation.run (startWith maxRetries) fs) p r →
    (negotiation.run (startWith maxRetries) fs).Ignores (.deliver p r)

theorem findByDlcId_eq_none {m : DLCStateMachine} {dlcId : String}
    (h : ∀ (k : String) (op : OrderOperation), m.operations[k]? = some op → op.dlcId ≠ dlcId) :
    m.findByDlcId dlcId = none := by
  refine List.find?_eq_none.mpr ?_
  intro ⟨k, op⟩ hmem
  simpa using h k op (ExtTreeMap.mem_toList_iff_getElem?_eq_some.mp hmem)

theorem onResponse_of_not_swept {m : DLCStateMachine} {r : Response} {a : OperationState}
    (hr : r.sweeps = some a)
    (h : ∀ (k : String) (op : OrderOperation), m.operations[k]? = some op → op.state ≠ a) :
    m.onResponse r = { machine := m } := by
  cases r with
  | acceptContextFailed error | signContextFailed error =>
      cases hr
      apply DLCStateMachine.sweep_eq_self
      intro k op hop
      simp [DLCStateMachine.failAwaiting, h k op hop]
  | acceptSubmitFailed error | signSubmitFailed error =>
      cases hr
      apply DLCStateMachine.sweep_eq_self
      intro k op hop
      simp [DLCStateMachine.retrySubmitting, h k op hop]
  | _ => cases hr

theorem onResponse_of_untracked {S : System} {p : Pending} {r : Response}
    (h : ForUntracked S p r) (hr : r.sweeps = none) :
    S.machine.onResponse r = { machine := S.machine } := by
  cases r with
  | acceptContextReady context =>
      have hop : S.machine.getOperation context.orderId = none := h
      simp [DLCStateMachine.onResponse, DLCStateMachine.onAcceptContextReady, hop]
  | acceptSubmitted order =>
      have hop : S.machine.getOperation order.orderId = none := h
      simp [DLCStateMachine.onResponse, DLCStateMachine.onAcceptSubmitted, hop]
  | signContextReady context =>
      simp [DLCStateMachine.onResponse, DLCStateMachine.onSignContextReady,
        findByDlcId_eq_none h]
  | signSubmitted response =>
      simp [DLCStateMachine.onResponse, DLCStateMachine.onSignSubmitted,
        findByDlcId_eq_none h]
  | dlcReady detail =>
      simp [DLCStateMachine.onResponse, DLCStateMachine.onDlcReady, findByDlcId_eq_none h]
  | dlcFailed error => rfl
  | _ => cases hr

theorem System.ignores_of_onResponse {S : System} {p : Pending} {r : Response}
    (h : S.machine.onResponse r = { machine := S.machine }) : S.Ignores (.deliver p r) :=
  ⟨congrArg Outcome.machine h, congrArg Outcome.effects h⟩

/-- A failure is dropped exactly if it finds no operation in its state. -/
theorem System.ignores_failure_iff {S : System} (hS : S.machine.WellKeyed) (p : Pending)
    {r : Response} {a : OperationState} (hr : r.sweeps = some a) :
    S.Ignores (.deliver p r) ↔ ∀ k, S.state k ≠ some a := by
  constructor
  · intro h k hstate
    obtain ⟨op, hop, hopstate⟩ := Option.map_eq_some_iff.mp hstate
    obtain ⟨op', hop', hne⟩ := step_of_swept (k := k) (m := S.machine)
      (c := S.machine.cell k) hr S.machine.maxRetries hop hopstate
    have hcell := System.next_operation hS (.deliver p r) k
    rw [System.input_deliver, hop'] at hcell
    have hkept : S.operation k = some op' :=
      (congrArg (fun m : DLCStateMachine => m.operations[k]?) h.1).symm.trans hcell
    rw [hop] at hkept
    cases hkept
    exact hne hopstate
  · intro h
    refine System.ignores_of_onResponse (onResponse_of_not_swept hr ?_)
    intro k op hop hstate
    exact h k (by simp [System.state, System.operation, hop, hstate])

theorem isSubmitFailure_route {m : DLCStateMachine} {r : Response}
    (h : r.isSubmitFailure = true) (k : String) :
    ∃ submitting awaiting text error, awaiting ≠ .error ∧
      m.route k (.response r) = .submitFailed submitting awaiting text error := by
  cases r with
  | acceptSubmitFailed error | signSubmitFailed error => exact ⟨_, _, _, error, by decide, rfl⟩
  | _ => cases h

theorem retryCounts {maxRetries : Int} (hM : 0 ≤ maxRetries) {es : List SystemEvent}
    (hconst : ∀ n, .call (.setMaxRetries n) ∉ es) : RetryCounts maxRetries es := by
  have hupTo : ∀ fs gs, es = fs ++ gs →
      Accounted maxRetries fs (negotiation.run (startWith maxRetries) fs) := by
    intro fs gs hsplit
    exact accounted_run hM fun n hn => hconst n (by simp [hsplit, hn])
  refine ⟨?_, ?_, ?_, ?_, ?_, ?_⟩
  · intro fs gs hsplit k count hcount
    exact ((hupTo fs gs hsplit).budget k).bounded count hcount
  · intro fs gs hsplit k
    exact (hupTo fs gs hsplit).counted k
  · intro fs p r gs hsplit hr k s hs hne hs'
    have hfs := hupTo fs _ hsplit
    obtain ⟨op, hop, rfl⟩ := Option.map_eq_some_iff.mp hs
    rw [negotiation.run_concat] at hs'
    obtain ⟨op', hop', hstate⟩ := Option.map_eq_some_iff.mp hs'
    obtain ⟨submitting, awaiting, text, error, hawaiting, hi⟩ :=
      isSubmitFailure_route (m := (negotiation.run (startWith maxRetries) fs).machine) hr k
    have hcell := System.next_operation hfs.wellKeyed (.deliver p r) k
    rw [System.input_deliver, hi, hfs.constant] at hcell
    exact Cell.step_error (hfs.budget k) hM hawaiting hop hne (hcell.symm.trans hop') hstate
  · intro fs gs hsplit k
    exact ((hupTo fs gs hsplit).budget k).tracked
  · intro fs gs hsplit k op hop
    exact (hupTo fs gs hsplit).wellKeyed k op hop
  · intro fs p r gs hsplit hr huntracked
    exact System.ignores_of_onResponse (onResponse_of_untracked huntracked hr)

/-- Two takers wait for their contexts; one is dropped before its request fails. -/
def goneTakerFails : List SystemEvent :=
  [.call (.trackOrder { orderId := "A", pendingMatchAccept := true }),
    .call (.trackOrder { orderId := "B", pendingMatchAccept := true }),
    .call (.untrackOrder "A"),
    .deliver { issuer := some "A", request := DLCCoordinatorClient.getAcceptContext "A" "" }
      (.acceptContextFailed "timeout")]

/-- **Retry budget.** The counts are kept on every run, answers about nothing that is
tracked are dropped, and so are failures exactly if they find nobody else. -/
theorem retryBudget_iff {maxRetries : Int} (hM : 0 ≤ maxRetries) {es : List SystemEvent}
    (hconst : ∀ n, .call (.setMaxRetries n) ∉ es) :
    RetryCounts maxRetries es ∧
      (RetryBudget maxRetries es ↔ GoneFailuresSweepNothing maxRetries es) := by
  have hcounts := retryCounts hM hconst
  have hS : ∀ fs, (negotiation.run (startWith maxRetries) fs).machine.WellKeyed :=
    run_wellKeyed (System.start_wellKeyed _ _)
  refine ⟨hcounts, ?_, ?_⟩
  · intro h fs p r gs a hsplit hr huntracked
    exact (System.ignores_failure_iff (hS fs) p hr).mp
      (h.dropsFailures fs p r gs a hsplit hr huntracked)
  · intro h
    refine ⟨hcounts, ?_⟩
    intro fs p r gs a hsplit hr huntracked
    exact (System.ignores_failure_iff (hS fs) p hr).mpr (h fs p r gs a hsplit hr huntracked)

theorem retryBudget_iff_goneTakerFails :
    RetryCounts 5 goneTakerFails ∧
      (RetryBudget 5 goneTakerFails ↔ GoneFailuresSweepNothing 5 goneTakerFails) :=
  retryBudget_iff (by decide) (by intro n; simp [goneTakerFails])

theorem not_retryBudget_goneTakerFails :
    negotiation.Valid (startWith 5) goneTakerFails ∧ ¬ RetryBudget 5 goneTakerFails := by
  refine ⟨by decide, ?_⟩
  intro h
  have hkept := h.dropsFailures (goneTakerFails.take 3) _ _ [] _ rfl rfl ⟨"A", rfl, by decide⟩
  exact absurd hkept.2 (by decide)

end GreenWallet.Dlc
