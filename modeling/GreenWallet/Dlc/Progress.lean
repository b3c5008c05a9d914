import GreenWallet.Dlc.System

/-!
# Late answers and the order of the stages

A negotiation goes through its stages in one direction: context, signing,
submitting, submitted, signed, funded, settled. The public flow and the retries
start a stage over on purpose; an answer of the coordinator should not. Each
poll tick repeats the request of an operation that still waits, so an answer can
come late, when the operation has gone on; and the handlers of the answers,
unlike `advance_taker_operation` and `advance_maker_operation`, do not look at the
state. `Late` lists the answers that take an operation back. A run keeps the
order of the stages exactly if it has none of them.
-/
namespace GreenWallet.Dlc
open GreenWallet.Library

namespace OperationState

/-- The place of a state in the negotiation; `Idle` and `Error` have none. -/
def stage : OperationState → Option ℕ
  | .idle => none
  | .takerAwaitingAcceptContext | .makerAwaitingSignContext => some 1
  | .takerSigningAccept | .makerSigningSign => some 2
  | .takerSubmittingAccept | .makerSubmittingSign => some 3
  | .takerAcceptSubmitted | .makerSignSubmitted => some 4
  | .dlcSignedAwaitingFunding => some 5
  | .dlcFunded => some 6
  | .dlcSettled => some 7
  | .error => none

def earlierThan (s s' : OperationState) : Bool :=
  match s.stage, s'.stage with
  | some a, some b => a < b
  | _, _ => false

theorem earlierThan_self (s : OperationState) : s.earlierThan s = false := by
  cases s <;> simp [earlierThan, stage]

/-- The states after which a negotiation is not to go backwards. -/
def isMilestone : OperationState → Bool
  | .takerSubmittingAccept | .takerAcceptSubmitted | .makerSubmittingSign
  | .makerSignSubmitted | .dlcFunded | .dlcSettled => true
  | _ => false

end OperationState

/-- An input that comes too late for the state its operation is in. -/
def Late (op : OrderOperation) : Input → Bool
  | .acceptContext _ | .signContext _ =>
      op.state ∈ [.takerSubmittingAccept, .takerAcceptSubmitted, .makerSubmittingSign,
        .makerSignSubmitted, .dlcSignedAwaitingFunding, .dlcFunded, .dlcSettled]
  | .acceptSubmitted => op.state ∈ [.dlcSignedAwaitingFunding, .dlcFunded, .dlcSettled]
  | .signSubmitted response =>
      if response.fundingBroadcasted && !response.fundingTxid.isEmpty then
        op.state = .dlcSettled
      else op.state ∈ [.dlcSignedAwaitingFunding, .dlcFunded, .dlcSettled]
  | .detail detail =>
      detail.status = "signed" ∧ op.state ∈ [.dlcFunded, .dlcSettled] ∨
        detail.status = "funded" ∧ op.state = .dlcSettled
  | .submitAccept _ => op.state = .dlcSettled ∧ op.acceptContext.orderId.isEmpty = false
  | .submitSign .. => op.state = .dlcSettled
  | _ => false

/-- An answer takes an operation to an earlier stage exactly if it is late. -/
theorem react_earlierThan (maxRetries : Int) (k : String) (op : OrderOperation)
    (retryCount : Option Int) {i : Input} (hi : i.isAnswer = true) :
    (react maxRetries k op retryCount i).operation.state.earlierThan op.state = true ↔
      Late op i = true := by
  cases i with
  | acceptContext context | acceptSubmitted | signContext context =>
      cases hs : op.state <;> simp [react, Late, hs, OperationState.earlierThan,
        OperationState.stage]
  | signSubmitted response =>
      simp only [react, Late]
      split_ifs <;> cases hs : op.state <;>
        simp [OperationState.earlierThan, OperationState.stage]
  | detail detail =>
      simp only [react, Late, beq_iff_eq]
      split_ifs with hs hf ht
      · cases op.state <;> simp [hs, OperationState.earlierThan, OperationState.stage]
      · cases op.state <;> simp [hf, OperationState.earlierThan, OperationState.stage]
      · cases op.state <;> simp [ht, OperationState.earlierThan, OperationState.stage]
      · cases op.state <;> simp [hs, hf, OperationState.earlierThan, OperationState.stage]
  | _ => cases hi

/-- A sweep passes by an operation that is not in the state it looks for. -/
theorem react_settled (maxRetries : Int) (k : String) {op : OrderOperation}
    (retryCount : Option Int) {i : Input} (hop : op.state = .dlcSettled)
    (hcontext : ∀ awaiting error, i = .contextFailed awaiting error → awaiting ≠ .dlcSettled)
    (hsubmit : ∀ submitting awaiting text error,
      i = .submitFailed submitting awaiting text error → submitting ≠ .dlcSettled) :
    (react maxRetries k op retryCount i).operation.state = .dlcSettled ↔ Late op i = false := by
  cases i with
  | contextFailed awaiting error =>
      simp [react, Late, hop, Ne.symm (hcontext awaiting error rfl)]
  | submitFailed submitting awaiting text error =>
      simp [react, Late, hop, Ne.symm (hsubmit submitting awaiting text error rfl)]
  | submitAccept signatures =>
      simp only [react, Late, hop]
      split_ifs with he <;> simp [he, hop]
  | signSubmitted response =>
      simp only [react, Late, hop]
      split_ifs <;> simp
  | detail detail =>
      simp only [react, Late, hop, beq_iff_eq]
      split_ifs with hs hf ht
      · simp [hs]
      · simp [hf]
      · simp [ht]
      · simp [hs, hf, hop]
  | _ => simp [react, Late, hop]

/-- Since it was last tracked, the operation has been in a milestone state. -/
def HasReached (k : String) (es : List SystemEvent) : Prop :=
  ∃ fs gs, es = fs ++ gs ∧ (∀ e ∈ gs, e.renews k = false) ∧
    ∃ s, (negotiation.run start fs).state k = some s ∧ s.isMilestone = true

/-- A success response moves no operation that has reached a milestone to an
earlier stage, and a settled DLC stays settled until its order is tracked anew. -/
def NeverBackwards (es : List SystemEvent) : Prop :=
  ∀ fs e gs, es = fs ++ e :: gs → ∀ k s, (negotiation.run start fs).state k = some s →
    (HasReached k fs → e.isSuccess = true → ∀ s',
      (negotiation.run start (fs ++ [e])).state k = some s' → s'.earlierThan s = false) ∧
    (s = .dlcSettled → e.renews k = false →
      (negotiation.run start (fs ++ [e])).state k = some .dlcSettled)

/-- No event of the run comes late for an operation that has reached a milestone. -/
def NothingLate (es : List SystemEvent) : Prop :=
  ∀ fs e gs, es = fs ++ e :: gs → ∀ k op, (negotiation.run start fs).operation k = some op →
    HasReached k fs → Late op ((negotiation.run start fs).input e k) = false

theorem hasReached_of_settled {k : String} {es : List SystemEvent}
    (h : (negotiation.run start es).state k = some .dlcSettled) : HasReached k es :=
  ⟨es, [], by simp, by simp, _, h, rfl⟩

theorem System.renews_of_isSuccess {e : SystemEvent} (k : String) (h : e.isSuccess = true) :
    e.renews k = false := by
  cases e with
  | deliver p response => rfl
  | _ => cases h

theorem System.next_settled {S : System} (hS : S.machine.WellKeyed) {e : SystemEvent}
    {k : String} {op : OrderOperation} (hop : S.operation k = some op)
    (hsettled : op.state = .dlcSettled) (he : e.renews k = false) :
    (S.next e).state k = some .dlcSettled ↔ Late op (S.input e k) = false := by
  rw [next_state_of_some hS hop he, Option.some.injEq]
  refine react_settled _ _ _ hsettled ?_ ?_
  · intro awaiting error hi
    obtain ⟨event, -, hroute⟩ := input_eq hi (by simp)
    rcases DLCStateMachine.route_contextFailed hroute with rfl | rfl <;> simp
  · intro submitting awaiting text error hi
    obtain ⟨event, -, hroute⟩ := input_eq hi (by simp)
    rcases DLCStateMachine.route_submitFailed hroute with ⟨rfl, -⟩ | ⟨rfl, -⟩ <;> simp

theorem System.renews_of_late {S : System} {e : SystemEvent} {k : String} {op : OrderOperation}
    (h : Late op (S.input e k) = true) : e.renews k = false := by
  by_contra he
  cases e with
  | call event =>
      cases event with
      | trackOrder order =>
          have hk : order.orderId = k := by simpa [SystemEvent.renews] using he
          simp [System.input, SystemEvent.toEvent, DLCStateMachine.route,
            DLCStateMachine.addressed, hk, Late] at h
      | untrackOrder orderId =>
          have hk : orderId = k := by simpa [SystemEvent.renews] using he
          simp [System.input, SystemEvent.toEvent, DLCStateMachine.route,
            DLCStateMachine.addressed, hk, Late] at h
      | _ => exact he rfl
  | _ => exact he rfl

/-- Only an answer, or a submission for a settled DLC, can be late. -/
theorem late_cases {op : OrderOperation} {i : Input} (h : Late op i = true) :
    i.isAnswer = true ∨ op.state = .dlcSettled := by
  cases i with
  | submitAccept signatures => exact .inr (by simpa [Late] using (of_decide_eq_true h).1)
  | submitSign dlcId signatures => exact .inr (of_decide_eq_true h)
  | acceptContext context | acceptSubmitted | signContext context | signSubmitted response
  | detail detail => exact .inl rfl
  | _ => cases h

/-- Two context requests of one order are in flight; the second is answered when
the signatures made for the first are already submitted. -/
def overtakenContext : List SystemEvent :=
  let order : Order := { orderId := "A", pendingMatchAccept := true }
  let context : AcceptContext := { orderId := "A", contextFingerprint := "f" }
  let asked : Pending :=
    { issuer := some "A", request := DLCCoordinatorClient.getAcceptContext "A" "" }
  [.call (.trackOrder order),
    .call .pollTimer,
    .deliver asked (.acceptContextReady context),
    .takerSigned context {},
    .deliver asked (.acceptContextReady context)]

/-- A run never goes backwards exactly if nothing in it is late. -/
theorem neverBackwards_iff {es : List SystemEvent} (hes : negotiation.Valid start es) :
    NeverBackwards es ↔ NothingLate es := by
  constructor
  · intro h fs e gs hsplit k op hop hreached
    have hS := wellKeyed_run fs
    have henabled : (negotiation.run start fs).enabled e := by
      rw [hsplit] at hes
      exact Reactive.Along.at _ hes
    have hstate : (negotiation.run start fs).state k = some op.state := by
      rw [System.state, hop]
      rfl
    obtain ⟨hanswer, hsettled⟩ := h fs e gs hsplit k op.state hstate
    rw [negotiation.run_concat] at hanswer hsettled
    by_contra hlate
    rw [Bool.not_eq_false] at hlate
    rcases late_cases hlate with hi | hs
    · have hsuccess := System.isSuccess_of_isAnswer henabled hi
      have hnext := System.next_state_of_some hS hop (System.renews_of_isSuccess k hsuccess)
      have hback := (react_earlierThan (negotiation.run start fs).machine.maxRetries k op
        ((negotiation.run start fs).retryCount k) hi).mpr hlate
      rw [hanswer hreached hsuccess _ hnext] at hback
      cases hback
    · have he := System.renews_of_late hlate
      have hstays := (System.next_settled hS hop hs he).mp (hsettled hs he)
      rw [hlate] at hstays
      cases hstays
  · intro h fs e gs hsplit k s hs
    have hS := wellKeyed_run fs
    obtain ⟨op, hop, rfl⟩ := Option.map_eq_some_iff.mp hs
    rw [negotiation.run_concat]
    constructor
    · intro hreached hsuccess s' hs'
      have hlate := h fs e gs hsplit k op hop hreached
      have hnext := System.next_state_of_some hS hop (System.renews_of_isSuccess k hsuccess)
      obtain rfl := Option.some.inj (hnext.symm.trans hs')
      rcases System.isAnswer_of_isSuccess (S := negotiation.run start fs) k hsuccess with hi | hi
      · exact Bool.eq_false_iff.mpr fun hback =>
          absurd ((react_earlierThan _ k op _ hi).mp hback) (by simp [hlate])
      · simp only [hi, react]
        exact OperationState.earlierThan_self op.state
    · intro hsettled he
      refine (System.next_settled hS hop hsettled he).mpr ?_
      exact h fs e gs hsplit k op hop (hasReached_of_settled (hsettled ▸ hs))

theorem neverBackwards_iff_overtakenContext :
    NeverBackwards overtakenContext ↔ NothingLate overtakenContext :=
  neverBackwards_iff (by decide)

theorem not_neverBackwards_overtakenContext :
    negotiation.Valid start overtakenContext ∧ ¬ NeverBackwards overtakenContext := by
  refine ⟨by decide, ?_⟩
  intro h
  have hreached : HasReached "A" (overtakenContext.take 4) :=
    ⟨overtakenContext.take 4, [], by simp, by simp, .takerSubmittingAccept, by decide, rfl⟩
  have hback := (h (overtakenContext.take 4) _ [] rfl "A" .takerSubmittingAccept
    (by decide)).1 hreached rfl .takerSigningAccept (by decide)
  cases hback

end GreenWallet.Dlc
