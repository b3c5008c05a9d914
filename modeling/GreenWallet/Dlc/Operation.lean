import GreenWallet.Library.Keyed
import GreenWallet.Dlc.StateMachine

/-!
# One operation as a machine of its own

What the state machine is for: every tracked order negotiates by itself. Here a
single operation, with its retry count, is a machine that reacts to what an
event means for it. `route` says what an event means for the operation under a
key: answers are routed by order id, or by the first operation with the DLC id,
and failures, which name nothing, go to everyone.

`handle_cell` and `handle_effects` connect the two: on a well keyed machine,
every handler acts on each operation as this machine does, and the effects it
has are those of the operations.
-/
namespace GreenWallet.Dlc
open Std (ExtTreeMap)
open GreenWallet.Library

/-- The part of the machine that belongs to one order. -/
structure Cell where
  operation : Option OrderOperation := none
  retryCount : Option Int := none
deriving DecidableEq, Repr

def DLCStateMachine.cell (m : DLCStateMachine) (k : String) : Cell :=
  { operation := m.operations[k]?, retryCount := m.retryCounts[k]? }

/-- What an event means for one operation. -/
inductive Input where
  | nothing
  | track (order : Order)
  | untrack
  | submitAccept (signatures : Signatures)
  | submitSign (dlcId : String) (signatures : Signatures)
  | acceptContext (context : AcceptContext)
  | acceptSubmitted
  | signContext (context : SignContext)
  | signSubmitted (response : SignResponse)
  | detail (detail : DLCDetail)
  | contextFailed (awaiting : OperationState) (error : String)
  | submitFailed (submitting awaiting : OperationState) (text error : String)
  | poll
deriving DecidableEq, Repr

/-- An answer the coordinator gave to a request that succeeded. -/
def Input.isAnswer : Input → Bool
  | .acceptContext _ | .acceptSubmitted | .signContext _ | .signSubmitted _ | .detail _ => true
  | _ => false

def OrderOperation.enter (op : OrderOperation) (state : OperationState) (status : String) :
    OrderOperation :=
  { op with state := state, statusText := status }

@[simp] theorem OrderOperation.enter_state (op : OrderOperation) (state : OperationState)
    (status : String) : (op.enter state status).state = state := rfl

@[simp] theorem OrderOperation.enter_acceptContext (op : OrderOperation)
    (state : OperationState) (status : String) :
    (op.enter state status).acceptContext = op.acceptContext := rfl

/-- The operation after an input, with its retry count and what it did. -/
structure Reaction where
  operation : OrderOperation
  retryCount : Option Int
  effects : List Effect := []

/-- The state change every `set_operation_state` announces. -/
def announce (k : String) (state : OperationState) (status : String) : Effect :=
  .emit k (.operationStateChanged k state status)

def retryText (text : String) (attempt : Int) : String :=
  text ++ " (attempt " ++ toString attempt ++ ")"

def react (maxRetries : Int) (k : String) (op : OrderOperation) (retryCount : Option Int) :
    Input → Reaction
  | .submitAccept signatures =>
      if op.acceptContext.orderId.isEmpty then { operation := op, retryCount := retryCount }
      else
        { operation := op.enter .takerSubmittingAccept "Submitting accept signatures"
          retryCount := retryCount
          effects :=
            [announce k .takerSubmittingAccept "Submitting accept signatures",
              .call k (DLCCoordinatorClient.submitAccept k op.fundingPubkeyHex
                op.acceptContext.contextFingerprint signatures)] }
  | .submitSign dlcId signatures =>
      { operation := op.enter .makerSubmittingSign "Submitting sign signatures"
        retryCount := retryCount
        effects :=
          [announce k .makerSubmittingSign "Submitting sign signatures",
            .call k (DLCCoordinatorClient.submitSign dlcId signatures)] }
  | .acceptContext context =>
      { operation :=
          { op with acceptContext := context, acceptContextFetched := true }.enter
            .takerSigningAccept "Waiting for local signing"
        retryCount := retryCount
        effects :=
          [announce k .takerSigningAccept "Waiting for local signing",
            .emit k (.requestTakerAcceptSignatures k context "")] }
  | .acceptSubmitted =>
      { operation := op.enter .takerAcceptSubmitted "Accept submitted successfully"
        retryCount := retryCount
        effects :=
          [announce k .takerAcceptSubmitted "Accept submitted successfully",
            .emit k (.takerAcceptCompleted k)] }
  | .signContext context =>
      { operation :=
          { op with signContext := context, signContextFetched := true }.enter
            .makerSigningSign "Waiting for local signing"
        retryCount := retryCount
        effects :=
          [announce k .makerSigningSign "Waiting for local signing",
            .emit k (.requestMakerSignSignatures context.dlcId context "")] }
  | .signSubmitted response =>
      let submitted :=
        [announce k .makerSignSubmitted "Sign submitted successfully",
          .emit k (.makerSignCompleted response.dlcId)]
      if response.fundingBroadcasted && !response.fundingTxid.isEmpty then
        { operation := op.enter .dlcFunded ("DLC funded: " ++ response.fundingTxid)
          retryCount := retryCount
          effects := submitted ++
            [announce k .dlcFunded ("DLC funded: " ++ response.fundingTxid),
              .emit k (.dlcFunded response.dlcId response.fundingTxid)] }
      else
        { operation := op.enter .makerSignSubmitted "Sign submitted successfully"
          retryCount := retryCount
          effects := submitted }
  | .detail detail =>
      if detail.status == "signed" then
        { operation := op.enter .dlcSignedAwaitingFunding "DLC signed, awaiting funding"
          retryCount := retryCount
          effects := [announce k .dlcSignedAwaitingFunding "DLC signed, awaiting funding"] }
      else if detail.status == "funded" then
        { operation := op.enter .dlcFunded ("DLC funded: " ++ detail.fundingTxid)
          retryCount := retryCount
          effects :=
            [announce k .dlcFunded ("DLC funded: " ++ detail.fundingTxid),
              .emit k (.dlcFunded detail.dlcId detail.fundingTxid)] }
      else if detail.status == "settled" then
        { operation := op.enter .dlcSettled ("DLC settled: " ++ detail.closingTxid)
          retryCount := retryCount
          effects :=
            [announce k .dlcSettled ("DLC settled: " ++ detail.closingTxid),
              .emit k (.dlcSettled detail.dlcId detail.closingTxid)] }
      else { operation := op, retryCount := retryCount }
  | .contextFailed awaiting error =>
      if op.state = awaiting then
        { operation := op.enter .error error
          retryCount := retryCount
          effects := [.emit k (.operationFailed k error)] }
      else { operation := op, retryCount := retryCount }
  | .submitFailed submitting awaiting text error =>
      if op.state = submitting then
        let count := retryCount.getD 0
        if count < maxRetries then
          { operation := op.enter awaiting (retryText text (count + 1))
            retryCount := some (count + 1)
            effects :=
              [announce k awaiting (retryText text (count + 1)),
                .emit k (.operationRetrying k (count + 1))] }
        else
          { operation := op.enter .error error
            retryCount := some count
            effects := [.emit k (.operationFailed k error)] }
      else { operation := op, retryCount := retryCount }
  | .poll =>
      { operation := op
        retryCount := retryCount
        effects :=
          match op.state with
          | .takerAwaitingAcceptContext =>
              [.call k (DLCCoordinatorClient.getAcceptContext k op.fundingPubkeyHex)]
          | .makerAwaitingSignContext => [.call k (DLCCoordinatorClient.getSignContext op.dlcId)]
          | .dlcSignedAwaitingFunding => [.call k (DLCCoordinatorClient.getDlc op.dlcId)]
          | _ => [] }
  | _ => { operation := op, retryCount := retryCount }

namespace Cell

/-- A freshly tracked order: a pending match starts by asking for its context. -/
def track (k : String) (order : Order) (retryCount : Option Int) : Cell × List Effect :=
  let op := DLCStateMachine.trackedOperation order
  if order.pendingMatchAccept then
    ({ operation := some (op.enter .takerAwaitingAcceptContext "Fetching accept context")
       retryCount := retryCount },
      [announce k .takerAwaitingAcceptContext "Fetching accept context",
        .call k (DLCCoordinatorClient.getAcceptContext k "")])
  else ({ operation := some op, retryCount := retryCount }, [])

def step (maxRetries : Int) (k : String) (c : Cell) : Input → Cell × List Effect
  | .track order => track k order c.retryCount
  | .untrack => ({}, [])
  | i =>
      match c.operation with
      | none => (c, [])
      | some op =>
          let r := react maxRetries k op c.retryCount i
          ({ operation := some r.operation, retryCount := r.retryCount }, r.effects)

@[simp] theorem step_nothing (maxRetries : Int) (k : String) (c : Cell) :
    c.step maxRetries k .nothing = (c, []) := by
  obtain ⟨op, retryCount⟩ := c
  cases op <;> rfl

theorem step_absent {maxRetries : Int} {k : String} {c : Cell} {i : Input}
    (hc : c.operation = none) (ht : ∀ order, i ≠ .track order) (hu : i ≠ .untrack) :
    c.step maxRetries k i = (c, []) := by
  cases i with
  | track order => exact (ht order rfl).elim
  | untrack => exact (hu rfl).elim
  | _ => simp only [step, hc]

end Cell

/-- The submission an effect is. -/
def Effect.submitted : Effect → Option Request
  | .call _ request => if request.isSubmission then some request else none
  | .emit .. => none

/-- The submission an input makes an operation issue. -/
def submits (k : String) (op : OrderOperation) : Input → Option Request
  | .submitAccept signatures =>
      if op.acceptContext.orderId.isEmpty then none
      else some (DLCCoordinatorClient.submitAccept k op.fundingPubkeyHex
        op.acceptContext.contextFingerprint signatures)
  | .submitSign dlcId signatures => some (DLCCoordinatorClient.submitSign dlcId signatures)
  | _ => none

/-- An operation submits once, and on a `submit_*` call only. -/
theorem react_submits (maxRetries : Int) (k : String) (op : OrderOperation)
    (retryCount : Option Int) (i : Input) :
    (react maxRetries k op retryCount i).effects.filterMap Effect.submitted =
      (submits k op i).toList := by
  cases i with
  | submitAccept signatures =>
      simp only [react, submits]
      split_ifs <;> rfl
  | submitFailed | contextFailed | signSubmitted | detail =>
      simp only [react]
      split_ifs <;> rfl
  | poll => cases hs : op.state <;> simp only [react, hs] <;> rfl
  | _ => rfl

theorem Cell.step_submits (maxRetries : Int) (k : String) (c : Cell) (i : Input) :
    (c.step maxRetries k i).2.filterMap Effect.submitted =
      (c.operation.bind fun op => submits k op i).toList := by
  cases i with
  | track order =>
      simp only [step, track]
      split_ifs <;> cases c.operation <;> rfl
  | untrack => cases c.operation <;> rfl
  | _ =>
      cases hop : c.operation with
      | none => simp [step, hop]
      | some op =>
          simp only [step, hop, Option.bind_some]
          exact react_submits maxRetries k op _ _

namespace DLCStateMachine

/-- The key an answer about a DLC is routed to. -/
def target (m : DLCStateMachine) (dlcId : String) : Option String :=
  (m.findByDlcId dlcId).map Prod.fst

/-- The operation under a key hears the input only if it is the one addressed. -/
def addressed (heard : Prop) [Decidable heard] (i : Input) : Input := if heard then i else .nothing

def route (m : DLCStateMachine) (k : String) : Event → Input
  | .trackOrder order => addressed (k = order.orderId) (.track order)
  | .untrackOrder orderId => addressed (k = orderId) .untrack
  | .submitTakerAcceptSignatures orderId signatures =>
      addressed (k = orderId) (.submitAccept signatures)
  | .submitMakerSignSignatures dlcId signatures =>
      addressed (m.target dlcId = some k) (.submitSign dlcId signatures)
  | .pollTimer => .poll
  | .response (.acceptContextReady context) =>
      addressed (k = context.orderId) (.acceptContext context)
  | .response (.acceptContextFailed error) => .contextFailed .takerAwaitingAcceptContext error
  | .response (.acceptSubmitted order) => addressed (k = order.orderId) .acceptSubmitted
  | .response (.acceptSubmitFailed error) =>
      .submitFailed .takerSubmittingAccept .takerAwaitingAcceptContext
        "Retrying accept context" error
  | .response (.signContextReady context) =>
      addressed (m.target context.dlcId = some k) (.signContext context)
  | .response (.signContextFailed error) => .contextFailed .makerAwaitingSignContext error
  | .response (.signSubmitted response) =>
      addressed (m.target response.dlcId = some k) (.signSubmitted response)
  | .response (.signSubmitFailed error) =>
      .submitFailed .makerSubmittingSign .makerAwaitingSignContext "Retrying sign context" error
  | .response (.dlcReady detail) => addressed (m.target detail.dlcId = some k) (.detail detail)
  | _ => .nothing

/-- What is heard of a signal with an address is at that address. -/
theorem addressed_eq {heard : Prop} [Decidable heard] {i j : Input} (h : addressed heard i = j)
    (hj : j ≠ .nothing) : heard ∧ i = j := by
  unfold addressed at h
  split_ifs at h with hheard
  · exact ⟨hheard, h⟩
  · exact absurd h.symm hj

theorem route_track {m : DLCStateMachine} {e : Event} {k : String} {order : Order}
    (h : m.route k e = .track order) : e = .trackOrder order ∧ order.orderId = k := by
  cases e with
  | trackOrder tracked =>
      obtain ⟨hk, hinput⟩ := addressed_eq h nofun
      cases hinput
      exact ⟨rfl, hk.symm⟩
  | untrackOrder _ | submitTakerAcceptSignatures _ _ | submitMakerSignSignatures _ _ =>
      cases (addressed_eq h nofun).2
  | response response =>
      cases response with
      | acceptContextReady _ | acceptSubmitted _ | signContextReady _ | signSubmitted _
        | dlcReady _ => cases (addressed_eq h nofun).2
      | _ => cases h
  | _ => cases h

/-- Every operation is filed under its own order id. -/
def WellKeyed (m : DLCStateMachine) : Prop :=
  ∀ (k : String) (op : OrderOperation), m.operations[k]? = some op → op.orderId = k

end DLCStateMachine
end GreenWallet.Dlc
