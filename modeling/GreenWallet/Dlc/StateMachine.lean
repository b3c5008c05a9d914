import Mathlib.Data.List.Basic
import Std.Data.ExtTreeMap.Lemmas
import GreenWallet.Dlc.Coordinator

/-!
# The DLC negotiation state machine

`DLCStateMachine` as the wallet runs it: a map of tracked orders, a map of retry
counts, and one handler for every slot and public function. A handler returns
the machine it leaves and, in order, the signals it emitted and the coordinator
requests it issued. The requests answer later, as events of their own; a signal
handler that calls back into the machine is such an event too.

`QMap` is a map with its keys in ascending order, which is the order every loop
over the operations follows. `int` is `Int`: the one counter here never exceeds
`m_max_retries`.
-/
namespace GreenWallet.Dlc
open Std (ExtTreeMap)

inductive OperationState where
  | idle
  | takerAwaitingAcceptContext
  | takerSigningAccept
  | takerSubmittingAccept
  | takerAcceptSubmitted
  | makerAwaitingSignContext
  | makerSigningSign
  | makerSubmittingSign
  | makerSignSubmitted
  | dlcSignedAwaitingFunding
  | dlcFunded
  | dlcSettled
  | error
deriving DecidableEq, Repr

structure OrderOperation where
  orderId : String := ""
  dlcId : String := ""
  instrumentId : String := ""
  side : String := ""
  matchRole : String := ""
  state : OperationState := .idle
  statusText : String := ""
  acceptContext : AcceptContext := {}
  signContext : SignContext := {}
  acceptContextFetched : Bool := false
  signContextFetched : Bool := false
  fundingPubkeyHex : String := ""
  fundingPrivkeyHex : String := ""
deriving DecidableEq, Repr

inductive Signal where
  | operationStateChanged (orderId : String) (newState : OperationState) (status : String)
  | requestTakerAcceptSignatures (orderId : String) (context : AcceptContext) (walletId : String)
  | requestMakerSignSignatures (dlcId : String) (context : SignContext) (walletId : String)
  | takerAcceptCompleted (orderId : String)
  | makerSignCompleted (dlcId : String)
  | dlcFunded (dlcId fundingTxid : String)
  | dlcSettled (dlcId settlementTxid : String)
  | operationFailed (orderId errorReason : String)
  | operationRetrying (orderId : String) (attempt : Int)
deriving DecidableEq, Repr

/-- A signal or a request, with the key of the operation it is made for. The key
is bookkeeping of the model: several signals and requests do not carry it. -/
inductive Effect where
  | emit (operation : String) (signal : Signal)
  | call (operation : String) (request : Request)
deriving DecidableEq, Repr

def Effect.operation : Effect → String
  | .emit k _ => k
  | .call k _ => k

structure PollTimer where
  active : Bool := false
  interval : Int := 0
deriving DecidableEq, Repr

structure DLCStateMachine where
  operations : ExtTreeMap String OrderOperation := ∅
  pollTimer : PollTimer := {}
  pollingIntervalMs : Int := 3000
  maxRetries : Int := 5
  retryCounts : ExtTreeMap String Int := ∅

/-- What a handler leaves behind: the machine and the effects so far. -/
structure Outcome where
  machine : DLCStateMachine
  effects : List Effect := []

namespace Outcome

def emit (k : String) (signal : Signal) (o : Outcome) : Outcome :=
  { o with effects := o.effects ++ [.emit k signal] }

def call (k : String) (request : Request) (o : Outcome) : Outcome :=
  { o with effects := o.effects ++ [.call k request] }

def storeOperation (k : String) (op : OrderOperation) (o : Outcome) : Outcome :=
  { o with machine := { o.machine with operations := o.machine.operations.insert k op } }

def storeRetryCount (k : String) (count : Int) (o : Outcome) : Outcome :=
  { o with machine := { o.machine with retryCounts := o.machine.retryCounts.insert k count } }

end Outcome

namespace DLCStateMachine

def setPollingIntervalMs (interval : Int) (m : DLCStateMachine) : Outcome :=
  let m := { m with pollingIntervalMs := interval }
  if m.pollTimer.active then
    { machine := { m with pollTimer := { m.pollTimer with interval := interval } } }
  else { machine := m }

def setMaxRetries (maxRetries : Int) (m : DLCStateMachine) : Outcome :=
  { machine := { m with maxRetries := maxRetries } }

def getOperation (m : DLCStateMachine) (orderId : String) : Option OrderOperation :=
  m.operations[orderId]?

/-- The first operation, in key order, that carries the DLC id. -/
def findByDlcId (m : DLCStateMachine) (dlcId : String) : Option (String × OrderOperation) :=
  m.operations.toList.find? fun entry => entry.2.dlcId == dlcId

def setOperationState (orderId : String) (state : OperationState) (status : String)
    (o : Outcome) : Outcome :=
  match o.machine.getOperation orderId with
  | none => o
  | some op =>
      (o.storeOperation orderId { op with state := state, statusText := status }).emit orderId
        (.operationStateChanged orderId state status)

def advanceTakerOperation (k : String) (op : OrderOperation) (o : Outcome) : Outcome :=
  if op.state ≠ .takerAwaitingAcceptContext then o
  else o.call k (DLCCoordinatorClient.getAcceptContext op.orderId op.fundingPubkeyHex)

def advanceMakerOperation (k : String) (op : OrderOperation) (o : Outcome) : Outcome :=
  if op.state ≠ .makerAwaitingSignContext then o
  else o.call k (DLCCoordinatorClient.getSignContext op.dlcId)

/-- The operation `track_order` files for an order. -/
def trackedOperation (order : Order) : OrderOperation :=
  { orderId := order.orderId
    dlcId := order.dlcId
    instrumentId := order.instrumentId
    side := order.side
    matchRole :=
      if order.pendingMatchAccept then "taker" else if order.isMaker then "maker" else ""
    state := .idle
    statusText := "Tracking order" }

def trackOrder (order : Order) (m : DLCStateMachine) : Outcome :=
  let op := trackedOperation order
  let o := Outcome.storeOperation order.orderId op { machine := m }
  if order.pendingMatchAccept && op.matchRole == "taker" then
    let o := setOperationState order.orderId .takerAwaitingAcceptContext
      "Fetching accept context" o
    match o.machine.getOperation order.orderId with
    | none => o
    | some op => advanceTakerOperation order.orderId op o
  else o

def untrackOrder (orderId : String) (m : DLCStateMachine) : Outcome :=
  { machine :=
      { m with
        operations := m.operations.erase orderId
        retryCounts := m.retryCounts.erase orderId } }

def submitTakerAcceptSignatures (orderId : String) (signatures : Signatures)
    (m : DLCStateMachine) : Outcome :=
  match m.getOperation orderId with
  | none => { machine := m }
  | some op =>
      if op.acceptContext.orderId.isEmpty then { machine := m }
      else
        (setOperationState orderId .takerSubmittingAccept "Submitting accept signatures"
          { machine := m }).call orderId
          (DLCCoordinatorClient.submitAccept orderId op.fundingPubkeyHex
            op.acceptContext.contextFingerprint signatures)

def submitMakerSignSignatures (dlcId : String) (signatures : Signatures)
    (m : DLCStateMachine) : Outcome :=
  match m.findByDlcId dlcId with
  | none => { machine := m }
  | some (k, op) =>
      (setOperationState op.orderId .makerSubmittingSign "Submitting sign signatures"
        { machine := m }).call k (DLCCoordinatorClient.submitSign dlcId signatures)

def startPolling (m : DLCStateMachine) : Outcome :=
  { machine := { m with pollTimer := { active := true, interval := m.pollingIntervalMs } } }

def stopPolling (m : DLCStateMachine) : Outcome :=
  { machine := { m with pollTimer := { m.pollTimer with active := false } } }

/-- `for (auto& op : m_operations)`: the body sees the operation as the earlier
rounds left it. No body adds or removes an operation. -/
def sweep (body : String → OrderOperation → Outcome → Outcome) (m : DLCStateMachine) : Outcome :=
  m.operations.keys.foldl
    (fun o k =>
      match o.machine.operations[k]? with
      | none => o
      | some op => body k op o)
    { machine := m }

def onAcceptContextReady (context : AcceptContext) (m : DLCStateMachine) : Outcome :=
  match m.getOperation context.orderId with
  | none => { machine := m }
  | some op =>
      let o := Outcome.storeOperation context.orderId
        { op with acceptContext := context, acceptContextFetched := true } { machine := m }
      (setOperationState context.orderId .takerSigningAccept "Waiting for local signing" o).emit
        context.orderId (.requestTakerAcceptSignatures context.orderId context "")

/-- The loop of `on_accept_context_failed` and `on_sign_context_failed`, which
differ in the state they look for. -/
def failAwaiting (awaiting : OperationState) (error : String) (k : String)
    (op : OrderOperation) (o : Outcome) : Outcome :=
  if op.state = awaiting then
    (o.storeOperation k { op with state := .error, statusText := error }).emit k
      (.operationFailed op.orderId error)
  else o

def onAcceptContextFailed (error : String) (m : DLCStateMachine) : Outcome :=
  m.sweep (failAwaiting .takerAwaitingAcceptContext error)

def onAcceptSubmitted (order : Order) (m : DLCStateMachine) : Outcome :=
  match m.getOperation order.orderId with
  | none => { machine := m }
  | some _ =>
      (setOperationState order.orderId .takerAcceptSubmitted "Accept submitted successfully"
        { machine := m }).emit order.orderId (.takerAcceptCompleted order.orderId)

/-- The loop of `on_accept_submit_failed` and `on_sign_submit_failed`: they look
for `submitting`, and retry from `awaiting` with their own status text. Reading
the count through `operator[]` files a missing one as 0. -/
def retrySubmitting (submitting awaiting : OperationState) (text : String) (error : String)
    (k : String) (op : OrderOperation) (o : Outcome) : Outcome :=
  if op.state = submitting then
    let retryCount := (o.machine.retryCounts[op.orderId]?).getD 0
    if retryCount < o.machine.maxRetries then
      let o := o.storeRetryCount op.orderId (retryCount + 1)
      (setOperationState op.orderId awaiting
        (text ++ " (attempt " ++ toString (retryCount + 1) ++ ")") o).emit k
        (.operationRetrying op.orderId (retryCount + 1))
    else
      let o := o.storeRetryCount op.orderId retryCount
      (o.storeOperation k { op with state := .error, statusText := error }).emit k
        (.operationFailed op.orderId error)
  else o

def onAcceptSubmitFailed (error : String) (m : DLCStateMachine) : Outcome :=
  m.sweep (retrySubmitting .takerSubmittingAccept .takerAwaitingAcceptContext
    "Retrying accept context" error)

def onSignContextReady (context : SignContext) (m : DLCStateMachine) : Outcome :=
  match m.findByDlcId context.dlcId with
  | none => { machine := m }
  | some (k, op) =>
      let o := Outcome.storeOperation k
        { op with signContext := context, signContextFetched := true } { machine := m }
      (setOperationState op.orderId .makerSigningSign "Waiting for local signing" o).emit k
        (.requestMakerSignSignatures context.dlcId context "")

def onSignContextFailed (error : String) (m : DLCStateMachine) : Outcome :=
  m.sweep (failAwaiting .makerAwaitingSignContext error)

def onSignSubmitted (response : SignResponse) (m : DLCStateMachine) : Outcome :=
  match m.findByDlcId response.dlcId with
  | none => { machine := m }
  | some (k, op) =>
      let o := (setOperationState op.orderId .makerSignSubmitted "Sign submitted successfully"
        { machine := m }).emit k (.makerSignCompleted response.dlcId)
      if response.fundingBroadcasted && !response.fundingTxid.isEmpty then
        (setOperationState op.orderId .dlcFunded ("DLC funded: " ++ response.fundingTxid) o).emit k
          (.dlcFunded response.dlcId response.fundingTxid)
      else o

def onSignSubmitFailed (error : String) (m : DLCStateMachine) : Outcome :=
  m.sweep (retrySubmitting .makerSubmittingSign .makerAwaitingSignContext
    "Retrying sign context" error)

def onDlcReady (detail : DLCDetail) (m : DLCStateMachine) : Outcome :=
  match m.findByDlcId detail.dlcId with
  | none => { machine := m }
  | some (k, op) =>
      if detail.status == "signed" then
        setOperationState op.orderId .dlcSignedAwaitingFunding "DLC signed, awaiting funding"
          { machine := m }
      else if detail.status == "funded" then
        (setOperationState op.orderId .dlcFunded ("DLC funded: " ++ detail.fundingTxid)
          { machine := m }).emit k (.dlcFunded detail.dlcId detail.fundingTxid)
      else if detail.status == "settled" then
        (setOperationState op.orderId .dlcSettled ("DLC settled: " ++ detail.closingTxid)
          { machine := m }).emit k (.dlcSettled detail.dlcId detail.closingTxid)
      else { machine := m }

def onDlcFailed (_error : String) (m : DLCStateMachine) : Outcome := { machine := m }

/-- The `switch` of `on_poll_timer`. -/
def pollOperation (k : String) (op : OrderOperation) (o : Outcome) : Outcome :=
  match op.state with
  | .takerAwaitingAcceptContext => advanceTakerOperation k op o
  | .makerAwaitingSignContext => advanceMakerOperation k op o
  | .dlcSignedAwaitingFunding => o.call k (DLCCoordinatorClient.getDlc op.dlcId)
  | _ => o

def onPollTimer (m : DLCStateMachine) : Outcome := m.sweep pollOperation

def pollNow (m : DLCStateMachine) : Outcome := m.onPollTimer

/-- The signal of the client, connected to its slot. -/
def onResponse : Response → DLCStateMachine → Outcome
  | .acceptContextReady context => onAcceptContextReady context
  | .acceptContextFailed error => onAcceptContextFailed error
  | .acceptSubmitted order => onAcceptSubmitted order
  | .acceptSubmitFailed error => onAcceptSubmitFailed error
  | .signContextReady context => onSignContextReady context
  | .signContextFailed error => onSignContextFailed error
  | .signSubmitted response => onSignSubmitted response
  | .signSubmitFailed error => onSignSubmitFailed error
  | .dlcReady detail => onDlcReady detail
  | .dlcFailed error => onDlcFailed error

end DLCStateMachine

/-- Everything that can happen to the machine: a call of a public function, a
tick of the poll timer, or an answer of the coordinator. -/
inductive Event where
  | setPollingIntervalMs (interval : Int)
  | setMaxRetries (maxRetries : Int)
  | startPolling
  | stopPolling
  | trackOrder (order : Order)
  | untrackOrder (orderId : String)
  | submitTakerAcceptSignatures (orderId : String) (signatures : Signatures)
  | submitMakerSignSignatures (dlcId : String) (signatures : Signatures)
  | pollTimer
  | response (response : Response)
deriving DecidableEq, Repr

def DLCStateMachine.handle : Event → DLCStateMachine → Outcome
  | .setPollingIntervalMs interval => setPollingIntervalMs interval
  | .setMaxRetries maxRetries => setMaxRetries maxRetries
  | .startPolling => startPolling
  | .stopPolling => stopPolling
  | .trackOrder order => trackOrder order
  | .untrackOrder orderId => untrackOrder orderId
  | .submitTakerAcceptSignatures orderId signatures =>
      submitTakerAcceptSignatures orderId signatures
  | .submitMakerSignSignatures dlcId signatures => submitMakerSignSignatures dlcId signatures
  | .pollTimer => onPollTimer
  | .response response => onResponse response

end GreenWallet.Dlc
