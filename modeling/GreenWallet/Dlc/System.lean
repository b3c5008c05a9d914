import GreenWallet.Library.Reactive
import GreenWallet.Dlc.Projection

/-!
# The machine, its client and the wallet

The state machine in its surroundings: the requests the coordinator has not
answered yet, and the effects there have been. The coordinator answers requests
in any order and with any content, one of the two signals of its kind each; the
wallet signs a context it was handed, at any later time. `DLCCoordinatorClient`
is shared with the rest of the application, which may query a DLC of its own.

Calls of the public functions and ticks of the poll timer come at any time.
-/
namespace GreenWallet.Dlc
open GreenWallet.Library

/-- A request in flight, with the operation it was issued for. -/
structure Pending where
  issuer : Option String
  request : Request
deriving DecidableEq, Repr

structure System where
  machine : DLCStateMachine := {}
  inFlight : List Pending := []
  log : List Effect := []

inductive SystemEvent where
  | call (event : Event)
  | deliver (pending : Pending) (response : Response)
  | queryDlc (dlcId : String)
  /-- The wallet answers `request_taker_accept_signatures`. -/
  | takerSigned (context : AcceptContext) (signatures : Signatures)
  /-- The wallet answers the `request_maker_sign_signatures` made for the operation. -/
  | makerSigned (operation : String) (context : SignContext) (signatures : Signatures)
deriving DecidableEq, Repr

def Effect.issued : Effect → Option Pending
  | .call k request => some { issuer := some k, request := request }
  | .emit .. => none

def Event.isResponse : Event → Bool
  | .response _ => true
  | _ => false

/-- What reaches the machine. -/
def SystemEvent.toEvent : SystemEvent → Option Event
  | .call event => some event
  | .deliver _ response => some (.response response)
  | .queryDlc _ => none
  | .takerSigned context signatures =>
      some (.submitTakerAcceptSignatures context.orderId signatures)
  | .makerSigned _ context signatures =>
      some (.submitMakerSignSignatures context.dlcId signatures)

namespace SystemEvent

/-- The event starts the operation over, or drops it. -/
def renews (k : String) : SystemEvent → Bool
  | .call (.trackOrder order) => order.orderId = k
  | .call (.untrackOrder orderId) => orderId = k
  | _ => false

/-- A success signal of the client arrives. -/
def isSuccess : SystemEvent → Bool
  | .deliver _ response => response.isSuccess
  | _ => false

theorem toEvent_track {e : SystemEvent} {order : Order}
    (h : e.toEvent = some (.trackOrder order)) : e = .call (.trackOrder order) := by
  cases e <;> cases h
  rfl

theorem toEvent_untrack {e : SystemEvent} {orderId : String}
    (h : e.toEvent = some (.untrackOrder orderId)) : e = .call (.untrackOrder orderId) := by
  cases e <;> cases h
  rfl

end SystemEvent

namespace System

def enabled (S : System) : SystemEvent → Prop
  | .call event => event.isResponse = false
  | .deliver p response => p ∈ S.inFlight ∧ p.request.answeredBy response = true
  | .queryDlc _ => True
  | .takerSigned context _ =>
      .emit context.orderId (.requestTakerAcceptSignatures context.orderId context "") ∈ S.log
  | .makerSigned k context _ =>
      .emit k (.requestMakerSignSignatures context.dlcId context "") ∈ S.log

instance (S : System) : (e : SystemEvent) → Decidable (S.enabled e)
  | .call event => inferInstanceAs (Decidable (event.isResponse = false))
  | .deliver p response =>
      inferInstanceAs (Decidable (p ∈ S.inFlight ∧ p.request.answeredBy response = true))
  | .queryDlc _ => isTrue trivial
  | .takerSigned context _ => inferInstanceAs (Decidable
      (Effect.emit context.orderId (.requestTakerAcceptSignatures context.orderId context "") ∈
        S.log))
  | .makerSigned k context _ => inferInstanceAs (Decidable
      (Effect.emit k (.requestMakerSignSignatures context.dlcId context "") ∈ S.log))

def outcome (S : System) (e : SystemEvent) : Outcome :=
  match e.toEvent with
  | some event => S.machine.handle event
  | none => { machine := S.machine }

/-- The requests still in flight once the event has taken place. -/
def remaining (S : System) : SystemEvent → List Pending
  | .deliver p _ => S.inFlight.erase p
  | .queryDlc dlcId =>
      S.inFlight ++ [{ issuer := none, request := DLCCoordinatorClient.getDlc dlcId }]
  | _ => S.inFlight

def emits (S : System) (e : SystemEvent) : List Effect := (S.outcome e).effects

def next (S : System) (e : SystemEvent) : System :=
  { machine := (S.outcome e).machine
    inFlight := S.remaining e ++ (S.emits e).filterMap Effect.issued
    log := S.log ++ S.emits e }

/-- What the event means for the operation under a key. -/
def input (S : System) (e : SystemEvent) (k : String) : Input :=
  match e.toEvent with
  | some event => S.machine.route k event
  | none => .nothing

def operation (S : System) (k : String) : Option OrderOperation := S.machine.operations[k]?

def state (S : System) (k : String) : Option OperationState :=
  (S.operation k).map OrderOperation.state

/-- The submissions of an order that the coordinator has not answered. -/
def outstanding (S : System) (k : String) : ℕ :=
  S.inFlight.countP fun p => p.issuer = some k ∧ p.request.isSubmission = true

def retryCount (S : System) (k : String) : Option Int := S.machine.retryCounts[k]?

end System

def negotiation : Reactive System SystemEvent Effect where
  enabled := System.enabled
  next := System.next
  emits := System.emits

instance (S : System) (e : SystemEvent) : Decidable (negotiation.enabled S e) :=
  inferInstanceAs (Decidable (S.enabled e))

namespace System
variable {S : System}

@[simp] theorem cell_operation (S : System) (k : String) :
    (S.machine.cell k).operation = S.operation k := rfl

@[simp] theorem cell_retryCount (S : System) (k : String) :
    (S.machine.cell k).retryCount = S.retryCount k := rfl

/-- The step of the system, seen from one key, is a step of its operation. -/
theorem outcome_view (hS : S.machine.WellKeyed) (e : SystemEvent) (k : String) :
    (S.outcome e).view k = (S.machine.cell k).step S.machine.maxRetries k (S.input e k) := by
  cases he : e.toEvent with
  | none => simp [outcome, input, he, Outcome.view]
  | some event => simpa [outcome, input, he] using DLCStateMachine.handle_view hS event k

theorem next_cell (hS : S.machine.WellKeyed) (e : SystemEvent) (k : String) :
    (S.next e).machine.cell k =
      ((S.machine.cell k).step S.machine.maxRetries k (S.input e k)).1 :=
  congrArg Prod.fst (outcome_view hS e k)

theorem emits_filter (hS : S.machine.WellKeyed) (e : SystemEvent) (k : String) :
    ((S.emits e).filter fun x => x.operation = k) =
      ((S.machine.cell k).step S.machine.maxRetries k (S.input e k)).2 :=
  congrArg Prod.snd (outcome_view hS e k)

theorem mem_emits (hS : S.machine.WellKeyed) {e : SystemEvent} {x : Effect} :
    x ∈ S.emits e ↔
      x ∈ ((S.machine.cell x.operation).step S.machine.maxRetries x.operation
        (S.input e x.operation)).2 := by
  rw [← emits_filter hS e x.operation, List.mem_filter]
  simp

theorem next_operation (hS : S.machine.WellKeyed) (e : SystemEvent) (k : String) :
    (S.next e).operation k =
      ((S.machine.cell k).step S.machine.maxRetries k (S.input e k)).1.operation :=
  congrArg Cell.operation (next_cell hS e k)

theorem next_retryCount (hS : S.machine.WellKeyed) (e : SystemEvent) (k : String) :
    (S.next e).retryCount k =
      ((S.machine.cell k).step S.machine.maxRetries k (S.input e k)).1.retryCount :=
  congrArg Cell.retryCount (next_cell hS e k)

theorem next_wellKeyed (e : SystemEvent) (hS : S.machine.WellKeyed) :
    (S.next e).machine.WellKeyed := by
  change (S.outcome e).machine.WellKeyed
  cases he : e.toEvent with
  | none => simpa [outcome, he] using hS
  | some event => simpa [outcome, he] using DLCStateMachine.handle_wellKeyed hS event

theorem start_wellKeyed (pollingIntervalMs maxRetries : Int) :
    ({ pollingIntervalMs := pollingIntervalMs, maxRetries := maxRetries } :
      DLCStateMachine).WellKeyed := by
  intro k op h
  simp at h

theorem input_deliver (S : System) (p : Pending) (r : Response) (k : String) :
    S.input (.deliver p r) k = S.machine.route k (.response r) := rfl

theorem input_eq {e : SystemEvent} {k : String} {i : Input} (h : S.input e k = i)
    (hi : i ≠ .nothing) :
    ∃ event, e.toEvent = some event ∧ S.machine.route k event = i := by
  cases he : e.toEvent with
  | none => exact (hi (by simpa [input, he] using h.symm)).elim
  | some event => exact ⟨event, rfl, by simpa [input, he] using h⟩

/-- An operation that is neither started over nor dropped reacts to its input. -/
theorem next_operation_of_some (hS : S.machine.WellKeyed) {e : SystemEvent} {k : String}
    {op : OrderOperation} (hop : S.operation k = some op) (he : e.renews k = false) :
    (S.next e).operation k = some
      (react S.machine.maxRetries k op (S.retryCount k) (S.input e k)).operation := by
  rw [next_operation hS]
  cases hi : S.input e k with
  | track order =>
      obtain ⟨event, hevent, hroute⟩ := input_eq hi (by simp)
      obtain ⟨rfl, hk⟩ := DLCStateMachine.route_track hroute
      rw [SystemEvent.toEvent_track hevent, SystemEvent.renews] at he
      simp [hk] at he
  | untrack =>
      obtain ⟨event, hevent, hroute⟩ := input_eq hi (by simp)
      rw [DLCStateMachine.route_untrack hroute] at hevent
      rw [SystemEvent.toEvent_untrack hevent, SystemEvent.renews] at he
      simp at he
  | _ => simp [Cell.step, hop]

theorem next_state_of_some (hS : S.machine.WellKeyed) {e : SystemEvent} {k : String}
    {op : OrderOperation} (hop : S.operation k = some op) (he : e.renews k = false) :
    (S.next e).state k = some
      (react S.machine.maxRetries k op (S.retryCount k) (S.input e k)).operation.state := by
  rw [state, next_operation_of_some hS hop he]
  rfl

/-- The answers an operation hears are the success signals of the client. -/
theorem isSuccess_of_isAnswer {e : SystemEvent} {k : String} (he : S.enabled e)
    (h : (S.input e k).isAnswer = true) : e.isSuccess = true := by
  obtain ⟨event, hevent, hroute⟩ := input_eq (S := S) (e := e) (k := k) rfl
    (by intro hn; rw [hn] at h; cases h)
  rw [← hroute] at h
  obtain ⟨r, rfl, hr⟩ := DLCStateMachine.route_isAnswer h
  cases e with
  | call event =>
      cases hevent
      cases he
  | deliver p response =>
      cases hevent
      exact hr
  | _ => cases hevent

theorem isAnswer_of_isSuccess {e : SystemEvent} (k : String) (h : e.isSuccess = true) :
    (S.input e k).isAnswer = true ∨ S.input e k = .nothing := by
  cases e with
  | deliver p response => exact DLCStateMachine.route_success k h
  | _ => cases h

end System

/-- The state machine as constructed: nothing tracked, nothing asked. -/
def start : System := {}

theorem start_wellKeyed : start.machine.WellKeyed := System.start_wellKeyed _ _

theorem run_wellKeyed {S : System} (hS : S.machine.WellKeyed) (es : List SystemEvent) :
    (negotiation.run S es).machine.WellKeyed := by
  induction es generalizing S with
  | nil => exact hS
  | cons e es ih => exact ih (System.next_wellKeyed e hS)

theorem wellKeyed_run (es : List SystemEvent) : (negotiation.run start es).machine.WellKeyed :=
  run_wellKeyed start_wellKeyed es

end GreenWallet.Dlc
