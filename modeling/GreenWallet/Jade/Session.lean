import GreenWallet.Library.Reactive
import GreenWallet.Jade.Api

/-!
# The API on its connection

`JadeAPI` together with the connection it writes to, the timers it has armed and the
calls it has posted. What matters here is which message is sent when, and whose answer
it waits for: of a request only the method is kept, and of an answer what the handlers
look at. Every registration of a handler has a number, and messages, handlers and
timers name the registration they stand for, so that two requests that happen to get
one id can be told apart; the source has the id alone.

A slot runs in two halves. Callbacks and http proxies are called in the first, and may
call the API again before the second one takes the id out of `m_msg_inflight`.
-/
namespace GreenWallet.Jade
open GreenWallet.Library
open Std (ExtTreeMap)

namespace Session

/-- What `JadeAPI` and its handlers look at in an answer of the device. -/
structure Reply where
  id : Int
  /-- The `result`, if there is one, as a truth value. -/
  result : Option Bool := none
  error : Bool := false
  /-- The `on-reply` of the http request that the device wants made. -/
  httpRequest : Option String := none
deriving DecidableEq, Repr

/-- A call of the API; all messages of an exchange serve one call. -/
structure Call where
  number : ℕ
  /-- The command takes an exchange of several messages. -/
  exchange : Bool
deriving DecidableEq, Repr

structure Registration where
  number : ℕ
  id : Int
  timeout : Int
  call : Call
deriving DecidableEq, Repr

inductive Handler where
  | client (callback : ℕ)
  /-- Made by `handleHttpResponse`. -/
  | forward (id : Int)
  /-- Made by `makeSignTxInitialCallback`. -/
  | signTxInitial (id : Int) (inputs : ℕ)
  /-- Made by `makeReceiveCommitmentCallback`. -/
  | receiveCommitment (id : Int) (index inputs commitments : ℕ)
  /-- Made by `makeReceiveSignatureCallback`. -/
  | receiveSignature (id : Int) (index inputs commitments signatures : ℕ)
  /-- Made by `makeOtaChunkCallback`. -/
  | otaChunk (exposed : Registration) (size chunkSize currentPos : Int) (cbProgress : Option ℕ)
  /-- The two handlers of `signMessage`. -/
  | signMessage (callback : ℕ)
  | signMessageSignature (callback : ℕ)
deriving DecidableEq, Repr

inductive Method where
  | setMnemonic | ping | getVersionInfo | addEntropy | authUser | logout | signAttestation
  | ota | otaDelta | otaData | otaComplete | getReceiveAddress | getXpub | signMessage
  | signTx | signLiquidTx | txInput
  /-- `get_signature`, with the number of signatures that are to follow. -/
  | getSignature (left : ℕ)
  | getBlindingKey | getSharedNonce | getBlindingFactor | getCommitments
  | getMasterBlindingKey
  /-- The function of the device that takes the answer to an http request. -/
  | onReply (name : String)
deriving DecidableEq, Repr

/-- The device goes on after this answer, and waits for the next message. -/
def Method.continues (reply : Reply) : Method → Bool
  | .signTx | .signLiquidTx | .ota | .otaDelta | .otaData =>
      reply.httpRequest.isSome || reply.result == some true
  | .txInput => reply.httpRequest.isSome || reply.result.isSome
  | .getSignature left => reply.httpRequest.isSome || left != 0 && reply.result.isSome
  | .signMessage => reply.httpRequest.isSome || !reply.error
  | _ => reply.httpRequest.isSome

structure Message where
  /-- The registration whose id the message carries. -/
  registration : Registration
  method : Method
  /-- The message was passed to `enqueue`. -/
  queued : Bool := false
deriving DecidableEq, Repr

def Message.id (m : Message) : Int := m.registration.id

structure Entry where
  registration : Registration
  handler : Handler
deriving DecidableEq, Repr

structure HttpRequest where
  call : Call
  id : Int
  onReply : String
deriving DecidableEq, Repr

inductive Output where
  /-- A handler was registered, in place of one that still was. -/
  | registered (registration : Registration) (replaced : Option Registration)
  /-- `m_jade->send` was called, and a timer was started unless the timeout is 0. -/
  | sent (message : Message) (timeout : Int)
  | received (reply : Reply)
  /-- The id was taken out of `m_msg_inflight`. -/
  | removed (id : Int)
  /-- A timer took the handler of a registration. -/
  | expired (timer taken : Registration)
  | called (call : Call) (callback : ℕ)
  /-- The call of the callback was posted. -/
  | posted (callback : ℕ)
  | progress (callback : ℕ) (uploaded : Int)
  | httpRequested (proxy : ℕ) (request : HttpRequest)
  /-- An empty `std::function` was called: the exception leaves the slot. -/
  | badFunctionCall
deriving DecidableEq, Repr

/-- A slot whose second half is still to run. -/
structure Handling where
  id : Int
  /-- The slot is that of a timer. -/
  timer : Bool
deriving DecidableEq, Repr

end Session

structure Session where
  connected : Bool := false
  /-- The ids that were written to the connection since it was opened. -/
  written : List Int := []
  locked : Bool := false
  /-- The numbers drawn so far. -/
  drawn : ℕ := 0
  calls : ℕ := 0
  /-- The registrations made so far. -/
  registrations : List Session.Registration := []
  responseHandlers : ExtTreeMap Int Session.Entry := ∅
  requestProxy : ExtTreeMap Int (Option ℕ) := ∅
  msgTimeout : ExtTreeMap Int Int := ∅
  msgQueue : List Session.Message := []
  msgInflight : List Int := []
  /-- The lengths of the lists behind shared pointers. -/
  lists : List ℕ := []
  /-- The timers that run. -/
  timers : List Session.Registration := []
  /-- The calls of `drain` that were posted. -/
  drains : ℕ := 0
  handling : Option Session.Handling := none
  output : List Session.Output := []

namespace Session

def put (out : Output) (s : Session) : Session := { s with output := s.output ++ [out] }

def getNewId (idgen : ℕ → Fin 90000) (s : Session) : Int × Session :=
  (JadeAPI.drawnId idgen s.drawn, { s with drawn := s.drawn + 1 })

/-- The loop of `registerResponseHandler`: at most five more tries at a new id. -/
def redraw (idgen : ℕ → Fin 90000) : ℕ → Int → Session → Int × Session
  | 0, id, s => (id, s)
  | tries + 1, id, s =>
      if s.responseHandlers.contains id then
        let (id, s) := s.getNewId idgen
        redraw idgen tries id s
      else (id, s)

def registerResponseHandler (idgen : ℕ → Fin 90000) (call : Call) (cb : Handler) (timeout : Int)
    (s : Session) : Registration × Session :=
  let (id, s) := s.getNewId idgen
  let (id, s) := redraw idgen 5 id s
  let registration := { number := s.registrations.length, id, timeout, call }
  let s := s.put (.registered registration (s.responseHandlers[id]?.map Entry.registration))
  let s :=
    { s with
      responseHandlers := s.responseHandlers.insert id ⟨registration, cb⟩
      registrations := s.registrations ++ [registration] }
  (registration,
    if timeout > 0 then { s with msgTimeout := s.msgTimeout.insert id timeout } else s)

/-- The connection is closed, by either side. -/
def disconnectDevice (s : Session) : Session := { s with connected := false, written := [] }

/-- `JadeConnection::send`: on a closed connection nothing is done, and a write that fails
closes the connection. -/
def write (writes : Bool) (msg : Message) (s : Session) : Session :=
  if s.connected then
    if writes then { s with written := s.written.insert msg.id } else s.disconnectDevice
  else s

def send (writes : Bool) (msg : Message) (s : Session) : Session :=
  let s := s.write writes msg
  let timeout := (s.msgTimeout[msg.id]?).getD 0
  let s := { s with msgInflight := s.msgInflight.insert msg.id }.put (.sent msg timeout)
  if timeout > 0 then { s with timers := s.timers ++ [msg.registration] } else s

def enqueue (writes : Bool) (msg : Message) (s : Session) : Session :=
  if s.msgInflight.isEmpty && s.msgQueue.isEmpty then s.send writes { msg with queued := true }
  else { s with msgQueue := s.msgQueue ++ [{ msg with queued := true }] }

def drain (writes : Bool) (s : Session) : Session :=
  if s.msgInflight.isEmpty then
    match s.msgQueue with
    | [] => s
    | msg :: queue => { s with msgQueue := queue }.send writes msg
  else s

/-- The body of a function of the API, up to the message it sends and the id it returns. -/
inductive Plan where
  | register (call : Call) (cb : Handler) (timeout : Int) (next : Registration → Plan)
  /-- `m_request_proxy[id] = proxy`. -/
  | setProxy (id : Int) (proxy : Option ℕ) (next : Plan)
  /-- `m_request_proxy[newId] = m_request_proxy[id]`. -/
  | copyProxy (newId id : Int) (next : Plan)
  | send (msg : Message) (result : Int)
  | enqueue (msg : Message) (result : Int)
  | call (call : Call) (callback : ℕ)
  | post (callback : ℕ)
  | done

def run (idgen : ℕ → Fin 90000) (writes : Bool) : Plan → Session → Int × Session
  | .register call cb timeout next, s =>
      let (registration, s) := s.registerResponseHandler idgen call cb timeout
      run idgen writes (next registration) s
  | .setProxy id proxy next, s =>
      run idgen writes next { s with requestProxy := s.requestProxy.insert id proxy }
  | .copyProxy newId id next, s =>
      let proxy := (s.requestProxy[id]?).getD none
      run idgen writes next
        { s with requestProxy := (s.requestProxy.insert id proxy).insert newId proxy }
  | .send msg result, s => (result, s.send writes msg)
  | .enqueue msg result, s => (result, s.enqueue writes msg)
  | .call call callback, s => (0, s.put (.called call callback))
  | .post callback, s => (0, s.put (.posted callback))
  | .done, s => (0, s)

section Calls
variable (call : Call) (cb : ℕ)

/-- A command that the device answers with one message. -/
def command (method : Method) : Plan :=
  .register call (.client cb) 0 fun r => .enqueue { registration := r, method } r.id

/-- A command whose first answer goes to a handler of the API, and not to the caller's,
which waits under the id that is returned. -/
def initiate (method : Method) (interim : Registration → Handler) : Plan :=
  .register call (.client cb) 0 fun r =>
    .register call (interim r) 0 fun tmp => .enqueue { registration := tmp, method } r.id

def setMnemonic : Plan := command call cb .setMnemonic

def ping (locked : Bool) : Plan :=
  if locked then .post cb
  else .register call (.client cb) 1000 fun r => .send { registration := r, method := .ping } r.id

def getVersionInfo (locked : Bool) : Plan :=
  if locked then .post cb
  else
    .register call (.client cb) 6000 fun r =>
      .enqueue { registration := r, method := .getVersionInfo } r.id

def addEntropy : Plan := command call cb .addEntropy

def authUser (proxy : Option ℕ) : Plan :=
  .register call (.client cb) 0 fun r =>
    .setProxy r.id proxy (.enqueue { registration := r, method := .authUser } r.id)

def logout : Plan := command call cb .logout

def signAttestation : Plan := command call cb .signAttestation

def makeOtaChunkCallback (size chunkSize currentPos : Int) (cbProgress : Option ℕ)
    (exposed : Registration) : Handler := .otaChunk exposed size chunkSize currentPos cbProgress

def otaUpdate (size chunkSize : Int) (cbProgress : Option ℕ) : Plan :=
  initiate call cb .ota (makeOtaChunkCallback size chunkSize 0 cbProgress)

def otaDeltaUpdate (size chunkSize : Int) (cbProgress : Option ℕ) : Plan :=
  initiate call cb .otaDelta (makeOtaChunkCallback size chunkSize 0 cbProgress)

def getReceiveAddress : Plan := command call cb .getReceiveAddress

def getXpub : Plan := command call cb .getXpub

def signMessage : Plan :=
  .register call (.signMessage cb) 0 fun r =>
    .enqueue { registration := r, method := .signMessage } r.id

def signTx (inputs : ℕ) : Plan :=
  initiate call cb .signTx fun r => .signTxInitial r.id inputs

def signLiquidTx (inputs : ℕ) : Plan :=
  initiate call cb .signLiquidTx fun r => .signTxInitial r.id inputs

def getBlindingKey : Plan := command call cb .getBlindingKey

def getSharedNonce : Plan := command call cb .getSharedNonce

def getBlindingFactor : Plan := command call cb .getBlindingFactor

def getCommitments : Plan := command call cb .getCommitments

def getMasterBlindingKey : Plan := command call cb .getMasterBlindingKey

end Calls

/-- The calls of the API, with the caller's callback. -/
inductive ApiCall where
  | setMnemonic (cb : ℕ) | ping (cb : ℕ) | getVersionInfo (cb : ℕ) | addEntropy (cb : ℕ)
  | authUser (cb : ℕ) (proxy : Option ℕ) | logout (cb : ℕ) | signAttestation (cb : ℕ)
  | otaUpdate (size : ℕ) (chunkSize : Int) (cbProgress : Option ℕ) (cb : ℕ)
  | otaDeltaUpdate (size : ℕ) (chunkSize : Int) (cbProgress : Option ℕ) (cb : ℕ)
  | getReceiveAddress (cb : ℕ) | getXpub (cb : ℕ) | signMessage (cb : ℕ)
  | signTx (inputs cb : ℕ) | signLiquidTx (inputs cb : ℕ) | getBlindingKey (cb : ℕ)
  | getSharedNonce (cb : ℕ) | getBlindingFactor (cb : ℕ) | getCommitments (cb : ℕ)
  | getMasterBlindingKey (cb : ℕ)
deriving DecidableEq, Repr

/-- The calls that take an exchange of several messages. -/
def ApiCall.isExchange : ApiCall → Bool
  | .authUser .. | .otaUpdate .. | .otaDeltaUpdate .. | .signMessage _ | .signTx ..
  | .signLiquidTx .. => true
  | _ => false

def ApiCall.plan (call : Call) (locked : Bool) : ApiCall → Plan
  | .setMnemonic cb => Session.setMnemonic call cb
  | .ping cb => Session.ping call cb locked
  | .getVersionInfo cb => Session.getVersionInfo call cb locked
  | .addEntropy cb => Session.addEntropy call cb
  | .authUser cb proxy => Session.authUser call cb proxy
  | .logout cb => Session.logout call cb
  | .signAttestation cb => Session.signAttestation call cb
  | .otaUpdate size chunkSize cbProgress cb => Session.otaUpdate call cb size chunkSize cbProgress
  | .otaDeltaUpdate size chunkSize cbProgress cb =>
      Session.otaDeltaUpdate call cb size chunkSize cbProgress
  | .getReceiveAddress cb => Session.getReceiveAddress call cb
  | .getXpub cb => Session.getXpub call cb
  | .signMessage cb => Session.signMessage call cb
  | .signTx inputs cb => Session.signTx call cb inputs
  | .signLiquidTx inputs cb => Session.signLiquidTx call cb inputs
  | .getBlindingKey cb => Session.getBlindingKey call cb
  | .getSharedNonce cb => Session.getSharedNonce call cb
  | .getBlindingFactor cb => Session.getBlindingFactor call cb
  | .getCommitments cb => Session.getCommitments call cb
  | .getMasterBlindingKey cb => Session.getMasterBlindingKey call cb

/-- A new list, behind a shared pointer. -/
def newList (s : Session) : ℕ × Session := (s.lists.length, { s with lists := s.lists ++ [0] })

def lengthAt (s : Session) (pointer : ℕ) : ℕ := s.lists.getD pointer 0

def appendTo (pointer : ℕ) (s : Session) : Session :=
  { s with lists := s.lists.modify pointer (· + 1) }

def sendTxInput (call : Call) (id : Int) (index inputs commitments : ℕ) : Plan :=
  .register call (.receiveCommitment id index inputs commitments) 0 fun r =>
    .send { registration := r, method := .txInput } r.id

def sendTxSignatureRequest (call : Call) (id : Int) (index inputs commitments signatures : ℕ) :
    Plan :=
  .register call (.receiveSignature id index inputs commitments signatures) 0 fun r =>
    .send { registration := r, method := .getSignature (inputs - (index + 1)) } r.id

/-- What a handler ends with. -/
inductive Reaction where
  | forward (targetId : Int) (reply : Reply)
  | act (plan : Plan)

/-- The body of a handler that was registered for the call. -/
def runHandler (call : Call) (reply : Reply) : Handler → Session → Session × Reaction
  | .client callback, s => (s, .act (.call call callback))
  | .forward id, s => (s, .forward id reply)
  | .signTxInitial id inputs, s =>
      if reply.result = some true then
        let (commitments, s) := s.newList
        (s, .act (sendTxInput call id 0 inputs commitments))
      else (s, .forward id reply)
  | .receiveCommitment id index inputs commitments, s =>
      if reply.result.isSome then
        let s := s.appendTo commitments
        if s.lengthAt commitments < inputs then
          (s, .act (sendTxInput call id (index + 1) inputs commitments))
        else
          let (signatures, s) := s.newList
          (s, .act (sendTxSignatureRequest call id 0 inputs commitments signatures))
      else (s, .forward id reply)
  | .receiveSignature id index inputs commitments signatures, s =>
      if reply.result.isSome then
        let s := s.appendTo signatures
        if s.lengthAt signatures < inputs then
          (s, .act (sendTxSignatureRequest call id (index + 1) inputs commitments signatures))
        else (s, .forward id { id, result := some false })
      else (s, .forward id reply)
  | .otaChunk exposed size chunkSize currentPos cbProgress, s =>
      if reply.result = some true then
        let s :=
          match cbProgress with
          | some callback => s.put (.progress callback currentPos)
          | none => s
        if currentPos < size then
          let nextChunkLen := if size - currentPos ≥ chunkSize then chunkSize else size - currentPos
          (s, .act
            (.register call
              (makeOtaChunkCallback size chunkSize (currentPos + nextChunkLen) cbProgress exposed)
              0 fun r => .send { registration := r, method := .otaData } r.id))
        else (s, .act (.send { registration := exposed, method := .otaComplete } exposed.id))
      else (s, .forward exposed.id reply)
  | .signMessage callback, s =>
      if reply.error then (s, .act (.call call callback))
      else
        (s, .act
          (.register call (.signMessageSignature callback) 0 fun r =>
            .send { registration := r, method := .getSignature 0 } r.id))
  | .signMessageSignature callback, s => (s, .act (.call call callback))

/-- A handler that was taken out is called; `forward` stands for
`forwardToResponseHandler`. -/
def invoke (forward : Reply → Session → Session × Plan) (entry : Entry) (reply : Reply)
    (s : Session) : Session × Plan :=
  match runHandler entry.registration.call reply entry.handler s with
  | (s, .forward targetId reply) => forward { reply with id := targetId } s
  | (s, .act plan) => (s, plan)

/-- `callResponseHandler`, up to the last thing that is done. Every round takes a handler
out of the map, so as many rounds as there are handlers, and one for an answer nobody
waits for, are enough. -/
def callResponseHandler : ℕ → Reply → Session → Session × Plan
  | 0, _, s => (s, .done)
  | rounds + 1, reply, s =>
      let handler := s.responseHandlers[reply.id]?
      let s :=
        { s with
          responseHandlers := s.responseHandlers.erase reply.id
          requestProxy := s.requestProxy.erase reply.id }
      match handler with
      | none => (s, .done)
      | some entry => invoke (callResponseHandler rounds) entry reply s

def handleHttpResponse (request : HttpRequest) : Plan :=
  .register request.call (.forward request.id) 0 fun r =>
    .copyProxy r.id request.id
      (.send { registration := r, method := .onReply request.onReply } r.id)

/-- The call that a message with the id serves. -/
def callOf (id : Int) (s : Session) : Call :=
  match s.responseHandlers[id]? with
  | some entry => entry.registration.call
  | none => { number := 0, exchange := false }

/-- The first half of `processResponseMessage`. -/
def processResponseMessage (reply : Reply) (s : Session) : Session × Plan :=
  match reply.httpRequest with
  | some onReply =>
      let request := { call := s.callOf reply.id, id := reply.id, onReply }
      let handling := some { id := reply.id, timer := false }
      match s.requestProxy[reply.id]? with
      | none => ({ s with handling }, handleHttpResponse request)
      | some (some proxy) => ({ s with handling }.put (.httpRequested proxy request), .done)
      | some none => (s.put .badFunctionCall, .done)
  | none =>
      callResponseHandler (s.responseHandlers.size + 1) reply
        { s with handling := some { id := reply.id, timer := false } }

/-- The first half of the slot of a timer. A proxy under the id stays. -/
def timeout (timer : Registration) (s : Session) : Session × Plan :=
  match s.responseHandlers[timer.id]? with
  | none => ({ s with timers := s.timers.erase timer }, .done)
  | some entry =>
      invoke (callResponseHandler (s.responseHandlers.size + 1)) entry { id := timer.id, error := true }
        ({ s with
            timers := s.timers.erase timer
            responseHandlers := s.responseHandlers.erase timer.id
            handling := some { id := timer.id, timer := true } }.put
          (.expired timer entry.registration))

/-- The second half of a slot. -/
def finish (writes : Bool) (s : Session) : Session :=
  match s.handling with
  | none => s
  | some handling =>
      let s :=
        { s with
          handling := none
          msgInflight := s.msgInflight.erase handling.id }.put (.removed handling.id)
      if handling.timer then s.drain writes else { s with drains := s.drains + 1 }

inductive Event where
  /-- A client calls the API, also out of a callback; `writes` tells whether a write goes
  through. -/
  | call (c : ApiCall) (writes : Bool)
  /-- A client hands over the answer to an http request. -/
  | httpResponse (request : HttpRequest) (writes : Bool)
  | receive (reply : Reply) (writes : Bool)
  | expire (timer : Registration) (writes : Bool)
  | finish (writes : Bool)
  | drain (writes : Bool)
  | setLocked (locked : Bool)
  | connect
  | disconnect
deriving DecidableEq, Repr

variable (idgen : ℕ → Fin 90000)

def next (s : Session) : Event → Session
  | .call c writes =>
      let call := { number := s.calls + 1, exchange := c.isExchange }
      (run idgen writes (c.plan call s.locked) { s with calls := s.calls + 1 }).2
  | .httpResponse request writes => (run idgen writes (handleHttpResponse request) s).2
  | .receive reply writes =>
      if s.handling.isSome || reply.id == 0 then s
      else
        let (s, plan) := (s.put (.received reply)).processResponseMessage reply
        (run idgen writes plan s).2
  | .expire timer writes =>
      if s.handling.isSome || !s.timers.contains timer then s
      else
        let (s, plan) := s.timeout timer
        (run idgen writes plan s).2
  | .finish writes => s.finish writes
  | .drain writes =>
      if s.handling.isSome || s.drains == 0 then s
      else { s with drains := s.drains - 1 }.drain writes
  | .setLocked locked => { s with locked }
  | .connect => if s.connected then s else { s with connected := true, written := [] }
  | .disconnect => s.disconnectDevice

/-- A proxy was given the http request. -/
def Output.asks (request : HttpRequest) : Output → Bool
  | .httpRequested _ given => given = request
  | _ => false

/-- The event loop takes up a slot only when no other one runs. -/
def enabled (s : Session) : Event → Prop
  | .httpResponse request _ => s.output.any (Output.asks request) = true
  | .receive reply _ => s.handling = none ∧ s.connected = true ∧ reply.id ≠ 0
  | .expire timer _ => s.handling = none ∧ timer ∈ s.timers
  | .finish _ => s.handling ≠ none
  | .drain _ => s.handling = none ∧ s.drains ≠ 0
  | _ => True

instance (s : Session) : (e : Event) → Decidable (s.enabled e)
  | .receive reply _ =>
      inferInstanceAs (Decidable (s.handling = none ∧ s.connected = true ∧ reply.id ≠ 0))
  | .expire timer _ => inferInstanceAs (Decidable (s.handling = none ∧ timer ∈ s.timers))
  | .finish _ => inferInstanceAs (Decidable (s.handling ≠ none))
  | .drain _ => inferInstanceAs (Decidable (s.handling = none ∧ s.drains ≠ 0))
  | .httpResponse request _ =>
      inferInstanceAs (Decidable (s.output.any (Output.asks request) = true))
  | .call .. | .setLocked _ | .connect | .disconnect => isTrue trivial

def reactive : Reactive Session Event Output where
  enabled := enabled
  next := next idgen
  emits s e := (s.next idgen e).output.drop s.output.length

instance (s : Session) (e : Event) : Decidable ((reactive idgen).enabled s e) :=
  inferInstanceAs (Decidable (s.enabled e))

end Session
end GreenWallet.Jade
