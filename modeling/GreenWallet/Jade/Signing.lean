import GreenWallet.Library.Reactive
import GreenWallet.Jade.Api

/-!
# The anti-exfil signing exchange

The protocol the comment in `signTx` describes: one message for every input,
without the host entropy, each answered by a signer commitment; then one request
for every signature, which reveals the entropy of its input. The exchange is
written down as a script, and the chain of handlers is shown to follow it: after
every answer either the next line of the script has been sent, or the caller's
callback has been called, once.
-/
namespace GreenWallet.Jade
open GreenWallet.Library
open Std (ExtTreeMap)

def Output.request : Output → Option Request
  | .sent request => some request
  | _ => none

def Output.call : Output → Option (ℕ × Fields)
  | .called callback msg => some (callback, msg)
  | _ => none

/-- A message without the id it happened to get. -/
def Request.body (request : Request) : String × Option Variant := (request.method, request.params)

namespace JadeAPI

def sentRequests (api : JadeAPI) : List Request := api.output.filterMap Output.request

def calls (api : JadeAPI) : List (ℕ × Fields) := api.output.filterMap Output.call

/-- The message answers the one sent last. -/
def answersLast (api : JadeAPI) (msg : Fields) : Bool :=
  match api.sentRequests.getLast?, msg.value "id" with
  | some request, .text id => textToInt id == textToInt request.id
  | _, _ => false

end JadeAPI

/-- The API as the device sees it: the device answers the message sent last. -/
def device (idgen : ℕ → Fin 90000) : Reactive JadeAPI Fields Output where
  enabled api msg := api.answersLast msg = true
  next api msg := api.processResponseMessage idgen msg
  emits api msg := (api.processResponseMessage idgen msg).output.drop api.output.length

instance (idgen : ℕ → Fin 90000) (api : JadeAPI) (msg : Fields) :
    Decidable ((device idgen).enabled api msg) :=
  inferInstanceAs (Decidable (api.answersLast msg = true))

/-- A call of `signTx` or of `signLiquidTx`. -/
inductive SignRequest where
  | tx (network : String) (txn : List UInt8) (change : List Variant)
  | liquidTx (network : String) (txn : List UInt8) (commitments change : List Variant)

namespace SignRequest

def start (idgen : ℕ → Fin 90000) (inputs : List Variant) (cb : ℕ) (api : JadeAPI) :
    SignRequest → Int × JadeAPI
  | .tx network txn change => api.signTx idgen network txn inputs change cb
  | .liquidTx network txn commitments change =>
      api.signLiquidTx idgen network txn inputs commitments change cb

def method : SignRequest → String
  | .tx .. => "sign_tx"
  | .liquidTx .. => "sign_liquid_tx"

def params (inputs : List Variant) : SignRequest → Fields
  | .tx network txn change =>
      [("network", .text network), ("use_ae_signatures", .bool true), ("txn", .bytes txn),
        ("num_inputs", .int inputs.length), ("change", .list change)]
  | .liquidTx network txn commitments change =>
      [("network", .text network), ("use_ae_signatures", .bool true), ("txn", .bytes txn),
        ("num_inputs", .int inputs.length), ("trusted_commitments", .list commitments),
        ("change", .list change)]

theorem start_eq (idgen : ℕ → Fin 90000) (inputs : List Variant) (cb : ℕ) (api : JadeAPI)
    (request : SignRequest) :
    request.start idgen inputs cb api =
      api.initiateSigning idgen request.method (request.params inputs) inputs cb := by
  cases request <;> rfl

end SignRequest

/-- The entropy the caller supplied for an input. -/
def entropy (input : Variant) : List UInt8 := (input.toMap.value "ae_host_entropy").toByteArray

def txInput (input : Variant) : String × Option Variant :=
  ("tx_input", some (.map (input.toMap.remove "ae_host_entropy")))

def getSignature (input : Variant) : String × Option Variant :=
  ("get_signature", some (.map [("ae_host_entropy", .bytes (entropy input))]))

/-- The messages of a whole exchange, in order. -/
def script (request : SignRequest) (inputs : List Variant) : List (String × Option Variant) :=
  (request.method, some (.map (request.params inputs))) ::
    (inputs.map txInput ++ inputs.map getSignature)

/-- The answer to the line with this number lets the exchange go on. -/
def accepts (line : ℕ) (msg : Fields) : Bool :=
  if line = 0 then msg.contains "result" && (msg.value "result").toBool
  else msg.contains "result"

/-- What the device said for an input: the bytes of its result. -/
def answer (msg : Fields) : Variant := .bytes (msg.value "result").toByteArray

/-- The result the caller is handed: the answers to the signature requests and to
the inputs. -/
def signedResult (id : Int) (commitments signatures : List Fields) : Fields :=
  [("id", .int id),
    ("result",
      .map
        [("signatures", .list (signatures.map answer)),
          ("signer_commitments", .list (commitments.map answer))])]

/-- No handler waits under an id still to be drawn, and none of these is the one
drawn first, which the caller is given. -/
structure FreshIds (idgen : ℕ → Fin 90000) (api : JadeAPI) : Prop where
  unregistered : ∀ i, api.drawn ≤ i →
    api.responseHandlers.contains (JadeAPI.drawnId idgen i) = false
  exposed : ∀ i, api.drawn < i → JadeAPI.drawnId idgen i ≠ JadeAPI.drawnId idgen api.drawn

/-- A generator that counts, and stays at its last number. -/
def counting (i : ℕ) : Fin 90000 := ⟨min i 89999, by omega⟩

theorem freshIds_counting : FreshIds counting {} := by
  refine ⟨by simp, ?_⟩
  intro i hi
  have hpos : 0 < i := hi
  simp only [JadeAPI.drawnId, counting]
  omega

/-- Nothing is in flight, queued or noted yet. -/
structure JadeAPI.Idle (api : JadeAPI) : Prop where
  inflight : api.msgInflight = []
  queue : api.msgQueue = []
  output : api.output = []

namespace JadeAPI
variable {idgen : ℕ → Fin 90000} {api : JadeAPI}

section
variable (msg : Request)

@[simp] theorem send_responseHandlers : (api.send msg).responseHandlers = api.responseHandlers := by
  simp only [send]
  split_ifs <;> rfl

@[simp] theorem send_lists : (api.send msg).lists = api.lists := by
  simp only [send]
  split_ifs <;> rfl

@[simp] theorem send_msgQueue : (api.send msg).msgQueue = api.msgQueue := by
  simp only [send]
  split_ifs <;> rfl

@[simp] theorem send_drawn : (api.send msg).drawn = api.drawn := by
  simp only [send]
  split_ifs <;> rfl

@[simp] theorem send_sentRequests : (api.send msg).sentRequests = api.sentRequests ++ [msg] := by
  simp only [send, sentRequests]
  split_ifs <;> simp [put, Output.request]

@[simp] theorem send_calls : (api.send msg).calls = api.calls := by
  simp only [send, calls]
  split_ifs <;> simp [put, Output.call]

end

/-- With an empty queue nothing more is sent, whatever is in flight. -/
theorem drain_of_empty (h : api.msgQueue = []) (inflight : List Int) :
    ({ api with msgInflight := inflight } : JadeAPI).drain =
      { api with msgInflight := inflight } := by
  simp only [drain, h]
  split_ifs <;> rfl

/-- Under a fresh id, a handler is registered at the first try. -/
theorem registerResponseHandler_of_fresh (cb : Handler)
    (h : api.responseHandlers.contains (drawnId idgen api.drawn) = false) :
    api.registerResponseHandler idgen cb 0 =
      (drawnId idgen api.drawn,
        { api with
          drawn := api.drawn + 1
          responseHandlers := api.responseHandlers.insert (drawnId idgen api.drawn) cb }) := by
  simp [registerResponseHandler, getNewId, redraw, h]

theorem readdress_id (targetId : Int) (msg : Fields) :
    (readdress targetId msg).value "id" = .int targetId := by
  simp only [readdress]
  split
  · next id hid =>
      split_ifs with h
      · rw [hid, h]
      · exact Fields.value_insert_self _ _ _
  · exact Fields.value_insert_self _ _ _

theorem textToInt_drawnId (idgen : ℕ → Fin 90000) (i : ℕ) :
    textToInt (toString (drawnId idgen i)) = drawnId idgen i := by
  have hlt := (idgen i).isLt
  have hcast : drawnId idgen i = ((10000 + (idgen i : ℕ) : ℕ) : Int) := by simp [drawnId]
  rw [hcast]
  exact textToInt_toString (by omega)

theorem drawnId_ne_zero (idgen : ℕ → Fin 90000) (i : ℕ) : drawnId idgen i ≠ 0 := by
  simp only [drawnId]
  omega

theorem listAt_appendTo (api : JadeAPI) (p : ℕ) (v : Variant) (hp : p < api.lists.length) :
    (api.appendTo p v).listAt p = api.listAt p ++ [v] := by
  simp [appendTo, listAt, List.getD, hp]

theorem listAt_appendTo_of_ne (api : JadeAPI) {p q : ℕ} (v : Variant) (h : q ≠ p) :
    (api.appendTo p v).listAt q = api.listAt q := by
  simp [appendTo, listAt, List.getD, Ne.symm h]

end JadeAPI

/-- The handler that waits for the next answer, and the lists it holds, after the
answers so far: none, one to the initiating message, then the commitments, then the
signatures. -/
inductive Awaits (id : Int) (inputs : List Variant) (api : JadeAPI) :
    List Fields → Handler → Prop
  | opening : Awaits id inputs api [] (.signTxInitial id inputs)
  | commitment {opened : Fields} {commitments : List Fields} {p : ℕ} :
      commitments.length < inputs.length → p < api.lists.length →
      api.listAt p = commitments.map answer →
      Awaits id inputs api (opened :: commitments)
        (.receiveCommitment id commitments.length inputs p)
  | signature {opened : Fields} {commitments signatures : List Fields} {p q : ℕ} :
      commitments.length = inputs.length → signatures.length < inputs.length →
      q < api.lists.length → q ≠ p →
      api.listAt p = commitments.map answer → api.listAt q = signatures.map answer →
      Awaits id inputs api (opened :: (commitments ++ signatures))
        (.receiveSignature id signatures.length inputs p q)

namespace JadeAPI
variable {idgen : ℕ → Fin 90000} {api : JadeAPI}

/-- The handler is taken out of the map, and with it the id's proxy. -/
def take (id : Int) (api : JadeAPI) : JadeAPI :=
  { api with
    responseHandlers := api.responseHandlers.erase id
    requestProxy := api.requestProxy.erase id }

/-- A handler that does not forward its answer. -/
theorem callResponseHandler_of_run {rounds : ℕ} {msg : Fields} {id : Int} {handler : Handler}
    {api' : JadeAPI} (hid : textToInt (msg.value "id").toText = id)
    (hhandler : api.responseHandlers[id]? = some handler)
    (hrun : runHandler idgen msg handler (api.take id) = (api', none)) :
    callResponseHandler idgen (rounds + 1) msg api = api' := by
  unfold take at hrun
  simp only [callResponseHandler, hid, hhandler, hrun]

/-- A handler that forwards its answer to the caller's callback. -/
theorem callResponseHandler_of_forward {rounds callback : ℕ} {msg rslt : Fields} {id : Int}
    {targetId : Int} {handler : Handler} {api' : JadeAPI}
    (hid : textToInt (msg.value "id").toText = id)
    (hhandler : api.responseHandlers[id]? = some handler)
    (hrun : runHandler idgen msg handler (api.take id) = (api', some (targetId, rslt)))
    (htarget : textToInt (toString targetId) = targetId)
    (hclient : api'.responseHandlers[targetId]? = some (.client callback)) :
    callResponseHandler idgen (rounds + 2) msg api =
      (api'.take targetId).put (.called callback (readdress targetId rslt)) := by
  unfold take at hrun
  have htext : textToInt ((readdress targetId rslt).value "id").toText = targetId := by
    rw [readdress_id]
    exact htarget
  have hcalled : callResponseHandler idgen (rounds + 1) (readdress targetId rslt) api' =
      (api'.take targetId).put (.called callback (readdress targetId rslt)) :=
    callResponseHandler_of_run htext hclient rfl
  unfold callResponseHandler
  simp only [hid, hhandler, hrun, hcalled]

theorem callResponseHandler_of_none {rounds : ℕ} {msg : Fields} {id : Int}
    (hid : textToInt (msg.value "id").toText = id) (hhandler : api.responseHandlers[id]? = none) :
    callResponseHandler idgen (rounds + 1) msg api = api.take id := by
  simp only [callResponseHandler, hid, hhandler, take]

theorem answersLast_spec {msg : Fields} (h : api.answersLast msg = true) :
    ∃ request id, api.sentRequests.getLast? = some request ∧ msg.value "id" = .text id ∧
      textToInt id = textToInt request.id := by
  unfold answersLast at h
  split at h
  · next request id hlast hid => exact ⟨request, id, hlast, hid, by simpa using h⟩
  · cases h

/-- The message is about an id. -/
theorem guard_of_text {msg : Fields} {text : String} {id : Int} (hvalue : msg.value "id" = .text text)
    (htext : textToInt text = id) (hne : id ≠ 0) :
    (!msg.contains "id" || !(msg.value "id").isText ||
      textToInt (msg.value "id").toText == 0) = false := by
  have hcontains : msg.contains "id" = true := by
    cases hlookup : msg.lookup "id" with
    | none => simp [Fields.value, hlookup] at hvalue
    | some v => simp [Fields.contains, hlookup]
  rw [hcontains, hvalue]
  simpa [Variant.isText, Variant.toText, htext] using hne

/-- An answer that asks for no http request goes to the handlers. -/
theorem processResponseMessage_of_text {msg : Fields} {text : String} {id : Int}
    (hvalue : msg.value "id" = .text text) (htext : textToInt text = id) (hne : id ≠ 0)
    (hhttp : wantsHttpRequest msg = false) :
    api.processResponseMessage idgen msg =
      (let api := api.callResponseHandler idgen (api.responseHandlers.size + 1) msg
      { api with msgInflight := api.msgInflight.erase id } : JadeAPI).drain := by
  have hid : textToInt (msg.value "id").toText = id := by
    rw [hvalue]
    exact htext
  rw [processResponseMessage, guard_of_text hvalue htext hne, hhttp, hid]
  rfl

/-- An answer to the last message reaches the handlers. -/
theorem processResponseMessage_of_answer (idgen : ℕ → Fin 90000) {msg : Fields} {last : Request}
    (hmsg : api.answersLast msg = true) (hlast : api.sentRequests.getLast? = some last)
    (hid : textToInt last.id ≠ 0) (hhttp : wantsHttpRequest msg = false) :
    textToInt (msg.value "id").toText = textToInt last.id ∧
      api.processResponseMessage idgen msg =
        let api := api.callResponseHandler idgen (api.responseHandlers.size + 1) msg
        { api with msgInflight := api.msgInflight.erase (textToInt last.id) }.drain := by
  obtain ⟨request, id, hrequest, hvalue, htext⟩ := answersLast_spec hmsg
  rw [hlast, Option.some.injEq] at hrequest
  subst hrequest
  refine ⟨?_, processResponseMessage_of_text hvalue htext hid hhttp⟩
  rw [hvalue]
  exact htext

end JadeAPI

end GreenWallet.Jade
