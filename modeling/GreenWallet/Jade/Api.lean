import Std.Data.ExtTreeMap.Lemmas
import GreenWallet.Jade.Variant

/-!
# The Jade API

`JadeAPI` turns calls into messages for the device and routes every answer to the
handler registered under its id. The handlers are closures in the source; here a
handler is the name of the closure with what it captured, and `Handler.run` is the
bodies. A `QSharedPointer<QVariantList>` is an index into `lists`.

The posted `drain` runs before the next message of the device arrives. Timers are
noted where they are armed; the client's callbacks, and the functions that make
http requests, are numbers of the caller's choice, noted when they are called.
Exceptions thrown by a callback are swallowed by the source.
-/
namespace GreenWallet.Jade
open Std (ExtTreeMap)

/-- A message for the device; the parameters may be absent. -/
structure Request where
  id : String
  method : String
  params : Option Variant := none
deriving Repr

inductive Handler where
  | client (callback : ℕ)
  /-- Made by `handleHttpResponse`. -/
  | forward (id : Int)
  /-- Made by `makeSignTxInitialCallback`. -/
  | signTxInitial (id : Int) (inputs : List Variant)
  /-- Made by `makeReceiveCommitmentCallback`. -/
  | receiveCommitment (id : Int) (index : ℕ) (inputs : List Variant) (commitments : ℕ)
  /-- Made by `makeReceiveSignatureCallback`. -/
  | receiveSignature (id : Int) (index : ℕ) (inputs : List Variant) (commitments signatures : ℕ)
  /-- Made by `makeOtaChunkCallback`. -/
  | otaChunk (id : Int) (fwcmp : List UInt8) (chunkSize currentPos : Int) (cbProgress : Option ℕ)
deriving Repr

/-- What the world sees of the API. -/
inductive Output where
  | sent (request : Request)
  | called (callback : ℕ) (msg : Fields)
  | progress (callback : ℕ) (msg : Fields)
  | httpRequested (proxy : ℕ) (id : Int) (httpRequest : Fields)
  | armed (id timeout : Int)
  /-- An empty `std::function` was called: the exception leaves the slot. -/
  | badFunctionCall
deriving Repr

structure JadeAPI where
  /-- The numbers drawn so far. -/
  drawn : ℕ := 0
  responseHandlers : ExtTreeMap Int Handler := ∅
  requestProxy : ExtTreeMap Int (Option ℕ) := ∅
  msgTimeout : ExtTreeMap Int Int := ∅
  msgQueue : List Request := []
  msgInflight : List Int := []
  lists : List (List Variant) := []
  output : List Output := []

/-- `getRequest`: parameters that are null are left out. -/
def getRequest (id : Int) (method : String) (params : Variant) : Request :=
  { id := toString id
    method := method
    params :=
      match params with
      | .null => none
      | params => some params }

/-- `QByteArray::mid`. A negative length reaches as far as the data. -/
def mid (data : List UInt8) (pos len : Int) : List UInt8 :=
  if data.length < pos then []
  else if pos < 0 then
    if len < 0 ∨ data.length ≤ len + pos then data
    else data.take (len + pos).toNat
  else if len < 0 ∨ data.length - pos < len then data.drop pos.toNat
  else (data.drop pos.toNat).take len.toNat

namespace JadeAPI

def put (out : Output) (api : JadeAPI) : JadeAPI := { api with output := api.output ++ [out] }

/-- `m_idgen.bounded(10000, 100000)`, for the numbers the generator yields. -/
def drawnId (idgen : ℕ → Fin 90000) (i : ℕ) : Int := 10000 + ((idgen i : ℕ) : Int)

def getNewId (idgen : ℕ → Fin 90000) (api : JadeAPI) : Int × JadeAPI :=
  (drawnId idgen api.drawn, { api with drawn := api.drawn + 1 })

/-- The loop of `registerResponseHandler`: at most five more tries at a new id. -/
def redraw (idgen : ℕ → Fin 90000) : ℕ → Int → JadeAPI → Int × JadeAPI
  | 0, id, api => (id, api)
  | tries + 1, id, api =>
      if api.responseHandlers.contains id then
        let (id, api) := api.getNewId idgen
        redraw idgen tries id api
      else (id, api)

def registerResponseHandler (idgen : ℕ → Fin 90000) (cb : Handler) (timeout : Int)
    (api : JadeAPI) : Int × JadeAPI :=
  let (id, api) := api.getNewId idgen
  let (id, api) := redraw idgen 5 id api
  let api := { api with responseHandlers := api.responseHandlers.insert id cb }
  (id,
    if timeout > 0 then { api with msgTimeout := api.msgTimeout.insert id timeout } else api)

def send (msg : Request) (api : JadeAPI) : JadeAPI :=
  let api := api.put (.sent msg)
  let id := textToInt msg.id
  let timeout := (api.msgTimeout[id]?).getD 0
  let api := { api with msgInflight := api.msgInflight.insert id }
  if timeout > 0 then api.put (.armed id timeout) else api

def enqueue (msg : Request) (api : JadeAPI) : JadeAPI :=
  if api.msgInflight.isEmpty && api.msgQueue.isEmpty then api.send msg
  else { api with msgQueue := api.msgQueue ++ [msg] }

def drain (api : JadeAPI) : JadeAPI :=
  if api.msgInflight.isEmpty then
    match api.msgQueue with
    | [] => api
    | msg :: queue => { api with msgQueue := queue }.send msg
  else api

/-- A new list, behind a shared pointer. -/
def newList (api : JadeAPI) : ℕ × JadeAPI :=
  (api.lists.length, { api with lists := api.lists ++ [[]] })

def listAt (api : JadeAPI) (pointer : ℕ) : List Variant := api.lists.getD pointer []

def appendTo (pointer : ℕ) (v : Variant) (api : JadeAPI) : JadeAPI :=
  { api with lists := api.lists.modify pointer fun values => values ++ [v] }

def sendTxInput (idgen : ℕ → Fin 90000) (id : Int) (index : ℕ) (inputs : List Variant)
    (commitments : ℕ) (api : JadeAPI) : JadeAPI :=
  let input := (inputs.getD index .invalid).toMap.remove "ae_host_entropy"
  let (inputId, api) :=
    api.registerResponseHandler idgen (.receiveCommitment id index inputs commitments) 0
  api.send (getRequest inputId "tx_input" (.map input))

def sendTxSignatureRequest (idgen : ℕ → Fin 90000) (id : Int) (index : ℕ)
    (inputs : List Variant) (commitments signatures : ℕ) (api : JadeAPI) : JadeAPI :=
  let input := (inputs.getD index .invalid).toMap
  let ae_host_entropy := (input.value "ae_host_entropy").toByteArray
  let params := [("ae_host_entropy", .bytes ae_host_entropy)]
  let (sigId, api) :=
    api.registerResponseHandler idgen
      (.receiveSignature id index inputs commitments signatures) 0
  api.send (getRequest sigId "get_signature" (.map params))

/-- The message `forwardToResponseHandler` passes on. A text is never equal to a
number. -/
def readdress (targetId : Int) (msg : Fields) : Fields :=
  match msg.value "id" with
  | .int id => if id = targetId then msg else msg.insert "id" (.int targetId)
  | _ => msg.insert "id" (.int targetId)

/-- What a handler does with an answer. It may end in a call of
`forwardToResponseHandler`, whose arguments are returned. -/
def runHandler (idgen : ℕ → Fin 90000) (rslt : Fields) :
    Handler → JadeAPI → JadeAPI × Option (Int × Fields)
  | .client callback, api => (api.put (.called callback rslt), none)
  | .forward id, api => (api, some (id, rslt))
  | .signTxInitial id inputs, api =>
      if rslt.contains "result" && (rslt.value "result").toBool then
        let (commitments, api) := api.newList
        (api.sendTxInput idgen id 0 inputs commitments, none)
      else (api, some (id, rslt))
  | .receiveCommitment id index inputs commitments, api =>
      if rslt.contains "result" then
        let api := api.appendTo commitments (.bytes (rslt.value "result").toByteArray)
        if (api.listAt commitments).length < inputs.length then
          (api.sendTxInput idgen id (index + 1) inputs commitments, none)
        else
          let (signatures, api) := api.newList
          (api.sendTxSignatureRequest idgen id 0 inputs commitments signatures, none)
      else (api, some (id, rslt))
  | .receiveSignature id index inputs commitments signatures, api =>
      if rslt.contains "result" then
        let api := api.appendTo signatures (.bytes (rslt.value "result").toByteArray)
        if (api.listAt signatures).length < inputs.length then
          (api.sendTxSignatureRequest idgen id (index + 1) inputs commitments signatures, none)
        else
          let result :=
            [("signatures", .list (api.listAt signatures)),
              ("signer_commitments", .list (api.listAt commitments))]
          (api, some (id, [("id", .int id), ("result", .map result)]))
      else (api, some (id, rslt))
  | .otaChunk id fwcmp chunkSize currentPos cbProgress, api =>
      if rslt.contains "result" && (rslt.value "result").toBool then
        let api :=
          match cbProgress with
          | some callback =>
              api.put (.progress callback
                [("id", .text (toString id)), ("size", .int fwcmp.length),
                  ("uploaded", .int currentPos)])
          | none => api
        if currentPos < fwcmp.length then
          let nextChunkLen :=
            if fwcmp.length - currentPos ≥ chunkSize then chunkSize else fwcmp.length - currentPos
          let nextChunk := mid fwcmp currentPos nextChunkLen
          let (tmpId, api) :=
            api.registerResponseHandler idgen
              (.otaChunk id fwcmp chunkSize (currentPos + nextChunkLen) cbProgress) 0
          (api.send (getRequest tmpId "ota_data" (.bytes nextChunk)), none)
        else (api.send (getRequest id "ota_complete" .null), none)
      else (api, some (id, rslt))

/-- `callResponseHandler`, which a handler may call again through
`forwardToResponseHandler`. Every round takes a handler out of the map, so as many
rounds as there are handlers, and one for an answer nobody waits for, are enough. -/
def callResponseHandler (idgen : ℕ → Fin 90000) : ℕ → Fields → JadeAPI → JadeAPI
  | 0, _, api => api
  | rounds + 1, msg, api =>
      let id := textToInt (msg.value "id").toText
      let handler := api.responseHandlers[id]?
      let api :=
        { api with
          responseHandlers := api.responseHandlers.erase id
          requestProxy := api.requestProxy.erase id }
      match handler with
      | none => api
      | some handler =>
          match runHandler idgen msg handler api with
          | (api, none) => api
          | (api, some (targetId, rslt)) =>
              callResponseHandler idgen rounds (readdress targetId rslt) api

/-- The answer is passed back to the device under the name it asked for. A default
`QCborValue` is undefined, not null, and is sent. -/
def handleHttpResponse (idgen : ℕ → Fin 90000) (id : Int) (httpRequest : Fields)
    (httpResponse : Variant) (api : JadeAPI) : JadeAPI :=
  let (newId, api) := api.registerResponseHandler idgen (.forward id) 0
  let on_reply :=
    match httpRequest.value "on-reply" with
    | .text on_reply => on_reply
    | _ => ""
  let newRequest :=
    getRequest newId on_reply
      (match httpResponse with
      | .map fields => .map fields
      | _ => .invalid)
  let proxy := (api.requestProxy[id]?).getD none
  let api :=
    { api with requestProxy := (api.requestProxy.insert id proxy).insert newId proxy }
  api.send newRequest

/-- The device wants an http request made. -/
def wantsHttpRequest (msg : Fields) : Bool :=
  msg.contains "result" && (msg.value "result").isMap &&
    (msg.value "result").toMap.contains "http_request"

def processResponseMessage (idgen : ℕ → Fin 90000) (msg : Fields) (api : JadeAPI) : JadeAPI :=
  if !msg.contains "id" || !(msg.value "id").isText ||
      textToInt (msg.value "id").toText == 0 then api
  else
    let id := textToInt (msg.value "id").toText
    if wantsHttpRequest msg then
      let httpRequest := ((msg.value "result").toMap.value "http_request").toMap
      match api.requestProxy[id]? with
      | none =>
          let api := api.handleHttpResponse idgen id httpRequest .null
          { api with msgInflight := api.msgInflight.erase id }.drain
      | some (some proxy) =>
          let api := api.put (.httpRequested proxy id httpRequest)
          { api with msgInflight := api.msgInflight.erase id }.drain
      | some none => api.put .badFunctionCall
    else
      let api := api.callResponseHandler idgen (api.responseHandlers.size + 1) msg
      { api with msgInflight := api.msgInflight.erase id }.drain

/-- `now_epoch_secs` is the time of the call. -/
def authUser (idgen : ℕ → Fin 90000) (network : String) (now_epoch_secs : Int) (cb : ℕ)
    (request_proxy : Option ℕ) (api : JadeAPI) : Int × JadeAPI :=
  let (id, api) := api.registerResponseHandler idgen (.client cb) 0
  let api := { api with requestProxy := api.requestProxy.insert id request_proxy }
  let params := [("network", .text network), ("epoch", .int now_epoch_secs)]
  (id, api.enqueue (getRequest id "auth_user" (.map params)))

/-- What `otaUpdate` and `otaDeltaUpdate` share; they differ in the initiating message. -/
def initiateOta (idgen : ℕ → Fin 90000) (method : String) (params : Fields) (fwcmp : List UInt8)
    (chunkSize : Int) (cbProgress : Option ℕ) (cb : ℕ) (api : JadeAPI) : Int × JadeAPI :=
  let (id, api) := api.registerResponseHandler idgen (.client cb) 0
  let (tmpId, api) :=
    api.registerResponseHandler idgen (.otaChunk id fwcmp chunkSize 0 cbProgress) 0
  (id, api.enqueue (getRequest tmpId method (.map params)))

/-- The hash of the firmware is sent if there is one. -/
def fwhashParams (fromHex : String → List UInt8) (fwhash : String) : Fields :=
  if fwhash.isEmpty then [] else [("fwhash", .bytes (fromHex fwhash))]

def otaUpdate (idgen : ℕ → Fin 90000) (sha256 : List UInt8 → List UInt8)
    (fromHex : String → List UInt8) (fwcmp : List UInt8) (fwlen : Int) (fwhash : String)
    (chunkSize : Int) (cbProgress : Option ℕ) (cb : ℕ) (api : JadeAPI) : Int × JadeAPI :=
  api.initiateOta idgen "ota"
    ([("fwsize", .int fwlen),
      ("cmpsize", .int fwcmp.length),
      ("cmphash", .bytes (sha256 fwcmp))] ++ fwhashParams fromHex fwhash)
    fwcmp chunkSize cbProgress cb

def otaDeltaUpdate (idgen : ℕ → Fin 90000) (sha256 : List UInt8 → List UInt8)
    (fromHex : String → List UInt8) (fwcmp : List UInt8) (fwlen : Int) (fwhash : String)
    (patch_size chunkSize : Int) (cbProgress : Option ℕ) (cb : ℕ) (api : JadeAPI) :
    Int × JadeAPI :=
  api.initiateOta idgen "ota_delta"
    ([("fwsize", .int fwlen),
      ("cmpsize", .int fwcmp.length),
      ("cmphash", .bytes (sha256 fwcmp)),
      ("patchsize", .int patch_size)] ++ fwhashParams fromHex fwhash)
    fwcmp chunkSize cbProgress cb

/-- What `signTx` and `signLiquidTx` share; they differ in the initiating message. -/
def initiateSigning (idgen : ℕ → Fin 90000) (method : String) (params : Fields)
    (inputs : List Variant) (cb : ℕ) (api : JadeAPI) : Int × JadeAPI :=
  let (id, api) := api.registerResponseHandler idgen (.client cb) 0
  let (tmpId, api) := api.registerResponseHandler idgen (.signTxInitial id inputs) 0
  (id, api.enqueue (getRequest tmpId method (.map params)))

def signTx (idgen : ℕ → Fin 90000) (network : String) (txn : List UInt8)
    (inputs change : List Variant) (cb : ℕ) (api : JadeAPI) : Int × JadeAPI :=
  api.initiateSigning idgen "sign_tx"
    [("network", .text network),
      ("use_ae_signatures", .bool true),
      ("txn", .bytes txn),
      ("num_inputs", .int inputs.length),
      ("change", .list change)]
    inputs cb

def signLiquidTx (idgen : ℕ → Fin 90000) (network : String) (txn : List UInt8)
    (inputs commitments change : List Variant) (cb : ℕ) (api : JadeAPI) : Int × JadeAPI :=
  api.initiateSigning idgen "sign_liquid_tx"
    [("network", .text network),
      ("use_ae_signatures", .bool true),
      ("txn", .bytes txn),
      ("num_inputs", .int inputs.length),
      ("trusted_commitments", .list commitments),
      ("change", .list change)]
    inputs cb

end JadeAPI
end GreenWallet.Jade
