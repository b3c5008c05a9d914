import GreenWallet.Jade.Session
import GreenWallet.Jade.Signing

/-!
# A session is the outline of the API

`JadeAPI` has the messages of a signing exchange with all they carry; `Session` has the
connection, the timers and the slots, and keeps of a message what decides about the next
one. Where both are about the same calls they agree: every call and every message of the
device takes an API and its outline to an API and its outline, the session in a valid run
of its own. So whatever holds of all runs of sessions holds of signing exchanges.
-/
namespace GreenWallet.Jade
open GreenWallet.Library
open Std (ExtTreeMap)

namespace Session

/-- The name of the method in a message. -/
def Method.text : Method → String
  | .setMnemonic => "debug_set_mnemonic"
  | .ping => "ping"
  | .getVersionInfo => "get_version_info"
  | .addEntropy => "add_entropy"
  | .authUser => "auth_user"
  | .logout => "logout"
  | .signAttestation => "sign_attestation"
  | .ota => "ota"
  | .otaDelta => "ota_delta"
  | .otaData => "ota_data"
  | .otaComplete => "ota_complete"
  | .getReceiveAddress => "get_receive_address"
  | .getXpub => "get_xpub"
  | .signMessage => "sign_message"
  | .signTx => "sign_tx"
  | .signLiquidTx => "sign_liquid_tx"
  | .txInput => "tx_input"
  | .getSignature _ => "get_signature"
  | .getBlindingKey => "get_blinding_key"
  | .getSharedNonce => "get_shared_nonce"
  | .getBlindingFactor => "get_blinding_factor"
  | .getCommitments => "get_commitments"
  | .getMasterBlindingKey => "get_master_blinding_key"
  | .onReply name => name

/-- What the device and the clients notice, as far as both descriptions have it. -/
inductive Mark where
  | sent (id : Int) (method : String)
  | called (callback : ℕ)
  | httpRequested (proxy : ℕ) (id : Int)
  | badFunctionCall
deriving DecidableEq, Repr

def Message.head (msg : Message) : Int × String := (msg.id, msg.method.text)

def Output.mark : Output → Option Mark
  | .sent msg _ => some (.sent msg.id msg.method.text)
  | .called _ callback => some (.called callback)
  | .httpRequested proxy request => some (.httpRequested proxy request.id)
  | .badFunctionCall => some .badFunctionCall
  | _ => none

/-- The handler, of the registrations it has captured only the ids. -/
def Handler.anonymous : Handler → Handler
  | .otaChunk exposed size chunkSize currentPos cbProgress =>
      .otaChunk
        { number := 0, id := exposed.id, timeout := 0, call := { number := 0, exchange := false } }
        size chunkSize currentPos cbProgress
  | handler => handler

end Session

def Request.head (request : Request) : Int × String := (textToInt request.id, request.method)

def Output.mark : Output → Option Session.Mark
  | .sent request => some (.sent (textToInt request.id) request.method)
  | .called callback _ => some (.called callback)
  | .httpRequested proxy id _ => some (.httpRequested proxy id)
  | .badFunctionCall => some .badFunctionCall
  | .armed .. | .progress .. => none

/-- What is kept of a closure. -/
def Handler.outline : Handler → Session.Handler
  | .client callback => .client callback
  | .forward id => .forward id
  | .signTxInitial id inputs => .signTxInitial id inputs.length
  | .receiveCommitment id index inputs commitments =>
      .receiveCommitment id index inputs.length commitments
  | .receiveSignature id index inputs commitments signatures =>
      .receiveSignature id index inputs.length commitments signatures
  | .otaChunk id fwcmp chunkSize currentPos cbProgress =>
      .otaChunk { number := 0, id, timeout := 0, call := { number := 0, exchange := false } }
        fwcmp.length chunkSize currentPos cbProgress

/-- The id that a closure may forward its answer to. -/
def Handler.target : Handler → Option Int
  | .client _ => none
  | .forward id | .signTxInitial id _ | .receiveCommitment id .. | .receiveSignature id ..
  | .otaChunk id .. => some id

theorem kept_of_otaChunk {kept : Session.Handler} {id : Int} {fwcmp : List UInt8}
    {chunkSize currentPos : Int} {cbProgress : Option ℕ}
    (hkept : kept.anonymous = (Handler.otaChunk id fwcmp chunkSize currentPos cbProgress).outline) :
    ∃ exposed : Session.Registration, exposed.id = id ∧
      kept = .otaChunk exposed fwcmp.length chunkSize currentPos cbProgress := by
  cases kept with
  | otaChunk exposed size chunkSize currentPos cbProgress =>
      injection hkept with hexposed hsize hchunkSize hcurrentPos hcbProgress
      injection hexposed with _ hid
      exact ⟨exposed, hid, by rw [hsize, hchunkSize, hcurrentPos, hcbProgress]⟩
  | client | forward | signTxInitial | receiveCommitment | receiveSignature | signMessage
  | signMessageSignature => cases hkept

theorem kept_of_other {kept : Session.Handler} {handler : Handler}
    (hkept : kept.anonymous = handler.outline)
    (hother : ∀ id fwcmp chunkSize currentPos cbProgress,
      handler ≠ .otaChunk id fwcmp chunkSize currentPos cbProgress) : kept = handler.outline := by
  cases kept with
  | otaChunk =>
      cases handler with
      | otaChunk => exact (hother _ _ _ _ _ rfl).elim
      | client | forward | signTxInitial | receiveCommitment | receiveSignature => cases hkept
  | client | forward | signTxInitial | receiveCommitment | receiveSignature | signMessage
  | signMessageSignature => exact hkept

/-- The `result` of an answer, as a truth value. -/
def resultOf (msg : Fields) : Option Bool :=
  if msg.contains "result" then some (msg.value "result").toBool else none

/-- The method that the answer to an http request is to be passed to. -/
def onReplyOf (httpRequest : Fields) : String :=
  match httpRequest.value "on-reply" with
  | .text on_reply => on_reply
  | _ => ""

/-- What is kept of a message of the device. -/
def replyOf (msg : Fields) : Session.Reply where
  id := textToInt (msg.value "id").toText
  result := resultOf msg
  error := msg.contains "error"
  httpRequest :=
    if JadeAPI.wantsHttpRequest msg then
      some (onReplyOf ((msg.value "result").toMap.value "http_request").toMap)
    else none

/-- The text of the number reads as the number. -/
def Readable (id : Int) : Prop := textToInt (toString id) = id

theorem readable_drawnId (idgen : ℕ → Fin 90000) (i : ℕ) : Readable (JadeAPI.drawnId idgen i) :=
  JadeAPI.textToInt_drawnId idgen i

theorem readable_textToInt (text : String) : Readable (textToInt text) := by
  obtain ⟨hlow, hhigh⟩ := textToInt_range text
  rcases Int.le_total 0 (textToInt text) with hsign | hsign
  · obtain ⟨n, hn⟩ := Int.eq_ofNat_of_zero_le hsign
    rw [Readable, hn]
    exact textToInt_toString (by omega)
  · obtain ⟨n, hn⟩ := Int.eq_ofNat_of_zero_le (Int.neg_nonneg_of_nonpos hsign)
    have hneg : textToInt text = -(n : Int) := by omega
    rcases Nat.eq_zero_or_pos n with rfl | hpos
    · rw [Readable, hneg]
      exact textToInt_toString (by decide)
    · rw [Readable, hneg]
      exact textToInt_toString_neg hpos (by omega)

theorem resultOf_readdress (targetId : Int) (msg : Fields) :
    resultOf (JadeAPI.readdress targetId msg) = resultOf msg := by
  have hinsert : resultOf (msg.insert "id" (.int targetId)) = resultOf msg := by
    unfold resultOf Fields.contains Fields.value
    rw [Fields.lookup_insert_of_ne msg (.int targetId) (by decide : "result" ≠ "id")]
  unfold JadeAPI.readdress
  split
  · split_ifs
    · rfl
    · exact hinsert
  · exact hinsert

/-- The session has the tables of the API, in a slot or between two. -/
structure Outlines (slot : Option Session.Handling) (s : Session) (api : JadeAPI) : Prop where
  connected : s.connected = true
  handling : s.handling = slot
  drains : s.drains = 0
  drawn : s.drawn = api.drawn
  handlers : s.responseHandlers.map (fun _ entry => entry.handler.anonymous) =
    api.responseHandlers.map (fun _ handler => handler.outline)
  proxies : s.requestProxy = api.requestProxy
  timeouts : s.msgTimeout = api.msgTimeout
  queue : s.msgQueue.map Session.Message.head = api.msgQueue.map Request.head
  inflight : s.msgInflight = api.msgInflight
  lists : s.lists = api.lists.map List.length
  marks : s.output.filterMap Session.Output.mark = api.output.filterMap Output.mark
  /-- The ids that closures have captured are ids. -/
  readable : ∀ (id : Int) (handler : Handler), api.responseHandlers[id]? = some handler →
    ∀ target ∈ handler.target, Readable target

namespace Outlines
variable {idgen : ℕ → Fin 90000} {slot : Option Session.Handling} {s : Session} {api : JadeAPI}

theorem contains_eq (h : Outlines slot s api) (id : Int) :
    s.responseHandlers.contains id = api.responseHandlers.contains id := by
  rw [← ExtTreeMap.contains_map (t := s.responseHandlers) (f := fun _ entry => entry.handler.anonymous),
    h.handlers, ExtTreeMap.contains_map]

theorem size_eq (h : Outlines slot s api) :
    s.responseHandlers.size = api.responseHandlers.size := by
  rw [← ExtTreeMap.size_map (t := s.responseHandlers) (f := fun _ entry => entry.handler.anonymous),
    h.handlers, ExtTreeMap.size_map]

theorem handler_eq (h : Outlines slot s api) (id : Int) :
    s.responseHandlers[id]?.map (fun entry => entry.handler.anonymous) =
      api.responseHandlers[id]?.map Handler.outline := by
  have hmap := congrArg (fun handlers => handlers[id]?) h.handlers
  simpa only [ExtTreeMap.getElem?_map] using hmap

/-- Outputs that the other side does not have. -/
theorem put_silent (h : Outlines slot s api) (out : Session.Output) (hout : out.mark = none) :
    Outlines slot (s.put out) api :=
  { h with
    marks := by
      rw [Session.put, List.filterMap_append, h.marks]
      simp [hout] }

theorem put_both (h : Outlines slot s api) (out : Session.Output) (out' : Output)
    (hout : out.mark = out'.mark) : Outlines slot (s.put out) (api.put out') :=
  { h with
    marks := by
      simp only [Session.put, JadeAPI.put, List.filterMap_append, h.marks, List.filterMap_cons,
        List.filterMap_nil, hout] }

theorem put_unmarked (h : Outlines slot s api) (out : Output) (hout : out.mark = none) :
    Outlines slot s (api.put out) :=
  { h with
    marks := by
      rw [JadeAPI.put, List.filterMap_append, h.marks]
      simp [hout] }

theorem draw (h : Outlines slot s api) (k : ℕ) :
    Outlines slot { s with drawn := k } { api with drawn := k } := { h with drawn := rfl }

/-- Both draw the same ids. -/
theorem redraw (idgen : ℕ → Fin 90000) (h : Outlines slot s api) (tries : ℕ) {id : Int}
    (hid : Readable id) :
    ∃ id' k, Session.redraw idgen tries id s = (id', { s with drawn := k }) ∧
      JadeAPI.redraw idgen tries id api = (id', { api with drawn := k }) ∧ Readable id' := by
  induction tries generalizing id s api with
  | zero => exact ⟨id, api.drawn, by rw [← h.drawn]; rfl, rfl, hid⟩
  | succ tries ih =>
      have hcontains := h.contains_eq id
      by_cases htaken : api.responseHandlers.contains id = true
      · obtain ⟨id', k, hs, hapi, hread⟩ :=
          ih (h.draw (api.drawn + 1)) (readable_drawnId idgen api.drawn)
        refine ⟨id', k, ?_, ?_, hread⟩
        · rw [Session.redraw, if_pos (hcontains.trans htaken), Session.getNewId, h.drawn]
          exact hs
        · rw [JadeAPI.redraw, if_pos htaken]
          exact hapi
      · refine ⟨id, api.drawn, ?_, ?_, hid⟩
        · rw [Session.redraw, if_neg (hcontains ▸ htaken), ← h.drawn]
        · rw [JadeAPI.redraw, if_neg htaken]

/-- Both register under the same id. -/
theorem register (idgen : ℕ → Fin 90000) (h : Outlines slot s api) (call : Session.Call)
    (kept : Session.Handler) (cb : Handler) (hkept : kept.anonymous = cb.outline)
    (hcb : ∀ target ∈ cb.target, Readable target) (timeout : Int) :
    Outlines slot (s.registerResponseHandler idgen call kept timeout).2
        (api.registerResponseHandler idgen cb timeout).2 ∧
      (s.registerResponseHandler idgen call kept timeout).1.id =
        (api.registerResponseHandler idgen cb timeout).1 ∧
      Readable (api.registerResponseHandler idgen cb timeout).1 := by
  obtain ⟨id, k, hs, hapi, hread⟩ :=
    (h.draw (api.drawn + 1)).redraw idgen 5 (readable_drawnId idgen api.drawn)
  have hhandlers :
      (s.responseHandlers.insert id
          ⟨{ number := s.registrations.length, id, timeout, call }, kept⟩).map
          (fun _ entry => entry.handler.anonymous) =
        (api.responseHandlers.insert id cb).map (fun _ handler => handler.outline) := by
    apply ExtTreeMap.ext_getElem?
    intro j
    have hj := h.handler_eq j
    simp only [ExtTreeMap.getElem?_map, ExtTreeMap.getElem?_insert]
    split_ifs
    · exact congrArg some hkept
    · exact hj
  have hreadable : ∀ (j : Int) (handler : Handler),
      (api.responseHandlers.insert id cb)[j]? = some handler →
      ∀ target ∈ handler.target, Readable target := by
    intro j handler hj
    rw [ExtTreeMap.getElem?_insert] at hj
    split_ifs at hj
    · cases hj
      exact hcb
    · exact h.readable j handler hj
  have hput := h.put_silent
    (.registered { number := s.registrations.length, id, timeout, call }
      (s.responseHandlers[id]?.map Session.Entry.registration)) rfl
  simp only [Session.registerResponseHandler, JadeAPI.registerResponseHandler, Session.getNewId,
    JadeAPI.getNewId, h.drawn, hs, hapi]
  refine ⟨?_, trivial, hread⟩
  split_ifs with htimeout
  · exact ⟨h.connected, h.handling, h.drains, rfl, hhandlers, h.proxies,
      congrArg (fun timeouts => timeouts.insert id timeout) h.timeouts, h.queue, h.inflight, h.lists,
      hput.marks, hreadable⟩
  · exact ⟨h.connected, h.handling, h.drains, rfl, hhandlers, h.proxies, h.timeouts, h.queue,
      h.inflight, h.lists, hput.marks, hreadable⟩

theorem send (h : Outlines slot s api) {msg : Session.Message} {request : Request}
    (hhead : msg.head = request.head) :
    Outlines slot (s.send true msg) (api.send request) := by
  obtain ⟨hid, hmethod⟩ : msg.id = textToInt request.id ∧ msg.method.text = request.method :=
    Prod.mk.inj hhead
  have hwrite : s.write true msg = { s with written := s.written.insert msg.id } := by
    rw [Session.write, if_pos h.connected, if_pos rfl]
  obtain ⟨timeout, htimeout⟩ : ∃ timeout, (s.msgTimeout[msg.id]?).getD 0 = timeout := ⟨_, rfl⟩
  have hsame : (api.msgTimeout[textToInt request.id]?).getD 0 = timeout := by
    rw [← h.timeouts, ← hid, htimeout]
  have hput := h.put_both (.sent msg timeout) (.sent request)
    (by rw [Session.Output.mark, Output.mark, hid, hmethod])
  have hsent : Outlines slot
      ({ s with
          written := s.written.insert msg.id
          msgInflight := s.msgInflight.insert msg.id }.put (.sent msg timeout))
      { api.put (.sent request) with
        msgInflight := api.msgInflight.insert (textToInt request.id) } :=
    { hput with
      inflight := by
        rw [← hid]
        exact congrArg (List.insert msg.id) h.inflight }
  unfold Session.send JadeAPI.send
  rw [hwrite]
  by_cases hpos : timeout > 0
  · have harmed := hsent.put_unmarked (.armed (textToInt request.id) timeout) rfl
    simp only [JadeAPI.put, htimeout, hsame, hpos, if_true] at harmed ⊢
    exact { harmed with }
  · simp only [JadeAPI.put, htimeout, hsame, hpos, if_false] at hsent ⊢
    exact hsent

theorem queue_isEmpty (h : Outlines slot s api) : s.msgQueue.isEmpty = api.msgQueue.isEmpty := by
  rw [← List.isEmpty_map, h.queue, List.isEmpty_map]

theorem enqueue (h : Outlines slot s api) {msg : Session.Message} {request : Request}
    (hhead : msg.head = request.head) :
    Outlines slot (s.enqueue true msg) (api.enqueue request) := by
  have hidle : (s.msgInflight.isEmpty && s.msgQueue.isEmpty) =
      (api.msgInflight.isEmpty && api.msgQueue.isEmpty) := by
    rw [h.inflight, h.queue_isEmpty]
  simp only [Session.enqueue, JadeAPI.enqueue, hidle]
  split_ifs
  · exact h.send hhead
  · exact { h with
      queue := by
        rw [List.map_append, List.map_append, h.queue]
        exact congrArg (api.msgQueue.map Request.head ++ [·]) hhead }

theorem drain (h : Outlines slot s api) : Outlines slot (s.drain true) api.drain := by
  unfold Session.drain JadeAPI.drain
  have hidle : s.msgInflight.isEmpty = api.msgInflight.isEmpty := by rw [h.inflight]
  by_cases hempty : api.msgInflight.isEmpty = true
  · rw [if_pos (hidle.trans hempty), if_pos hempty]
    have hqueue := h.queue
    cases hs : s.msgQueue with
    | nil =>
        rw [hs] at hqueue
        rw [List.map_eq_nil_iff.mp hqueue.symm]
        exact h
    | cons msg msgs =>
        rw [hs] at hqueue
        obtain ⟨request, requests, hapi, hhead, htail⟩ := List.map_eq_cons_iff.mp hqueue.symm
        rw [hapi]
        have hpop : Outlines slot { s with msgQueue := msgs } { api with msgQueue := requests } :=
          { h with queue := htail.symm }
        exact hpop.send hhead.symm
  · rw [if_neg fun hs => hempty (hidle ▸ hs), if_neg hempty]
    exact h

theorem newList (h : Outlines slot s api) :
    s.newList.1 = api.newList.1 ∧ Outlines slot s.newList.2 api.newList.2 := by
  refine ⟨?_, { h with lists := ?_ }⟩
  · rw [Session.newList, JadeAPI.newList, h.lists, List.length_map]
  · rw [Session.newList, JadeAPI.newList, h.lists, List.map_append]
    rfl

theorem appendTo (h : Outlines slot s api) (pointer : ℕ) (v : Variant) :
    Outlines slot (s.appendTo pointer) (api.appendTo pointer v) :=
  { h with
    lists := by
      apply List.ext_getElem?
      intro i
      simp only [Session.appendTo, JadeAPI.appendTo, h.lists, List.getElem?_modify, List.getElem?_map]
      cases api.lists[i]? with
      | none => rfl
      | some values =>
          by_cases hi : pointer = i
          · simp [hi]
          · simp [hi] }

theorem lengthAt_eq (h : Outlines slot s api) (pointer : ℕ) :
    s.lengthAt pointer = (api.listAt pointer).length := by
  rw [Session.lengthAt, JadeAPI.listAt, h.lists, List.getD, List.getD, List.getElem?_map]
  cases api.lists[pointer]? <;> rfl

/-- A handler is registered and the message it answers sent. -/
theorem ask (idgen : ℕ → Fin 90000) (h : Outlines slot s api) (call : Session.Call)
    (kept : Session.Handler) (cb : Handler) (hkept : kept.anonymous = cb.outline)
    (hcb : ∀ target ∈ cb.target, Readable target) (method : Session.Method) (params : Variant) :
    Outlines slot
      (Session.run idgen true
        (.register call kept 0 fun r => .send { registration := r, method } r.id) s).2
      ((api.registerResponseHandler idgen cb 0).2.send
        (getRequest (api.registerResponseHandler idgen cb 0).1 method.text params)) := by
  obtain ⟨hregistered, hid, hread⟩ := h.register idgen call kept cb hkept hcb 0
  exact hregistered.send (Prod.ext (hid.trans hread.symm) rfl)

/-- What a handler ends with, in both descriptions. -/
inductive SameReaction (idgen : ℕ → Fin 90000) (slot : Option Session.Handling) :
    Session × Session.Reaction → JadeAPI × Option (Int × Fields) → Prop
  | forward {s : Session} {api : JadeAPI} {target : Int} {reply : Session.Reply} {msg : Fields} :
      Outlines slot s api → Readable target → reply.result = resultOf msg →
      SameReaction idgen slot (s, .forward target reply) (api, some (target, msg))
  | act {s : Session} {api : JadeAPI} {plan : Session.Plan} :
      Outlines slot (Session.run idgen true plan s).2 api →
      SameReaction idgen slot (s, .act plan) (api, none)

/-- The next chunk of the firmware, or the end of it. -/
theorem sendOtaChunk (idgen : ℕ → Fin 90000) (h : Outlines slot s api) (call : Session.Call)
    {exposed : Session.Registration} (hread : Readable exposed.id) (fwcmp : List UInt8)
    (chunkSize currentPos : Int) (cbProgress : Option ℕ) :
    SameReaction idgen slot
      (if currentPos < fwcmp.length then
        let nextChunkLen :=
          if fwcmp.length - currentPos ≥ chunkSize then chunkSize else fwcmp.length - currentPos
        (s, .act
          (.register call
            (Session.makeOtaChunkCallback fwcmp.length chunkSize (currentPos + nextChunkLen)
              cbProgress exposed)
            0 fun r => .send { registration := r, method := .otaData } r.id))
      else (s, .act (.send { registration := exposed, method := .otaComplete } exposed.id)))
      (if currentPos < fwcmp.length then
        let nextChunkLen :=
          if fwcmp.length - currentPos ≥ chunkSize then chunkSize else fwcmp.length - currentPos
        let nextChunk := mid fwcmp currentPos nextChunkLen
        let (tmpId, api) :=
          api.registerResponseHandler idgen
            (.otaChunk exposed.id fwcmp chunkSize (currentPos + nextChunkLen) cbProgress) 0
        (api.send (getRequest tmpId "ota_data" (.bytes nextChunk)), none)
      else (api.send (getRequest exposed.id "ota_complete" .null), none)) := by
  have htarget : ∀ pos, ∀ target ∈ (Handler.otaChunk exposed.id fwcmp chunkSize pos
      cbProgress).target, Readable target := by
    rintro pos _ ⟨⟩
    exact hread
  by_cases hmore : currentPos < fwcmp.length
  · rw [if_pos hmore, if_pos hmore]
    exact .act (h.ask idgen call _ _ rfl (htarget _) .otaData _)
  · rw [if_neg hmore, if_neg hmore]
    exact .act (h.send (Prod.ext hread.symm rfl))

theorem runHandler (idgen : ℕ → Fin 90000) (h : Outlines slot s api) (call : Session.Call)
    {reply : Session.Reply} {rslt : Fields} (hresult : reply.result = resultOf rslt)
    {kept : Session.Handler} {handler : Handler} (hkept : kept.anonymous = handler.outline)
    (hhandler : ∀ target ∈ handler.target, Readable target) :
    SameReaction idgen slot (Session.runHandler call reply kept s)
      (JadeAPI.runHandler idgen rslt handler api) := by
  have hsome : reply.result.isSome = rslt.contains "result" := by
    rw [hresult, resultOf]
    split_ifs with hcontains <;> simp [hcontains]
  have htrue : reply.result = some true ↔
      (rslt.contains "result" && (rslt.value "result").toBool) = true := by
    rw [hresult, resultOf]
    split_ifs with hcontains <;> simp [hcontains]
  cases handler with
  | client callback =>
      obtain rfl := kept_of_other hkept (by simp)
      exact .act (h.put_both _ _ rfl)
  | forward id =>
      obtain rfl := kept_of_other hkept (by simp)
      exact .forward h (hhandler id rfl) hresult
  | signTxInitial id inputs =>
      obtain rfl := kept_of_other hkept (by simp)
      simp only [Session.runHandler, JadeAPI.runHandler, Handler.outline, htrue]
      split_ifs
      · obtain ⟨hpointer, hnew⟩ := h.newList
        rw [hpointer]
        exact .act (hnew.ask idgen call _ (.receiveCommitment id 0 inputs api.newList.1) rfl
          hhandler .txInput _)
      · exact .forward h (hhandler id rfl) hresult
  | receiveCommitment id index inputs commitments =>
      obtain rfl := kept_of_other hkept (by simp)
      have happend := h.appendTo commitments (.bytes (rslt.value "result").toByteArray)
      simp only [Session.runHandler, JadeAPI.runHandler, Handler.outline, hsome,
        happend.lengthAt_eq commitments]
      split_ifs
      · exact .act (happend.ask idgen call _
          (.receiveCommitment id (index + 1) inputs commitments) rfl hhandler .txInput _)
      · obtain ⟨hpointer, hnew⟩ := happend.newList
        rw [hpointer]
        exact .act (hnew.ask idgen call _ (.receiveSignature id 0 inputs commitments _) rfl
          hhandler (.getSignature _) _)
      · exact .forward h (hhandler id rfl) hresult
  | receiveSignature id index inputs commitments signatures =>
      obtain rfl := kept_of_other hkept (by simp)
      have happend := h.appendTo signatures (.bytes (rslt.value "result").toByteArray)
      simp only [Session.runHandler, JadeAPI.runHandler, Handler.outline, hsome,
        happend.lengthAt_eq signatures]
      split_ifs
      · exact .act (happend.ask idgen call _
          (.receiveSignature id (index + 1) inputs commitments signatures) rfl hhandler
          (.getSignature _) _)
      · exact .forward happend (hhandler id rfl) rfl
      · exact .forward h (hhandler id rfl) hresult
  | otaChunk id fwcmp chunkSize currentPos cbProgress =>
      obtain ⟨exposed, rfl, rfl⟩ := kept_of_otaChunk hkept
      simp only [Session.runHandler, JadeAPI.runHandler, htrue]
      by_cases hgood : (rslt.contains "result" && (rslt.value "result").toBool) = true
      · rw [if_pos hgood, if_pos hgood]
        have hread : Readable exposed.id := hhandler exposed.id rfl
        cases cbProgress with
        | none => exact h.sendOtaChunk idgen call hread fwcmp chunkSize currentPos none
        | some callback =>
            have hprogress := (h.put_silent (.progress callback currentPos) rfl).put_unmarked
              (.progress callback
                [("id", .text (toString exposed.id)), ("size", .int fwcmp.length),
                  ("uploaded", .int currentPos)]) rfl
            exact hprogress.sendOtaChunk idgen call hread fwcmp chunkSize currentPos (some callback)
      · rw [if_neg hgood, if_neg hgood]
        exact .forward h (hhandler exposed.id rfl) hresult

theorem take (h : Outlines slot s api) (id : Int) :
    Outlines slot
      { s with
        responseHandlers := s.responseHandlers.erase id
        requestProxy := s.requestProxy.erase id } (api.take id) where
  connected := h.connected
  handling := h.handling
  drains := h.drains
  drawn := h.drawn
  handlers := by
    apply ExtTreeMap.ext_getElem?
    intro j
    have hj := h.handler_eq j
    simp only [JadeAPI.take, ExtTreeMap.getElem?_map, ExtTreeMap.getElem?_erase]
    split_ifs
    · rfl
    · exact hj
  proxies := congrArg (fun proxies => proxies.erase id) h.proxies
  timeouts := h.timeouts
  queue := h.queue
  inflight := h.inflight
  lists := h.lists
  marks := h.marks
  readable j handler hj := by
    simp only [JadeAPI.take, ExtTreeMap.getElem?_erase] at hj
    split_ifs at hj
    exact h.readable j handler hj

theorem callResponseHandler (idgen : ℕ → Fin 90000) (rounds : ℕ) (h : Outlines slot s api)
    {reply : Session.Reply} {msg : Fields} (hid : reply.id = textToInt (msg.value "id").toText)
    (hresult : reply.result = resultOf msg) :
    Outlines slot
      (Session.run idgen true (Session.callResponseHandler rounds reply s).2
        (Session.callResponseHandler rounds reply s).1).2
      (api.callResponseHandler idgen rounds msg) := by
  induction rounds generalizing s api reply msg with
  | zero => exact h
  | succ rounds ih =>
      have htake := h.take reply.id
      have hhandler := h.handler_eq reply.id
      cases hapi : api.responseHandlers[reply.id]? with
      | none =>
          rw [hapi, Option.map_none, Option.map_eq_none_iff] at hhandler
          rw [JadeAPI.callResponseHandler_of_none hid.symm hapi]
          simp only [Session.callResponseHandler, hhandler]
          exact htake
      | some handler =>
          rw [hapi, Option.map_some] at hhandler
          obtain ⟨entry, hentry, houtline⟩ := Option.map_eq_some_iff.mp hhandler
          have hreaction := htake.runHandler idgen entry.registration.call hresult houtline
            (h.readable reply.id handler hapi)
          unfold JadeAPI.take at hreaction
          simp only [Session.callResponseHandler, hentry, Session.invoke,
            JadeAPI.callResponseHandler, ← hid, hapi]
          generalize Session.runHandler _ _ _ _ = left at hreaction ⊢
          generalize JadeAPI.runHandler _ _ _ _ = right at hreaction ⊢
          cases hreaction with
          | forward hforward htarget hmsg =>
              apply ih hforward
              · rw [JadeAPI.readdress_id]
                exact htarget.symm
              · rw [resultOf_readdress]
                exact hmsg
          | act hact => exact hact

/-- The answer to an http request is passed back to the device. -/
theorem handleHttpResponse (idgen : ℕ → Fin 90000) (h : Outlines slot s api)
    (request : Session.HttpRequest) (hid : Readable request.id) (httpRequest : Fields)
    (hreply : request.onReply = onReplyOf httpRequest) (httpResponse : Variant) :
    Outlines slot (Session.run idgen true (Session.handleHttpResponse request) s).2
      (api.handleHttpResponse idgen request.id httpRequest httpResponse) := by
  have htarget : ∀ target ∈ (Handler.forward request.id).target, Readable target := by
    rintro _ ⟨⟩
    exact hid
  obtain ⟨hregistered, hnew, hread⟩ := h.register idgen request.call (.forward request.id) _ rfl
    htarget 0
  simp only [Session.handleHttpResponse, Session.run, JadeAPI.handleHttpResponse]
  generalize Session.registerResponseHandler _ _ _ _ s = left at *
  generalize JadeAPI.registerResponseHandler _ _ _ api = right at *
  apply Outlines.send
  · exact { hregistered with proxies := by rw [hregistered.proxies, hnew] }
  · exact Prod.ext (hnew.trans hread.symm) hreply

/-- The second half of a slot, and the call of `drain` that it posts. -/
theorem settle (idgen : ℕ → Fin 90000) {id : Int}
    (h : Outlines (some { id, timer := false }) s api) :
    ∃ s', (Session.reactive idgen).Reachable s s' ∧
      Outlines none s' ({ api with msgInflight := api.msgInflight.erase id } : JadeAPI).drain := by
  have hfinished : Outlines none
      { ({ s with
            handling := none
            msgInflight := s.msgInflight.erase id }.put (.removed id)) with
        drains := s.drains + 1 - 1 }
      { api with msgInflight := api.msgInflight.erase id } :=
    { h.put_silent (.removed id) rfl with
      handling := rfl
      drains := h.drains
      inflight := congrArg (fun inflight => inflight.erase id) h.inflight }
  refine ⟨_, ?_, hfinished.drain⟩
  apply Reactive.Reachable.step (e := .finish true)
  · change s.handling ≠ none
    rw [h.handling]
    exact Option.some_ne_none _
  · have hfinish : s.next idgen (.finish true) =
        { ({ s with
              handling := none
              msgInflight := s.msgInflight.erase id }.put (.removed id)) with
          drains := s.drains + 1 } := by
      simp only [Session.next, Session.finish, h.handling]
      rfl
    apply Reactive.Reachable.step (e := .drain true)
    · change (s.next idgen (.finish true)).handling = none ∧ (s.next idgen (.finish true)).drains ≠ 0
      rw [hfinish]
      exact ⟨rfl, Nat.succ_ne_zero _⟩
    · change (Session.reactive idgen).Reachable
        ((s.next idgen (.finish true)).next idgen (.drain true)) _
      rw [hfinish]
      exact .refl _

/-- The first half of a slot that is taken up for a message. -/
theorem reachable_receive (idgen : ℕ → Fin 90000) (h : Outlines none s api)
    {reply : Session.Reply} (hid : reply.id ≠ 0) {left : Session × Session.Plan}
    (hleft : (s.put (.received reply)).processResponseMessage reply = left) {s' : Session}
    (hrest : (Session.reactive idgen).Reachable (Session.run idgen true left.2 left.1).2 s') :
    (Session.reactive idgen).Reachable s s' := by
  apply Reactive.Reachable.step (e := .receive reply true)
  · exact ⟨h.handling, h.connected, hid⟩
  · have hnext : s.next idgen (.receive reply true) = (Session.run idgen true left.2 left.1).2 := by
      simp only [Session.next, h.handling, hleft]
      simp [hid]
    change (Session.reactive idgen).Reachable (s.next idgen (.receive reply true)) s'
    rw [hnext]
    exact hrest

/-- An answer goes to the handlers. -/
theorem answer (idgen : ℕ → Fin 90000) (h : Outlines none s api) {msg : Fields}
    (hid : (replyOf msg).id ≠ 0) (hhttp : JadeAPI.wantsHttpRequest msg = false) :
    ∃ s', (Session.reactive idgen).Reachable s s' ∧
      Outlines none s'
        (let api := api.callResponseHandler idgen (api.responseHandlers.size + 1) msg
        { api with msgInflight := api.msgInflight.erase (replyOf msg).id } : JadeAPI).drain := by
  have hrequest : (replyOf msg).httpRequest = none := by
    simp only [replyOf, hhttp]
    rfl
  have hslot : Outlines (some { id := (replyOf msg).id, timer := false })
      { s.put (.received (replyOf msg)) with
        handling := some { id := (replyOf msg).id, timer := false } } api :=
    { h.put_silent (.received (replyOf msg)) rfl with handling := rfl }
  have hanswer : (replyOf msg).id = textToInt (msg.value "id").toText := rfl
  obtain ⟨s', hreach, hs'⟩ :=
    (hslot.callResponseHandler idgen (api.responseHandlers.size + 1) hanswer rfl).settle idgen
  refine ⟨s', h.reachable_receive idgen hid ?_ hreach, hs'⟩
  rw [Session.processResponseMessage, hrequest, ← h.size_eq]
  rfl

/-- A request for an http request is answered at once if the id has no proxy, and is
handed to the proxy if it has one. -/
theorem httpRequest (idgen : ℕ → Fin 90000) (h : Outlines none s api) {msg : Fields}
    (hid : (replyOf msg).id ≠ 0) (hhttp : JadeAPI.wantsHttpRequest msg = true) :
    ∃ s', (Session.reactive idgen).Reachable s s' ∧
      Outlines none s'
        (let httpRequest := ((msg.value "result").toMap.value "http_request").toMap
        match api.requestProxy[(replyOf msg).id]? with
        | none =>
            let api := api.handleHttpResponse idgen (replyOf msg).id httpRequest .null
            { api with msgInflight := api.msgInflight.erase (replyOf msg).id }.drain
        | some (some proxy) =>
            let api := api.put (.httpRequested proxy (replyOf msg).id httpRequest)
            { api with msgInflight := api.msgInflight.erase (replyOf msg).id }.drain
        | some none => api.put .badFunctionCall) := by
  have hput := h.put_silent (.received (replyOf msg)) rfl
  let request : Session.HttpRequest :=
    { call := (s.put (.received (replyOf msg))).callOf (replyOf msg).id
      id := (replyOf msg).id
      onReply := onReplyOf ((msg.value "result").toMap.value "http_request").toMap }
  have hrequest : (replyOf msg).httpRequest = some request.onReply := by
    rw [replyOf, if_pos hhttp]
  have hslot : Outlines (some { id := (replyOf msg).id, timer := false })
      { s.put (.received (replyOf msg)) with
        handling := some { id := (replyOf msg).id, timer := false } } api :=
    { hput with handling := rfl }
  have hproxies : (s.put (.received (replyOf msg))).requestProxy = api.requestProxy := h.proxies
  cases hproxy : api.requestProxy[(replyOf msg).id]? with
  | none =>
      have hleft : (s.put (.received (replyOf msg))).processResponseMessage (replyOf msg) =
          ({ s.put (.received (replyOf msg)) with
              handling := some { id := (replyOf msg).id, timer := false } },
            Session.handleHttpResponse request) := by
        simp only [Session.processResponseMessage, hrequest, hproxies, hproxy]
        rfl
      obtain ⟨s', hreach, hs'⟩ :=
        (hslot.handleHttpResponse idgen request (readable_textToInt _) _ rfl .null).settle idgen
      exact ⟨s', h.reachable_receive idgen hid hleft hreach, hs'⟩
  | some proxy =>
      cases proxy with
      | none =>
          have hleft : (s.put (.received (replyOf msg))).processResponseMessage (replyOf msg) =
              ((s.put (.received (replyOf msg))).put .badFunctionCall, .done) := by
            simp only [Session.processResponseMessage, hrequest, hproxies, hproxy]
          exact ⟨_, h.reachable_receive idgen hid hleft (.refl _),
            hput.put_both .badFunctionCall .badFunctionCall rfl⟩
      | some proxy =>
          have hleft : (s.put (.received (replyOf msg))).processResponseMessage (replyOf msg) =
              ({ s.put (.received (replyOf msg)) with
                  handling := some { id := (replyOf msg).id, timer := false } }.put
                (.httpRequested proxy request), .done) := by
            simp only [Session.processResponseMessage, hrequest, hproxies, hproxy]
            rfl
          obtain ⟨s', hreach, hs'⟩ := (hslot.put_both (.httpRequested proxy request)
            (.httpRequested proxy (replyOf msg).id
              ((msg.value "result").toMap.value "http_request").toMap) rfl).settle idgen
          exact ⟨s', h.reachable_receive idgen hid hleft hreach, hs'⟩

/-- A message of the device leads to the outline of what it leads to. -/
theorem processResponseMessage (idgen : ℕ → Fin 90000) (h : Outlines none s api) (msg : Fields) :
    ∃ s', (Session.reactive idgen).Reachable s s' ∧
      Outlines none s' (api.processResponseMessage idgen msg) := by
  unfold JadeAPI.processResponseMessage
  by_cases hignored : (!msg.contains "id" || !(msg.value "id").isText ||
      textToInt (msg.value "id").toText == 0) = true
  · rw [if_pos hignored]
    exact ⟨s, .refl s, h⟩
  · rw [if_neg hignored]
    have hid : (replyOf msg).id ≠ 0 := by
      simp only [Bool.or_eq_true, not_or, beq_iff_eq] at hignored
      exact hignored.2
    by_cases hhttp : JadeAPI.wantsHttpRequest msg = true
    · simp only [hhttp, if_true]
      exact h.httpRequest idgen hid hhttp
    · simp only [hhttp]
      exact h.answer idgen hid (Bool.eq_false_iff.mpr hhttp)

theorem run_device (idgen : ℕ → Fin 90000) (h : Outlines none s api) (rs : List Fields) :
    ∃ s', (Session.reactive idgen).Reachable s s' ∧
      Outlines none s' ((device idgen).run api rs) := by
  induction rs generalizing s api with
  | nil => exact ⟨s, .refl s, h⟩
  | cons r rs ih =>
      obtain ⟨s₁, hfirst, h₁⟩ := h.processResponseMessage idgen r
      obtain ⟨s', hrest, h'⟩ := ih h₁
      exact ⟨s', hfirst.trans hrest, h'⟩

/-- The first message of an exchange, whose answer goes to a handler of the API. -/
theorem initiate (idgen : ℕ → Fin 90000) (h : Outlines slot s api) (call : Session.Call)
    (cb : ℕ) (method : Session.Method) (params : Fields)
    (kept : Session.Registration → Session.Handler) (handler : Int → Handler)
    (hkept : ∀ exposed, (kept exposed).anonymous = (handler exposed.id).outline)
    (htarget : ∀ id, Readable id → ∀ target ∈ (handler id).target, Readable target) :
    Outlines slot (Session.run idgen true (Session.initiate call cb method kept) s).2
      (let (id, api) := api.registerResponseHandler idgen (.client cb) 0
      let (tmpId, api) := api.registerResponseHandler idgen (handler id) 0
      api.enqueue (getRequest tmpId method.text (.map params))) := by
  obtain ⟨hclient, hid, hread⟩ :=
    h.register idgen call (.client cb) (.client cb) rfl (by rintro _ ⟨⟩) 0
  simp only [Session.initiate, Session.run]
  generalize Session.registerResponseHandler _ _ _ _ s = left at *
  generalize JadeAPI.registerResponseHandler _ _ _ api = right at *
  obtain ⟨hinitial, htmp, htmpRead⟩ := hclient.register idgen call (kept left.1)
    (handler right.1) (hid ▸ hkept left.1) (htarget right.1 hread) 0
  exact hinitial.enqueue (Prod.ext (htmp.trans htmpRead.symm) rfl)

theorem initiateSigning (idgen : ℕ → Fin 90000) (h : Outlines slot s api) (call : Session.Call)
    (cb : ℕ) (method : Session.Method) (params : Fields) (inputs : List Variant) :
    Outlines slot
      (Session.run idgen true
        (Session.initiate call cb method fun r => .signTxInitial r.id inputs.length) s).2
      (api.initiateSigning idgen method.text params inputs cb).2 := by
  apply h.initiate idgen call cb method params _ fun id => .signTxInitial id inputs
  · intro exposed
    rfl
  · rintro id hread _ ⟨⟩
    exact hread

theorem initiateOta (idgen : ℕ → Fin 90000) (h : Outlines slot s api) (call : Session.Call)
    (cb : ℕ) (method : Session.Method) (params : Fields) (fwcmp : List UInt8) (chunkSize : Int)
    (cbProgress : Option ℕ) :
    Outlines slot
      (Session.run idgen true
        (Session.initiate call cb method
          (Session.makeOtaChunkCallback fwcmp.length chunkSize 0 cbProgress)) s).2
      (api.initiateOta idgen method.text params fwcmp chunkSize cbProgress cb).2 := by
  apply h.initiate idgen call cb method params _ fun id =>
    .otaChunk id fwcmp chunkSize 0 cbProgress
  · intro exposed
    rfl
  · rintro id hread _ ⟨⟩
    exact hread

end Outlines

/-- The session's name for a signing request. -/
def SignRequest.call (inputs cb : ℕ) : SignRequest → Session.ApiCall
  | .tx .. => .signTx inputs cb
  | .liquidTx .. => .signLiquidTx inputs cb

namespace Outlines
variable {s : Session} {api : JadeAPI}

theorem start (idgen : ℕ → Fin 90000) (h : Outlines none s api) (request : SignRequest)
    (inputs : List Variant) (cb : ℕ) :
    ∃ s', (Session.reactive idgen).Reachable s s' ∧
      Outlines none s' (request.start idgen inputs cb api).2 := by
  have hcount : Outlines none { s with calls := s.calls + 1 } api := { h with }
  refine ⟨s.next idgen (.call (request.call inputs.length cb) true), ?_, ?_⟩
  · apply Reactive.Reachable.step (e := .call (request.call inputs.length cb) true)
    · exact trivial
    · exact .refl _
  · rw [SignRequest.start_eq]
    cases request with
    | tx network txn change => exact hcount.initiateSigning idgen _ cb .signTx _ inputs
    | liquidTx network txn commitments change =>
        exact hcount.initiateSigning idgen _ cb .signLiquidTx _ inputs

/-- Nothing has happened but that the device was connected. -/
theorem connected_start : Outlines none { connected := true } {} where
  connected := rfl
  handling := rfl
  drains := rfl
  drawn := rfl
  handlers := by
    apply ExtTreeMap.ext_getElem?
    intro id
    simp
  proxies := rfl
  timeouts := rfl
  queue := rfl
  inflight := rfl
  lists := rfl
  marks := rfl
  readable id handler hhandler := by simp at hhandler

end Outlines

/-- Every signing exchange with a device that is connected, whatever the device says, has
an outline among the runs of sessions. -/
theorem exchange_outlined (idgen : ℕ → Fin 90000) (request : SignRequest) (inputs : List Variant)
    (cb : ℕ) (rs : List Fields) :
    ∃ s, (Session.reactive idgen).Reachable {} s ∧
      Outlines none s ((device idgen).run (request.start idgen inputs cb {}).2 rs) := by
  obtain ⟨s₁, hstart, h₁⟩ := Outlines.connected_start.start idgen request inputs cb
  obtain ⟨s, hrun, h⟩ := h₁.run_device idgen rs
  refine ⟨s, ?_, h⟩
  apply Reactive.Reachable.step (e := .connect)
  · exact trivial
  · exact hstart.trans hrun

end GreenWallet.Jade
