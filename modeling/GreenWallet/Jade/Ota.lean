import GreenWallet.Library.Chunks
import GreenWallet.Jade.Exchange
import GreenWallet.Jade.Forwarding

/-!
# Uploading a firmware

The handler of a chunk sends the next one and registers itself again, further on in the image;
behind the last chunk it sends the message that completes the upload under the id the caller
was given. An answer that is not true goes to the caller. Positions are integers here, as the
chunk size is whatever the device says.
-/
namespace GreenWallet.Jade
open GreenWallet.Library
open Std (ExtTreeMap)

/-- A call of `otaUpdate` or of `otaDeltaUpdate`. -/
inductive OtaRequest where
  | full (fwlen : Int) (fwhash : String)
  | delta (fwlen : Int) (fwhash : String) (patch_size : Int)

structure Upload where
  request : OtaRequest
  fwcmp : List UInt8
  chunkSize : Int
  cbProgress : Option ℕ
  cb : ℕ

def Output.progressed : Output → Option (ℕ × Fields)
  | .progress callback msg => some (callback, msg)
  | _ => none

/-- What the progress callbacks were called with. -/
def JadeAPI.progressed (api : JadeAPI) : List (ℕ × Fields) :=
  api.output.filterMap Output.progressed

/-- The answer lets the upload go on. -/
def truthy (msg : Fields) : Bool := msg.contains "result" && (msg.value "result").toBool

/-- The answer is an error, or its result is not true. -/
def refuses (msg : Fields) : Bool := !truthy msg && !JadeAPI.wantsHttpRequest msg

/-- The API as the device sees it that answers every message once. -/
def uploads (idgen : ℕ → Fin 90000) : Reactive JadeAPI Fields Output :=
  { device idgen with
    enabled := fun api msg =>
      api.answersLast msg = true ∧ textToInt (msg.value "id").toText ∈ api.msgInflight }

instance (idgen : ℕ → Fin 90000) (api : JadeAPI) (msg : Fields) :
    Decidable ((uploads idgen).enabled api msg) :=
  inferInstanceAs (Decidable (api.answersLast msg = true ∧ _ ∈ api.msgInflight))

namespace Upload

section
variable (idgen : ℕ → Fin 90000) (sha256 : List UInt8 → List UInt8)
variable (fromHex : String → List UInt8) (upload : Upload)

def start (api : JadeAPI) : Int × JadeAPI :=
  match upload.request with
  | .full fwlen fwhash =>
      api.otaUpdate idgen sha256 fromHex upload.fwcmp fwlen fwhash upload.chunkSize
        upload.cbProgress upload.cb
  | .delta fwlen fwhash patch_size =>
      api.otaDeltaUpdate idgen sha256 fromHex upload.fwcmp fwlen fwhash patch_size
        upload.chunkSize upload.cbProgress upload.cb

def method : String :=
  match upload.request with
  | .full .. => "ota"
  | .delta .. => "ota_delta"

def params : Fields :=
  match upload.request with
  | .full fwlen fwhash =>
      [("fwsize", .int fwlen), ("cmpsize", .int upload.fwcmp.length),
        ("cmphash", .bytes (sha256 upload.fwcmp))] ++ JadeAPI.fwhashParams fromHex fwhash
  | .delta fwlen fwhash patch_size =>
      [("fwsize", .int fwlen), ("cmpsize", .int upload.fwcmp.length),
        ("cmphash", .bytes (sha256 upload.fwcmp)), ("patchsize", .int patch_size)] ++
        JadeAPI.fwhashParams fromHex fwhash

theorem start_eq (api : JadeAPI) :
    upload.start idgen sha256 fromHex api =
      api.initiateOta idgen upload.method (upload.params sha256 fromHex) upload.fwcmp
        upload.chunkSize upload.cbProgress upload.cb := by
  cases upload with
  | mk request fwcmp chunkSize cbProgress cb => cases request <;> rfl

/-- The handler of the chunk that ends at a position. -/
def handler (id currentPos : Int) : Handler :=
  .otaChunk id upload.fwcmp upload.chunkSize currentPos upload.cbProgress

def nextChunkLen (currentPos : Int) : Int :=
  if upload.fwcmp.length - currentPos ≥ upload.chunkSize then upload.chunkSize
  else upload.fwcmp.length - currentPos

/-- The chunk from a position on. -/
def otaData (currentPos : Int) : String × Option Variant :=
  ("ota_data", some (.bytes (mid upload.fwcmp currentPos (upload.nextChunkLen currentPos))))

def otaComplete (id : Int) : Request := { id := toString id, method := "ota_complete" }

/-- What the progress callback is told at a position. -/
def report (id currentPos : Int) : List (ℕ × Fields) :=
  upload.cbProgress.toList.map fun callback =>
    (callback, [("id", .text (toString id)), ("size", .int upload.fwcmp.length),
      ("uploaded", .int currentPos)])

end

section
variable (idgen : ℕ → Fin 90000) (api₀ : JadeAPI) (upload : Upload)

/-- The next id is neither the one the caller was given nor one the API had. -/
structure NewId (idgen : ℕ → Fin 90000) (api₀ api : JadeAPI) : Prop where
  exposed : JadeAPI.drawnId idgen api.drawn ≠ exposedId idgen api₀
  unregistered : api₀.responseHandlers.contains (JadeAPI.drawnId idgen api.drawn) = false

/-- The upload waits for the answer to its latest message, which the handler of a chunk gets. -/
structure Uploading (currentPos tmpId : Int) (forwards : List Int) (api : JadeAPI) : Prop where
  entered : Entered idgen api₀
    (forwardEntries tmpId forwards ++
      [(tmpId, upload.handler (exposedId idgen api₀) currentPos),
        (exposedId idgen api₀, .client upload.cb)]) api
  drawn : api₀.drawn < api.drawn
  quiet : api.calls = []
  queue : api.msgQueue = []
  latest : ∃ last, api.sentRequests.getLast? = some last ∧
    textToInt last.id = forwards.headD tmpId
  inflight : api.msgInflight = [] ∨ api.msgInflight = [forwards.headD tmpId]

/-- All chunks are sent, and the message that completes the upload. -/
structure Finishing (api : JadeAPI) : Prop where
  entered : Entered idgen api₀ [(exposedId idgen api₀, .client upload.cb)] api
  quiet : api.calls = []
  queue : api.msgQueue = []
  latest : api.sentRequests.getLast? = some (otaComplete (exposedId idgen api₀))
  inflight : api.msgInflight = [] ∨ api.msgInflight = [exposedId idgen api₀]

/-- Nothing is waited for any more, and the caller's callback has been called with an answer. -/
structure Over (answer : Fields) (api : JadeAPI) : Prop where
  called : ∃ msg, api.calls = [(upload.cb, msg)] ∧
    textToInt (msg.value "id").toText = exposedId idgen api₀ ∧ SameButId answer msg
  inflight : api.msgInflight = []

end

end Upload

namespace JadeAPI
variable {idgen : ℕ → Fin 90000} {api : JadeAPI}

@[simp] theorem send_msgInflight (msg : Request) :
    (api.send msg).msgInflight = api.msgInflight.insert (textToInt msg.id) := by
  simp only [send]
  split_ifs <;> rfl

@[simp] theorem send_progressed (msg : Request) : (api.send msg).progressed = api.progressed := by
  simp only [send, progressed]
  split_ifs <;> simp [put, Output.progressed]

section Http
variable {msg : Fields} {text : String} {id : Int} (hvalue : msg.value "id" = .text text)
variable (htext : textToInt text = id) (hne : id ≠ 0) (hhttp : wantsHttpRequest msg = true)
include hvalue htext hne hhttp

/-- An http request of an id without a proxy is answered by nothing, at once. -/
theorem processResponseMessage_of_http_none (hproxy : api.requestProxy[id]? = none) :
    api.processResponseMessage idgen msg =
      (let api := api.handleHttpResponse idgen id
        ((msg.value "result").toMap.value "http_request").toMap .null
      { api with msgInflight := api.msgInflight.erase id } : JadeAPI).drain := by
  have hid : textToInt (msg.value "id").toText = id := by
    rw [hvalue]
    exact htext
  rw [processResponseMessage, guard_of_text hvalue htext hne, hhttp, hid]
  simp only [hproxy, Bool.false_eq_true, if_false, if_true]

theorem processResponseMessage_of_http_empty (hproxy : api.requestProxy[id]? = some none) :
    api.processResponseMessage idgen msg = api.put .badFunctionCall := by
  have hid : textToInt (msg.value "id").toText = id := by
    rw [hvalue]
    exact htext
  rw [processResponseMessage, guard_of_text hvalue htext hne, hhttp, hid]
  simp only [hproxy, Bool.false_eq_true, if_false, if_true]

theorem processResponseMessage_of_http_some {proxy : ℕ}
    (hproxy : api.requestProxy[id]? = some (some proxy)) :
    api.processResponseMessage idgen msg =
      (let api := api.put (.httpRequested proxy id
        ((msg.value "result").toMap.value "http_request").toMap)
      { api with msgInflight := api.msgInflight.erase id } : JadeAPI).drain := by
  have hid : textToInt (msg.value "id").toText = id := by
    rw [hvalue]
    exact htext
  rw [processResponseMessage, guard_of_text hvalue htext hne, hhttp, hid]
  simp only [hproxy, Bool.false_eq_true, if_false, if_true]

end Http

end JadeAPI

theorem not_wantsHttpRequest_of_truthy {msg : Fields} (h : truthy msg = true) :
    JadeAPI.wantsHttpRequest msg = false := by
  have hbool : (msg.value "result").toBool = true := (Bool.and_eq_true_iff.mp h).2
  cases hvalue : msg.value "result" with
  | map fields =>
      rw [hvalue] at hbool
      cases hbool
  | invalid | null | bool | int | text | bytes | list | other =>
      simp [JadeAPI.wantsHttpRequest, hvalue, Variant.isMap]

theorem SameButId.truthy_eq {msg msg' : Fields} (h : SameButId msg msg') :
    truthy msg' = truthy msg := by
  have hresult := h "result" (by decide)
  simp only [truthy, Fields.contains, Fields.value, hresult]

namespace Upload
variable {idgen : ℕ → Fin 90000} {api₀ api : JadeAPI} {upload : Upload} {currentPos tmpId : Int}
variable {forwards : List Int} {msg : Fields}

theorem newId_of_distinctIds {count : ℕ} (hids : DistinctIds idgen api₀ count)
    (hdrawn : api₀.drawn < api.drawn) (hcount : api.drawn < api₀.drawn + count) :
    NewId idgen api₀ api := by
  obtain ⟨n, hn⟩ := Nat.exists_eq_add_of_lt hdrawn
  have hexposed := hids.distinct 0 (n + 1) (Nat.succ_pos n) (by omega)
  have hunregistered := hids.unregistered (n + 1) (by omega)
  rw [← Nat.add_assoc, ← hn] at hexposed hunregistered
  exact ⟨hexposed.symm, hunregistered⟩

/-- An answer that asks for no http request reaches the handler of the chunk. -/
theorem Uploading.answered (h : Uploading idgen api₀ upload currentPos tmpId forwards api)
    (hanswer : api.answersLast msg = true) (hhttp : JadeAPI.wantsHttpRequest msg = false) :
    ∃ msg' rounds, textToInt (msg'.value "id").toText = tmpId ∧ SameButId msg msg' ∧
      Entered idgen api₀ [(exposedId idgen api₀, .client upload.cb)]
        ((api.takeAll forwards).take tmpId) ∧
      (api.takeAll forwards).responseHandlers[tmpId]? =
        some (upload.handler (exposedId idgen api₀) currentPos) ∧
      api.processResponseMessage idgen msg =
        (let api := (api.takeAll forwards).callResponseHandler idgen (rounds + 2) msg'
        { api with msgInflight := api.msgInflight.erase (forwards.headD tmpId) } : JadeAPI).drain := by
  obtain ⟨last, hlast, hid⟩ := h.latest
  have hne : textToInt last.id ≠ 0 := by
    rw [hid]
    cases forwards with
    | nil => exact h.entered.ne_zero List.mem_cons_self
    | cons => exact h.entered.ne_zero List.mem_cons_self
  obtain ⟨htext, hprocess⟩ :=
    JadeAPI.processResponseMessage_of_answer idgen hanswer hlast hne hhttp
  obtain ⟨rounds, hrounds⟩ : ∃ rounds, api.responseHandlers.size + 1 =
      forwards.length + (rounds + 2) := by
    have hle := h.entered.length_le
    rw [← List.length_map (f := Prod.fst), List.map_append, map_forwardEntries,
      List.length_append, List.length_map, List.length_cons, List.length_singleton] at hle
    exact ⟨api.responseHandlers.size - forwards.length - 1, by omega⟩
  obtain ⟨msg', htarget, hsame, hentered, hcalled⟩ :=
    h.entered.callResponseHandler_of_forwards (rounds + 2) (htext.trans hid)
  refine ⟨msg', rounds, htarget, hsame, hentered.pop, ?_, ?_⟩
  · exact hentered.registered _ List.mem_cons_self
  · rw [hprocess, hrounds, hcalled, hid]

/-- The progress callback is called, if there is one. -/
def reported (upload : Upload) (id currentPos : Int) (api : JadeAPI) : JadeAPI :=
  match upload.cbProgress with
  | some callback =>
      api.put (.progress callback
        [("id", .text (toString id)), ("size", .int upload.fwcmp.length),
          ("uploaded", .int currentPos)])
  | none => api

/-- The progress has been reported, and the next message is still to be sent. -/
structure Reported (upload : Upload) (id currentPos : Int) (api api' : JadeAPI) : Prop where
  drawn : api'.drawn = api.drawn
  calls : api'.calls = api.calls
  sent : api'.sentRequests = api.sentRequests
  progressed : api'.progressed = api.progressed ++ upload.report id currentPos
  queue : api'.msgQueue = api.msgQueue
  inflight : api'.msgInflight = api.msgInflight

theorem reported_spec (upload : Upload) (id currentPos : Int) (api : JadeAPI) :
    Reported upload id currentPos api (upload.reported id currentPos api) ∧
      (upload.reported id currentPos api).responseHandlers = api.responseHandlers ∧
      (upload.reported id currentPos api).requestProxy = api.requestProxy := by
  unfold reported
  cases hcallback : upload.cbProgress with
  | none =>
      refine ⟨⟨rfl, rfl, rfl, ?_, rfl, rfl⟩, rfl, rfl⟩
      rw [report, hcallback, Option.toList_none, List.map_nil, List.append_nil]
  | some callback =>
      refine ⟨⟨rfl, ?_, ?_, ?_, rfl, rfl⟩, rfl, rfl⟩
      · simp [JadeAPI.calls, JadeAPI.put, Output.call]
      · simp [JadeAPI.sentRequests, JadeAPI.put, Output.request]
      · simp [JadeAPI.progressed, JadeAPI.put, Output.progressed, report, hcallback]

/-- Only the two tables change when handlers are taken out. -/
theorem takeAll_eq (ids : List Int) (api : JadeAPI) :
    ∃ handlers proxies, api.takeAll ids =
      { api with responseHandlers := handlers, requestProxy := proxies } := by
  induction ids generalizing api with
  | nil => exact ⟨_, _, rfl⟩
  | cons first ids ih =>
      obtain ⟨handlers, proxies, hrest⟩ := ih (api.take first)
      exact ⟨handlers, proxies, hrest⟩

/-- The message of the next chunk. -/
def chunkRequest (upload : Upload) (currentPos tmpId : Int) : Request :=
  getRequest tmpId "ota_data"
    (.bytes (mid upload.fwcmp currentPos (upload.nextChunkLen currentPos)))

/-- The handler of a chunk, at an answer that lets the upload go on. -/
theorem runHandler_of_truthy (idgen : ℕ → Fin 90000) (upload : Upload) (id currentPos : Int)
    (htruthy : truthy msg = true) (api : JadeAPI) :
    JadeAPI.runHandler idgen msg (upload.handler id currentPos) api =
      (if currentPos < upload.fwcmp.length then
        let (tmpId, api) :=
          (upload.reported id currentPos api).registerResponseHandler idgen
            (upload.handler id (currentPos + upload.nextChunkLen currentPos)) 0
        api.send (upload.chunkRequest currentPos tmpId)
      else (upload.reported id currentPos api).send (otaComplete id), none) := by
  have hresult : (msg.contains "result" && (msg.value "result").toBool) = true := htruthy
  by_cases hpos : currentPos < upload.fwcmp.length
  · rw [if_pos hpos]
    simp only [handler, JadeAPI.runHandler, hresult, hpos, if_true]
    rfl
  · rw [if_neg hpos]
    simp only [handler, JadeAPI.runHandler, hresult, hpos, if_true, if_false]
    rfl

/-- What the answer leads to is sent once the progress has been reported. -/
theorem Uploading.reported (h : Uploading idgen api₀ upload currentPos tmpId forwards api)
    (hanswer : api.answersLast msg = true) (htruthy : truthy msg = true) :
    ∃ ready, Reported upload (exposedId idgen api₀) currentPos api ready ∧
      Entered idgen api₀ [(exposedId idgen api₀, .client upload.cb)] ready ∧
      api.processResponseMessage idgen msg =
        (let api :=
          if currentPos < upload.fwcmp.length then
            let (tmpId, api) :=
              ready.registerResponseHandler idgen
                (upload.handler (exposedId idgen api₀)
                  (currentPos + upload.nextChunkLen currentPos)) 0
            api.send (upload.chunkRequest currentPos tmpId)
          else ready.send (otaComplete (exposedId idgen api₀))
        { api with msgInflight := api.msgInflight.erase (forwards.headD tmpId) } : JadeAPI).drain := by
  obtain ⟨msg', rounds, htext, hsame, hentered, hhandler, hprocess⟩ :=
    h.answered hanswer (not_wantsHttpRequest_of_truthy htruthy)
  have hrun := runHandler_of_truthy idgen upload (exposedId idgen api₀) currentPos
    (hsame.truthy_eq.trans htruthy) ((api.takeAll forwards).take tmpId)
  obtain ⟨hreported, hhandlers, hproxies⟩ :=
    reported_spec upload (exposedId idgen api₀) currentPos ((api.takeAll forwards).take tmpId)
  rw [JadeAPI.callResponseHandler_of_run htext hhandler hrun] at hprocess
  refine ⟨_, ?_, hentered.congr ⟨hhandlers, hproxies, hreported.drawn, hreported.calls⟩, hprocess⟩
  obtain ⟨handlers, proxies, htaken⟩ := takeAll_eq forwards api
  rw [htaken] at hreported ⊢
  exact ⟨hreported.drawn, hreported.calls, hreported.sent, hreported.progressed,
    hreported.queue, hreported.inflight⟩

theorem erase_insert {latest id : Int} {inflight : List Int}
    (h : inflight = [] ∨ inflight = [latest]) :
    (inflight.insert id).erase latest = [] ∨ (inflight.insert id).erase latest = [id] := by
  by_cases hid : id = latest
  · rcases h with rfl | rfl <;> simp [hid]
  · rcases h with rfl | rfl <;> simp [hid]

/-- A message is sent out of a handler, and the slot ends. -/
theorem drain_send (hqueue : api.msgQueue = []) (request : Request) (latest : Int) :
    let api' :=
      ({ api.send request with
          msgInflight := (api.send request).msgInflight.erase latest } : JadeAPI).drain
    JadeAPI.SameTables api api' ∧ api'.msgQueue = [] ∧
      api'.sentRequests = api.sentRequests ++ [request] ∧ api'.progressed = api.progressed ∧
      api'.msgInflight = (api.msgInflight.insert (textToInt request.id)).erase latest := by
  have hsend := JadeAPI.sameTables_send request api
  have hsent : (api.send request).msgQueue = [] := by rw [JadeAPI.send_msgQueue, hqueue]
  intro api'
  have hapi' : api' =
      { api.send request with msgInflight := (api.send request).msgInflight.erase latest } :=
    JadeAPI.drain_of_empty hsent _
  rw [hapi', ← JadeAPI.send_msgInflight]
  exact ⟨⟨hsend.responseHandlers, hsend.requestProxy, hsend.drawn, hsend.calls⟩, hsent,
    JadeAPI.send_sentRequests request, JadeAPI.send_progressed request, rfl⟩

/-- A step of the upload has sent its message. -/
structure Sent (upload : Upload) (id currentPos : Int) (request : Request) (api api' : JadeAPI) :
    Prop where
  drawn : api'.drawn ≤ api.drawn + 1
  sent : api'.sentRequests = api.sentRequests ++ [request]
  progressed : api'.progressed = api.progressed ++ upload.report id currentPos

/-- The next chunk is sent. -/
theorem Uploading.next_chunk (h : Uploading idgen api₀ upload currentPos tmpId forwards api)
    (hanswer : api.answersLast msg = true) (htruthy : truthy msg = true)
    (hnew : NewId idgen api₀ api) (hpos : currentPos < upload.fwcmp.length) :
    Uploading idgen api₀ upload (currentPos + upload.nextChunkLen currentPos)
        (JadeAPI.drawnId idgen api.drawn) [] (api.processResponseMessage idgen msg) ∧
      Sent upload (exposedId idgen api₀) currentPos
        (upload.chunkRequest currentPos (JadeAPI.drawnId idgen api.drawn)) api
        (api.processResponseMessage idgen msg) := by
  obtain ⟨ready, hready, hentered, hprocess⟩ := h.reported hanswer htruthy
  rw [← hready.drawn]
  have hexposed : JadeAPI.drawnId idgen ready.drawn ∉
      [(exposedId idgen api₀, Handler.client upload.cb)].map Prod.fst := by
    rw [hready.drawn, List.map_singleton, List.mem_singleton]
    exact hnew.exposed
  have hstart : api₀.responseHandlers.contains (JadeAPI.drawnId idgen ready.drawn) = false := by
    rw [hready.drawn]
    exact hnew.unregistered
  have hid : textToInt (upload.chunkRequest currentPos (JadeAPI.drawnId idgen ready.drawn)).id =
      JadeAPI.drawnId idgen ready.drawn := JadeAPI.textToInt_drawnId idgen ready.drawn
  obtain ⟨registered, hregister, hpushed, hdraws, hqueued, hsame, houtput⟩ :=
    hentered.register hexposed hstart
      (upload.handler (exposedId idgen api₀) (currentPos + upload.nextChunkLen currentPos))
  rw [if_pos hpos, hregister] at hprocess
  have hqueue : registered.msgQueue = [] := hqueued.trans (hready.queue.trans h.queue)
  obtain ⟨htables, hqueue', hsent, hprogressed, hinflight⟩ :=
    drain_send hqueue (upload.chunkRequest currentPos (JadeAPI.drawnId idgen ready.drawn))
      (forwards.headD tmpId)
  have hdrawn : registered.drawn = api.drawn + 1 := by rw [hdraws, hready.drawn]
  have hcalls : registered.calls = [] := by
    rw [JadeAPI.calls, houtput]
    exact hready.calls.trans h.quiet
  have hsent' : registered.sentRequests = api.sentRequests := by
    rw [JadeAPI.sentRequests, houtput]
    exact hready.sent
  have hprogressed' : registered.progressed =
      api.progressed ++ upload.report (exposedId idgen api₀) currentPos := by
    rw [JadeAPI.progressed, houtput]
    exact hready.progressed
  have hinflight' : registered.msgInflight = [] ∨
      registered.msgInflight = [forwards.headD tmpId] := by
    rw [hsame]
    exact hready.inflight ▸ h.inflight
  have hmore := h.drawn
  rw [hprocess]
  rw [hsent'] at hsent
  refine ⟨⟨hpushed.congr htables, ?_, htables.calls.trans hcalls, hqueue',
      ⟨upload.chunkRequest currentPos (JadeAPI.drawnId idgen ready.drawn), ?_, hid⟩, ?_⟩,
    ⟨?_, hsent, hprogressed.trans hprogressed'⟩⟩
  · rw [htables.drawn, hdrawn]
    omega
  · exact (congrArg List.getLast? hsent).trans List.getLast?_concat
  · rw [hinflight, hid]
    exact erase_insert hinflight'
  · exact Nat.le_of_eq (htables.drawn.trans hdrawn)

/-- All chunks are sent, and the message that completes the upload follows. -/
theorem Uploading.next_complete (h : Uploading idgen api₀ upload currentPos tmpId forwards api)
    (hanswer : api.answersLast msg = true) (htruthy : truthy msg = true)
    (hpos : ¬ currentPos < upload.fwcmp.length) :
    Finishing idgen api₀ upload (api.processResponseMessage idgen msg) ∧
      Sent upload (exposedId idgen api₀) currentPos (otaComplete (exposedId idgen api₀)) api
        (api.processResponseMessage idgen msg) := by
  obtain ⟨ready, hready, hentered, hprocess⟩ := h.reported hanswer htruthy
  have hid : textToInt (otaComplete (exposedId idgen api₀)).id = exposedId idgen api₀ :=
    exposedId_text idgen api₀
  obtain ⟨htables, hqueue, hsent, hprogressed, hinflight⟩ :=
    drain_send (hready.queue.trans h.queue) (otaComplete (exposedId idgen api₀))
      (forwards.headD tmpId)
  have hinflight' : ready.msgInflight = [] ∨ ready.msgInflight = [forwards.headD tmpId] :=
    hready.inflight ▸ h.inflight
  rw [if_neg hpos] at hprocess
  rw [hprocess]
  rw [hready.sent] at hsent
  refine ⟨⟨hentered.congr htables, ?_, hqueue, ?_, ?_⟩,
    ⟨?_, hsent, hprogressed.trans hready.progressed⟩⟩
  · rw [htables.calls, hready.calls]
    exact h.quiet
  · exact (congrArg List.getLast? hsent).trans List.getLast?_concat
  · rw [hinflight, hid]
    exact erase_insert hinflight'
  · rw [htables.drawn, hready.drawn]
    exact Nat.le_succ _

theorem erase_latest {latest : Int} {inflight : List Int}
    (h : inflight = [] ∨ inflight = [latest]) : inflight.erase latest = [] := by
  rcases h with rfl | rfl <;> simp

/-- An answer that is an error or not true goes to the caller. -/
theorem Uploading.next_refused (h : Uploading idgen api₀ upload currentPos tmpId forwards api)
    (hanswer : api.answersLast msg = true) (hrefuses : refuses msg = true) :
    Over idgen api₀ upload msg (api.processResponseMessage idgen msg) ∧
      (api.processResponseMessage idgen msg).sentRequests = api.sentRequests := by
  rw [refuses, Bool.and_eq_true, Bool.not_eq_true', Bool.not_eq_true'] at hrefuses
  obtain ⟨msg', rounds, htext, hsame, hentered, hhandler, hprocess⟩ :=
    h.answered hanswer hrefuses.2
  have hresult : (msg'.contains "result" && (msg'.value "result").toBool) = false :=
    hsame.truthy_eq.trans hrefuses.1
  have hrun : JadeAPI.runHandler idgen msg' (upload.handler (exposedId idgen api₀) currentPos)
      ((api.takeAll forwards).take tmpId) =
        ((api.takeAll forwards).take tmpId, some (exposedId idgen api₀, msg')) := by
    simp only [handler, JadeAPI.runHandler, hresult, Bool.false_eq_true, if_false]
  have hclient := hentered.registered _ List.mem_cons_self
  rw [JadeAPI.callResponseHandler_of_forward htext hhandler hrun (exposedId_text idgen api₀)
    hclient] at hprocess
  obtain ⟨handlers, proxies, htaken⟩ := takeAll_eq forwards api
  rw [htaken, JadeAPI.drain_of_empty] at hprocess
  · rw [hprocess]
    refine ⟨⟨⟨_, ?_, ?_, hsame.trans (sameButId_readdress (exposedId idgen api₀) msg')⟩, ?_⟩, ?_⟩
    · have hquiet : api.output.filterMap Output.call = [] := h.quiet
      simp [JadeAPI.calls, JadeAPI.put, JadeAPI.take, hquiet, Output.call]
    · rw [JadeAPI.readdress_id]
      exact exposedId_text idgen api₀
    · exact erase_latest h.inflight
    · simp [JadeAPI.sentRequests, JadeAPI.put, JadeAPI.take, Output.request]
  · exact h.queue

/-- The answer to the message that completes the upload goes to the caller. -/
theorem Finishing.next (h : Finishing idgen api₀ upload api) (hanswer : api.answersLast msg = true)
    (hhttp : JadeAPI.wantsHttpRequest msg = false) :
    Over idgen api₀ upload msg (api.processResponseMessage idgen msg) ∧
      (api.processResponseMessage idgen msg).sentRequests = api.sentRequests ∧
      (api.processResponseMessage idgen msg).progressed = api.progressed := by
  have hid : textToInt (otaComplete (exposedId idgen api₀)).id = exposedId idgen api₀ :=
    exposedId_text idgen api₀
  have hne : textToInt (otaComplete (exposedId idgen api₀)).id ≠ 0 := by
    rw [hid]
    exact JadeAPI.drawnId_ne_zero idgen api₀.drawn
  obtain ⟨htext, hprocess⟩ :=
    JadeAPI.processResponseMessage_of_answer idgen hanswer h.latest hne hhttp
  rw [hid] at htext hprocess
  have hclient := h.entered.registered _ List.mem_cons_self
  rw [JadeAPI.callResponseHandler_of_run htext hclient rfl, JadeAPI.drain_of_empty] at hprocess
  · rw [hprocess]
    refine ⟨⟨⟨msg, ?_, htext, .refl msg⟩, ?_⟩, ?_, ?_⟩
    · have hquiet : api.output.filterMap Output.call = [] := h.quiet
      simp [JadeAPI.calls, JadeAPI.put, JadeAPI.take, hquiet, Output.call]
    · exact erase_latest h.inflight
    · simp [JadeAPI.sentRequests, JadeAPI.put, JadeAPI.take, Output.request]
    · simp [JadeAPI.progressed, JadeAPI.put, JadeAPI.take, Output.progressed]
  · exact h.queue

/-- Nothing is passed back in a message that goes out once its handler is registered. -/
theorem handleHttpResponse_send (id : Int) (httpRequest : Fields) (httpResponse : Variant)
    (hfresh : api.responseHandlers.contains (JadeAPI.drawnId idgen api.drawn) = false) :
    ∃ (registered : JadeAPI) (request : Request),
      api.handleHttpResponse idgen id httpRequest httpResponse = registered.send request ∧
      registered.responseHandlers =
        api.responseHandlers.insert (JadeAPI.drawnId idgen api.drawn) (.forward id) ∧
      registered.drawn = api.drawn + 1 ∧ registered.calls = api.calls ∧
      registered.sentRequests = api.sentRequests ∧ registered.msgQueue = api.msgQueue ∧
      registered.msgInflight = api.msgInflight ∧
      textToInt request.id = JadeAPI.drawnId idgen api.drawn := by
  unfold JadeAPI.handleHttpResponse
  rw [JadeAPI.registerResponseHandler_of_fresh _ hfresh]
  exact ⟨_, _, rfl, rfl, rfl, rfl, rfl, rfl, rfl, JadeAPI.textToInt_drawnId idgen api.drawn⟩

/-- An http request that is left to a function or fails leaves the handlers as they are. -/
theorem Uploading.next_silent (h : Uploading idgen api₀ upload currentPos tmpId forwards api)
    {out : Output} (hcall : out.call = none) (hrequest : out.request = none) {inflight : List Int}
    (hinflight : inflight = [] ∨ inflight = [forwards.headD tmpId]) :
    Uploading idgen api₀ upload currentPos tmpId forwards
      { api.put out with msgInflight := inflight } := by
  obtain ⟨last, hlast, hid⟩ := h.latest
  have hput : JadeAPI.SameTables api (api.put out) := JadeAPI.sameTables_put hcall
  have hsent : (api.put out).sentRequests = api.sentRequests := by
    simp [JadeAPI.sentRequests, JadeAPI.put, hrequest]
  exact ⟨h.entered.congr ⟨rfl, rfl, rfl, hput.calls⟩, h.drawn, hput.calls.trans h.quiet, h.queue,
    ⟨last, (congrArg List.getLast? hsent).trans hlast, hid⟩, hinflight⟩

/-- An http request is answered by nothing, and a forward added; or it is left to a function that
the table had for the id, if it has one. -/
theorem Uploading.next_http (h : Uploading idgen api₀ upload currentPos tmpId forwards api)
    (hanswer : api.answersLast msg = true) (hhttp : JadeAPI.wantsHttpRequest msg = true)
    {count : ℕ} (hids : DistinctIds idgen api₀ count) (hcount : api.drawn < api₀.drawn + count) :
    ∃ forwards', Uploading idgen api₀ upload currentPos tmpId forwards'
        (api.processResponseMessage idgen msg) ∧
      (api.processResponseMessage idgen msg).drawn ≤ api.drawn + 1 := by
  obtain ⟨request, text, hrequest, hvalue, htext⟩ := JadeAPI.answersLast_spec hanswer
  obtain ⟨last, hlast, hid⟩ := h.latest
  rw [hlast, Option.some.injEq] at hrequest
  subst hrequest
  have hlatest : ∃ entry ∈ forwardEntries tmpId forwards ++
      [(tmpId, upload.handler (exposedId idgen api₀) currentPos),
        (exposedId idgen api₀, .client upload.cb)], entry.1 = forwards.headD tmpId := by
    cases forwards with
    | nil => exact ⟨_, List.mem_cons_self, rfl⟩
    | cons => exact ⟨_, List.mem_cons_self, rfl⟩
  obtain ⟨entry, hentry, hread⟩ := hlatest
  have hne : forwards.headD tmpId ≠ 0 := hread ▸ h.entered.ne_zero hentry
  have hinflight := erase_latest h.inflight
  cases hproxy : api.requestProxy[forwards.headD tmpId]? with
  | none =>
      obtain ⟨hnew, hfresh⟩ := h.entered.fresh hids hcount
      obtain ⟨registered, response, hback, hhandlers, hdrawn, hcalls, hsent, hqueue, hsame,
        hresponse⟩ := handleHttpResponse_send (forwards.headD tmpId)
          ((msg.value "result").toMap.value "http_request").toMap .null hfresh
      have hpushed : Entered idgen api₀
          (forwardEntries tmpId (JadeAPI.drawnId idgen api.drawn :: forwards) ++
            [(tmpId, upload.handler (exposedId idgen api₀) currentPos),
              (exposedId idgen api₀, .client upload.cb)]) registered :=
        h.entered.push hnew hhandlers hdrawn
      obtain ⟨htables, hqueue', hsent', -, hinflight'⟩ :=
        drain_send (hqueue.trans h.queue) response (forwards.headD tmpId)
      have hmore := h.drawn
      rw [JadeAPI.processResponseMessage_of_http_none hvalue (htext.trans hid) hne hhttp hproxy,
        hback]
      refine ⟨JadeAPI.drawnId idgen api.drawn :: forwards,
        ⟨hpushed.congr htables, ?_, ?_, hqueue', ⟨response, ?_, hresponse⟩, ?_⟩, ?_⟩
      · rw [htables.drawn, hdrawn]
        omega
      · exact (htables.calls.trans hcalls).trans h.quiet
      · exact (congrArg List.getLast? hsent').trans List.getLast?_concat
      · rw [hinflight', hresponse, hsame]
        exact erase_insert h.inflight
      · exact Nat.le_of_eq (htables.drawn.trans hdrawn)
  | some proxy =>
      cases proxy with
      | none =>
          rw [JadeAPI.processResponseMessage_of_http_empty hvalue (htext.trans hid) hne hhttp hproxy]
          exact ⟨forwards, h.next_silent rfl rfl h.inflight, Nat.le_succ _⟩
      | some proxy =>
          rw [JadeAPI.processResponseMessage_of_http_some hvalue (htext.trans hid) hne hhttp hproxy,
            JadeAPI.drain_of_empty]
          · exact ⟨forwards, h.next_silent rfl rfl (.inl hinflight), Nat.le_succ _⟩
          · exact h.queue

/-! ## The start of an upload -/

section Start
variable (sha256 : List UInt8 → List UInt8) (fromHex : String → List UInt8) (upload : Upload)

/-- The message that initiates the upload. -/
def initiating (tmpId : Int) : Request :=
  getRequest tmpId upload.method (.map (upload.params sha256 fromHex))

/-- The initiating message is sent, and the handler of the first chunk waits. -/
theorem uploading_start (hidle : api₀.Idle)
    (hfirst : api₀.responseHandlers.contains (exposedId idgen api₀) = false)
    (hnew : NewId idgen api₀ { api₀ with drawn := api₀.drawn + 1 }) :
    (upload.start idgen sha256 fromHex api₀).1 = exposedId idgen api₀ ∧
      Uploading idgen api₀ upload 0 (JadeAPI.drawnId idgen (api₀.drawn + 1)) []
        (upload.start idgen sha256 fromHex api₀).2 ∧
      (upload.start idgen sha256 fromHex api₀).2.sentRequests =
        [upload.initiating sha256 fromHex (JadeAPI.drawnId idgen (api₀.drawn + 1))] ∧
      (upload.start idgen sha256 fromHex api₀).2.progressed = [] ∧
      (upload.start idgen sha256 fromHex api₀).2.drawn = api₀.drawn + 2 := by
  have hexposed : JadeAPI.drawnId idgen (api₀.drawn + 1) ∉
      [(exposedId idgen api₀, Handler.client upload.cb)].map Prod.fst := by
    rw [List.map_singleton, List.mem_singleton]
    exact hnew.exposed
  have hclient : Entered idgen api₀ [(exposedId idgen api₀, .client upload.cb)]
      (exposing idgen upload.cb api₀) := (entered_nil idgen api₀).push List.not_mem_nil rfl rfl
  have hregister : api₀.registerResponseHandler idgen (.client upload.cb) 0 =
      (exposedId idgen api₀, exposing idgen upload.cb api₀) :=
    JadeAPI.registerResponseHandler_of_fresh _ hfirst
  obtain ⟨registered, hnext, hpushed, hdraws, hqueued, hsame, houtput⟩ :=
    hclient.register hexposed hnew.unregistered (upload.handler (exposedId idgen api₀) 0)
  have hinflight : registered.msgInflight = [] := hsame.trans hidle.inflight
  have hqueue : registered.msgQueue = [] := hqueued.trans hidle.queue
  have hnone : registered.output = [] := houtput.trans hidle.output
  have hdrawn : registered.drawn = api₀.drawn + 2 := hdraws
  have hstart : upload.start idgen sha256 fromHex api₀ =
      (exposedId idgen api₀, registered.send
        (upload.initiating sha256 fromHex (JadeAPI.drawnId idgen (api₀.drawn + 1)))) := by
    have hnext' : (exposing idgen upload.cb api₀).registerResponseHandler idgen
        (.otaChunk (exposedId idgen api₀) upload.fwcmp upload.chunkSize 0 upload.cbProgress) 0 =
          (JadeAPI.drawnId idgen (api₀.drawn + 1), registered) := hnext
    rw [start_eq, JadeAPI.initiateOta, hregister]
    simp only [hnext']
    rw [JadeAPI.enqueue_of_idle hinflight hqueue]
    rfl
  have htables := JadeAPI.sameTables_send
    (upload.initiating sha256 fromHex (JadeAPI.drawnId idgen (api₀.drawn + 1))) registered
  have hcalls : registered.calls = [] := by rw [JadeAPI.calls, hnone]; rfl
  have hsent : registered.sentRequests = [] := by rw [JadeAPI.sentRequests, hnone]; rfl
  have hid : textToInt (upload.initiating sha256 fromHex
      (JadeAPI.drawnId idgen (api₀.drawn + 1))).id = JadeAPI.drawnId idgen (api₀.drawn + 1) :=
    JadeAPI.textToInt_drawnId idgen (api₀.drawn + 1)
  rw [hstart]
  refine ⟨rfl, ⟨hpushed.congr htables, ?_, ?_, ?_, ⟨_, ?_, hid⟩, ?_⟩, ?_, ?_, ?_⟩
  · rw [htables.drawn, hdrawn]
    omega
  · exact htables.calls.trans hcalls
  · exact (JadeAPI.send_msgQueue _).trans hqueue
  · rw [JadeAPI.send_sentRequests, hsent]
    rfl
  · rw [JadeAPI.send_msgInflight, hinflight, hid]
    exact .inr rfl
  · rw [JadeAPI.send_sentRequests, hsent]
    rfl
  · rw [JadeAPI.send_progressed, JadeAPI.progressed, hnone]
    rfl
  · exact htables.drawn.trans hdrawn

end Start

end Upload

end GreenWallet.Jade
