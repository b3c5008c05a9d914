import GreenWallet.Jade.AntiExfil
import GreenWallet.Jade.Forwarding

/-!
# Requests that take http requests

Before it answers a request the device may want http requests made. The response of each is
passed back in a message of its own, whose handler forwards what comes of it to the id before;
the proxy of the request is copied from id to id. A proxy may pass the response back before it
returns or at some later time, and an id without a proxy is answered at once with nothing.
-/
namespace GreenWallet.Jade
open GreenWallet.Library
open Std (ExtTreeMap)

namespace JadeAPI

/-- What the functions of the API do that send one message: a handler is registered, with a
proxy for some, and the message enqueued. -/
def request (idgen : ℕ → Fin 90000) (method : String) (params : Variant) (cb : Handler)
    (timeout : Int) (proxy : Option (Option ℕ)) (api : JadeAPI) : Int × JadeAPI :=
  let (id, api) := api.registerResponseHandler idgen cb timeout
  let api :=
    match proxy with
    | some request_proxy => { api with requestProxy := api.requestProxy.insert id request_proxy }
    | none => api
  (id, api.enqueue (getRequest id method params))

theorem authUser_eq (idgen : ℕ → Fin 90000) (network : String) (now_epoch_secs : Int) (cb : ℕ)
    (request_proxy : Option ℕ) (api : JadeAPI) :
    api.authUser idgen network now_epoch_secs cb request_proxy =
      api.request idgen "auth_user"
        (.map [("network", .text network), ("epoch", .int now_epoch_secs)])
        (.client cb) 0 (some request_proxy) := rfl

/-- `processResponseMessage`; a proxy that is called calls `handleHttpResponse` with the
response, if there is one, before it returns. -/
def processResponseMessageWith (idgen : ℕ → Fin 90000) (httpResponse : Option Variant)
    (msg : Fields) (api : JadeAPI) : JadeAPI :=
  if !msg.contains "id" || !(msg.value "id").isText ||
      textToInt (msg.value "id").toText == 0 then api
  else
    let id := textToInt (msg.value "id").toText
    if wantsHttpRequest msg then
      let httpRequest := ((msg.value "result").toMap.value "http_request").toMap
      match api.requestProxy[id]? with
      | none =>
          let api := api.handleHttpResponse idgen id httpRequest .null
          { api with msgInflight := api.msgInflight.erase id }.drain
      | some (some proxy) =>
          let api := api.put (.httpRequested proxy id httpRequest)
          let api :=
            match httpResponse with
            | some response => api.handleHttpResponse idgen id httpRequest response
            | none => api
          { api with msgInflight := api.msgInflight.erase id }.drain
      | some none => api.put .badFunctionCall
    else
      let api := api.callResponseHandler idgen (api.responseHandlers.size + 1) msg
      { api with msgInflight := api.msgInflight.erase id }.drain

theorem processResponseMessageWith_none (idgen : ℕ → Fin 90000) (msg : Fields) (api : JadeAPI) :
    api.processResponseMessageWith idgen none msg = api.processResponseMessage idgen msg := rfl

end JadeAPI

/-- The device wants an http request made, and what comes of it. -/
structure HttpRound where
  msg : Fields
  httpResponse : Variant
  /-- The proxy passes the response back before it returns. -/
  atOnce : Bool

namespace HttpRound

def id (round : HttpRound) : Int := textToInt (round.msg.value "id").toText

def httpRequest (round : HttpRound) : Fields :=
  ((round.msg.value "result").toMap.value "http_request").toMap

end HttpRound

/-- A request with the ids of its messages, the latest first. -/
structure HttpChain where
  api : JadeAPI
  ids : List Int

namespace HttpChain

def latest (s : HttpChain) : Int := s.ids.headD 0

/-- The function stored for the latest id, if there is an entry. -/
def proxy (s : HttpChain) : Option (Option ℕ) := s.api.requestProxy[s.latest]?

/-- The message is about the latest id. -/
def Answers (s : HttpChain) (msg : Fields) : Prop :=
  ∃ text, msg.value "id" = .text text ∧ textToInt text = s.latest ∧ s.latest ≠ 0

/-- The message has been handled, and the response passed back. -/
def passBack (idgen : ℕ → Fin 90000) (round : HttpRound) (s : HttpChain) : JadeAPI :=
  match s.proxy with
  | some (some _) =>
      if round.atOnce then
        s.api.processResponseMessageWith idgen (some round.httpResponse) round.msg
      else
        (s.api.processResponseMessageWith idgen none round.msg).handleHttpResponse idgen round.id
          round.httpRequest round.httpResponse
  | _ => s.api.processResponseMessageWith idgen none round.msg

def next (idgen : ℕ → Fin 90000) (s : HttpChain) (round : HttpRound) : HttpChain where
  api := s.passBack idgen round
  ids :=
    if s.proxy = some none then s.ids
    else (s.api.registerResponseHandler idgen (.forward s.latest) 0).1 :: s.ids

end HttpChain

/-- The rounds of a request. -/
def httpChain (idgen : ℕ → Fin 90000) : Reactive HttpChain HttpRound Output where
  enabled s round := s.Answers round.msg ∧ JadeAPI.wantsHttpRequest round.msg = true
  next := HttpChain.next idgen
  emits s round := (s.passBack idgen round).output.drop s.api.output.length

/-- A call of the API that sends one message. -/
structure ApiRequest where
  method : String
  params : Variant
  cb : Handler
  timeout : Int
  /-- What is stored as its proxy; nothing for a request without. -/
  proxy : Option (Option ℕ)

def ApiRequest.start (idgen : ℕ → Fin 90000) (request : ApiRequest) (api : JadeAPI) : HttpChain :=
  let (id, api) :=
    api.request idgen request.method request.params request.cb request.timeout request.proxy
  { api, ids := [id] }

namespace HttpChain
variable {idgen : ℕ → Fin 90000} {s : HttpChain} {round : HttpRound}

/-- A round passes the response back, between steps that leave the tables alone. -/
theorem passBack_spec (idgen : ℕ → Fin 90000) (hanswers : s.Answers round.msg)
    (hhttp : JadeAPI.wantsHttpRequest round.msg = true) (hproxy : s.proxy ≠ some none) :
    ∃ api httpResponse, JadeAPI.SameTables s.api api ∧
      JadeAPI.SameTables
        (api.handleHttpResponse idgen s.latest round.httpRequest httpResponse)
        (s.passBack idgen round) := by
  obtain ⟨text, hvalue, htext, hne⟩ := hanswers
  have hid : round.id = s.latest := by rw [HttpRound.id, hvalue]; exact htext
  have hguard := JadeAPI.guard_of_text hvalue htext hne
  have hprocess : ∀ httpResponse, s.api.processResponseMessageWith idgen httpResponse round.msg =
      match s.proxy with
      | none =>
          let api := s.api.handleHttpResponse idgen s.latest round.httpRequest .null
          ({ api with msgInflight := api.msgInflight.erase s.latest } : JadeAPI).drain
      | some (some proxy) =>
          let api := s.api.put (.httpRequested proxy s.latest round.httpRequest)
          let api :=
            match httpResponse with
            | some response => api.handleHttpResponse idgen s.latest round.httpRequest response
            | none => api
          ({ api with msgInflight := api.msgInflight.erase s.latest } : JadeAPI).drain
      | some none => s.api.put .badFunctionCall := by
    intro httpResponse
    rw [JadeAPI.processResponseMessageWith, hguard, hhttp, proxy, ← hid]
    rfl
  cases hstored : s.proxy with
  | none =>
      have hback : s.passBack idgen round =
          (let api := s.api.handleHttpResponse idgen s.latest round.httpRequest .null
          ({ api with msgInflight := api.msgInflight.erase s.latest } : JadeAPI).drain) := by
        rw [passBack, hstored, hprocess none, hstored]
      rw [hback]
      exact ⟨s.api, .null, .refl s.api, JadeAPI.sameTables_drain _⟩
  | some stored =>
      cases stored with
      | none => exact (hproxy hstored).elim
      | some proxy =>
          have hput : JadeAPI.SameTables s.api
              (s.api.put (.httpRequested proxy s.latest round.httpRequest)) :=
            JadeAPI.sameTables_put rfl
          rw [passBack, hstored, hprocess none, hprocess (some round.httpResponse), hstored]
          by_cases hatOnce : round.atOnce = true
          · rw [if_pos hatOnce]
            exact ⟨_, round.httpResponse, hput, JadeAPI.sameTables_drain _⟩
          · rw [if_neg hatOnce, hid]
            exact ⟨_, round.httpResponse, hput.trans (JadeAPI.sameTables_drain _), .refl _⟩

/-! ## The functions stored for the ids -/

theorem proxy_next (idgen : ℕ → Fin 90000) (hanswers : s.Answers round.msg)
    (hhttp : JadeAPI.wantsHttpRequest round.msg = true) (hproxy : s.proxy ≠ some none) :
    (s.next idgen round).proxy = some (s.proxy.getD none) := by
  obtain ⟨api, httpResponse, hbefore, hafter⟩ := passBack_spec idgen hanswers hhttp hproxy
  have hlatest : (s.next idgen round).latest =
      (s.api.registerResponseHandler idgen (.forward s.latest) 0).1 := by
    rw [next, if_neg hproxy]
    rfl
  have htable : (s.next idgen round).api.requestProxy =
      (api.handleHttpResponse idgen s.latest round.httpRequest httpResponse).requestProxy :=
    hafter.requestProxy
  rw [proxy, htable, hlatest, JadeAPI.handleHttpResponse_requestProxy, hbefore.registered_id,
    hbefore.requestProxy, ExtTreeMap.getElem?_insert_self]
  rfl

end HttpChain

namespace ApiRequest
variable {idgen : ℕ → Fin 90000} {api : JadeAPI} {request : ApiRequest}

/-- What is stored under the id once the request has been made. -/
theorem start_proxy (idgen : ℕ → Fin 90000) (api : JadeAPI) (request : ApiRequest) :
    (request.start idgen api).proxy =
      match request.proxy with
      | some request_proxy => some request_proxy
      | none => api.requestProxy[(request.start idgen api).latest]? := by
  have hregister :=
    JadeAPI.registerResponseHandler_requestProxy idgen request.cb request.timeout api
  cases hproxy : request.proxy with
  | none =>
      simp only [HttpChain.proxy, HttpChain.latest, start, JadeAPI.request, hproxy,
        List.headD_cons, (JadeAPI.sameTables_enqueue _).requestProxy, hregister]
  | some request_proxy =>
      simp only [HttpChain.proxy, HttpChain.latest, start, JadeAPI.request, hproxy,
        List.headD_cons, (JadeAPI.sameTables_enqueue _).requestProxy,
        ExtTreeMap.getElem?_insert_self]

/-- In every round a function that is called is not empty, and a request without a proxy has
none. -/
def ProxiesCallable (idgen : ℕ → Fin 90000) (api : JadeAPI) (request : ApiRequest) :
    List HttpRound → Prop :=
  (httpChain idgen).Along
    (fun s _ => s.proxy ≠ some none ∧ (request.proxy = none → s.proxy = none))
    (request.start idgen api)

theorem along_of_proxied {proxy : ℕ} {s : HttpChain} {rounds : List HttpRound}
    (hproxied : request.proxy = some (some proxy)) (hproxy : s.proxy = some (some proxy))
    (hvalid : (httpChain idgen).Valid s rounds) :
    (httpChain idgen).Along
      (fun s _ => s.proxy ≠ some none ∧ (request.proxy = none → s.proxy = none)) s rounds := by
  induction rounds generalizing s with
  | nil => trivial
  | cons round rounds ih =>
      obtain ⟨⟨hanswers, hhttp⟩, hrest⟩ := hvalid
      have hcallable : s.proxy ≠ some none := by simp [hproxy]
      refine ⟨⟨hcallable, by simp [hproxied]⟩, ih ?_ hrest⟩
      have hnext := HttpChain.proxy_next idgen hanswers hhttp hcallable
      rwa [hproxy] at hnext

/-- The functions can be called if the request has one, or if the device wants at most one http
request: none for an empty function or an entry left over under the id. -/
theorem proxiesCallable_iff (idgen : ℕ → Fin 90000) (api : JadeAPI) (request : ApiRequest)
    (rounds : List HttpRound)
    (hvalid : (httpChain idgen).Valid (request.start idgen api) rounds) :
    request.ProxiesCallable idgen api rounds ↔
      rounds = [] ∨ (∃ proxy, request.proxy = some (some proxy)) ∨
        rounds.length = 1 ∧ request.proxy = none ∧
          api.requestProxy[(request.start idgen api).latest]? = none := by
  have hstart := request.start_proxy idgen api
  cases rounds with
  | nil => exact iff_of_true trivial (.inl rfl)
  | cons round rounds =>
      obtain ⟨⟨hanswers, hhttp⟩, hrest⟩ := id hvalid
      cases hproxy : request.proxy with
      | none =>
          rw [hproxy] at hstart
          constructor
          · intro ⟨⟨hcallable, hnone⟩, hcallables⟩
            have hempty : (request.start idgen api).proxy = none := hnone hproxy
            have hnext := HttpChain.proxy_next idgen hanswers hhttp hcallable
            rw [hempty] at hnext
            cases rounds with
            | nil => exact .inr (.inr ⟨rfl, rfl, hstart.symm.trans hempty⟩)
            | cons => exact (hcallables.1.1 hnext).elim
          · rintro (hnil | ⟨proxy, hsome⟩ | ⟨hone, -, hempty⟩)
            · cases hnil
            · cases hsome
            · rw [List.length_cons, Nat.succ_inj, List.length_eq_zero_iff] at hone
              subst hone
              rw [hempty] at hstart
              exact ⟨⟨by simp [hstart], fun _ => hstart⟩, trivial⟩
      | some stored =>
          rw [hproxy] at hstart
          cases stored with
          | none =>
              constructor
              · intro hcallable
                exact (hcallable.1.1 hstart).elim
              · rintro (hnil | ⟨proxy, hsome⟩ | ⟨-, hnone, -⟩)
                · cases hnil
                · cases hsome
                · cases hnone
          | some proxy =>
              exact iff_of_true (along_of_proxied hproxy hstart hvalid) (.inr (.inl ⟨proxy, rfl⟩))

def getXpub : ApiRequest where
  method := "get_xpub"
  params := .map [("network", .text "mainnet"), ("path", .list [])]
  cb := .client 0
  timeout := 0
  proxy := none

/-- The device answers `get_xpub` by two http requests. -/
def askingTwice : List HttpRound :=
  [{ msg :=
      [("id", .text "10000"),
        ("result", .map [("http_request", .map [("on-reply", .text "more")])])]
     httpResponse := .null
     atOnce := true },
    { msg :=
        [("id", .text "10001"),
          ("result", .map [("http_request", .map [("on-reply", .text "more")])])]
      httpResponse := .null
      atOnce := true }]

theorem valid_askingTwice :
    (httpChain counting).Valid (getXpub.start counting {}) askingTwice :=
  ⟨⟨⟨"10000", rfl, by decide, by decide⟩, by decide⟩,
    ⟨⟨"10001", rfl, by decide, by decide⟩, by decide⟩, trivial⟩

theorem proxiesCallable_iff_askingTwice :
    getXpub.ProxiesCallable counting {} askingTwice ↔
      askingTwice = [] ∨ (∃ proxy, getXpub.proxy = some (some proxy)) ∨
        askingTwice.length = 1 ∧ getXpub.proxy = none ∧
          ({} : JadeAPI).requestProxy[(getXpub.start counting {}).latest]? = none :=
  proxiesCallable_iff counting {} getXpub askingTwice valid_askingTwice

/-- The second http request of a request without a proxy calls an empty function. -/
theorem not_proxiesCallable_askingTwice :
    (httpChain counting).Valid (getXpub.start counting {}) askingTwice ∧
      ¬ getXpub.ProxiesCallable counting {} askingTwice ∧
      Output.badFunctionCall ∈
        ((httpChain counting).run (getXpub.start counting {}) askingTwice).api.output := by
  refine ⟨valid_askingTwice, ?_, ?_⟩
  · intro hcallable
    exact hcallable.2.1.1 rfl
  · exact List.mem_of_getLast? rfl

end ApiRequest
end GreenWallet.Jade
