import GreenWallet.Jade.HttpChain

/-!
# The answer to a request that took http requests

After some rounds the handlers of a request are forwards, and the first is the caller's. The
final answer runs down to it: the caller's callback is called under the id the request was made
with, and nothing is kept under the ids of its messages.
-/
namespace GreenWallet.Jade
open GreenWallet.Library
open Std (ExtTreeMap)

namespace HttpChain
variable {idgen : ℕ → Fin 90000} {api₀ : JadeAPI} {callback proxy count : ℕ} {id : Int}
variable {forwards : List Int} {s : HttpChain} {round : HttpRound}

/-- The handlers of the request are forwards down to the caller's callback. -/
structure Linked (idgen : ℕ → Fin 90000) (api₀ : JadeAPI) (callback proxy : ℕ) (id : Int)
    (forwards : List Int) (s : HttpChain) : Prop where
  ids : s.ids = forwards ++ [id]
  drawn : s.api.drawn = api₀.drawn + s.ids.length
  entered : Entered idgen api₀ (forwardEntries id forwards ++ [(id, .client callback)]) s.api
  proxied : s.proxy = some (some proxy)
  quiet : s.api.calls = api₀.calls

theorem Linked.latest_eq (h : Linked idgen api₀ callback proxy id forwards s) :
    s.latest = forwards.headD id := by
  rw [latest, h.ids]
  cases forwards <;> rfl

/-- A round adds a forward. -/
theorem Linked.next (hids : DistinctIds idgen api₀ count)
    (h : Linked idgen api₀ callback proxy id forwards s) (hcount : s.ids.length < count)
    (hround : (httpChain idgen).enabled s round) :
    ∃ newId, Linked idgen api₀ callback proxy id (newId :: forwards) (s.next idgen round) := by
  obtain ⟨hanswers, hhttp⟩ := hround
  have hcallable : s.proxy ≠ some none := by simp [h.proxied]
  obtain ⟨api, httpResponse, hbefore, hafter⟩ := passBack_spec idgen hanswers hhttp hcallable
  have hdraws : s.api.drawn < api₀.drawn + count := by
    rw [h.drawn]
    omega
  obtain ⟨hnew, hfresh⟩ := h.entered.fresh hids hdraws
  have hnewId : (s.api.registerResponseHandler idgen (.forward s.latest) 0).1 =
      JadeAPI.drawnId idgen s.api.drawn :=
    (JadeAPI.registerResponseHandler_fresh (.forward s.latest) 0 hfresh).1
  have hfresh' : api.responseHandlers.contains (JadeAPI.drawnId idgen api.drawn) = false := by
    rw [hbefore.responseHandlers, hbefore.drawn]
    exact hfresh
  obtain ⟨hhandlers, hdrawn, hcalls⟩ :=
    JadeAPI.handleHttpResponse_fresh s.latest round.httpRequest httpResponse hfresh'
  have hids' : (s.next idgen round).ids = JadeAPI.drawnId idgen s.api.drawn :: s.ids := by
    rw [HttpChain.next, if_neg hcallable, hnewId]
  have hdrawn' : (s.next idgen round).api.drawn = s.api.drawn + 1 := by
    rw [← hbefore.drawn, ← hdrawn]
    exact hafter.drawn
  refine ⟨JadeAPI.drawnId idgen s.api.drawn, ?_, ?_, ?_, ?_, ?_⟩
  · rw [hids', h.ids, List.cons_append]
  · rw [hdrawn', hids', List.length_cons, h.drawn, Nat.add_assoc]
  · rw [forwardEntries, List.cons_append]
    apply h.entered.push hnew
    · rw [← h.latest_eq, ← hbefore.responseHandlers, ← hbefore.drawn, ← hhandlers]
      exact hafter.responseHandlers
    · exact hdrawn'
  · rw [proxy_next idgen hanswers hhttp hcallable, h.proxied]
    rfl
  · rw [← h.quiet, ← hbefore.calls, ← hcalls]
    exact hafter.calls

theorem Linked.run (hids : DistinctIds idgen api₀ count)
    (h : Linked idgen api₀ callback proxy id forwards s) {rounds : List HttpRound}
    (hcount : s.ids.length + rounds.length ≤ count) (hvalid : (httpChain idgen).Valid s rounds) :
    ∃ forwards, Linked idgen api₀ callback proxy id forwards ((httpChain idgen).run s rounds) ∧
      ((httpChain idgen).run s rounds).ids.length = s.ids.length + rounds.length := by
  induction rounds generalizing s forwards with
  | nil => exact ⟨forwards, h, rfl⟩
  | cons round rounds ih =>
      rw [List.length_cons] at hcount
      obtain ⟨newId, hnext⟩ := h.next hids (by omega) hvalid.1
      have hlength : (s.next idgen round).ids.length = s.ids.length + 1 := by
        rw [hnext.ids, List.cons_append, List.length_cons, ← h.ids]
      obtain ⟨forwards', hlast, hall⟩ := ih hnext (by omega) hvalid.2
      refine ⟨forwards', hlast, ?_⟩
      rw [List.length_cons, Reactive.run_cons, Nat.add_comm rounds.length, ← Nat.add_assoc,
        ← hlength]
      exact hall

/-- The final answer: the caller's callback is called, and what the tables had for the ids is
gone. -/
theorem Linked.final (h : Linked idgen api₀ callback proxy id forwards s) {final : Fields}
    (hanswers : s.Answers final) (hhttp : JadeAPI.wantsHttpRequest final = false) :
    (∃ msg, (s.api.processResponseMessage idgen final).calls = api₀.calls ++ [(callback, msg)] ∧
        textToInt (msg.value "id").toText = id ∧ SameButId final msg) ∧
      ∀ j ∈ s.ids, (s.api.processResponseMessage idgen final).responseHandlers[j]? = none ∧
        (s.api.processResponseMessage idgen final).requestProxy[j]? = none := by
  obtain ⟨text, hvalue, htext, hne⟩ := hanswers
  have hid : textToInt (final.value "id").toText = s.latest := by rw [hvalue]; exact htext
  have hguard := JadeAPI.guard_of_text hvalue htext hne
  obtain ⟨rounds, hrounds⟩ : ∃ rounds, s.api.responseHandlers.size + 1 =
      forwards.length + (rounds + 1) := by
    have hle := h.entered.length_le
    rw [← List.length_map (f := Prod.fst), List.map_append, map_forwardEntries,
      List.length_append] at hle
    exact ⟨s.api.responseHandlers.size - forwards.length, by omega⟩
  obtain ⟨msg, htarget, hsame, hentered, hcalled⟩ :=
    h.entered.callResponseHandler_of_forwards (rounds + 1) (hid.trans h.latest_eq)
  have hclient := hentered.registered (id, .client callback) List.mem_cons_self
  rw [JadeAPI.callResponseHandler_of_run htarget hclient rfl] at hcalled
  have hprocess : JadeAPI.SameTables
      (((s.api.takeAll forwards).take id).put (.called callback msg))
      (s.api.processResponseMessage idgen final) := by
    rw [JadeAPI.processResponseMessage, hguard, hhttp, hrounds, ← hcalled]
    exact JadeAPI.sameTables_drain _
  refine ⟨⟨msg, ?_, htarget, hsame⟩, ?_⟩
  · have hquiet : s.api.output.filterMap Output.call = api₀.calls := h.quiet
    rw [hprocess.calls, JadeAPI.calls, JadeAPI.put, List.filterMap_append, JadeAPI.take,
      JadeAPI.takeAll_output, hquiet]
    rfl
  · intro j hj
    rw [h.ids, List.mem_append, List.mem_singleton] at hj
    rw [hprocess.responseHandlers, hprocess.requestProxy]
    simp only [JadeAPI.put, JadeAPI.take, ExtTreeMap.getElem?_erase,
      (JadeAPI.takeAll_tables forwards s.api j).1, (JadeAPI.takeAll_tables forwards s.api j).2]
    rcases hj with hj | rfl
    · simp [hj]
    · simp

end HttpChain

/-- The request has been made, and its callback waits. -/
theorem ApiRequest.linked_start {idgen : ℕ → Fin 90000} {api₀ : JadeAPI} {callback proxy count : ℕ}
    {request : ApiRequest} (hids : DistinctIds idgen api₀ count) (hcount : 0 < count)
    (hcb : request.cb = .client callback) (hproxy : request.proxy = some (some proxy)) :
    HttpChain.Linked idgen api₀ callback proxy (JadeAPI.drawnId idgen api₀.drawn) []
      (request.start idgen api₀) := by
  have hdraws : api₀.drawn < api₀.drawn + count := by omega
  obtain ⟨hnew, hfresh⟩ := (entered_nil idgen api₀).fresh hids hdraws
  obtain ⟨hid, hhandlers, hdrawn, hcalls⟩ :=
    JadeAPI.registerResponseHandler_fresh request.cb request.timeout hfresh
  have hids' : (request.start idgen api₀).ids = [JadeAPI.drawnId idgen api₀.drawn] := by
    rw [← hid]
    rfl
  have htables : JadeAPI.SameTables
      { (api₀.registerResponseHandler idgen request.cb request.timeout).2 with
        requestProxy := (api₀.registerResponseHandler idgen request.cb
          request.timeout).2.requestProxy.insert
            (api₀.registerResponseHandler idgen request.cb request.timeout).1 (some proxy) }
      (request.start idgen api₀).api := by
    simp only [start, JadeAPI.request, hproxy]
    exact JadeAPI.sameTables_enqueue _
  have hdrawn' : (request.start idgen api₀).api.drawn = api₀.drawn + 1 := by
    rw [← hdrawn]
    exact htables.drawn
  refine ⟨hids', ?_, ?_, ?_, ?_⟩
  · rw [hids', List.length_singleton, hdrawn']
  · apply (entered_nil idgen api₀).push hnew
    · rw [← hcb, ← hhandlers]
      exact htables.responseHandlers
    · exact hdrawn'
  · rw [start_proxy, hproxy]
  · rw [← hcalls]
    exact htables.calls

/-- However many http requests the device wants made before it answers, the caller's callback is
called once, with the answer under the id of the request, and neither table keeps anything under
the ids of its messages. -/
theorem httpChain_answered {idgen : ℕ → Fin 90000} {api₀ : JadeAPI} {callback proxy : ℕ}
    {request : ApiRequest} {rounds : List HttpRound} {final : Fields}
    (hids : DistinctIds idgen api₀ (rounds.length + 1)) (hcb : request.cb = .client callback)
    (hproxy : request.proxy = some (some proxy))
    (hvalid : (httpChain idgen).Valid (request.start idgen api₀) rounds)
    (hfinal : ((httpChain idgen).run (request.start idgen api₀) rounds).Answers final)
    (hhttp : JadeAPI.wantsHttpRequest final = false) :
    let s := (httpChain idgen).run (request.start idgen api₀) rounds
    let api := s.api.processResponseMessage idgen final
    s.ids.length = rounds.length + 1 ∧ s.api.calls = api₀.calls ∧
      (∃ msg, api.calls = api₀.calls ++ [(callback, msg)] ∧
        textToInt (msg.value "id").toText = (request.start idgen api₀).latest ∧
        SameButId final msg) ∧
      ∀ id ∈ s.ids, api.responseHandlers[id]? = none ∧ api.requestProxy[id]? = none := by
  intro s api
  have hstart := ApiRequest.linked_start hids (Nat.succ_pos _) hcb hproxy
  have hone : (request.start idgen api₀).ids.length = 1 := by
    rw [hstart.ids]
    rfl
  obtain ⟨forwards, hlinked, hlength⟩ := hstart.run hids (by omega) hvalid
  obtain ⟨hcalled, hgone⟩ := hlinked.final hfinal hhttp
  have hlatest : (request.start idgen api₀).latest = JadeAPI.drawnId idgen api₀.drawn :=
    hstart.latest_eq
  rw [hone, Nat.add_comm] at hlength
  exact ⟨hlength, hlinked.quiet, hlatest ▸ hcalled, hgone⟩

/-- `auth_user` with two http requests: the proxy passes the first response back before it
returns, and the second one later. -/
def authUserTwice : List HttpRound :=
  [{ msg :=
      [("id", .text "10000"),
        ("result", .map [("http_request", .map [("on-reply", .text "handshake_init")])])]
     httpResponse := .map [("ske", .text "00")]
     atOnce := true },
    { msg :=
        [("id", .text "10001"),
          ("result", .map [("http_request", .map [("on-reply", .text "handshake_complete")])])]
      httpResponse := .map [("encrypted_key", .text "00")]
      atOnce := false }]

def authUserRequest : ApiRequest where
  method := "auth_user"
  params := .map [("network", .text "mainnet"), ("epoch", .int 0)]
  cb := .client 7
  timeout := 0
  proxy := some (some 3)

theorem httpChain_answered_authUserTwice :
    let final : Fields := [("id", .text "10002"), ("result", .bool true)]
    let s := (httpChain counting).run (authUserRequest.start counting {}) authUserTwice
    let api := s.api.processResponseMessage counting final
    s.ids.length = authUserTwice.length + 1 ∧ s.api.calls = ({} : JadeAPI).calls ∧
      (∃ msg, api.calls = ({} : JadeAPI).calls ++ [(7, msg)] ∧
        textToInt (msg.value "id").toText = (authUserRequest.start counting {}).latest ∧
        SameButId final msg) ∧
      ∀ id ∈ s.ids, api.responseHandlers[id]? = none ∧ api.requestProxy[id]? = none := by
  have hvalid : (httpChain counting).Valid (authUserRequest.start counting {}) authUserTwice :=
    ⟨⟨⟨"10000", rfl, by decide, by decide⟩, by decide⟩,
      ⟨⟨"10001", rfl, by decide, by decide⟩, by decide⟩, trivial⟩
  exact httpChain_answered (distinctIds_counting (by decide)) rfl rfl hvalid
    ⟨"10002", rfl, by decide, by decide⟩ (by decide)

end GreenWallet.Jade
