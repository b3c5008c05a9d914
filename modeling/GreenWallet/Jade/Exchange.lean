import GreenWallet.Jade.Signing

/-!
# The chain of handlers follows the script

After every answer one handler of the exchange waits, next to the caller's, or the
exchange is closed and both are gone. `Open` and `Closed` say so, with what has been
sent and received so far; a step lemma for each of the three handlers takes the
answer to the next line of the script, to the caller, or to the end.
-/
namespace GreenWallet.Jade
open GreenWallet.Library
open Std (ExtTreeMap)

/-- Every answer lets the exchange go on. -/
def AllAccepted (rs : List Fields) : Prop := ∀ i r, rs[i]? = some r → accepts i r = true

/-- The id `signTx` and `signLiquidTx` return: the first they draw. -/
def exposedId (idgen : ℕ → Fin 90000) (api₀ : JadeAPI) : Int := JadeAPI.drawnId idgen api₀.drawn

section
variable (idgen : ℕ → Fin 90000) (api₀ : JadeAPI) (request : SignRequest)
variable (inputs : List Variant) (cb : ℕ)

/-- Between an answer and the next message: only the caller's handler is left of
the exchange, and no callback has been called. -/
structure Resting (api : JadeAPI) : Prop where
  quiet : api.calls = []
  queue : api.msgQueue = []
  client : api.responseHandlers[exposedId idgen api₀]? = some (.client cb)
  known : ∀ j, api.responseHandlers.contains j = true →
    j = exposedId idgen api₀ ∨ api₀.responseHandlers.contains j = true
  drawn : api₀.drawn < api.drawn

/-- The exchange waits for the answer to the last message. -/
structure Waiting (handler : Handler) (last : Request) (api : JadeAPI) : Prop where
  quiet : api.calls = []
  queue : api.msgQueue = []
  client : api.responseHandlers[exposedId idgen api₀]? = some (.client cb)
  known : ∀ j, api.responseHandlers.contains j = true →
    j = textToInt last.id ∨ j = exposedId idgen api₀ ∨ api₀.responseHandlers.contains j = true
  drawn : api₀.drawn < api.drawn
  latest : api.sentRequests.getLast? = some last
  handler : api.responseHandlers[textToInt last.id]? = some handler
  ne_zero : textToInt last.id ≠ 0
  ne_exposed : textToInt last.id ≠ exposedId idgen api₀

structure Open (rs : List Fields) (api : JadeAPI) : Prop where
  accepted : AllAccepted rs
  sent : api.sentRequests.map Request.body = (script request inputs).take (rs.length + 1)
  waiting : ∃ handler last, Waiting idgen api₀ cb handler last api ∧
    Awaits (exposedId idgen api₀) inputs api rs handler

/-- The answers that end an exchange, and the message the caller is called with. -/
inductive Ends (id : Int) : List Fields → Fields → Prop
  | refused {answered : List Fields} {r : Fields} :
      AllAccepted answered → answered.length ≤ 2 * inputs.length →
      accepts answered.length r = false → Ends id (answered ++ [r]) (r.insert "id" (.int id))
  | completed {opened : Fields} {commitments signatures : List Fields} :
      AllAccepted (opened :: (commitments ++ signatures)) →
      commitments.length = inputs.length → signatures.length = inputs.length →
      Ends id (opened :: (commitments ++ signatures)) (signedResult id commitments signatures)

structure Closed (rs : List Fields) (api : JadeAPI) : Prop where
  queue : api.msgQueue = []
  silent : ∃ last, api.sentRequests.getLast? = some last ∧ textToInt last.id ≠ 0 ∧
    api.responseHandlers[textToInt last.id]? = none
  ended : ∃ answered rest msg, rs = answered ++ rest ∧
    Ends inputs (exposedId idgen api₀) answered msg ∧ api.calls = [(cb, msg)] ∧
    api.sentRequests.map Request.body = (script request inputs).take answered.length

end

section
variable {idgen : ℕ → Fin 90000} {api₀ : JadeAPI} {request : SignRequest}
variable {inputs : List Variant} {cb : ℕ} {api : JadeAPI}

theorem exposedId_text (idgen : ℕ → Fin 90000) (api₀ : JadeAPI) :
    textToInt (toString (exposedId idgen api₀)) = exposedId idgen api₀ :=
  JadeAPI.textToInt_drawnId idgen api₀.drawn

namespace JadeAPI

/-- A handler is registered and the message it answers sent: what `sendTxInput` and
`sendTxSignatureRequest` do. -/
def ask (idgen : ℕ → Fin 90000) (handler : Handler) (method : String) (params : Fields)
    (api : JadeAPI) : JadeAPI :=
  (api.registerResponseHandler idgen handler 0).2.send
    (getRequest (api.registerResponseHandler idgen handler 0).1 method (.map params))

theorem sendTxInput_eq (id : Int) (index : ℕ) (commitments : ℕ) :
    api.sendTxInput idgen id index inputs commitments =
      api.ask idgen (.receiveCommitment id index inputs commitments) "tx_input"
        ((inputs.getD index .invalid).toMap.remove "ae_host_entropy") := rfl

theorem sendTxSignatureRequest_eq (id : Int) (index : ℕ) (commitments signatures : ℕ) :
    api.sendTxSignatureRequest idgen id index inputs commitments signatures =
      api.ask idgen (.receiveSignature id index inputs commitments signatures) "get_signature"
        [("ae_host_entropy", .bytes (entropy (inputs.getD index .invalid)))] := rfl

section
variable {rslt : Fields} {id : Int} {index p q : ℕ}

theorem runHandler_commitment_next (hok : rslt.contains "result" = true)
    (hmore : ((api.appendTo p (answer rslt)).listAt p).length < inputs.length) :
    runHandler idgen rslt (.receiveCommitment id index inputs p) api =
      ((api.appendTo p (answer rslt)).sendTxInput idgen id (index + 1) inputs p, none) := by
  rw [runHandler, if_pos hok]
  exact if_pos hmore

theorem runHandler_commitment_last (hok : rslt.contains "result" = true)
    (hlast : ¬ ((api.appendTo p (answer rslt)).listAt p).length < inputs.length) :
    runHandler idgen rslt (.receiveCommitment id index inputs p) api =
      ((api.appendTo p (answer rslt)).newList.2.sendTxSignatureRequest idgen id 0 inputs p
        (api.appendTo p (answer rslt)).newList.1, none) := by
  rw [runHandler, if_pos hok]
  exact if_neg hlast

theorem runHandler_signature_next (hok : rslt.contains "result" = true)
    (hmore : ((api.appendTo q (answer rslt)).listAt q).length < inputs.length) :
    runHandler idgen rslt (.receiveSignature id index inputs p q) api =
      ((api.appendTo q (answer rslt)).sendTxSignatureRequest idgen id (index + 1) inputs p q,
        none) := by
  rw [runHandler, if_pos hok]
  exact if_pos hmore

theorem runHandler_signature_last (idgen : ℕ → Fin 90000) (id : Int) (index p : ℕ)
    (hok : rslt.contains "result" = true)
    (hlast : ¬ ((api.appendTo q (answer rslt)).listAt q).length < inputs.length) :
    runHandler idgen rslt (.receiveSignature id index inputs p q) api =
      (api.appendTo q (answer rslt),
        some (id,
          [("id", .int id),
            ("result",
              .map
                [("signatures", .list ((api.appendTo q (answer rslt)).listAt q)),
                  ("signer_commitments", .list ((api.appendTo q (answer rslt)).listAt p))])])) := by
  rw [runHandler, if_pos hok]
  exact if_neg hlast

end

end JadeAPI

theorem Resting.unregistered (hfresh : FreshIds idgen api₀) (h : Resting idgen api₀ cb api) :
    api.responseHandlers.contains (JadeAPI.drawnId idgen api.drawn) = false := by
  by_contra hcontains
  rw [Bool.not_eq_false] at hcontains
  rcases h.known _ hcontains with hexposed | hstart
  · exact hfresh.exposed api.drawn h.drawn hexposed
  · rw [hfresh.unregistered api.drawn (Nat.le_of_lt h.drawn)] at hstart
    cases hstart

/-- The next message: a new handler waits, and nothing else changes. -/
theorem Resting.ask (hfresh : FreshIds idgen api₀) (h : Resting idgen api₀ cb api)
    (handler : Handler) (method : String) (params : Fields) :
    (∃ last, Waiting idgen api₀ cb handler last (api.ask idgen handler method params)) ∧
      (api.ask idgen handler method params).lists = api.lists ∧
      (api.ask idgen handler method params).sentRequests.map Request.body =
        api.sentRequests.map Request.body ++ [(method, some (.map params))] := by
  have hregister := JadeAPI.registerResponseHandler_of_fresh handler (h.unregistered hfresh)
  have htext := JadeAPI.textToInt_drawnId idgen api.drawn
  have hne := hfresh.exposed api.drawn h.drawn
  have hid : textToInt (getRequest (JadeAPI.drawnId idgen api.drawn) method (.map params)).id =
      JadeAPI.drawnId idgen api.drawn := htext
  rw [JadeAPI.ask, hregister]
  refine ⟨⟨getRequest (JadeAPI.drawnId idgen api.drawn) method (.map params), ?_⟩, ?_, ?_⟩
  · refine ⟨?_, ?_, ?_, ?_, ?_, ?_, ?_, ?_, ?_⟩
    · rw [JadeAPI.send_calls]
      exact h.quiet
    · rw [JadeAPI.send_msgQueue]
      exact h.queue
    · simpa [ExtTreeMap.getElem?_insert, hne, exposedId] using h.client
    · intro j hj
      simp only [JadeAPI.send_responseHandlers, ExtTreeMap.contains_insert, Bool.or_eq_true,
        beq_iff_eq, Std.LawfulEqCmp.compare_eq_iff_eq] at hj
      rcases hj with rfl | hj
      · exact .inl hid.symm
      · exact .inr (h.known j hj)
    · rw [JadeAPI.send_drawn]
      exact Nat.lt_succ_of_lt h.drawn
    · rw [JadeAPI.send_sentRequests, List.getLast?_concat]
    · rw [hid, JadeAPI.send_responseHandlers]
      simp
    · rw [hid]
      exact JadeAPI.drawnId_ne_zero idgen api.drawn
    · rw [hid]
      exact hne
  · rw [JadeAPI.send_lists]
  · rw [JadeAPI.send_sentRequests, List.map_append]
    rfl

theorem Waiting.take {handler : Handler} {last : Request}
    (h : Waiting idgen api₀ cb handler last api) :
    Resting idgen api₀ cb (api.take (textToInt last.id)) where
  quiet := h.quiet
  queue := h.queue
  client := by
    simpa [JadeAPI.take, ExtTreeMap.getElem?_erase, h.ne_exposed] using h.client
  known j hj := by
    simp only [JadeAPI.take, ExtTreeMap.contains_erase, Bool.and_eq_true, bne_iff_ne, ne_eq,
      Std.LawfulEqCmp.compare_eq_iff_eq] at hj
    rcases h.known j hj.2 with hlast | hother
    · exact (hj.1 hlast.symm).elim
    · exact hother
  drawn := h.drawn

theorem Resting.of_eq {api' : JadeAPI} (h : Resting idgen api₀ cb api)
    (houtput : api'.output = api.output) (hqueue : api'.msgQueue = api.msgQueue)
    (hhandlers : api'.responseHandlers = api.responseHandlers) (hdrawn : api'.drawn = api.drawn) :
    Resting idgen api₀ cb api' where
  quiet := by rw [JadeAPI.calls, houtput]; exact h.quiet
  queue := hqueue.trans h.queue
  client := by rw [hhandlers]; exact h.client
  known := by rw [hhandlers]; exact h.known
  drawn := hdrawn ▸ h.drawn

theorem script_input {i : ℕ} (hi : i < inputs.length) :
    (script request inputs)[i + 1]? = some (txInput (inputs.getD i .invalid)) := by
  simp [script, List.getElem?_append, hi, List.getD]

theorem script_signature {i : ℕ} (hi : i < inputs.length) :
    (script request inputs)[inputs.length + 1 + i]? =
      some (getSignature (inputs.getD i .invalid)) := by
  have hlength : inputs.length + 1 + i = (inputs.length + i) + 1 := by omega
  simp [script, hlength, hi, List.getD]

/-- The next line of the script has been sent. -/
theorem take_succ_of_getElem? {α : Type*} {l : List α} {i : ℕ} {a : α} (h : l[i]? = some a) :
    l.take i ++ [a] = l.take (i + 1) := by
  rw [List.take_add_one, h]
  rfl

theorem AllAccepted.append {rs : List Fields} {r : Fields} (hrs : AllAccepted rs)
    (hr : accepts rs.length r = true) : AllAccepted (rs ++ [r]) := by
  intro i r' hi
  rcases Nat.lt_trichotomy i rs.length with hlt | rfl | hgt
  · rw [List.getElem?_append_left hlt] at hi
    exact hrs i r' hi
  · rw [List.getElem?_concat_length, Option.some.injEq] at hi
    exact hi ▸ hr
  · rw [List.getElem?_eq_none (by simp; omega)] at hi
    cases hi

theorem Waiting.settle {handler : Handler} {last : Request}
    (h : Waiting idgen api₀ cb handler last api) (inflight : List Int) :
    Waiting idgen api₀ cb handler last ({ api with msgInflight := inflight } : JadeAPI).drain := by
  rw [JadeAPI.drain_of_empty h.queue]
  exact ⟨h.quiet, h.queue, h.client, h.known, h.drawn, h.latest, h.handler, h.ne_zero,
    h.ne_exposed⟩

theorem Awaits.of_lists {id : Int} {api' : JadeAPI} {rs : List Fields} {handler : Handler}
    (h : Awaits id inputs api rs handler) (hlists : api'.lists = api.lists) :
    Awaits id inputs api' rs handler := by
  have hat : ∀ p, api'.listAt p = api.listAt p := by
    intro p
    rw [JadeAPI.listAt, JadeAPI.listAt, hlists]
  cases h with
  | opening => exact .opening
  | commitment hlt hp hlist => exact .commitment hlt (hlists ▸ hp) ((hat _).trans hlist)
  | signature hlength hlt hq hne hp hlist =>
      exact .signature hlength hlt (hlists ▸ hq) hne ((hat _).trans hp) ((hat _).trans hlist)

theorem Open.settle {rs : List Fields} (h : Open idgen api₀ request inputs cb rs api)
    (inflight : List Int) :
    Open idgen api₀ request inputs cb rs ({ api with msgInflight := inflight } : JadeAPI).drain := by
  obtain ⟨handler, last, hwaiting, hawaits⟩ := h.waiting
  have hdrain := JadeAPI.drain_of_empty hwaiting.queue inflight
  refine ⟨h.accepted, ?_, handler, last, hwaiting.settle inflight, ?_⟩
  · rw [hdrain]
    exact h.sent
  · rw [hdrain]
    exact hawaits.of_lists rfl

theorem Closed.settle {rs : List Fields} (h : Closed idgen api₀ request inputs cb rs api)
    (inflight : List Int) :
    Closed idgen api₀ request inputs cb rs
      ({ api with msgInflight := inflight } : JadeAPI).drain := by
  rw [JadeAPI.drain_of_empty h.queue]
  exact ⟨h.queue, h.silent, h.ended⟩

/-- The next line of the script is sent. -/
theorem open_ask (hfresh : FreshIds idgen api₀) (h : Resting idgen api₀ cb api) {rs : List Fields}
    {handler : Handler} {method : String} {params : Fields} (haccepted : AllAccepted rs)
    (hsent : api.sentRequests.map Request.body = (script request inputs).take rs.length)
    (hline : (script request inputs)[rs.length]? = some (method, some (.map params)))
    (hawaits : Awaits (exposedId idgen api₀) inputs api rs handler) :
    Open idgen api₀ request inputs cb rs (api.ask idgen handler method params) := by
  obtain ⟨⟨last, hwaiting⟩, hlists, hbodies⟩ := h.ask hfresh handler method params
  refine ⟨haccepted, ?_, handler, last, hwaiting, hawaits.of_lists hlists⟩
  rw [hbodies, hsent]
  exact take_succ_of_getElem? hline

/-- The caller's callback is called, and nobody is left waiting. -/
theorem closed_forward {handler : Handler} {last : Request} {rs : List Fields}
    {msg rslt : Fields} {api' : JadeAPI} (h : Waiting idgen api₀ cb handler last api)
    (hid : textToInt (msg.value "id").toText = textToInt last.id)
    (hrun : JadeAPI.runHandler idgen msg handler (api.take (textToInt last.id)) =
      (api', some (exposedId idgen api₀, rslt)))
    (houtput : api'.output = api.output) (hqueue : api'.msgQueue = api.msgQueue)
    (hhandlers : api'.responseHandlers = (api.take (textToInt last.id)).responseHandlers)
    (hsent : api.sentRequests.map Request.body = (script request inputs).take rs.length)
    (hends : Ends inputs (exposedId idgen api₀) rs
      (JadeAPI.readdress (exposedId idgen api₀) rslt)) (rounds : ℕ) :
    Closed idgen api₀ request inputs cb rs
      (JadeAPI.callResponseHandler idgen (rounds + 2) msg api) := by
  have hclient : api'.responseHandlers[exposedId idgen api₀]? = some (.client cb) := by
    rw [hhandlers]
    exact h.take.client
  rw [JadeAPI.callResponseHandler_of_forward hid h.handler hrun (exposedId_text idgen api₀) hclient]
  have hrequests : ((api'.take (exposedId idgen api₀)).put
      (.called cb (JadeAPI.readdress (exposedId idgen api₀) rslt))).sentRequests =
        api.sentRequests := by
    simp [JadeAPI.sentRequests, JadeAPI.put, JadeAPI.take, houtput, Output.request]
  refine ⟨hqueue.trans h.queue, ⟨last, ?_, h.ne_zero, ?_⟩, rs, [],
    JadeAPI.readdress (exposedId idgen api₀) rslt, by simp, hends, ?_, ?_⟩
  · rw [hrequests]
    exact h.latest
  · simp [JadeAPI.put, JadeAPI.take, hhandlers]
  · have hquiet : api.output.filterMap Output.call = [] := h.quiet
    simp [JadeAPI.calls, JadeAPI.put, JadeAPI.take, houtput, hquiet, Output.call]
  · rw [hrequests]
    exact hsent

theorem readdress_of_text {id : Int} {msg : Fields} {text : String}
    (h : msg.value "id" = .text text) : JadeAPI.readdress id msg = msg.insert "id" (.int id) := by
  simp only [JadeAPI.readdress, h]

theorem Awaits.length_le {id : Int} {rs : List Fields} {handler : Handler}
    (h : Awaits id inputs api rs handler) : rs.length ≤ 2 * inputs.length := by
  cases h with
  | opening => exact Nat.zero_le _
  | commitment hlt _ _ =>
      simp only [List.length_cons]
      omega
  | signature hlength hlt _ _ _ _ =>
      simp only [List.length_cons, List.length_append]
      omega

section
variable {handler : Handler} {last : Request} {rs : List Fields} {msg : Fields} {rounds : ℕ}

/-- An answer that is no result goes to the caller. -/
theorem closed_refuse (hrs : AllAccepted rs) (hlength : rs.length ≤ 2 * inputs.length)
    (hsent : api.sentRequests.map Request.body = (script request inputs).take (rs.length + 1))
    (h : Waiting idgen api₀ cb handler last api) {text : String}
    (htext : msg.value "id" = .text text)
    (hid : textToInt (msg.value "id").toText = textToInt last.id)
    (hrefused : accepts rs.length msg = false)
    (hrun : JadeAPI.runHandler idgen msg handler (api.take (textToInt last.id)) =
      (api.take (textToInt last.id), some (exposedId idgen api₀, msg))) :
    Closed idgen api₀ request inputs cb (rs ++ [msg])
      (JadeAPI.callResponseHandler idgen (rounds + 2) msg api) := by
  refine closed_forward h hid hrun rfl rfl rfl ?_ ?_ rounds
  · rw [hsent, List.length_append]
    rfl
  · rw [readdress_of_text htext]
    exact .refused hrs hlength hrefused

theorem opening_step (hfresh : FreshIds idgen api₀) (hinputs : inputs ≠ [])
    (hsent : api.sentRequests.map Request.body = (script request inputs).take 1)
    (h : Waiting idgen api₀ cb (.signTxInitial (exposedId idgen api₀) inputs) last api)
    {text : String} (htext : msg.value "id" = .text text)
    (hid : textToInt (msg.value "id").toText = textToInt last.id) :
    Open idgen api₀ request inputs cb [msg]
        (JadeAPI.callResponseHandler idgen (rounds + 2) msg api) ∨
      Closed idgen api₀ request inputs cb [msg]
        (JadeAPI.callResponseHandler idgen (rounds + 2) msg api) := by
  have hempty : AllAccepted [] := by
    intro i r hi
    cases hi
  have hpos : 0 < inputs.length := List.length_pos_iff.mpr hinputs
  cases hok : accepts 0 msg with
  | false =>
      have hcondition : (msg.contains "result" && (msg.value "result").toBool) = false := hok
      refine .inr (closed_refuse hempty (Nat.zero_le _) hsent h htext hid hok ?_)
      simp only [JadeAPI.runHandler, hcondition, Bool.false_eq_true, if_false]
  | true =>
      have hcondition : (msg.contains "result" && (msg.value "result").toBool) = true := hok
      have hrun : JadeAPI.runHandler idgen msg (.signTxInitial (exposedId idgen api₀) inputs)
          (api.take (textToInt last.id)) =
            ((api.take (textToInt last.id)).newList.2.sendTxInput idgen (exposedId idgen api₀) 0
              inputs (api.take (textToInt last.id)).newList.1, none) := by
        simp only [JadeAPI.runHandler, hcondition, if_true]
      left
      rw [JadeAPI.callResponseHandler_of_run hid h.handler hrun, JadeAPI.sendTxInput_eq]
      have hresting : Resting idgen api₀ cb (api.take (textToInt last.id)).newList.2 :=
        h.take.of_eq rfl rfl rfl rfl
      have haccepted : AllAccepted [msg] := hempty.append hok
      have hline : (script request inputs)[[msg].length]? =
          some (txInput (inputs.getD 0 .invalid)) := script_input hpos
      have hawaits : Awaits (exposedId idgen api₀) inputs
          (api.take (textToInt last.id)).newList.2 [msg]
          (.receiveCommitment (exposedId idgen api₀) 0 inputs
            (api.take (textToInt last.id)).newList.1) := by
        refine .commitment hpos ?_ ?_
        · simp [JadeAPI.newList, JadeAPI.take]
        · simp [JadeAPI.newList, JadeAPI.take, JadeAPI.listAt]
      exact open_ask hfresh hresting haccepted hsent hline hawaits

/-- An answer is put into a list: the exchange rests, and the list is longer by one. -/
structure Collected (q : ℕ) (msg : Fields) (api api₁ : JadeAPI) : Prop where
  pointer : q < api₁.lists.length
  listed : api₁.listAt q = api.listAt q ++ [answer msg]
  others : ∀ p, p ≠ q → api₁.listAt p = api.listAt p
  sent : api₁.sentRequests = api.sentRequests

theorem Waiting.collect (h : Waiting idgen api₀ cb handler last api) (msg : Fields) {q : ℕ}
    (hq : q < api.lists.length) :
    Resting idgen api₀ cb ((api.take (textToInt last.id)).appendTo q (answer msg)) ∧
      Collected q msg api ((api.take (textToInt last.id)).appendTo q (answer msg)) := by
  refine ⟨h.take.of_eq rfl rfl rfl rfl, ?_, ?_, ?_, rfl⟩
  · simpa [JadeAPI.appendTo, JadeAPI.take] using hq
  · exact JadeAPI.listAt_appendTo (api.take _) q _ hq
  · intro p hp
    exact JadeAPI.listAt_appendTo_of_ne (api.take _) _ hp

/-- The list holds what was answered so far. -/
theorem Collected.map_answer {q : ℕ} {api₁ : JadeAPI} {answered : List Fields}
    (h : Collected q msg api api₁) (hlist : api.listAt q = answered.map answer) :
    api₁.listAt q = (answered ++ [msg]).map answer := by
  rw [h.listed, hlist, List.map_append]
  rfl

/-- All commitments are in: the first signature is asked for. -/
theorem commitments_complete (hfresh : FreshIds idgen api₀) {opened : Fields}
    {commitments : List Fields} {p : ℕ} (hresting : Resting idgen api₀ cb api)
    (haccepted : AllAccepted (opened :: commitments)) (hpointer : p < api.lists.length)
    (hlist : api.listAt p = commitments.map answer)
    (hsent : api.sentRequests.map Request.body =
      (script request inputs).take (opened :: commitments).length)
    (hall : commitments.length = inputs.length) (hpos : 0 < inputs.length) :
    Open idgen api₀ request inputs cb (opened :: commitments)
      (api.newList.2.sendTxSignatureRequest idgen (exposedId idgen api₀) 0 inputs p
        api.newList.1) := by
  rw [JadeAPI.sendTxSignatureRequest_eq]
  have hline : (script request inputs)[(opened :: commitments).length]? =
      some (getSignature (inputs.getD 0 .invalid)) := by
    have hindex : (opened :: commitments).length = inputs.length + 1 + 0 := by
      rw [List.length_cons, hall]
    rw [hindex]
    exact script_signature hpos
  have hold : api.newList.2.listAt p = api.listAt p := by
    simp only [JadeAPI.newList, JadeAPI.listAt, List.getD]
    rw [List.getElem?_append_left hpointer]
  have hawaits : Awaits (exposedId idgen api₀) inputs api.newList.2
      (opened :: (commitments ++ []))
      (.receiveSignature (exposedId idgen api₀) ([] : List Fields).length inputs p
        api.newList.1) := by
    refine .signature hall hpos ?_ ?_ (hold.trans hlist) ?_
    · simp [JadeAPI.newList]
    · exact Nat.ne_of_gt hpointer
    · simp [JadeAPI.newList, JadeAPI.listAt]
  rw [List.append_nil] at hawaits
  have hresting' : Resting idgen api₀ cb api.newList.2 := hresting.of_eq rfl rfl rfl rfl
  exact open_ask hfresh hresting' haccepted hsent hline hawaits

theorem commitment_step (hfresh : FreshIds idgen api₀) {opened : Fields}
    {commitments : List Fields} {p : ℕ} (hrs : AllAccepted (opened :: commitments))
    (hsent : api.sentRequests.map Request.body =
      (script request inputs).take ((opened :: commitments).length + 1))
    (hlt : commitments.length < inputs.length) (hp : p < api.lists.length)
    (hlist : api.listAt p = commitments.map answer)
    (h : Waiting idgen api₀ cb
      (.receiveCommitment (exposedId idgen api₀) commitments.length inputs p) last api)
    {text : String} (htext : msg.value "id" = .text text)
    (hid : textToInt (msg.value "id").toText = textToInt last.id) :
    Open idgen api₀ request inputs cb (opened :: commitments ++ [msg])
        (JadeAPI.callResponseHandler idgen (rounds + 2) msg api) ∨
      Closed idgen api₀ request inputs cb (opened :: commitments ++ [msg])
        (JadeAPI.callResponseHandler idgen (rounds + 2) msg api) := by
  have haccepts : accepts (opened :: commitments).length msg = msg.contains "result" := by
    simp [accepts]
  cases hok : msg.contains "result" with
  | false =>
      have hlength : (opened :: commitments).length ≤ 2 * inputs.length := by
        simp only [List.length_cons]
        omega
      refine .inr (closed_refuse hrs hlength hsent h htext hid (haccepts.trans hok) ?_)
      simp only [JadeAPI.runHandler, hok, Bool.false_eq_true, if_false]
  | true =>
      left
      have haccepted := hrs.append (haccepts.trans hok)
      obtain ⟨hresting, hcollected⟩ := h.collect msg hp
      obtain ⟨api₁, hapi₁⟩ : ∃ api₁, api₁ =
          (api.take (textToInt last.id)).appendTo p (answer msg) := ⟨_, rfl⟩
      rw [← hapi₁] at hresting hcollected
      have hnext := hcollected.map_answer hlist
      have hrequests : (opened :: commitments ++ [msg]).length = commitments.length + 1 + 1 := by
        simp
      have hsent₁ : api₁.sentRequests.map Request.body =
          (script request inputs).take (opened :: commitments ++ [msg]).length := by
        rw [hrequests, hcollected.sent]
        exact hsent
      have hcount : (api₁.listAt p).length = (commitments ++ [msg]).length := by
        rw [hnext, List.length_map]
      by_cases hmore : (commitments ++ [msg]).length < inputs.length
      · rw [JadeAPI.callResponseHandler_of_run hid h.handler
          (JadeAPI.runHandler_commitment_next hok (by rw [← hapi₁, hcount]; exact hmore)),
          ← hapi₁, JadeAPI.sendTxInput_eq]
        have hline : (script request inputs)[(opened :: commitments ++ [msg]).length]? =
            some (txInput (inputs.getD (commitments.length + 1) .invalid)) := by
          rw [hrequests]
          exact script_input (by simpa using hmore)
        have hawaits : Awaits (exposedId idgen api₀) inputs api₁ (opened :: (commitments ++ [msg]))
            (.receiveCommitment (exposedId idgen api₀) (commitments ++ [msg]).length inputs p) :=
          .commitment hmore hcollected.pointer hnext
        rw [List.length_append] at hawaits
        exact open_ask hfresh hresting haccepted hsent₁ hline hawaits
      · have hall : (commitments ++ [msg]).length = inputs.length := by
          simp only [List.length_append, List.length_singleton] at hmore ⊢
          omega
        rw [JadeAPI.callResponseHandler_of_run hid h.handler
          (JadeAPI.runHandler_commitment_last hok (by rw [← hapi₁, hcount]; exact hmore)),
          ← hapi₁]
        exact commitments_complete hfresh hresting haccepted hcollected.pointer hnext hsent₁ hall
          (Nat.zero_lt_of_lt hlt)

/-- All signatures are in: the caller is handed the result. -/
theorem signatures_complete {opened : Fields} {commitments signatures : List Fields} {p q : ℕ}
    {api₁ : JadeAPI}
    (hapi₁ : api₁ = (api.take (textToInt last.id)).appendTo q (answer msg))
    (haccepted : AllAccepted (opened :: (commitments ++ signatures)))
    (hsent : api.sentRequests.map Request.body =
      (script request inputs).take (opened :: (commitments ++ signatures)).length)
    (hcommitments : commitments.length = inputs.length)
    (hsignatures : signatures.length = inputs.length)
    (hlistp : api₁.listAt p = commitments.map answer)
    (hlistq : api₁.listAt q = signatures.map answer) {index : ℕ}
    (h : Waiting idgen api₀ cb
      (.receiveSignature (exposedId idgen api₀) index inputs p q) last api)
    (hid : textToInt (msg.value "id").toText = textToInt last.id)
    (hok : msg.contains "result" = true) :
    Closed idgen api₀ request inputs cb (opened :: (commitments ++ signatures))
      (JadeAPI.callResponseHandler idgen (rounds + 2) msg api) := by
  have hfull : ¬ (((api.take (textToInt last.id)).appendTo q (answer msg)).listAt q).length <
      inputs.length := by
    rw [← hapi₁, hlistq, List.length_map, hsignatures]
    exact Nat.lt_irrefl _
  have hrun := JadeAPI.runHandler_signature_last idgen (exposedId idgen api₀) index p hok hfull
  rw [← hapi₁, hlistp, hlistq] at hrun
  have hfinal : JadeAPI.readdress (exposedId idgen api₀)
      (signedResult (exposedId idgen api₀) commitments signatures) =
        signedResult (exposedId idgen api₀) commitments signatures := by
    simp [JadeAPI.readdress, signedResult, Fields.value]
  unfold signedResult at hfinal
  refine closed_forward h hid hrun (by rw [hapi₁]; rfl) (by rw [hapi₁]; rfl)
    (by rw [hapi₁]; rfl) hsent ?_ rounds
  rw [hfinal]
  exact .completed haccepted hcommitments hsignatures

theorem signature_step (hfresh : FreshIds idgen api₀) {opened : Fields}
    {commitments signatures : List Fields} {p q : ℕ}
    (hrs : AllAccepted (opened :: (commitments ++ signatures)))
    (hsent : api.sentRequests.map Request.body =
      (script request inputs).take ((opened :: (commitments ++ signatures)).length + 1))
    (hall : commitments.length = inputs.length) (hlt : signatures.length < inputs.length)
    (hq : q < api.lists.length) (hne : q ≠ p) (hlistp : api.listAt p = commitments.map answer)
    (hlistq : api.listAt q = signatures.map answer)
    (h : Waiting idgen api₀ cb
      (.receiveSignature (exposedId idgen api₀) signatures.length inputs p q) last api)
    {text : String} (htext : msg.value "id" = .text text)
    (hid : textToInt (msg.value "id").toText = textToInt last.id) :
    Open idgen api₀ request inputs cb (opened :: (commitments ++ signatures) ++ [msg])
        (JadeAPI.callResponseHandler idgen (rounds + 2) msg api) ∨
      Closed idgen api₀ request inputs cb (opened :: (commitments ++ signatures) ++ [msg])
        (JadeAPI.callResponseHandler idgen (rounds + 2) msg api) := by
  have haccepts : accepts (opened :: (commitments ++ signatures)).length msg =
      msg.contains "result" := by
    simp [accepts]
  cases hok : msg.contains "result" with
  | false =>
      have hlength : (opened :: (commitments ++ signatures)).length ≤ 2 * inputs.length := by
        simp only [List.length_cons, List.length_append]
        omega
      refine .inr (closed_refuse hrs hlength hsent h htext hid (haccepts.trans hok) ?_)
      simp only [JadeAPI.runHandler, hok, Bool.false_eq_true, if_false]
  | true =>
      have haccepted := hrs.append (haccepts.trans hok)
      have hsplit : opened :: (commitments ++ signatures) ++ [msg] =
          opened :: (commitments ++ (signatures ++ [msg])) := by simp
      obtain ⟨hresting, hcollected⟩ := h.collect msg hq
      obtain ⟨api₁, hapi₁⟩ : ∃ api₁, api₁ =
          (api.take (textToInt last.id)).appendTo q (answer msg) := ⟨_, rfl⟩
      rw [← hapi₁] at hresting hcollected
      have hnextp : api₁.listAt p = commitments.map answer :=
        (hcollected.others p hne.symm).trans hlistp
      have hnextq := hcollected.map_answer hlistq
      have hsent₁ : api.sentRequests.map Request.body =
          (script request inputs).take (opened :: (commitments ++ signatures) ++ [msg]).length := by
        rw [List.length_append]
        exact hsent
      have hcount : (api₁.listAt q).length = (signatures ++ [msg]).length := by
        rw [hnextq, List.length_map]
      by_cases hmore : (signatures ++ [msg]).length < inputs.length
      · left
        rw [JadeAPI.callResponseHandler_of_run hid h.handler
          (JadeAPI.runHandler_signature_next hok (by rw [← hapi₁, hcount]; exact hmore)),
          ← hapi₁, JadeAPI.sendTxSignatureRequest_eq]
        have hline : (script request inputs)[(opened :: (commitments ++ signatures) ++
            [msg]).length]? =
              some (getSignature (inputs.getD (signatures.length + 1) .invalid)) := by
          have hrequests : (opened :: (commitments ++ signatures) ++ [msg]).length =
              inputs.length + 1 + (signatures.length + 1) := by
            simp [hall]
            omega
          rw [hrequests]
          exact script_signature (by simpa using hmore)
        have hawaits : Awaits (exposedId idgen api₀) inputs api₁
            (opened :: (commitments ++ (signatures ++ [msg])))
            (.receiveSignature (exposedId idgen api₀) (signatures ++ [msg]).length inputs p q) :=
          .signature hall hmore hcollected.pointer hne hnextp hnextq
        rw [List.length_append, ← hsplit] at hawaits
        exact open_ask hfresh hresting haccepted (hcollected.sent ▸ hsent₁) hline hawaits
      · right
        have hsigned : (signatures ++ [msg]).length = inputs.length := by
          simp only [List.length_append, List.length_singleton] at hmore ⊢
          omega
        rw [hsplit] at haccepted hsent₁ ⊢
        exact signatures_complete hapi₁ haccepted hsent₁ hall hsigned hnextp hnextq h hid hok

/-- An answer to an open exchange moves it on, or closes it. -/
theorem Open.step (hfresh : FreshIds idgen api₀) (hinputs : inputs ≠ [])
    (h : Open idgen api₀ request inputs cb rs api) (hmsg : api.answersLast msg = true)
    (hhttp : JadeAPI.wantsHttpRequest msg = false) :
    Open idgen api₀ request inputs cb (rs ++ [msg]) (api.processResponseMessage idgen msg) ∨
      Closed idgen api₀ request inputs cb (rs ++ [msg]) (api.processResponseMessage idgen msg) := by
  obtain ⟨handler, last, hwaiting, hawaits⟩ := h.waiting
  obtain ⟨_, text, -, htext, -⟩ := JadeAPI.answersLast_spec hmsg
  obtain ⟨hid, hprocess⟩ :=
    JadeAPI.processResponseMessage_of_answer idgen hmsg hwaiting.latest
      hwaiting.ne_zero hhttp
  obtain ⟨rounds, hrounds⟩ : ∃ rounds, api.responseHandlers.size = rounds + 1 := by
    apply Nat.exists_eq_succ_of_ne_zero
    intro hsize
    have hclient := hwaiting.client
    rw [ExtTreeMap.eq_empty_iff_size_eq_zero.mpr hsize] at hclient
    simp at hclient
  have hstep : Open idgen api₀ request inputs cb (rs ++ [msg])
        (JadeAPI.callResponseHandler idgen (rounds + 2) msg api) ∨
      Closed idgen api₀ request inputs cb (rs ++ [msg])
        (JadeAPI.callResponseHandler idgen (rounds + 2) msg api) := by
    cases hawaits with
    | opening => exact opening_step hfresh hinputs h.sent hwaiting htext hid
    | commitment hlt hp hlist =>
        exact commitment_step hfresh h.accepted h.sent hlt hp hlist hwaiting htext hid
    | signature hall hlt hq hne hlistp hlistq =>
        exact signature_step hfresh h.accepted h.sent hall hlt hq hne hlistp hlistq hwaiting
          htext hid
  rw [hprocess, hrounds]
  exact hstep.imp (fun h => h.settle _) (fun h => h.settle _)

/-- A closed exchange ignores what still comes. -/
theorem Closed.step (h : Closed idgen api₀ request inputs cb rs api)
    (hmsg : api.answersLast msg = true) (hhttp : JadeAPI.wantsHttpRequest msg = false) :
    Closed idgen api₀ request inputs cb (rs ++ [msg]) (api.processResponseMessage idgen msg) := by
  obtain ⟨last, hlast, hne, hnone⟩ := h.silent
  obtain ⟨answered, rest, final, hsplit, hends, hcalls, hsent⟩ := h.ended
  obtain ⟨hid, hprocess⟩ :=
    JadeAPI.processResponseMessage_of_answer idgen hmsg hlast hne hhttp
  rw [hprocess, JadeAPI.callResponseHandler_of_none hid hnone]
  have htaken : Closed idgen api₀ request inputs cb (rs ++ [msg])
      (api.take (textToInt last.id)) := by
    refine ⟨h.queue, ⟨last, hlast, hne, ?_⟩, answered, rest ++ [msg], final, ?_, hends, hcalls,
      hsent⟩
    · simp [JadeAPI.take]
    · rw [hsplit, List.append_assoc]
  exact htaken.settle _

end

theorem JadeAPI.enqueue_of_idle {msg : Request} (hinflight : api.msgInflight = [])
    (hqueue : api.msgQueue = []) : api.enqueue msg = api.send msg := by
  simp [JadeAPI.enqueue, hinflight, hqueue]

/-- The caller's callback is registered, under the exposed id. -/
def exposing (idgen : ℕ → Fin 90000) (cb : ℕ) (api₀ : JadeAPI) : JadeAPI :=
  { api₀ with
    drawn := api₀.drawn + 1
    responseHandlers := api₀.responseHandlers.insert (exposedId idgen api₀) (.client cb) }

theorem resting_exposing (cb : ℕ) (hidle : api₀.Idle) :
    Resting idgen api₀ cb (exposing idgen cb api₀) where
  quiet := by simp [exposing, JadeAPI.calls, hidle.output]
  queue := hidle.queue
  client := by simp [exposing]
  known := by
    intro j hj
    simp only [exposing, ExtTreeMap.contains_insert, Bool.or_eq_true, beq_iff_eq,
      Std.LawfulEqCmp.compare_eq_iff_eq] at hj
    exact hj.imp Eq.symm id
  drawn := Nat.lt_succ_self _

theorem start_eq_ask (hidle : api₀.Idle) (hfresh : FreshIds idgen api₀) :
    request.start idgen inputs cb api₀ =
      (exposedId idgen api₀,
        (exposing idgen cb api₀).ask idgen (.signTxInitial (exposedId idgen api₀) inputs)
          request.method (request.params inputs)) := by
  have hregister : api₀.registerResponseHandler idgen (.client cb) 0 =
      (exposedId idgen api₀, exposing idgen cb api₀) :=
    JadeAPI.registerResponseHandler_of_fresh _ (hfresh.unregistered api₀.drawn (Nat.le_refl _))
  have hnext := JadeAPI.registerResponseHandler_of_fresh
    (.signTxInitial (exposedId idgen api₀) inputs)
    ((resting_exposing cb hidle).unregistered hfresh)
  rw [SignRequest.start_eq, JadeAPI.initiateSigning, hregister, JadeAPI.ask]
  simp only [hnext]
  rw [JadeAPI.enqueue_of_idle]
  · exact hidle.inflight
  · exact hidle.queue

/-- `signTx` and `signLiquidTx` open the exchange, and return the exposed id. -/
theorem open_start (hidle : api₀.Idle) (hfresh : FreshIds idgen api₀) :
    (request.start idgen inputs cb api₀).1 = exposedId idgen api₀ ∧
      Open idgen api₀ request inputs cb [] (request.start idgen inputs cb api₀).2 := by
  have hempty : AllAccepted [] := by
    intro i r hi
    cases hi
  have hsent : (exposing idgen cb api₀).sentRequests.map Request.body =
      (script request inputs).take ([] : List Fields).length := by
    simp [exposing, JadeAPI.sentRequests, hidle.output]
  rw [start_eq_ask hidle hfresh]
  exact ⟨rfl, open_ask hfresh (resting_exposing cb hidle) hempty hsent rfl .opening⟩

/-- After any answers the exchange is open, or closed. -/
theorem exchange_run (hidle : api₀.Idle) (hfresh : FreshIds idgen api₀) (hinputs : inputs ≠ [])
    {rs : List Fields} (hrs : (device idgen).Valid (request.start idgen inputs cb api₀).2 rs)
    (hhttp : ∀ r ∈ rs, JadeAPI.wantsHttpRequest r = false) :
    Open idgen api₀ request inputs cb rs
        ((device idgen).run (request.start idgen inputs cb api₀).2 rs) ∨
      Closed idgen api₀ request inputs cb rs
        ((device idgen).run (request.start idgen inputs cb api₀).2 rs) := by
  refine (device idgen).run_history
    (I := fun rs api => Open idgen api₀ request inputs cb rs api ∨
      Closed idgen api₀ request inputs cb rs api)
    (.inl (open_start hidle hfresh).2) ?_
  intro answered msg rest hsplit h
  have hmsg : ((device idgen).run (request.start idgen inputs cb api₀).2 answered).answersLast
      msg = true := by
    rw [hsplit] at hrs
    exact Reactive.Along.at _ hrs
  have hplain := hhttp msg (by simp [hsplit])
  rcases h with h | h
  · exact h.step hfresh hinputs hmsg hplain
  · exact .inr (h.step hmsg hplain)

end
end GreenWallet.Jade
