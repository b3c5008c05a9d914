import GreenWallet.Jade.Exchange

/-!
# What a signing exchange guarantees

For `signTx` and `signLiquidTx`, whatever the device answers: no host entropy leaves
before every signer commitment is in, the messages follow the script, and the
caller's callback is called once, at the end. An answer may ask for an http request
instead, which the exchange passes back to the device under the method the answer
names, so the statement is about devices that do not; and an answer to the initiating
message goes on only if its result is true.
-/
namespace GreenWallet.Jade
open GreenWallet.Library

/-- The state of the API once the device has given the answers. -/
def exchange (idgen : ℕ → Fin 90000) (api₀ : JadeAPI) (request : SignRequest)
    (inputs : List Variant) (cb : ℕ) (rs : List Fields) : JadeAPI :=
  (device idgen).run (request.start idgen inputs cb api₀).2 rs

structure AntiExfil (idgen : ℕ → Fin 90000) (api₀ : JadeAPI) (request : SignRequest)
    (inputs : List Variant) (cb : ℕ) (rs : List Fields) : Prop where
  /-- A signature is asked for, with its entropy, when all commitments are in. -/
  entropy_last : ∀ m ∈ (exchange idgen api₀ request inputs cb rs).sentRequests,
    m.method = "get_signature" →
      inputs.length < rs.length ∧ AllAccepted (rs.take (inputs.length + 1))
  no_entropy_in_inputs : ∀ m ∈ (exchange idgen api₀ request inputs cb rs).sentRequests,
    m.method = "tx_input" →
      ∃ fields : Fields, m.params = some (.map fields) ∧
        fields.contains "ae_host_entropy" = false
  follows_script :
    (exchange idgen api₀ request inputs cb rs).sentRequests.map Request.body <+:
      script request inputs
  /-- The first answer that does not go on is handed to the caller, once. -/
  refused : ∀ i r, rs[i]? = some r → i ≤ 2 * inputs.length → AllAccepted (rs.take i) →
    accepts i r = false →
      (exchange idgen api₀ request inputs cb rs).calls =
        [(cb, r.insert "id" (.int (request.start idgen inputs cb api₀).1))]
  /-- When every answer goes on, the caller gets the answers input by input, once. -/
  completed : 2 * inputs.length < rs.length → AllAccepted (rs.take (2 * inputs.length + 1)) →
    ∃ commitments signatures : List Fields,
      commitments.length = inputs.length ∧ signatures.length = inputs.length ∧
      (∀ i, i < inputs.length → commitments[i]? = rs[i + 1]? ∧
        signatures[i]? = rs[inputs.length + 1 + i]?) ∧
      (exchange idgen api₀ request inputs cb rs).calls =
        [(cb, signedResult (request.start idgen inputs cb api₀).1 commitments signatures)]
  /-- Until then the caller hears nothing. -/
  pending : rs.length ≤ 2 * inputs.length → AllAccepted rs →
    (exchange idgen api₀ request inputs cb rs).calls = []

section
variable {idgen : ℕ → Fin 90000} {api₀ api : JadeAPI} {request : SignRequest}
variable {inputs : List Variant} {cb : ℕ} {rs : List Fields}

theorem SignRequest.method_ne (request : SignRequest) :
    request.method ≠ "tx_input" ∧ request.method ≠ "get_signature" := by
  cases request <;> exact ⟨by simp [SignRequest.method], by simp [SignRequest.method]⟩

/-- The first half of the script asks for no signature. -/
theorem lt_of_mem_take {k : ℕ} {params : Option Variant}
    (h : ("get_signature", params) ∈ (script request inputs).take k) : inputs.length + 1 < k := by
  by_contra hk
  have hsplit : script request inputs =
      ((request.method, some (.map (request.params inputs))) :: inputs.map txInput) ++
        inputs.map getSignature := rfl
  rw [hsplit, List.take_append_of_le_length (by simp; omega)] at h
  have hmem := List.mem_of_mem_take h
  simp only [List.mem_cons, List.mem_map, Prod.mk.injEq, txInput] at hmem
  rcases hmem with ⟨hmethod, -⟩ | ⟨input, -, hmethod, -⟩
  · exact request.method_ne.2 hmethod.symm
  · exact absurd hmethod (by decide)

theorem no_entropy_of_mem {params : Option Variant}
    (h : ("tx_input", params) ∈ script request inputs) :
    ∃ fields : Fields, params = some (.map fields) ∧
      fields.contains "ae_host_entropy" = false := by
  simp only [script, List.mem_cons, List.mem_append, List.mem_map, Prod.mk.injEq, txInput,
    getSignature] at h
  rcases h with ⟨hmethod, -⟩ | ⟨input, -, -, rfl⟩ | ⟨input, -, hmethod, -⟩
  · exact (request.method_ne.1 hmethod.symm).elim
  · refine ⟨_, rfl, ?_⟩
    rw [Fields.contains, Fields.lookup_remove_self]
    rfl
  · exact absurd hmethod (by decide)

/-- All but the last of the answers that end an exchange went on. -/
theorem Ends.accepted {id : Int} {answered : List Fields} {msg : Fields}
    (h : Ends inputs id answered msg) {k : ℕ} (hk : k < answered.length) :
    AllAccepted (answered.take k) := by
  intro i r hi
  obtain ⟨hik, hir⟩ : i < k ∧ answered[i]? = some r := by
    rw [List.getElem?_take] at hi
    split_ifs at hi with hik
    exact ⟨hik, hi⟩
  cases h with
  | refused hanswered _ _ =>
      rw [List.length_append, List.length_singleton] at hk
      rw [List.getElem?_append_left (by omega)] at hir
      exact hanswered i r hir
  | completed hanswered _ _ => exact hanswered i r hir

theorem AllAccepted.take (h : AllAccepted rs) (k : ℕ) : AllAccepted (rs.take k) := by
  intro i r hi
  rw [List.getElem?_take] at hi
  split_ifs at hi
  exact h i r hi

/-- An exchange ends with the first answer that does not go on, if there is one. -/
theorem Ends.refused_at {id : Int} {answered rest : List Fields} {msg r : Fields} {i : ℕ}
    (h : Ends inputs id answered msg) (hi : (answered ++ rest)[i]? = some r)
    (hlength : i ≤ 2 * inputs.length) (hbefore : AllAccepted ((answered ++ rest).take i))
    (hrefused : accepts i r = false) : msg = r.insert "id" (.int id) := by
  cases h with
  | @refused answered r' hanswered _ hlast =>
      rw [List.append_assoc, List.singleton_append] at hi hbefore
      rcases Nat.lt_trichotomy i answered.length with hlt | rfl | hgt
      · rw [List.getElem?_append_left hlt] at hi
        rw [hanswered i r hi] at hrefused
        cases hrefused
      · have hr : r' = r := by simpa using hi
        rw [hr]
      · have hr' : ((answered ++ r' :: rest).take i)[answered.length]? = some r' := by
          rw [List.getElem?_take, if_pos hgt]
          simp
        rw [hbefore _ _ hr'] at hlast
        cases hlast
  | @completed opened commitments signatures hanswered hcommitments hsignatures =>
      have hlt : i < (opened :: (commitments ++ signatures)).length := by
        simp only [List.length_cons, List.length_append]
        omega
      rw [List.getElem?_append_left hlt] at hi
      rw [hanswered i r hi] at hrefused
      cases hrefused

/-- If the answers all go on, the exchange ends with the last of them. -/
theorem Ends.completed_of {id : Int} {answered rest : List Fields} {msg : Fields}
    (h : Ends inputs id answered msg)
    (hall : AllAccepted ((answered ++ rest).take (2 * inputs.length + 1))) :
    ∃ opened commitments signatures, answered = opened :: (commitments ++ signatures) ∧
      commitments.length = inputs.length ∧ signatures.length = inputs.length ∧
      msg = signedResult id commitments signatures := by
  cases h with
  | @refused answered r hanswered hlength hlast =>
      have hr : ((answered ++ [r] ++ rest).take (2 * inputs.length + 1))[answered.length]? =
          some r := by
        rw [List.getElem?_take, if_pos (by omega)]
        simp
      rw [hall _ _ hr] at hlast
      cases hlast
  | completed hanswered hcommitments hsignatures =>
      exact ⟨_, _, _, rfl, hcommitments, hsignatures, rfl⟩

/-- What the two stages of an exchange say about the messages sent so far. -/
theorem sent_of_exchange (h : Open idgen api₀ request inputs cb rs api ∨
      Closed idgen api₀ request inputs cb rs api) :
    ∃ k, api.sentRequests.map Request.body = (script request inputs).take (k + 1) ∧
      k ≤ rs.length ∧ AllAccepted (rs.take k) := by
  rcases h with h | h
  · exact ⟨rs.length, h.sent, Nat.le_refl _, h.accepted.take _⟩
  · obtain ⟨answered, rest, msg, rfl, hends, -, hsent⟩ := h.ended
    have hpos : 0 < answered.length := by
      cases hends with
      | refused _ _ _ => simp
      | completed _ _ _ => simp
    refine ⟨answered.length - 1, ?_, ?_, ?_⟩
    · rw [hsent, Nat.sub_add_cancel hpos]
    · rw [List.length_append]
      omega
    · rw [List.take_append_of_le_length (by omega)]
      exact hends.accepted (by omega)

/-- The answers of a completed exchange, input by input. -/
theorem getElem?_of_completed {opened : Fields} {commitments signatures rest : List Fields}
    (hcommitments : commitments.length = inputs.length)
    (hsignatures : signatures.length = inputs.length) {i : ℕ} (hi : i < inputs.length) :
    commitments[i]? = (opened :: (commitments ++ signatures) ++ rest)[i + 1]? ∧
      signatures[i]? =
        (opened :: (commitments ++ signatures) ++ rest)[inputs.length + 1 + i]? := by
  have hindex : inputs.length + 1 + i = (commitments.length + i) + 1 := by omega
  rw [hindex, List.cons_append, List.getElem?_cons_succ, List.getElem?_cons_succ,
    List.append_assoc]
  constructor
  · rw [List.getElem?_append_left (by omega)]
  · rw [List.getElem?_append_right (by omega), Nat.add_sub_cancel_left,
      List.getElem?_append_left (by omega)]

end

/-- **Anti-exfil.** If no answer asks for an http request. -/
theorem antiExfil {idgen : ℕ → Fin 90000} {api₀ : JadeAPI} (hidle : api₀.Idle)
    (hfresh : FreshIds idgen api₀) (request : SignRequest) {inputs : List Variant}
    (hinputs : inputs ≠ []) (cb : ℕ) {rs : List Fields}
    (hrs : (device idgen).Valid (request.start idgen inputs cb api₀).2 rs)
    (hhttp : ∀ r ∈ rs, JadeAPI.wantsHttpRequest r = false) :
    AntiExfil idgen api₀ request inputs cb rs := by
  have hrun := exchange_run hidle hfresh hinputs hrs hhttp
  have hid : (request.start idgen inputs cb api₀).1 = exposedId idgen api₀ :=
    (open_start hidle hfresh).1
  obtain ⟨k, hsent, hk, haccepted⟩ := sent_of_exchange hrun
  have hbody : ∀ m ∈ (exchange idgen api₀ request inputs cb rs).sentRequests,
      (m.method, m.params) ∈ (script request inputs).take (k + 1) := by
    intro m hm
    have hmem := List.mem_map_of_mem (f := Request.body) hm
    rwa [exchange, hsent] at hmem
  refine ⟨?_, ?_, ?_, ?_, ?_, ?_⟩
  · intro m hm hmethod
    have hlate := lt_of_mem_take (hmethod ▸ hbody m hm)
    refine ⟨by omega, ?_⟩
    have hfirst := haccepted.take (inputs.length + 1)
    rwa [List.take_take, Nat.min_eq_left (by omega)] at hfirst
  · intro m hm hmethod
    exact no_entropy_of_mem (hmethod ▸ List.mem_of_mem_take (hbody m hm))
  · rw [exchange, hsent]
    exact List.take_prefix _ _
  · intro i r hi hlength hbefore hrefused
    rcases hrun with h | h
    · rw [h.accepted i r hi] at hrefused
      cases hrefused
    · obtain ⟨answered, rest, msg, hsplit, hends, hcalls, -⟩ := h.ended
      rw [hsplit] at hi hbefore
      rw [hid, ← hends.refused_at hi hlength hbefore hrefused]
      exact hcalls
  · intro hlength hall
    rcases hrun with h | h
    · obtain ⟨handler, last, -, hawaits⟩ := h.waiting
      have hle := hawaits.length_le
      omega
    · obtain ⟨answered, rest, msg, hsplit, hends, hcalls, -⟩ := h.ended
      rw [hsplit] at hall
      obtain ⟨opened, commitments, signatures, rfl, hcommitments, hsignatures, rfl⟩ :=
        hends.completed_of hall
      refine ⟨commitments, signatures, hcommitments, hsignatures, ?_, hid ▸ hcalls⟩
      intro i hi
      rw [hsplit]
      exact getElem?_of_completed hcommitments hsignatures hi
  · intro hlength hall
    rcases hrun with h | h
    · obtain ⟨handler, last, hwaiting, -⟩ := h.waiting
      exact hwaiting.quiet
    · obtain ⟨answered, rest, msg, hsplit, hends, -, -⟩ := h.ended
      have hall' := hall.take (2 * inputs.length + 1)
      rw [hsplit] at hall'
      obtain ⟨opened, commitments, signatures, rfl, hcommitments, hsignatures, -⟩ :=
        hends.completed_of hall'
      rw [hsplit] at hlength
      simp only [List.length_append, List.length_cons] at hlength
      omega

def oneInput : List Variant :=
  [.map [("path", .list []), ("ae_host_entropy", .bytes [7]), ("ae_host_commitment", .bytes [8])]]

/-- The device goes along with an exchange about one input. -/
def cooperative : List Fields :=
  [[("id", .text "10001"), ("result", .bool true)],
    [("id", .text "10002"), ("result", .bytes [1])],
    [("id", .text "10003"), ("result", .bytes [2])]]

theorem antiExfil_cooperative :
    AntiExfil counting {} (.tx "mainnet" [] []) oneInput 0 cooperative :=
  antiExfil ⟨rfl, rfl, rfl⟩ freshIds_counting (.tx "mainnet" [] []) (by simp [oneInput]) 0
    (by decide) (by decide)

/-- The initiating message is answered by a request for an http request. -/
def askingHttp : List Fields :=
  [[("id", .text "10001"),
    ("result", .map [("http_request", .map [("on-reply", .text "sign_more")])])]]

/-- The initiating message is answered by a result that is false. -/
def declining : List Fields := [[("id", .text "10001"), ("result", .bool false)]]

/-- An answer that asks for an http request is followed by a message that is not in
the script, and a false result ends the exchange although it is a result. -/
theorem not_script_askingHttp_declining :
    ((device counting).Valid
        ((SignRequest.tx "mainnet" [] []).start counting oneInput 0 {}).2 askingHttp ∧
      ¬ (exchange counting {} (.tx "mainnet" [] []) oneInput 0
          askingHttp).sentRequests.map Request.body <+: script (.tx "mainnet" [] []) oneInput) ∧
    ((device counting).Valid
        ((SignRequest.tx "mainnet" [] []).start counting oneInput 0 {}).2 declining ∧
      (∀ r ∈ declining, r.contains "result" = true) ∧
      (exchange counting {} (.tx "mainnet" [] []) oneInput 0 declining).calls =
        [(0, [("id", .int 10000), ("result", .bool false)])]) := by
  refine ⟨⟨by decide, ?_⟩, by decide, by decide, rfl⟩
  intro h
  have hmethods := h.map Prod.fst
  exact absurd hmethods (by decide)

end GreenWallet.Jade
