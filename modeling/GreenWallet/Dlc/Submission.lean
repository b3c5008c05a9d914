import GreenWallet.Dlc.System

/-!
# Submissions and the contexts they are made for

Signatures are submitted by two public functions. The taker's reads the accept
context cached in the operation, which every later context replaces; the maker's
reads nothing of the operation but its id. Neither looks at the state, nor at the
submissions that are still unanswered.
-/
namespace GreenWallet.Dlc
open GreenWallet.Library

/-- The accept context an order is left with, from the one it had. -/
def followContext (k : String) (last : Option AcceptContext) (e : SystemEvent) :
    Option AcceptContext :=
  match e.toEvent with
  | some (.trackOrder order) => if order.orderId = k then some {} else last
  | some (.untrackOrder orderId) => if orderId = k then none else last
  | some (.response (.acceptContextReady context)) =>
      if context.orderId = k then last.map fun _ => context else last
  | _ => last

/-- The accept context last delivered for an order since it was tracked, the empty
one before the first. -/
def lastContext (k : String) (es : List SystemEvent) : Option AcceptContext :=
  es.foldl (followContext k) none

/-- What an input leaves of the cached context. -/
theorem step_acceptContext {maxRetries : Int} {k : String} {c : Cell} {i : Input}
    (htrack : ∀ order, i ≠ .track order) (huntrack : i ≠ .untrack)
    (hcontext : ∀ context, i ≠ .acceptContext context) :
    (c.step maxRetries k i).1.operation.map OrderOperation.acceptContext =
      c.operation.map OrderOperation.acceptContext := by
  cases hop : c.operation with
  | none => rw [Cell.step_absent hop htrack huntrack, hop]
  | some op =>
      cases i with
      | track order => exact (htrack order rfl).elim
      | untrack => exact (huntrack rfl).elim
      | acceptContext context => exact (hcontext context rfl).elim
      | submitAccept | signSubmitted | detail | contextFailed | submitFailed =>
          simp only [Cell.step, hop, react]
          split_ifs <;> rfl
      | _ => simp only [Cell.step, hop, react] <;> rfl

theorem System.next_acceptContext {S : System} (hS : S.machine.WellKeyed) (k : String)
    (e : SystemEvent) :
    ((S.next e).operation k).map OrderOperation.acceptContext =
      followContext k ((S.operation k).map OrderOperation.acceptContext) e := by
  rw [System.next_operation hS]
  cases he : e.toEvent with
  | none => simp [System.input, he, followContext]
  | some event =>
      have hi : S.input e k = S.machine.route k event := by simp [System.input, he]
      have haddressed : ∀ {P : Prop} [Decidable P] (i : Input),
          DLCStateMachine.addressed P i = if P then i else .nothing := fun _ => rfl
      have hkept : (∀ order, event ≠ .trackOrder order) → event ≠ .untrackOrder k →
          (∀ context, event ≠ .response (.acceptContextReady context)) →
          ((S.machine.cell k).step S.machine.maxRetries k (S.input e k)).1.operation.map
            OrderOperation.acceptContext = (S.operation k).map OrderOperation.acceptContext := by
        intro htrack huntrack hcontext
        rw [hi]
        exact step_acceptContext (fun order h => htrack order (DLCStateMachine.route_track h).1)
          (fun h => huntrack (DLCStateMachine.route_untrack h))
          (fun context h => hcontext context (DLCStateMachine.route_acceptContext h).1)
      cases event with
      | trackOrder order =>
          simp only [hi, followContext, he, DLCStateMachine.route, haddressed, eq_comm (a := k)]
          split_ifs
          · simp only [Cell.step, Cell.track]
            split_ifs <;> rfl
          · simp
      | untrackOrder orderId =>
          simp only [hi, followContext, he, DLCStateMachine.route, haddressed, eq_comm (a := k)]
          split_ifs
          · rfl
          · simp
      | response response =>
          cases response with
          | acceptContextReady context =>
              simp only [hi, followContext, he, DLCStateMachine.route, haddressed,
                eq_comm (a := k)]
              split_ifs
              · cases hop : S.operation k <;> simp [Cell.step, hop, react]
              · simp
          | _ =>
              rw [followContext, he]
              exact hkept (by simp) (by simp) (by simp)
      | _ =>
          rw [followContext, he]
          exact hkept (by simp) (by simp) (by simp)

theorem lastContext_run (k : String) (es : List SystemEvent) :
    ((negotiation.run start es).operation k).map OrderOperation.acceptContext =
      lastContext k es := by
  refine negotiation.run_history (I := fun es S =>
    (S.operation k).map OrderOperation.acceptContext = lastContext k es)
    (by simp [lastContext, start, System.operation]) ?_
  intro fs e gs _ h
  change ((System.next _ e).operation k).map OrderOperation.acceptContext = _
  rw [System.next_acceptContext (wellKeyed_run fs), h, lastContext, lastContext,
    List.foldl_append]
  rfl

/-- Signatures are submitted under the fingerprint of the context they were made for. -/
def SubmitsWhatWasSigned (es : List SystemEvent) : Prop :=
  ∀ fs context signatures gs, es = fs ++ .takerSigned context signatures :: gs →
    ∀ k orderId body,
      .call k (.acceptMatch orderId body) ∈
          (negotiation.run start fs).emits (.takerSigned context signatures) →
        orderId = context.orderId ∧ body.contextFingerprint = context.contextFingerprint ∧
          body.idempotencyKey =
            "accept:" ++ context.orderId ++ ":" ++ context.contextFingerprint

/-- When signatures come back, the context last delivered for the order is the one
they were made for, or one with its fingerprint. -/
def SignedTheLastContext (es : List SystemEvent) : Prop :=
  ∀ fs context signatures gs, es = fs ++ .takerSigned context signatures :: gs →
    ∀ last, lastContext context.orderId fs = some last → last.orderId.isEmpty = false →
      last.contextFingerprint = context.contextFingerprint

/-- The submission the answer of the wallet leads to. -/
theorem System.takerSigned_calls_iff {S : System} (hS : S.machine.WellKeyed)
    {context : AcceptContext} (signatures : Signatures) {k : String} {request : Request} :
    .call k request ∈ S.emits (.takerSigned context signatures) ↔
      k = context.orderId ∧ ∃ op, S.operation k = some op ∧
        op.acceptContext.orderId.isEmpty = false ∧
        request = DLCCoordinatorClient.submitAccept k op.fundingPubkeyHex
          op.acceptContext.contextFingerprint signatures := by
  rw [mem_emits hS]
  simp only [Effect.operation, input, SystemEvent.toEvent, DLCStateMachine.route,
    DLCStateMachine.addressed]
  by_cases hk : k = context.orderId
  · subst hk
    cases hop : S.operation context.orderId with
    | none => simp [Cell.step, hop]
    | some op =>
        by_cases he : op.acceptContext.orderId = "" <;>
          simp [Cell.step, hop, react, he, announce]
  · simp [hk]

/-- Two context requests are in flight, and the answer to the second replaces the
context of the first while the wallet signs it. -/
def replacedContext : List SystemEvent :=
  let asked : Pending :=
    { issuer := some "A", request := DLCCoordinatorClient.getAcceptContext "A" "" }
  let first : AcceptContext := { orderId := "A", contextFingerprint := "f1" }
  let second : AcceptContext := { orderId := "A", contextFingerprint := "f2" }
  [.call (.trackOrder { orderId := "A", pendingMatchAccept := true }),
    .call .pollTimer,
    .deliver asked (.acceptContextReady first),
    .deliver asked (.acceptContextReady second),
    .takerSigned first {}]

/-- **Accept contexts.** A run submits signatures under the context they sign exactly
if no other context was delivered in the meantime. -/
theorem submitsWhatWasSigned_iff (es : List SystemEvent) :
    SubmitsWhatWasSigned es ↔ SignedTheLastContext es := by
  constructor
  · intro h fs context signatures gs hsplit last hlast hnonempty
    rw [← lastContext_run] at hlast
    obtain ⟨op, hop, rfl⟩ := Option.map_eq_some_iff.mp hlast
    have hcall := (System.takerSigned_calls_iff (wellKeyed_run fs)
      signatures).mpr ⟨rfl, op, hop, hnonempty, rfl⟩
    exact (h fs context signatures gs hsplit _ _ _ hcall).2.1
  · intro h fs context signatures gs hsplit k orderId body hcall
    obtain ⟨rfl, op, hop, hnonempty, hrequest⟩ :=
      (System.takerSigned_calls_iff (wellKeyed_run fs) signatures).mp hcall
    have hlast : lastContext context.orderId fs = some op.acceptContext := by
      rw [← lastContext_run, hop]
      rfl
    have hfingerprint := h fs context signatures gs hsplit _ hlast hnonempty
    cases hrequest
    exact ⟨rfl, hfingerprint, by rw [← hfingerprint]⟩

theorem not_submitsWhatWasSigned_replacedContext :
    negotiation.Valid start replacedContext ∧ ¬ SubmitsWhatWasSigned replacedContext := by
  refine ⟨by decide, ?_⟩
  intro h
  have hsubmitted := h (replacedContext.take 4) _ _ [] rfl "A" "A" _
    (List.mem_cons_of_mem _ List.mem_cons_self)
  exact absurd hsubmitted.2.1 (by decide)

end GreenWallet.Dlc
