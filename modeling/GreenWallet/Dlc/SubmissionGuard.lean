import GreenWallet.Dlc.System

/-!
# One submission at a time

Signatures are to be submitted for an order while it is being signed, once for
every context fetched, so that no two submissions of it are in flight. The
`submit_*` functions leave that to their callers: they take the operation to its
submitting state from whichever state it is in. What they guarantee therefore
depends on when they are called.
-/
namespace GreenWallet.Dlc
open GreenWallet.Library

/-- Submissions are issued in the signing states only. -/
def SubmitsWhileSigning (S : System) (e : SystemEvent) : Prop :=
  (∀ k orderId body, .call k (.acceptMatch orderId body) ∈ S.emits e →
    S.state k = some .takerSigningAccept) ∧
  (∀ k dlcId body, .call k (.sign dlcId body) ∈ S.emits e →
    S.state k = some .makerSigningSign)

/-- Submissions are issued while signing, and at most one of an order is unanswered. -/
def OneSubmissionAtATime (es : List SystemEvent) : Prop :=
  negotiation.Along SubmitsWhileSigning start es ∧
    ∀ fs gs, es = fs ++ gs → ∀ k, (negotiation.run start fs).outstanding k ≤ 1

/-- The state an operation should be in when its signatures are submitted. The
taker's are not submitted without a context. -/
def signingFor (op : OrderOperation) : Input → Option OperationState
  | .submitAccept _ =>
      if op.acceptContext.orderId.isEmpty then none else some .takerSigningAccept
  | .submitSign .. => some .makerSigningSign
  | _ => none

/-- A `submit_*` call finds its operation signing, and no submission unanswered. -/
def CalledInTurn (S : System) (e : SystemEvent) : Prop :=
  ∀ k op signing, S.operation k = some op → signingFor op (S.input e k) = some signing →
    op.state = signing ∧ S.outstanding k = 0

/-- The signing state a submission belongs to. -/
def Request.signing : Request → Option OperationState
  | .acceptMatch .. => some .takerSigningAccept
  | .sign .. => some .makerSigningSign
  | _ => none

def Effect.signing : Effect → Option OperationState
  | .call _ request => request.signing
  | .emit .. => none

theorem Request.signing_isSome (request : Request) :
    request.signing.isSome = request.isSubmission := by
  cases request <;> rfl

theorem Effect.signing_eq (x : Effect) : x.signing = x.submitted.bind Request.signing := by
  cases x with
  | emit k signal => rfl
  | call k request => cases request <;> rfl

theorem submits_signing (k : String) (op : OrderOperation) (i : Input) :
    (submits k op i).bind Request.signing = signingFor op i := by
  cases i with
  | submitAccept signatures =>
      simp only [submits, signingFor]
      split_ifs <;> rfl
  | _ => rfl

theorem step_submissions (maxRetries : Int) (k : String) (c : Cell) (i : Input) :
    (c.step maxRetries k i).2.filterMap Effect.signing =
      (c.operation.bind fun op => signingFor op i).toList := by
  have hfilter := List.filterMap_filterMap (f := Effect.submitted) (g := Request.signing)
    (l := (c.step maxRetries k i).2)
  simp only [funext Effect.signing_eq, ← hfilter, c.step_submits]
  cases c.operation with
  | none => rfl
  | some op =>
      rw [Option.bind_some, Option.bind_some, ← submits_signing k op i]
      cases submits k op i with
      | none => rfl
      | some request => cases hs : request.signing <;> simp [hs]

namespace System
variable {S : System} {e : SystemEvent} {k : String}

theorem call_signing (hS : S.machine.WellKeyed) {request : Request} {signing : OperationState}
    (hrequest : request.signing = some signing) (hcall : .call k request ∈ S.emits e) :
    ∃ op, S.operation k = some op ∧ signingFor op (S.input e k) = some signing := by
  have hmem : signing ∈ ((S.machine.cell k).step S.machine.maxRetries k
      (S.input e k)).2.filterMap Effect.signing :=
    List.mem_filterMap.mpr ⟨_, (mem_emits hS).mp hcall, hrequest⟩
  rw [step_submissions, Option.mem_toList] at hmem
  exact Option.bind_eq_some_iff.mp hmem

theorem exists_call_of_signing (hS : S.machine.WellKeyed) {op : OrderOperation}
    {signing : OperationState} (hop : S.operation k = some op)
    (hsigning : signingFor op (S.input e k) = some signing) :
    ∃ request, .call k request ∈ S.emits e ∧ request.signing = some signing := by
  have hmem : signing ∈ ((S.machine.cell k).step S.machine.maxRetries k
      (S.input e k)).2.filterMap Effect.signing := by
    rw [step_submissions, Option.mem_toList]
    exact Option.bind_eq_some_iff.mpr ⟨op, hop, hsigning⟩
  obtain ⟨x, hx, hxs⟩ := List.mem_filterMap.mp hmem
  rw [← emits_filter hS, List.mem_filter] at hx
  obtain ⟨hx, hk⟩ := hx
  cases x with
  | emit j signal => cases hxs
  | call j request =>
      obtain rfl : j = k := of_decide_eq_true hk
      exact ⟨request, hx, hxs⟩

/-- What a step adds to the unanswered submissions of an order. -/
theorem countP_issued (hS : S.machine.WellKeyed) (e : SystemEvent) (k : String) :
    ((S.emits e).filterMap Effect.issued).countP
        (fun p => p.issuer = some k ∧ p.request.isSubmission = true) =
      ((S.operation k).bind fun op => signingFor op (S.input e k)).toList.length := by
  rw [← cell_operation, ← step_submissions S.machine.maxRetries k, ← emits_filter hS,
    List.filterMap_filter]
  generalize S.emits e = xs
  induction xs with
  | nil => rfl
  | cons x xs ih =>
      cases x with
      | emit j signal =>
          rw [List.filterMap_cons_none rfl, List.filterMap_cons_none (by simp [Effect.signing])]
          exact ih
      | call j request =>
          have hsome := request.signing_isSome
          cases hsigning : request.signing with
          | none => simp_all [Effect.issued, Effect.signing, Effect.operation]
          | some signing =>
              by_cases hj : j = k <;>
                simp_all [Effect.issued, Effect.signing, Effect.operation]

theorem remaining_countP_le (S : System) (e : SystemEvent) (k : String) :
    (S.remaining e).countP (fun p => p.issuer = some k ∧ p.request.isSubmission = true) ≤
      S.outstanding k := by
  cases e with
  | deliver p response => exact List.erase_sublist.countP_le
  | queryDlc dlcId => simp [remaining, outstanding]
  | _ => exact Nat.le_refl _

theorem outstanding_next (hS : S.machine.WellKeyed) (e : SystemEvent) (k : String) :
    (S.next e).outstanding k =
      (S.remaining e).countP (fun p => p.issuer = some k ∧ p.request.isSubmission = true) +
        ((S.operation k).bind fun op => signingFor op (S.input e k)).toList.length := by
  rw [← countP_issued hS, ← List.countP_append]
  rfl

/-- A submission answers no request. -/
theorem remaining_of_signing {op : OrderOperation} {signing : OperationState}
    (h : signingFor op (S.input e k) = some signing) : S.remaining e = S.inFlight := by
  cases e with
  | deliver p response =>
      rw [input_deliver] at h
      cases response <;> simp only [DLCStateMachine.route, DLCStateMachine.addressed] at h <;>
        (try split_ifs at h) <;> cases h
  | queryDlc dlcId => cases h
  | _ => rfl

theorem outstanding_next_of_signing (hS : S.machine.WellKeyed) {op : OrderOperation}
    {signing : OperationState} (hop : S.operation k = some op)
    (h : signingFor op (S.input e k) = some signing) :
    (S.next e).outstanding k = S.outstanding k + 1 := by
  rw [outstanding_next hS, remaining_of_signing h, hop, Option.bind_some, h]
  rfl

/-- Calls in turn keep an order at one unanswered submission. -/
theorem outstanding_le_one (hS : S.machine.WellKeyed) (hone : ∀ k, S.outstanding k ≤ 1)
    (hturn : CalledInTurn S e) (k : String) : (S.next e).outstanding k ≤ 1 := by
  cases hsubmits : (S.operation k).bind fun op => signingFor op (S.input e k) with
  | none =>
      rw [outstanding_next hS, hsubmits]
      exact Nat.le_trans (remaining_countP_le S e k) (hone k)
  | some signing =>
      obtain ⟨op, hop, hsigning⟩ := Option.bind_eq_some_iff.mp hsubmits
      have hnext := outstanding_next_of_signing hS hop hsigning
      have hnone := (hturn k op signing hop hsigning).2
      omega

theorem submitsWhileSigning_of_turn (hS : S.machine.WellKeyed) (hturn : CalledInTurn S e) :
    SubmitsWhileSigning S e := by
  have hstate : ∀ {k request signing}, request.signing = some signing →
      .call k request ∈ S.emits e → S.state k = some signing := by
    intro k request signing hrequest hcall
    obtain ⟨op, hop, hsigning⟩ := call_signing hS hrequest hcall
    rw [state, hop, Option.map_some, (hturn k op signing hop hsigning).1]
  exact ⟨fun k orderId body hcall => hstate rfl hcall, fun k dlcId body hcall => hstate rfl hcall⟩

end System

/-- The wallet calls back twice for the context it was handed once. -/
def answeredTwice : List SystemEvent :=
  let asked : Pending :=
    { issuer := some "A", request := DLCCoordinatorClient.getAcceptContext "A" "" }
  let context : AcceptContext := { orderId := "A", contextFingerprint := "f" }
  [.call (.trackOrder { orderId := "A", pendingMatchAccept := true }),
    .deliver asked (.acceptContextReady context),
    .takerSigned context {},
    .takerSigned context {}]

/-- **Submission guard.** Submissions are made while signing, one at a time, exactly
if the `submit_*` functions are called so. -/
theorem oneSubmissionAtATime_iff (es : List SystemEvent) :
    OneSubmissionAtATime es ↔ negotiation.Along CalledInTurn start es := by
  constructor
  · intro ⟨hguard, hone⟩
    apply Reactive.along_of_at
    intro fs e gs hsplit k op signing hop hsigning
    have hS := wellKeyed_run fs
    have hguard : SubmitsWhileSigning (negotiation.run start fs) e := by
      rw [hsplit] at hguard
      exact Reactive.Along.at _ hguard
    have hstate : (negotiation.run start fs).state k = some signing := by
      obtain ⟨request, hcall, hrequest⟩ := System.exists_call_of_signing hS hop hsigning
      cases request with
      | acceptMatch orderId body =>
          cases hrequest
          exact hguard.1 k orderId body hcall
      | sign dlcId body =>
          cases hrequest
          exact hguard.2 k dlcId body hcall
      | _ => cases hrequest
    refine ⟨by simpa [System.state, hop] using hstate, ?_⟩
    have hnext := hone (fs ++ [e]) gs (by simp [hsplit]) k
    rw [negotiation.run_concat] at hnext
    have hadds := System.outstanding_next_of_signing hS hop hsigning
    change (System.next _ e).outstanding k ≤ 1 at hnext
    omega
  · intro hturn
    constructor
    · apply Reactive.along_of_at
      intro fs e gs hsplit
      rw [hsplit] at hturn
      exact System.submitsWhileSigning_of_turn (wellKeyed_run fs) (Reactive.Along.at _ hturn)
    · intro fs gs hsplit
      rw [hsplit, negotiation.along_append] at hturn
      have hinv : ∀ S e, (S.machine.WellKeyed ∧ ∀ k, S.outstanding k ≤ 1) → CalledInTurn S e →
          (negotiation.next S e).machine.WellKeyed ∧
            ∀ k, (negotiation.next S e).outstanding k ≤ 1 := by
        intro S e hS hturn
        exact ⟨System.next_wellKeyed e hS.1, System.outstanding_le_one hS.1 hS.2 hturn⟩
      have hstart : start.machine.WellKeyed ∧ ∀ k, start.outstanding k ≤ 1 :=
        ⟨start_wellKeyed, fun k => Nat.zero_le 1⟩
      exact (Reactive.run_invariant hinv hstart hturn.1).2

theorem not_oneSubmissionAtATime_answeredTwice :
    negotiation.Valid start answeredTwice ∧ ¬ OneSubmissionAtATime answeredTwice := by
  refine ⟨by decide, ?_⟩
  intro h
  have hone := h.2 answeredTwice [] (by simp) "A"
  exact absurd hone (by decide)

end GreenWallet.Dlc
