import GreenWallet.Dlc.System

/-!
# Failure signals and the retry budget

The failure signals of the client carry an error text but not the order whose
request failed, and their handlers sweep over every operation in the state of
such a request. One failed request therefore fails, or retries, all of them.
What the failure of one order leaves alone, and what the failure of an order
that is no longer tracked changes, depends on who else is in that state.

The retry counts themselves are kept as intended, on every run.
-/
namespace GreenWallet.Dlc
open GreenWallet.Library

namespace Response

/-- The state whose operations the handler of a failure signal sweeps over. -/
def sweeps : Response → Option OperationState
  | .acceptContextFailed _ => some .takerAwaitingAcceptContext
  | .acceptSubmitFailed _ => some .takerSubmittingAccept
  | .signContextFailed _ => some .makerAwaitingSignContext
  | .signSubmitFailed _ => some .makerSubmittingSign
  | _ => none

end Response

/-- The signal tells of a failure, or a retry, of the order. -/
def Signal.tellsFailureOf (k : String) : Signal → Bool
  | .operationFailed orderId _ => orderId = k
  | .operationRetrying orderId _ => orderId = k
  | _ => false

/-- The failure of a request made for one order changes no other operation, nor
its retry count, and no failure or retry of another order is told. -/
def SparesOthers (S : System) (e : SystemEvent) : Prop :=
  ∀ p r X, e = .deliver p r → p.issuer = some X → r.sweeps.isSome = true → ∀ k, k ≠ X →
    (S.next e).operation k = S.operation k ∧ (S.next e).retryCount k = S.retryCount k ∧
      ∀ j signal, .emit j signal ∈ S.emits e → signal.tellsFailureOf k = false

/-- No other tracked operation is in the state that the failure's handler sweeps. -/
def NoneElseSwept (S : System) (e : SystemEvent) : Prop :=
  ∀ p r X a, e = .deliver p r → p.issuer = some X → r.sweeps = some a → ∀ k, k ≠ X →
    S.state k ≠ some a

/-- What a failure signal means for an operation. -/
theorem route_of_sweeps {m : DLCStateMachine} {r : Response} {a : OperationState}
    (h : r.sweeps = some a) (k : String) :
    (∃ error, m.route k (.response r) = .contextFailed a error) ∨
      ∃ awaiting text error, awaiting ≠ a ∧
        m.route k (.response r) = .submitFailed a awaiting text error := by
  cases r with
  | acceptContextFailed error | signContextFailed error =>
      cases h
      exact .inl ⟨error, rfl⟩
  | acceptSubmitFailed error | signSubmitFailed error =>
      cases h
      exact .inr ⟨_, _, error, by decide, rfl⟩
  | _ => cases h

/-- A sweep passes by an operation in another state, and by a missing one. -/
theorem step_of_not_swept {m : DLCStateMachine} {r : Response} {a : OperationState}
    (h : r.sweeps = some a) {k : String} {c : Cell} {maxRetries : Int}
    (hc : c.operation.map OrderOperation.state ≠ some a) :
    c.step maxRetries k (m.route k (.response r)) = (c, []) := by
  obtain ⟨operation, retryCount⟩ := c
  cases operation with
  | none => rcases route_of_sweeps (m := m) h k with ⟨error, hi⟩ | ⟨awaiting, text, error, -, hi⟩ <;>
      simp [Cell.step, hi]
  | some op =>
      have hs : op.state ≠ a := by simpa using hc
      rcases route_of_sweeps (m := m) h k with ⟨error, hi⟩ | ⟨awaiting, text, error, -, hi⟩ <;>
        simp [Cell.step, hi, react, hs]

/-- A sweep moves every operation that is in its state. -/
theorem step_of_swept {m : DLCStateMachine} {r : Response} {a : OperationState}
    (h : r.sweeps = some a) {k : String} {c : Cell} (maxRetries : Int) {op : OrderOperation}
    (hc : c.operation = some op) (hop : op.state = a) :
    ∃ op', (c.step maxRetries k (m.route k (.response r))).1.operation = some op' ∧
      op'.state ≠ a := by
  have hawaiting : a ≠ .error := by
    intro hsame
    subst hsame
    cases r <;> cases h
  rcases route_of_sweeps (m := m) h k with ⟨error, hi⟩ | ⟨awaiting, text, error, hne, hi⟩
  · refine ⟨op.enter .error error, by simp [Cell.step, hi, hc, react, hop], ?_⟩
    exact hawaiting.symm
  · simp only [Cell.step, hi, hc, react, hop, if_true]
    split_ifs with hlt
    · exact ⟨_, rfl, hne⟩
    · exact ⟨_, rfl, hawaiting.symm⟩

/-- A failure or retry is told under the id of the operation it is told for. -/
def Effect.TellsOwn : Effect → Prop
  | .emit j signal => ∀ k, signal.tellsFailureOf k = true → j = k
  | .call .. => True

theorem react_tellsOwn (maxRetries : Int) (j : String) (op : OrderOperation)
    (retryCount : Option Int) (i : Input) :
    ∀ x ∈ (react maxRetries j op retryCount i).effects, x.TellsOwn := by
  cases i with
  | poll => cases hs : op.state <;> simp [react, hs, Effect.TellsOwn]
  | contextFailed awaiting error | submitFailed submitting awaiting text error 
  | submitAccept | signSubmitted | detail =>
      simp only [react]
      split_ifs <;> simp [announce, Effect.TellsOwn, Signal.tellsFailureOf]
  | _ => simp [react, announce, Effect.TellsOwn, Signal.tellsFailureOf]

theorem step_tellsOwn (maxRetries : Int) (j : String) (c : Cell) (i : Input) :
    ∀ x ∈ (c.step maxRetries j i).2, x.TellsOwn := by
  cases i with
  | track order =>
      simp only [Cell.step, Cell.track]
      split_ifs <;> simp [announce, Effect.TellsOwn, Signal.tellsFailureOf]
  | untrack => simp [Cell.step]
  | _ =>
      cases hop : c.operation with
      | none => simp [Cell.step, hop]
      | some op => simpa only [Cell.step, hop] using react_tellsOwn maxRetries j op _ _

namespace System
variable {S : System}

theorem tells_operation (hS : S.machine.WellKeyed) {e : SystemEvent} {j k : String}
    {signal : Signal} (hmem : .emit j signal ∈ S.emits e)
    (htells : signal.tellsFailureOf k = true) : j = k :=
  step_tellsOwn _ _ _ _ _ ((mem_emits hS).mp hmem) k htells

theorem sparesOthers_iff (hS : S.machine.WellKeyed) (e : SystemEvent) :
    SparesOthers S e ↔ NoneElseSwept S e := by
  constructor
  · rintro h p r X a rfl hissuer hsweeps k hk hstate
    obtain ⟨op, hop, hopstate⟩ := Option.map_eq_some_iff.mp hstate
    obtain ⟨op', hop', hne⟩ := step_of_swept (m := S.machine) (k := k) (c := S.machine.cell k)
      hsweeps S.machine.maxRetries hop hopstate
    have hsame := (h p r X rfl hissuer (by rw [hsweeps]; rfl) k hk).1
    rw [next_operation hS, input_deliver, hop', hop] at hsame
    cases hsame
    exact hne hopstate
  · rintro h p r X rfl hissuer hsweeps k hk
    obtain ⟨a, ha⟩ := Option.isSome_iff_exists.mp hsweeps
    have hstep : (S.machine.cell k).step S.machine.maxRetries k (S.machine.route k (.response r)) =
        (S.machine.cell k, []) := step_of_not_swept ha (h p r X a rfl hissuer ha k hk)
    refine ⟨?_, ?_, ?_⟩
    · rw [next_operation hS, input_deliver, hstep]
      rfl
    · rw [next_retryCount hS, input_deliver, hstep]
      rfl
    · intro j signal hmem
      by_contra htells
      rw [Bool.not_eq_false] at htells
      obtain rfl := tells_operation hS hmem htells
      rw [mem_emits hS, input_deliver, Effect.operation, hstep] at hmem
      cases hmem

end System

/-- The takers of two orders wait for their contexts, and the first request fails. -/
def oneOfTwoFails : List SystemEvent :=
  [.call (.trackOrder { orderId := "A", pendingMatchAccept := true }),
    .call (.trackOrder { orderId := "B", pendingMatchAccept := true }),
    .deliver { issuer := some "A", request := DLCCoordinatorClient.getAcceptContext "A" "" }
      (.acceptContextFailed "timeout")]

/-- **Failure isolation.** The failures of a run are isolated exactly if each finds
no other order in the state of its request. -/
theorem sparesOthers_along_iff {es : List SystemEvent} (hes : negotiation.Valid start es) :
    negotiation.Along SparesOthers start es ↔ negotiation.Along NoneElseSwept start es :=
  Reactive.along_congr (I := fun S => S.machine.WellKeyed)
    (fun _ e hS _ => System.next_wellKeyed e hS) (fun _ e hS _ => System.sparesOthers_iff hS e)
    start_wellKeyed hes

theorem sparesOthers_along_iff_oneOfTwoFails :
    negotiation.Along SparesOthers start oneOfTwoFails ↔
      negotiation.Along NoneElseSwept start oneOfTwoFails :=
  sparesOthers_along_iff (by decide)

theorem not_sparesOthers_oneOfTwoFails :
    negotiation.Valid start oneOfTwoFails ∧ ¬ negotiation.Along SparesOthers start oneOfTwoFails := by
  refine ⟨by decide, ?_⟩
  intro h
  have hfails := Reactive.Along.at (oneOfTwoFails.take 2) h
  have hsame := (hfails _ _ "A" rfl rfl rfl "B" (by decide)).1
  exact absurd hsame (by decide)

end GreenWallet.Dlc
