import GreenWallet.Dlc.System

/-!
# What a poll tick asks for

A poll tick drives the documented flow: it should ask the coordinator about every
operation that waits for something other than the local wallet or an answer to a
submission. It asks for three of the thirteen states. An operation in another
one, such as a maker's order from the moment it is tracked, is never asked about.
-/
namespace GreenWallet.Dlc
open GreenWallet.Library

/-- The states in which an operation is done, failed, or waits for the wallet. -/
def OperationState.restsWithoutPolling : OperationState → Bool
  | .takerSigningAccept | .makerSigningSign | .dlcSettled | .error => true
  | _ => false

/-- The states a poll tick does nothing about. -/
def OperationState.isUnpolled : OperationState → Bool
  | .idle | .takerSubmittingAccept | .takerAcceptSubmitted | .makerSubmittingSign
  | .makerSignSubmitted | .dlcFunded => true
  | _ => false

/-- `poll_now` asks the coordinator about every operation that needs it. -/
def PollCovers (S : System) : Prop :=
  ∀ k s, S.state k = some s → s.restsWithoutPolling = false → S.outstanding k = 0 →
    ∃ request, .call k request ∈ S.emits (.call .pollTimer)

/-- Every operation in a state that is not polled has a submission outstanding. -/
def NoneForgotten (S : System) : Prop :=
  ∀ k s, S.state k = some s → s.isUnpolled = true → S.outstanding k ≠ 0

/-- A poll tick asks about an operation exactly in the three polled states. -/
theorem poll_calls_iff (maxRetries : Int) {k : String} {c : Cell} {op : OrderOperation}
    (hop : c.operation = some op) :
    (∃ request, .call k request ∈ (c.step maxRetries k .poll).2) ↔
      op.state.restsWithoutPolling = false ∧ op.state.isUnpolled = false := by
  cases hs : op.state <;>
    simp [Cell.step, hop, react, hs, OperationState.restsWithoutPolling, OperationState.isUnpolled]

theorem System.coversAll_iff {S : System} (hS : S.machine.WellKeyed) :
    PollCovers S ↔ NoneForgotten S := by
  have hcalls : ∀ {k op}, S.operation k = some op →
      ((∃ request, .call k request ∈ S.emits (.call .pollTimer)) ↔
        op.state.restsWithoutPolling = false ∧ op.state.isUnpolled = false) := by
    intro k op hop
    rw [← poll_calls_iff (k := k) S.machine.maxRetries (c := S.machine.cell k) hop]
    exact exists_congr fun request => mem_emits hS
  constructor
  · intro h k s hs hunpolled hnone
    obtain ⟨op, hop, rfl⟩ := Option.map_eq_some_iff.mp hs
    have hneeds : op.state.restsWithoutPolling = false := by
      cases hstate : op.state <;> simp [hstate, OperationState.isUnpolled] at hunpolled <;> rfl
    have hpolled := ((hcalls hop).mp (h k op.state hs hneeds hnone)).2
    rw [hunpolled] at hpolled
    cases hpolled
  · intro h k s hs hneeds hnone
    obtain ⟨op, hop, rfl⟩ := Option.map_eq_some_iff.mp hs
    refine (hcalls hop).mpr ⟨hneeds, ?_⟩
    by_contra hunpolled
    rw [Bool.not_eq_false] at hunpolled
    exact h k op.state hs hunpolled hnone

/-- A maker's order, just tracked. -/
def trackedMaker : List SystemEvent :=
  [.call (.trackOrder { orderId := "A", dlcId := "d", isMaker := true })]

/-- **Poll coverage.** Polling covers a state of a run exactly if no operation in it
is forgotten. -/
theorem pollCovers_iff {S : System} (hS : negotiation.Reachable start S) :
    PollCovers S ↔ NoneForgotten S := by
  obtain ⟨es, -, rfl⟩ := hS
  exact System.coversAll_iff (wellKeyed_run es)

theorem pollCovers_iff_trackedMaker :
    PollCovers (negotiation.run start trackedMaker) ↔
      NoneForgotten (negotiation.run start trackedMaker) :=
  pollCovers_iff ⟨trackedMaker, by decide, rfl⟩

theorem not_pollCovers_trackedMaker :
    negotiation.Reachable start (negotiation.run start trackedMaker) ∧
      ¬ PollCovers (negotiation.run start trackedMaker) := by
  refine ⟨⟨trackedMaker, by decide, rfl⟩, ?_⟩
  intro h
  obtain ⟨request, hmem⟩ := h "A" .idle (by decide) rfl (by decide)
  have hnone : (negotiation.run start trackedMaker).emits (.call .pollTimer) = [] := by decide
  rw [hnone] at hmem
  cases hmem

end GreenWallet.Dlc
