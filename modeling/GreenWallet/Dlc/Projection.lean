import GreenWallet.Dlc.Operation

/-!
# Handlers act on operations one by one

The faithful handlers refine the product of the per-operation machines: on a
well keyed machine, `handle` moves the cell of every key by `Cell.step` on the
routed input, and the effects it has for a key are those of that step. Handlers
with one addressee are followed write by write; the failure handlers and the
poll loop are sweeps, whose rounds act on the operation of their key only.
-/
namespace GreenWallet.Dlc
open Std (ExtTreeMap)
open GreenWallet.Library

/-- The cell and the effects an outcome shows under a key. -/
def Outcome.view (o : Outcome) (k : String) : Cell × List Effect :=
  (o.machine.cell k, o.effects.filter fun e => e.operation = k)

/-- From `o₀`, only the cell under `k` was rewritten and only its effects added. -/
structure ActsOn (o₀ : Outcome) (k : String) (c : Cell) (es : List Effect) (o : Outcome) :
    Prop where
  cell_eq : ∀ k', o.machine.cell k' = if k' = k then c else o₀.machine.cell k'
  effects_eq : o.effects = o₀.effects ++ es
  own : ∀ e ∈ es, e.operation = k
  maxRetries_eq : o.machine.maxRetries = o₀.machine.maxRetries

namespace ActsOn
variable {o₀ o : Outcome} {k : String} {c : Cell} {es : List Effect}

theorem start (o₀ : Outcome) (k : String) : ActsOn o₀ k (o₀.machine.cell k) [] o₀ where
  cell_eq k' := by
    split
    · next h => rw [h]
    · rfl
  effects_eq := by simp
  own := by simp
  maxRetries_eq := rfl

theorem emit (h : ActsOn o₀ k c es o) (signal : Signal) :
    ActsOn o₀ k c (es ++ [.emit k signal]) (o.emit k signal) where
  cell_eq := h.cell_eq
  effects_eq := by simp [Outcome.emit, h.effects_eq]
  own e he := by
    rcases List.mem_append.mp he with he | he
    · exact h.own e he
    · rw [List.mem_singleton.mp he]
      rfl
  maxRetries_eq := h.maxRetries_eq

theorem call (h : ActsOn o₀ k c es o) (request : Request) :
    ActsOn o₀ k c (es ++ [.call k request]) (o.call k request) where
  cell_eq := h.cell_eq
  effects_eq := by simp [Outcome.call, h.effects_eq]
  own e he := by
    rcases List.mem_append.mp he with he | he
    · exact h.own e he
    · rw [List.mem_singleton.mp he]
      rfl
  maxRetries_eq := h.maxRetries_eq

theorem storeOperation (h : ActsOn o₀ k c es o) (op : OrderOperation) :
    ActsOn o₀ k { c with operation := some op } es (o.storeOperation k op) where
  cell_eq k' := by
    have hk := h.cell_eq k'
    simp only [DLCStateMachine.cell, Outcome.storeOperation, ExtTreeMap.getElem?_insert,
      Std.LawfulEqCmp.compare_eq_iff_eq] at hk ⊢
    by_cases hkk : k = k'
    · subst hkk
      simp only [if_true] at hk ⊢
      rw [← hk]
    · simpa [hkk, Ne.symm hkk] using hk
  effects_eq := h.effects_eq
  own := h.own
  maxRetries_eq := h.maxRetries_eq

theorem storeRetryCount (h : ActsOn o₀ k c es o) (count : Int) :
    ActsOn o₀ k { c with retryCount := some count } es (o.storeRetryCount k count) where
  cell_eq k' := by
    have hk := h.cell_eq k'
    simp only [DLCStateMachine.cell, Outcome.storeRetryCount, ExtTreeMap.getElem?_insert,
      Std.LawfulEqCmp.compare_eq_iff_eq] at hk ⊢
    by_cases hkk : k = k'
    · subst hkk
      simp only [if_true] at hk ⊢
      rw [← hk]
    · simpa [hkk, Ne.symm hkk] using hk
  effects_eq := h.effects_eq
  own := h.own
  maxRetries_eq := h.maxRetries_eq

theorem operation_eq (h : ActsOn o₀ k c es o) : o.machine.operations[k]? = c.operation := by
  have hk := h.cell_eq k
  rw [if_pos rfl] at hk
  exact congrArg Cell.operation hk

theorem setOperationState (h : ActsOn o₀ k c es o) {op : OrderOperation}
    (hop : c.operation = some op) (state : OperationState) (status : String) :
    ActsOn o₀ k { c with operation := some (op.enter state status) }
      (es ++ [announce k state status])
      (DLCStateMachine.setOperationState k state status o) := by
  have ho : o.machine.getOperation k = some op := h.operation_eq.trans hop
  simp only [DLCStateMachine.setOperationState, ho]
  exact (h.storeOperation _).emit _

/-- Seen from every key: the addressee takes the step, the others take none. -/
theorem view (h : ActsOn o₀ k c es o) (h₀ : o₀.effects = []) (k' : String) :
    o.view k' =
      if k' = k then (c, es) else (o₀.machine.cell k', []) := by
  rw [Outcome.view, h.cell_eq k', h.effects_eq, h₀, List.nil_append]
  by_cases hk : k' = k
  · subst hk
    have hall : es.filter (fun e => e.operation = k') = es :=
      List.filter_eq_self.mpr fun e he => by simp [h.own e he]
    simp [hall]
  · have hnone : es.filter (fun e => e.operation = k') = [] := by
      apply List.filter_eq_nil_iff.mpr
      intro e he
      simp [h.own e he, Ne.symm hk]
    simp [hk, hnone]

theorem wellKeyed (h : ActsOn o₀ k c es o) (h₀ : o₀.machine.WellKeyed)
    (hc : ∀ op, c.operation = some op → op.orderId = k) : o.machine.WellKeyed := by
  intro k' op hop
  have hk := congrArg Cell.operation (h.cell_eq k')
  by_cases hkk : k' = k
  · subst hkk
    rw [if_pos rfl] at hk
    exact hc op (hk.symm.trans hop)
  · rw [if_neg hkk] at hk
    exact h₀ k' op (hk.symm.trans hop)

end ActsOn

namespace Outcome
variable {o : Outcome}

@[simp] theorem emit_machine (k : String) (signal : Signal) :
    (o.emit k signal).machine = o.machine := rfl

@[simp] theorem call_machine (k : String) (request : Request) :
    (o.call k request).machine = o.machine := rfl

@[simp] theorem storeOperation_maxRetries (k : String) (op : OrderOperation) :
    (o.storeOperation k op).machine.maxRetries = o.machine.maxRetries := rfl

@[simp] theorem storeRetryCount_maxRetries (k : String) (count : Int) :
    (o.storeRetryCount k count).machine.maxRetries = o.machine.maxRetries := rfl

@[simp] theorem setOperationState_maxRetries (k : String) (state : OperationState)
    (status : String) :
    (DLCStateMachine.setOperationState k state status o).machine.maxRetries =
      o.machine.maxRetries := by
  simp only [DLCStateMachine.setOperationState]
  cases o.machine.getOperation k <;> rfl

end Outcome

namespace DLCStateMachine

theorem findByDlcId_spec {m : DLCStateMachine} {dlcId k : String} {op : OrderOperation}
    (h : m.findByDlcId dlcId = some (k, op)) :
    m.operations[k]? = some op ∧ op.dlcId = dlcId := by
  have hmem := List.mem_of_find?_eq_some h
  have hdlc := List.find?_some h
  exact ⟨ExtTreeMap.mem_toList_iff_getElem?_eq_some.mp hmem, by simpa using hdlc⟩

theorem target_spec {m : DLCStateMachine} {dlcId k : String} (h : m.target dlcId = some k) :
    ∃ op, m.findByDlcId dlcId = some (k, op) ∧ m.operations[k]? = some op ∧
      op.dlcId = dlcId := by
  obtain ⟨⟨k', op⟩, hfind, rfl⟩ := Option.map_eq_some_iff.mp h
  exact ⟨op, hfind, findByDlcId_spec hfind⟩

theorem target_eq_none {m : DLCStateMachine} {dlcId : String}
    (h : m.findByDlcId dlcId = none) : m.target dlcId = none := by
  rw [target, h]
  rfl

/-- The round a sweep makes for one key. -/
def round (body : String → OrderOperation → Outcome → Outcome) (o : Outcome) (k : String) :
    Outcome :=
  match o.machine.operations[k]? with
  | none => o
  | some op => body k op o

/-- A loop body that reacts, in the round of every key, to one and the same input. -/
structure SweepsAs (body : String → OrderOperation → Outcome → Outcome) (i : Input) : Prop where
  absent : ∀ (maxRetries : Int) (k : String) (c : Cell), c.operation = none →
    c.step maxRetries k i = (c, [])
  present : ∀ (o : Outcome) (k : String) (op : OrderOperation),
    (o.machine.cell k).operation = some op → op.orderId = k →
    ActsOn o k ((o.machine.cell k).step o.machine.maxRetries k i).1
      ((o.machine.cell k).step o.machine.maxRetries k i).2 (body k op o)

namespace SweepsAs
variable {body : String → OrderOperation → Outcome → Outcome} {i : Input}

theorem round_acts (S : SweepsAs body i) {o : Outcome} (ho : o.machine.WellKeyed) (k : String) :
    ActsOn o k ((o.machine.cell k).step o.machine.maxRetries k i).1
      ((o.machine.cell k).step o.machine.maxRetries k i).2 (round body o k) := by
  cases hop : o.machine.operations[k]? with
  | none =>
      rw [S.absent _ k _ hop]
      simpa only [round, hop] using ActsOn.start o k
  | some op =>
      have h := S.present o k op hop (ho k op hop)
      simpa only [round, hop] using h

end SweepsAs

/-- A step leaves an operation under its own id, if a tracked order is its own. -/
theorem step_wellKeyed {maxRetries : Int} {k : String} {c : Cell} {i : Input}
    (hc : ∀ op, c.operation = some op → op.orderId = k)
    (hi : ∀ order, i = .track order → order.orderId = k) (op : OrderOperation)
    (h : (c.step maxRetries k i).1.operation = some op) : op.orderId = k := by
  cases i with
  | track order =>
      have hk := hi order rfl
      simp only [Cell.step, Cell.track] at h
      split_ifs at h <;> cases h <;> exact hk
  | untrack => cases h
  | _ =>
      cases hop : c.operation with
      | none => simp [Cell.step, hop] at h
      | some op₀ =>
          have hk := hc op₀ hop
          simp only [Cell.step, hop, react, Option.some.injEq] at h
          (try split_ifs at h) <;> subst h <;> exact hk

namespace SweepsAs
variable {body : String → OrderOperation → Outcome → Outcome} {i : Input}

/-- The rounds of a sweep are local to the cell of their key. -/
theorem localBody (S : SweepsAs body i) (hi : ∀ order, i ≠ .track order) (maxRetries : Int) :
    Keyed.LocalBody (fun o : Outcome => o.machine.cell) Outcome.effects
      (fun o => o.machine.WellKeyed ∧ o.machine.maxRetries = maxRetries) (round body)
      (fun k c => (c.step maxRetries k i).1) (fun k c => (c.step maxRetries k i).2) where
  view_self o k ho := by
    rw [(S.round_acts ho.1 k).cell_eq, if_pos rfl, ho.2]
  view_other o k k' ho hk := by
    rw [(S.round_acts ho.1 k).cell_eq, if_neg hk]
  log_eq o k ho := by
    rw [(S.round_acts ho.1 k).effects_eq, ho.2]
  good o k ho := by
    have h := S.round_acts ho.1 k
    refine ⟨h.wellKeyed ho.1 ?_, h.maxRetries_eq.trans ho.2⟩
    exact fun op hop => step_wellKeyed (fun op₀ h₀ => ho.1 k op₀ h₀)
      (fun order h₀ => (hi order h₀).elim) op hop

theorem step_own (S : SweepsAs body i) {o : Outcome} (ho : o.machine.WellKeyed) (k : String) :
    ∀ e ∈ ((o.machine.cell k).step o.machine.maxRetries k i).2, e.operation = k :=
  (S.round_acts ho k).own

theorem sweep_view (S : SweepsAs body i) (hi : ∀ order, i ≠ .track order)
    {m : DLCStateMachine} (hm : m.WellKeyed) (k : String) :
    (m.sweep body).view k = (m.cell k).step m.maxRetries k i := by
  have L := S.localBody hi m.maxRetries
  have hgood : m.WellKeyed ∧ m.maxRetries = m.maxRetries := ⟨hm, rfl⟩
  have hnodup : m.operations.keys.Nodup :=
    m.operations.distinct_keys.imp fun h heq => h (by rw [heq]; exact Std.ReflCmp.compare_self)
  have hcell : (m.sweep body).machine.cell k = _ :=
    L.foldl_view hnodup (s := { machine := m }) hgood k
  have hlog : (m.sweep body).effects = _ := L.foldl_log hnodup (s := { machine := m }) hgood
  rw [Outcome.view, hcell, hlog, List.nil_append,
    Keyed.filter_flatMap Effect.operation _ (fun k => S.step_own (o := { machine := m }) hm k)
      hnodup]
  by_cases hk : k ∈ m.operations.keys
  · rw [if_pos hk, if_pos hk]
  · have hnone : (m.cell k).operation = none :=
      ExtTreeMap.getElem?_eq_none fun h => hk (ExtTreeMap.mem_keys.mpr h)
    rw [if_neg hk, if_neg hk, S.absent _ k _ hnone]

end SweepsAs

theorem failAwaiting_sweeps (awaiting : OperationState) (error : String) :
    SweepsAs (failAwaiting awaiting error) (.contextFailed awaiting error) where
  absent maxRetries k c hc := Cell.step_absent hc (by simp) (by simp)
  present o k op hop hk := by
    subst hk
    simp only [Cell.step, hop, react, failAwaiting]
    split_ifs with hs
    · exact ((ActsOn.start o op.orderId).storeOperation _).emit _
    · simpa only [← hop] using ActsOn.start o op.orderId

theorem retrySubmitting_sweeps (submitting awaiting : OperationState) (text error : String) :
    SweepsAs (retrySubmitting submitting awaiting text error)
      (.submitFailed submitting awaiting text error) where
  absent maxRetries k c hc := Cell.step_absent hc (by simp) (by simp)
  present o k op hop hk := by
    subst hk
    simp only [Cell.step, hop, react, retrySubmitting]
    have hcount : o.machine.retryCounts[op.orderId]? = (o.machine.cell op.orderId).retryCount := rfl
    rw [hcount]
    split_ifs with hs hlt
    · have h := ((ActsOn.start o op.orderId).storeRetryCount
        ((o.machine.cell op.orderId).retryCount.getD 0 + 1)).setOperationState hop awaiting
          (retryText text ((o.machine.cell op.orderId).retryCount.getD 0 + 1))
      exact h.emit _
    · exact (((ActsOn.start o op.orderId).storeRetryCount _).storeOperation _).emit _
    · simpa only [← hop] using ActsOn.start o op.orderId

theorem pollOperation_sweeps : SweepsAs pollOperation .poll where
  absent maxRetries k c hc := Cell.step_absent hc (by simp) (by simp)
  present o k op hop hk := by
    subst hk
    have h := ActsOn.start o op.orderId
    have hsame : ({ operation := some op, retryCount := (o.machine.cell op.orderId).retryCount } :
        Cell) = o.machine.cell op.orderId := by rw [← hop]
    simp only [Cell.step, hop, react, pollOperation, hsame]
    cases hs : op.state with
    | takerAwaitingAcceptContext => simpa [advanceTakerOperation, hs] using h.call _
    | makerAwaitingSignContext => simpa [advanceMakerOperation, hs] using h.call _
    | dlcSignedAwaitingFunding => exact h.call _
    | _ => exact h

/-- What a handler with one addressee leaves, seen from every key. -/
theorem view_of_acts {m : DLCStateMachine} {o : Outcome} {k : String} {i : Input}
    (h : ActsOn { machine := m } k ((m.cell k).step m.maxRetries k i).1
      ((m.cell k).step m.maxRetries k i).2 o) (k' : String) :
    o.view k' =
      (m.cell k').step m.maxRetries k' (addressed (k' = k) i) := by
  rw [h.view rfl k']
  by_cases hk : k' = k
  · subst hk
    simp [addressed]
  · simp [hk, addressed]

/-- An answer about a DLC that no operation carries is dropped. -/
theorem view_of_no_target {m : DLCStateMachine} {dlcId : String}
    (h : m.findByDlcId dlcId = none) (i : Input) (k' : String) :
    (m.cell k', ([] : List Effect)) =
      (m.cell k').step m.maxRetries k' (addressed (m.target dlcId = some k') i) := by
  simp [target_eq_none h, addressed]

/-- A call about an order that is not tracked is dropped. -/
theorem view_of_untracked {m : DLCStateMachine} {orderId : String}
    (h : m.getOperation orderId = none) {i : Input} (ht : ∀ order, i ≠ .track order)
    (hu : i ≠ .untrack) (k' : String) :
    (m.cell k', ([] : List Effect)) =
      (m.cell k').step m.maxRetries k' (addressed (k' = orderId) i) := by
  by_cases hk : k' = orderId
  · subst hk
    have hc : (m.cell k').operation = none := h
    simp only [addressed, if_true, Cell.step_absent hc ht hu]
  · simp [hk, addressed]

/-- The handler with the addressee `k` that makes the step `i` of its operation. -/
theorem view_of_target {m : DLCStateMachine} {o : Outcome} {dlcId k : String} {i : Input}
    (hk : m.target dlcId = some k)
    (h : ActsOn { machine := m } k ((m.cell k).step m.maxRetries k i).1
      ((m.cell k).step m.maxRetries k i).2 o) (k' : String) :
    o.view k' =
      (m.cell k').step m.maxRetries k' (addressed (m.target dlcId = some k') i) := by
  rw [view_of_acts h k', hk]
  simp only [addressed, Option.some.injEq, eq_comm]

theorem submitTakerAcceptSignatures_view (m : DLCStateMachine) (orderId : String)
    (signatures : Signatures) (k : String) :
    (m.submitTakerAcceptSignatures orderId signatures).view k =
      (m.cell k).step m.maxRetries k (addressed (k = orderId) (.submitAccept signatures)) := by
  cases hop : m.getOperation orderId with
  | none =>
      simp only [submitTakerAcceptSignatures, hop]
      exact view_of_untracked hop (by simp) (by simp) k
  | some op =>
      have hc : (m.cell orderId).operation = some op := hop
      have h := ActsOn.start { machine := m } orderId
      refine view_of_acts ?_ k
      simp only [submitTakerAcceptSignatures, hop, Cell.step, hc, react]
      split_ifs with he
      · simpa only [← hc] using h
      · exact (h.setOperationState hc _ _).call _

theorem submitMakerSignSignatures_view {m : DLCStateMachine} (hm : m.WellKeyed) (dlcId : String)
    (signatures : Signatures) (k : String) :
    (m.submitMakerSignSignatures dlcId signatures).view k =
      (m.cell k).step m.maxRetries k
        (addressed (m.target dlcId = some k) (.submitSign dlcId signatures)) := by
  cases hfind : m.findByDlcId dlcId with
  | none =>
      simp only [submitMakerSignSignatures, hfind]
      exact view_of_no_target hfind _ k
  | some entry =>
      obtain ⟨j, op⟩ := entry
      have hc : (m.cell j).operation = some op := (findByDlcId_spec hfind).1
      have hj : op.orderId = j := hm j op hc
      subst hj
      have h := ActsOn.start { machine := m } op.orderId
      refine view_of_target (by rw [target, hfind]; rfl) ?_ k
      simp only [submitMakerSignSignatures, hfind, Cell.step, hc, react]
      exact (h.setOperationState hc _ _).call _

theorem onAcceptContextReady_view (m : DLCStateMachine) (context : AcceptContext) (k : String) :
    (m.onAcceptContextReady context).view k =
      (m.cell k).step m.maxRetries k (addressed (k = context.orderId) (.acceptContext context)) := by
  cases hop : m.getOperation context.orderId with
  | none =>
      simp only [onAcceptContextReady, hop]
      exact view_of_untracked hop (by simp) (by simp) k
  | some op =>
      have hc : (m.cell context.orderId).operation = some op := hop
      have h := ActsOn.start { machine := m } context.orderId
      refine view_of_acts ?_ k
      simp only [onAcceptContextReady, hop, Cell.step, hc, react]
      exact ((h.storeOperation _).setOperationState rfl _ _).emit _

theorem onAcceptSubmitted_view (m : DLCStateMachine) (order : Order) (k : String) :
    (m.onAcceptSubmitted order).view k =
      (m.cell k).step m.maxRetries k (addressed (k = order.orderId) .acceptSubmitted) := by
  cases hop : m.getOperation order.orderId with
  | none =>
      simp only [onAcceptSubmitted, hop]
      exact view_of_untracked hop (by simp) (by simp) k
  | some op =>
      have hc : (m.cell order.orderId).operation = some op := hop
      have h := ActsOn.start { machine := m } order.orderId
      refine view_of_acts ?_ k
      simp only [onAcceptSubmitted, hop, Cell.step, hc, react]
      exact (h.setOperationState hc _ _).emit _

theorem onSignContextReady_view {m : DLCStateMachine} (hm : m.WellKeyed) (context : SignContext)
    (k : String) :
    (m.onSignContextReady context).view k =
      (m.cell k).step m.maxRetries k
        (addressed (m.target context.dlcId = some k) (.signContext context)) := by
  cases hfind : m.findByDlcId context.dlcId with
  | none =>
      simp only [onSignContextReady, hfind]
      exact view_of_no_target hfind _ k
  | some entry =>
      obtain ⟨j, op⟩ := entry
      have hc : (m.cell j).operation = some op := (findByDlcId_spec hfind).1
      have hj : op.orderId = j := hm j op hc
      subst hj
      have h := ActsOn.start { machine := m } op.orderId
      refine view_of_target (by rw [target, hfind]; rfl) ?_ k
      simp only [onSignContextReady, hfind, Cell.step, hc, react]
      exact ((h.storeOperation _).setOperationState rfl _ _).emit _

theorem onSignSubmitted_view {m : DLCStateMachine} (hm : m.WellKeyed) (response : SignResponse)
    (k : String) :
    (m.onSignSubmitted response).view k =
      (m.cell k).step m.maxRetries k
        (addressed (m.target response.dlcId = some k) (.signSubmitted response)) := by
  cases hfind : m.findByDlcId response.dlcId with
  | none =>
      simp only [onSignSubmitted, hfind]
      exact view_of_no_target hfind _ k
  | some entry =>
      obtain ⟨j, op⟩ := entry
      have hc : (m.cell j).operation = some op := (findByDlcId_spec hfind).1
      have hj : op.orderId = j := hm j op hc
      subst hj
      have h := ((ActsOn.start { machine := m } op.orderId).setOperationState hc
        .makerSignSubmitted "Sign submitted successfully").emit (.makerSignCompleted response.dlcId)
      refine view_of_target (by rw [target, hfind]; rfl) ?_ k
      simp only [onSignSubmitted, hfind, Cell.step, hc, react]
      split_ifs with hb
      · have h' := (h.setOperationState rfl .dlcFunded
          ("DLC funded: " ++ response.fundingTxid)).emit
            (.dlcFunded response.dlcId response.fundingTxid)
        simpa [OrderOperation.enter] using h'
      · exact h

theorem onDlcReady_view {m : DLCStateMachine} (hm : m.WellKeyed) (detail : DLCDetail)
    (k : String) :
    (m.onDlcReady detail).view k =
      (m.cell k).step m.maxRetries k
        (addressed (m.target detail.dlcId = some k) (.detail detail)) := by
  cases hfind : m.findByDlcId detail.dlcId with
  | none =>
      simp only [onDlcReady, hfind]
      exact view_of_no_target hfind _ k
  | some entry =>
      obtain ⟨j, op⟩ := entry
      have hc : (m.cell j).operation = some op := (findByDlcId_spec hfind).1
      have hj : op.orderId = j := hm j op hc
      subst hj
      have h := ActsOn.start { machine := m } op.orderId
      refine view_of_target (by rw [target, hfind]; rfl) ?_ k
      simp only [onDlcReady, hfind, Cell.step, hc, react]
      split_ifs with hs hf ht
      · exact h.setOperationState hc _ _
      · exact (h.setOperationState hc _ _).emit _
      · exact (h.setOperationState hc _ _).emit _
      · simpa only [← hc] using h

theorem trackOrder_view (m : DLCStateMachine) (order : Order) (k : String) :
    (m.trackOrder order).view k =
      (m.cell k).step m.maxRetries k (addressed (k = order.orderId) (.track order)) := by
  have h := (ActsOn.start { machine := m } order.orderId).storeOperation (trackedOperation order)
  refine view_of_acts ?_ k
  cases hp : order.pendingMatchAccept with
  | false => simpa [trackOrder, Cell.step, Cell.track, hp] using h
  | true =>
      have h' := h.setOperationState rfl .takerAwaitingAcceptContext "Fetching accept context"
      have hrole : (trackedOperation order).matchRole = "taker" := by simp [trackedOperation, hp]
      simp only [trackOrder, Cell.step, Cell.track, hp, hrole, beq_self_eq_true, Bool.and_self,
        if_true, getOperation, h'.operation_eq]
      simp only [advanceTakerOperation, OrderOperation.enter_state, ne_eq, not_true, if_false]
      exact h'.call (DLCCoordinatorClient.getAcceptContext order.orderId "")

theorem untrackOrder_view (m : DLCStateMachine) (orderId k : String) :
    (m.untrackOrder orderId).view k =
      (m.cell k).step m.maxRetries k (addressed (k = orderId) .untrack) := by
  by_cases hk : k = orderId
  · subst hk
    simp [Outcome.view, untrackOrder, cell, addressed, Cell.step]
  · have hne : ¬ orderId = k := Ne.symm hk
    simp [Outcome.view, untrackOrder, cell, addressed, hk, hne, ExtTreeMap.getElem?_erase]

/-- **Projection.** On a well keyed machine a handler does to every operation
what the operation's own machine does on the routed input, effects included. -/
theorem handle_view {m : DLCStateMachine} (hm : m.WellKeyed) (e : Event) (k : String) :
    (m.handle e).view k = (m.cell k).step m.maxRetries k (m.route k e) := by
  cases e with
  | trackOrder order => exact trackOrder_view m order k
  | untrackOrder orderId => exact untrackOrder_view m orderId k
  | submitTakerAcceptSignatures orderId signatures =>
      exact submitTakerAcceptSignatures_view m orderId signatures k
  | submitMakerSignSignatures dlcId signatures =>
      exact submitMakerSignSignatures_view hm dlcId signatures k
  | pollTimer => exact pollOperation_sweeps.sweep_view (by simp) hm k
  | response response =>
      cases response with
      | acceptContextReady context => exact onAcceptContextReady_view m context k
      | acceptContextFailed error =>
          exact (failAwaiting_sweeps _ error).sweep_view (by simp) hm k
      | acceptSubmitted order => exact onAcceptSubmitted_view m order k
      | acceptSubmitFailed error =>
          exact (retrySubmitting_sweeps _ _ _ error).sweep_view (by simp) hm k
      | signContextReady context => exact onSignContextReady_view hm context k
      | signContextFailed error =>
          exact (failAwaiting_sweeps _ error).sweep_view (by simp) hm k
      | signSubmitted response => exact onSignSubmitted_view hm response k
      | signSubmitFailed error =>
          exact (retrySubmitting_sweeps _ _ _ error).sweep_view (by simp) hm k
      | dlcReady detail => exact onDlcReady_view hm detail k
      | dlcFailed error => simp [Outcome.view, handle, onResponse, onDlcFailed, route]
  | setPollingIntervalMs interval =>
      simp only [handle, setPollingIntervalMs, route, Cell.step_nothing]
      split_ifs <;> rfl
  | setMaxRetries maxRetries => simp [Outcome.view, handle, setMaxRetries, route, cell]
  | startPolling => simp [Outcome.view, handle, startPolling, route, cell]
  | stopPolling => simp [Outcome.view, handle, stopPolling, route, cell]

theorem handle_cell {m : DLCStateMachine} (hm : m.WellKeyed) (e : Event) (k : String) :
    (m.handle e).machine.cell k = ((m.cell k).step m.maxRetries k (m.route k e)).1 :=
  congrArg Prod.fst (handle_view hm e k)

theorem route_untrack {m : DLCStateMachine} {e : Event} {k : String}
    (h : m.route k e = .untrack) : e = .untrackOrder k := by
  cases e with
  | untrackOrder orderId => rw [(addressed_eq h nofun).1]
  | trackOrder _ | submitTakerAcceptSignatures _ _ | submitMakerSignSignatures _ _ =>
      cases (addressed_eq h nofun).2
  | response response =>
      cases response with
      | acceptContextReady _ | acceptSubmitted _ | signContextReady _ | signSubmitted _
        | dlcReady _ => cases (addressed_eq h nofun).2
      | _ => cases h
  | _ => cases h

theorem route_acceptContext {m : DLCStateMachine} {e : Event} {k : String}
    {context : AcceptContext} (h : m.route k e = .acceptContext context) :
    e = .response (.acceptContextReady context) ∧ context.orderId = k := by
  cases e with
  | response response =>
      cases response with
      | acceptContextReady delivered =>
          obtain ⟨hk, hinput⟩ := addressed_eq h nofun
          cases hinput
          exact ⟨rfl, hk.symm⟩
      | acceptSubmitted _ | signContextReady _ | signSubmitted _ | dlcReady _ =>
          cases (addressed_eq h nofun).2
      | _ => cases h
  | trackOrder _ | untrackOrder _ | submitTakerAcceptSignatures _ _
    | submitMakerSignSignatures _ _ => cases (addressed_eq h nofun).2
  | _ => cases h

/-- Only a success signal of the client is heard as an answer. -/
theorem route_isAnswer {m : DLCStateMachine} {e : Event} {k : String}
    (h : (m.route k e).isAnswer = true) : ∃ r, e = .response r ∧ r.isSuccess = true := by
  cases e with
  | response response => cases response <;> first | exact ⟨_, rfl, rfl⟩ | cases h
  | _ =>
      simp only [route, addressed] at h
      first | (split_ifs at h <;> cases h) | cases h

/-- A success signal is heard as an answer, or not heard. -/
theorem route_success {m : DLCStateMachine} {r : Response} (k : String)
    (h : r.isSuccess = true) :
    (m.route k (.response r)).isAnswer = true ∨ m.route k (.response r) = .nothing := by
  cases r with
  | acceptContextReady context | acceptSubmitted order | signContextReady context
  | signSubmitted response | dlcReady detail =>
      simp only [route, addressed]
      split_ifs
      · exact .inl rfl
      · exact .inr rfl
  | _ => simp [Response.isSuccess] at h

/-- The failure sweeps look for the two states of their request. -/
theorem route_contextFailed {m : DLCStateMachine} {e : Event} {k error : String}
    {awaiting : OperationState} (h : m.route k e = .contextFailed awaiting error) :
    awaiting = .takerAwaitingAcceptContext ∨ awaiting = .makerAwaitingSignContext := by
  cases e with
  | response response =>
      cases response with
      | acceptContextFailed _ =>
          cases h
          exact .inl rfl
      | signContextFailed _ =>
          cases h
          exact .inr rfl
      | acceptContextReady _ | acceptSubmitted _ | signContextReady _ | signSubmitted _
        | dlcReady _ => cases (addressed_eq h nofun).2
      | acceptSubmitFailed _ | signSubmitFailed _ | dlcFailed _ => cases h
  | trackOrder _ | untrackOrder _ | submitTakerAcceptSignatures _ _
    | submitMakerSignSignatures _ _ => cases (addressed_eq h nofun).2
  | _ => cases h

theorem route_submitFailed {m : DLCStateMachine} {e : Event} {k text error : String}
    {submitting awaiting : OperationState}
    (h : m.route k e = .submitFailed submitting awaiting text error) :
    (submitting = .takerSubmittingAccept ∧ awaiting = .takerAwaitingAcceptContext) ∨
      (submitting = .makerSubmittingSign ∧ awaiting = .makerAwaitingSignContext) := by
  cases e with
  | response response =>
      cases response with
      | acceptSubmitFailed _ =>
          cases h
          exact .inl ⟨rfl, rfl⟩
      | signSubmitFailed _ =>
          cases h
          exact .inr ⟨rfl, rfl⟩
      | acceptContextReady _ | acceptSubmitted _ | signContextReady _ | signSubmitted _
        | dlcReady _ => cases (addressed_eq h nofun).2
      | acceptContextFailed _ | signContextFailed _ | dlcFailed _ => cases h
  | trackOrder _ | untrackOrder _ | submitTakerAcceptSignatures _ _
    | submitMakerSignSignatures _ _ => cases (addressed_eq h nofun).2
  | _ => cases h

theorem handle_wellKeyed {m : DLCStateMachine} (hm : m.WellKeyed) (e : Event) :
    (m.handle e).machine.WellKeyed := by
  intro k op hop
  have hcell := congrArg Cell.operation (handle_cell hm e k)
  exact step_wellKeyed (fun op₀ h₀ => hm k op₀ h₀) (fun order h => (route_track h).2) op
    (hcell.symm.trans hop)

theorem sweep_maxRetries (m : DLCStateMachine) {body : String → OrderOperation → Outcome → Outcome}
    (hbody : ∀ k op o, (body k op o).machine.maxRetries = o.machine.maxRetries) :
    (m.sweep body).machine.maxRetries = m.maxRetries := by
  have hfold : ∀ (ks : List String) (o : Outcome),
      (ks.foldl (round body) o).machine.maxRetries = o.machine.maxRetries := by
    intro ks
    induction ks with
    | nil => exact fun _ => rfl
    | cons k ks ih =>
        intro o
        rw [List.foldl_cons, ih, round]
        cases o.machine.operations[k]? with
        | none => rfl
        | some op => exact hbody k op o
  exact hfold _ { machine := m }

theorem failAwaiting_maxRetries (awaiting : OperationState) (error k : String)
    (op : OrderOperation) (o : Outcome) :
    (failAwaiting awaiting error k op o).machine.maxRetries = o.machine.maxRetries := by
  simp only [failAwaiting]
  split_ifs <;> rfl

theorem retrySubmitting_maxRetries (submitting awaiting : OperationState) (text error k : String)
    (op : OrderOperation) (o : Outcome) :
    (retrySubmitting submitting awaiting text error k op o).machine.maxRetries =
      o.machine.maxRetries := by
  simp only [retrySubmitting]
  split_ifs <;> simp

theorem pollOperation_maxRetries (k : String) (op : OrderOperation) (o : Outcome) :
    (pollOperation k op o).machine.maxRetries = o.machine.maxRetries := by
  simp only [pollOperation, advanceTakerOperation, advanceMakerOperation]
  cases op.state <;> simp

/-- Only `set_max_retries` changes the bound. -/
theorem handle_maxRetries (m : DLCStateMachine) {e : Event} (he : ∀ n, e ≠ .setMaxRetries n) :
    (m.handle e).machine.maxRetries = m.maxRetries := by
  cases e with
  | setMaxRetries n => exact (he n rfl).elim
  | setPollingIntervalMs interval =>
      simp only [handle, setPollingIntervalMs]
      split_ifs <;> rfl
  | startPolling | stopPolling | untrackOrder orderId => rfl
  | trackOrder order =>
      simp only [handle, trackOrder]
      split_ifs
      · simp only [advanceTakerOperation]
        split <;> try split_ifs
        all_goals simp
      · rfl
  | submitTakerAcceptSignatures orderId signatures =>
      simp only [handle, submitTakerAcceptSignatures]
      split <;> try split_ifs
      all_goals simp
  | submitMakerSignSignatures dlcId signatures =>
      simp only [handle, submitMakerSignSignatures]
      split <;> simp
  | pollTimer => exact sweep_maxRetries m pollOperation_maxRetries
  | response response =>
      cases response with
      | acceptContextFailed error | signContextFailed error =>
          exact sweep_maxRetries m (failAwaiting_maxRetries _ _)
      | acceptSubmitFailed error | signSubmitFailed error =>
          exact sweep_maxRetries m (retrySubmitting_maxRetries _ _ _ _)
      | dlcFailed error => rfl
      | acceptContextReady context =>
          simp only [handle, onResponse, onAcceptContextReady]
          split <;> simp
      | acceptSubmitted order =>
          simp only [handle, onResponse, onAcceptSubmitted]
          split <;> simp
      | signContextReady context =>
          simp only [handle, onResponse, onSignContextReady]
          split <;> simp
      | signSubmitted response =>
          simp only [handle, onResponse, onSignSubmitted]
          split <;> try split_ifs
          all_goals simp
      | dlcReady detail =>
          simp only [handle, onResponse, onDlcReady]
          split <;> try split_ifs
          all_goals simp

/-- A sweep whose rounds all pass by leaves the machine as it was. -/
theorem sweep_eq_self {m : DLCStateMachine} {body : String → OrderOperation → Outcome → Outcome}
    (hbody : ∀ k op, m.operations[k]? = some op →
      body k op { machine := m } = { machine := m }) :
    m.sweep body = { machine := m } := by
  have hfold : ∀ ks : List String,
      ks.foldl (round body) { machine := m } = ({ machine := m } : Outcome) := by
    intro ks
    induction ks with
    | nil => rfl
    | cons k ks ih =>
        rw [List.foldl_cons]
        cases hop : m.operations[k]? with
        | none => simpa only [round, hop] using ih
        | some op => simpa only [round, hop, hbody k op hop] using ih
  exact hfold _

end DLCStateMachine
end GreenWallet.Dlc
