import GreenWallet.Dlc.System

/-!
# Routing by DLC id

Sign contexts, sign results and DLC details name a DLC, and so does
`submit_maker_sign_signatures`. Each handler takes the first operation, in the
order of the keys, that carries the DLC id. Nothing keeps the DLC ids of two
tracked orders apart: `track_order` files what it is given, empty ids included.
An event made for one operation reaches it exactly if it comes first.
-/
namespace GreenWallet.Dlc
open GreenWallet.Library

namespace Response

/-- The DLC named by an answer that names one. -/
def dlc : Response → Option String
  | .signContextReady context => some context.dlcId
  | .signSubmitted response => some response.dlcId
  | .dlcReady detail => some detail.dlcId
  | _ => none

/-- A detail with another status than these three is not acted on. -/
def isWritten : Response → Bool
  | .dlcReady detail =>
      detail.status == "signed" || detail.status == "funded" || detail.status == "settled"
  | _ => true

end Response

namespace SystemEvent

/-- The operation an event about a DLC is made for, and the DLC it names. -/
def aboutDlc : SystemEvent → Option (String × String)
  | .deliver p response => p.issuer.bind fun X => response.dlc.map fun dlcId => (X, dlcId)
  | .makerSigned X context _ => some (X, context.dlcId)
  | _ => none

def isWritten : SystemEvent → Bool
  | .deliver _ response => response.isWritten
  | _ => true

end SystemEvent

namespace System

/-- The state of the operation is set, and reported. -/
def Moves (S : System) (e : SystemEvent) (k : String) : Prop :=
  ∃ state status, announce k state status ∈ S.emits e

def LeavesAlone (S : System) (e : SystemEvent) (k : String) : Prop :=
  (S.next e).operation k = S.operation k ∧ ¬ S.Moves e k

end System

/-- An event about a DLC, made for one operation, moves it and no other. -/
def ReachesItsOperation (S : System) (e : SystemEvent) : Prop :=
  ∀ X dlcId, e.aboutDlc = some (X, dlcId) →
    (∀ k, k ≠ X → S.LeavesAlone e k) ∧
      (e.isWritten = true → (S.operation X).isSome = true → S.Moves e X)

/-- The operation an event is made for is the first that carries the DLC id; if it
is gone, no other operation carries it. -/
def NamesItsOperation (S : System) (e : SystemEvent) : Prop :=
  ∀ X dlcId, e.aboutDlc = some (X, dlcId) → e.isWritten = true →
    S.machine.target dlcId = some X ∨ S.machine.target dlcId = none ∧ S.operation X = none

/-- The inputs that set the state of the operation they reach. -/
def Input.announces : Input → Bool
  | .signContext _ | .signSubmitted _ | .submitSign _ _ => true
  | .detail d => Response.isWritten (.dlcReady d)
  | _ => false

theorem step_detail {detail : DLCDetail} (h : (Input.detail detail).announces = false)
    (maxRetries : Int) (k : String) (c : Cell) :
    c.step maxRetries k (.detail detail) = (c, []) := by
  obtain ⟨operation, retryCount⟩ := c
  simp only [Input.announces, Response.isWritten, Bool.or_eq_false_iff] at h
  cases operation with
  | none => rfl
  | some op => simp [Cell.step, react, h]

theorem step_announces {i : Input} (hi : i.announces = true) (maxRetries : Int) (k : String)
    {c : Cell} {op : OrderOperation} (hop : c.operation = some op) :
    ∃ state status, announce k state status ∈ (c.step maxRetries k i).2 := by
  cases i with
  | signContext context | submitSign dlcId signatures =>
      exact ⟨_, _, by simp only [Cell.step, hop, react]; exact List.mem_cons_self⟩
  | signSubmitted response =>
      simp only [Cell.step, hop, react]
      split_ifs <;> exact ⟨_, _, List.mem_cons_self⟩
  | detail detail =>
      simp only [Cell.step, hop, react]
      split_ifs with hs hf ht
      · exact ⟨_, _, List.mem_cons_self⟩
      · exact ⟨_, _, List.mem_cons_self⟩
      · exact ⟨_, _, List.mem_cons_self⟩
      · simp [Input.announces, Response.isWritten, hs, hf, ht] at hi
  | _ => cases hi

namespace System
variable {S : System} {e : SystemEvent}

/-- What an event about a DLC means: one input, for the first that carries the id. -/
theorem input_aboutDlc {X dlcId : String} (h : e.aboutDlc = some (X, dlcId)) :
    ∃ i : Input, i.announces = e.isWritten ∧ (e.isWritten = false → ∃ detail, i = .detail detail) ∧
      ∀ k, S.input e k = DLCStateMachine.addressed (S.machine.target dlcId = some k) i := by
  cases e with
  | makerSigned Y context signatures =>
      cases h
      exact ⟨.submitSign context.dlcId signatures, rfl, fun h => (by cases h), fun _ => rfl⟩
  | deliver p response =>
      obtain ⟨Y, -, hdlc⟩ := Option.bind_eq_some_iff.mp h
      obtain ⟨dlcId', hresponse, heq⟩ := Option.map_eq_some_iff.mp hdlc
      cases heq
      cases response with
      | signContextReady context =>
          cases hresponse
          exact ⟨.signContext context, rfl, fun h => (by cases h), fun _ => rfl⟩
      | signSubmitted response =>
          cases hresponse
          exact ⟨.signSubmitted response, rfl, fun h => (by cases h), fun _ => rfl⟩
      | dlcReady detail =>
          cases hresponse
          exact ⟨.detail detail, rfl, fun _ => ⟨detail, rfl⟩, fun _ => rfl⟩
      | _ => cases hresponse
  | _ => cases h

theorem leavesAlone_of_step (hS : S.machine.WellKeyed) {k : String}
    (h : (S.machine.cell k).step S.machine.maxRetries k (S.input e k) = (S.machine.cell k, [])) :
    S.LeavesAlone e k := by
  refine ⟨by rw [next_operation hS, h, cell_operation], ?_⟩
  intro ⟨state, status, hmem⟩
  rw [mem_emits hS] at hmem
  change announce k state status ∈
    ((S.machine.cell k).step S.machine.maxRetries k (S.input e k)).2 at hmem
  rw [h] at hmem
  cases hmem

theorem reachesItsOperation_iff (hS : S.machine.WellKeyed) (e : SystemEvent) :
    ReachesItsOperation S e ↔ NamesItsOperation S e := by
  have hother : ∀ {k dlcId i}, S.machine.target dlcId ≠ some k →
      S.input e k = DLCStateMachine.addressed (S.machine.target dlcId = some k) i →
      S.LeavesAlone e k := by
    intro k dlcId i hk hinput
    apply leavesAlone_of_step hS
    rw [hinput, DLCStateMachine.addressed, if_neg hk, Cell.step_nothing]
  have hmoves : ∀ {k dlcId i}, S.machine.target dlcId = some k → i.announces = true →
      S.input e k = DLCStateMachine.addressed (S.machine.target dlcId = some k) i →
      S.Moves e k := by
    intro k dlcId i hk hi hinput
    obtain ⟨op, -, hop, -⟩ := DLCStateMachine.target_spec hk
    obtain ⟨state, status, hmem⟩ :=
      step_announces hi S.machine.maxRetries k (c := S.machine.cell k) hop
    refine ⟨state, status, (mem_emits hS).mpr ?_⟩
    change announce k state status ∈
      ((S.machine.cell k).step S.machine.maxRetries k (S.input e k)).2
    rwa [hinput, DLCStateMachine.addressed, if_pos hk]
  constructor
  · intro h X dlcId habout hwritten
    obtain ⟨i, hi, -, hinput⟩ := input_aboutDlc (S := S) habout
    rw [hwritten] at hi
    obtain ⟨hspares, hX⟩ := h X dlcId habout
    cases htarget : S.machine.target dlcId with
    | some k =>
        by_cases hk : k = X
        · exact .inl (by rw [hk])
        · exact ((hspares k hk).2 (hmoves htarget hi (hinput k))).elim
    | none =>
        refine .inr ⟨rfl, ?_⟩
        by_contra htracked
        have hmoved := hX hwritten (Option.isSome_iff_ne_none.mpr htracked)
        exact (hother (by simp [htarget]) (hinput X)).2 hmoved
  · intro h X dlcId habout
    obtain ⟨i, hi, hdetail, hinput⟩ := input_aboutDlc (S := S) habout
    cases hwritten : e.isWritten with
    | false =>
        obtain ⟨detail, rfl⟩ := hdetail hwritten
        rw [hwritten] at hi
        refine ⟨fun k _ => leavesAlone_of_step hS ?_, by simp⟩
        rw [hinput, DLCStateMachine.addressed]
        split_ifs
        · exact step_detail hi _ _ _
        · exact Cell.step_nothing _ _ _
    | true =>
        rcases h X dlcId habout hwritten with htarget | ⟨htarget, hgone⟩
        · refine ⟨fun k hk => hother (by simp [htarget, Ne.symm hk]) (hinput k), fun _ _ => ?_⟩
          exact hmoves htarget (hi.trans hwritten) (hinput X)
        · exact ⟨fun k _ => hother (by simp [htarget]) (hinput k), by simp [hgone]⟩

end System

/-- A second order with the DLC id of the first is tracked while the first one's
signatures are being submitted. -/
def sharedDlcId : List SystemEvent :=
  let submitted : Pending :=
    { issuer := some "B", request := DLCCoordinatorClient.submitSign "d" {} }
  [.call (.trackOrder { orderId := "B", dlcId := "d", isMaker := true }),
    .call (.submitMakerSignSignatures "d" {}),
    .call (.trackOrder { orderId := "A", dlcId := "d", isMaker := true }),
    .deliver submitted (.signSubmitted { dlcId := "d" })]

/-- **Routing.** The events about DLCs of a run all reach their operations exactly
if each finds its operation first under the id it names. -/
theorem reachesItsOperation_along_iff {es : List SystemEvent}
    (hes : negotiation.Valid start es) :
    negotiation.Along ReachesItsOperation start es ↔
      negotiation.Along NamesItsOperation start es :=
  Reactive.along_congr (I := fun S => S.machine.WellKeyed)
    (fun _ e hS _ => System.next_wellKeyed e hS)
    (fun _ e hS _ => System.reachesItsOperation_iff hS e) start_wellKeyed hes

theorem reachesItsOperation_along_iff_sharedDlcId :
    negotiation.Along ReachesItsOperation start sharedDlcId ↔
      negotiation.Along NamesItsOperation start sharedDlcId :=
  reachesItsOperation_along_iff (by decide)

theorem not_reachesItsOperation_sharedDlcId :
    negotiation.Valid start sharedDlcId ∧
      ¬ negotiation.Along ReachesItsOperation start sharedDlcId := by
  refine ⟨by decide, ?_⟩
  intro h
  have hsubmitted := Reactive.Along.at (sharedDlcId.take 3) h
  have hspared := (hsubmitted "B" "d" rfl).1 "A" (by decide)
  exact absurd hspared.1 (by decide)

end GreenWallet.Dlc
