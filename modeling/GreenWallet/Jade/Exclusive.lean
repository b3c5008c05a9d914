import GreenWallet.Jade.Laws

/-!
# Exchanges of several messages

The queue is held back by the ids in flight: `enqueue` and `drain` send a command only
when there are none. An exchange keeps its place as long as each of its messages is sent
before the id of the one before is taken out. It loses it when the device asks for an http
request and the proxy answers later, and also when an id is given out again: the next
message may get the very id that is about to be taken out, or the id may be taken out by a
timer that was started for another request.
-/
namespace GreenWallet.Jade.Session
open GreenWallet.Library

/-- What the log tells about the exchange of a call: the message whose answer it waits for,
from the first one to the final answer. -/
def Output.track (call : Call) : Option Message → Output → Option Message
  | stage, .sent msg _ => if msg.registration.call = call then some msg else stage
  | some msg, .received reply =>
      if reply.id = msg.id ∧ msg.method.continues reply = false then none else some msg
  | stage, _ => stage

def stageOf (call : Call) (log : List Output) : Option Message :=
  log.foldl (Output.track call) none

/-- A command that went through `enqueue` was sent only when no other exchange was between
its first message and its final answer. -/
def Exclusive (s : Session) : Prop :=
  ∀ log msg timeout rest, s.output = log ++ .sent msg timeout :: rest → msg.queued = true →
    ∀ call : Call, call.exchange = true → call ≠ msg.registration.call → stageOf call log = none

/-- It is neither the next message of the exchange nor the final answer to this one. -/
def Output.Leaves (call : Call) (msg : Message) : Output → Prop
  | .sent msg' _ => msg'.registration.call ≠ call
  | .received reply => reply.id = msg.id → msg.method.continues reply = true
  | _ => True

/-- What takes the id of a message out of flight while its exchange goes on. -/
inductive Cause (before : List Output) (msg : Message) (since : List Output) : Prop
  /-- The message drew the very id that the slot under way is about to take out. -/
  | crossed : slotOf before = some msg.id → Cause before msg since
  /-- A timer has run out under the id. -/
  | timedOut (timer taken : Registration) : .expired timer taken ∈ since → timer.id = msg.id →
      Cause before msg since
  /-- The device wants an http request, and the proxy that was asked for it has not answered. -/
  | asked (proxy : ℕ) (request : HttpRequest) : .httpRequested proxy request ∈ since →
      request.id = msg.id → Cause before msg since
  /-- The answer has come, and the handler that was to go on was lost to a reuse of its id. -/
  | lost (reply : Reply) : .received reply ∈ since → reply.id = msg.id →
      (∀ proxy request, .httpRequested proxy request ∈ since → request.id ≠ msg.id) →
      Cause before msg since

/-- The last message of the exchange is without its final answer, and one of the causes has
come since it was sent, or with it. -/
def Interrupted (call : Call) (log : List Output) : Prop :=
  ∃ before msg timeout since, log = before ++ .sent msg timeout :: since ∧
    msg.registration.call = call ∧ (∀ out ∈ since, out.Leaves call msg) ∧ Cause before msg since

/-- When a queued command is sent, no other exchange is interrupted. -/
def undisturbed : Conditions where
  send _ s msg := msg.queued = true →
    ∀ call : Call, call.exchange = true → call ≠ msg.registration.call →
      ¬ Interrupted call s.output

/-- The id of a message that waits for its answer is in flight, unless the exchange was
interrupted. -/
def Held (s : Session) : Prop :=
  ∀ call msg, stageOf call s.output = some msg →
    msg.id ∈ s.msgInflight ∨ Interrupted call s.output

/-! ## The log -/

section Log
variable {call : Call} {msg : Message} {log : List Output} {out : Output}

theorem stageOf_append (call : Call) (log : List Output) (out : Output) :
    stageOf call (log ++ [out]) = Output.track call (stageOf call log) out :=
  List.foldl_append

theorem stageOf_append_eq_some :
    stageOf call (log ++ [out]) = some msg ↔
      (∃ timeout, out = .sent msg timeout ∧ msg.registration.call = call) ∨
        stageOf call log = some msg ∧ out.Leaves call msg := by
  rw [stageOf_append]
  cases out with
  | sent msg' timeout =>
      have htrack : Output.track call (stageOf call log) (.sent msg' timeout) =
          if msg'.registration.call = call then some msg' else stageOf call log := by
        cases stageOf call log <;> rfl
      rw [htrack]
      by_cases hcall : msg'.registration.call = call
      · simp only [hcall, if_true, Output.Leaves, ne_eq, not_true_eq_false, and_false, or_false,
          Option.some.injEq, Output.sent.injEq]
        constructor
        · rintro rfl
          exact ⟨timeout, ⟨rfl, rfl⟩, hcall⟩
        · rintro ⟨-, ⟨rfl, -⟩, -⟩
          rfl
      · simp only [hcall, if_false, Output.Leaves, ne_eq, not_false_eq_true, and_true]
        constructor
        · exact .inr
        · rintro (⟨_, heq, hmsg⟩ | h)
          · rw [(Output.sent.inj heq).1] at hcall
            exact absurd hmsg hcall
          · exact h
  | received reply =>
      cases hbefore : stageOf call log with
      | none => simp [Output.track]
      | some waiting =>
          simp only [Output.track, Output.Leaves, reduceCtorEq, false_and, exists_const, false_or,
            Option.some.injEq]
          split_ifs with hfinal
          · refine iff_of_false (fun h => nomatch h) ?_
            rintro ⟨rfl, hleaves⟩
            rw [hleaves hfinal.1] at hfinal
            exact absurd hfinal.2 (by decide)
          · rw [Option.some.injEq]
            constructor
            · rintro rfl
              refine ⟨rfl, fun hid => ?_⟩
              rw [← Bool.not_eq_false]
              exact fun hcontinues => hfinal ⟨hid, hcontinues⟩
            · exact And.left
  | registered | removed | expired | called | posted | progress | httpRequested
  | badFunctionCall =>
      cases stageOf call log <;> simp [Output.track, Output.Leaves]

/-- The message that an exchange waits for is its last one. -/
theorem stageOf_eq_some :
    stageOf call log = some msg ↔ ∃ before timeout since,
      log = before ++ .sent msg timeout :: since ∧ msg.registration.call = call ∧
        ∀ out ∈ since, out.Leaves call msg := by
  induction log using List.reverseRecOn with
  | nil =>
      refine iff_of_false (fun h => nomatch h) ?_
      rintro ⟨before, timeout, since, hsplit, -⟩
      cases before <;> cases hsplit
  | append_singleton log out ih =>
      rw [stageOf_append_eq_some, ih]
      constructor
      · rintro (⟨timeout, rfl, hcall⟩ | ⟨⟨before, timeout, since, rfl, hcall, hsince⟩, hout⟩)
        · exact ⟨log, timeout, [], rfl, hcall, List.forall_mem_nil _⟩
        · refine ⟨before, timeout, since ++ [out], by simp, hcall, ?_⟩
          rw [List.forall_mem_append, List.forall_mem_singleton]
          exact ⟨hsince, hout⟩
      · rintro ⟨before, timeout, since, hsplit, hcall, hsince⟩
        rcases List.eq_nil_or_concat since with rfl | ⟨since, last, rfl⟩
        · obtain ⟨rfl, hout⟩ := List.append_inj' hsplit rfl
          exact .inl ⟨timeout, List.head_eq_of_cons_eq hout, hcall⟩
        · rw [List.concat_eq_append, ← List.cons_append, ← List.append_assoc] at hsplit
          obtain ⟨rfl, hout⟩ := List.append_inj' hsplit rfl
          obtain rfl : out = last := List.head_eq_of_cons_eq hout
          rw [List.concat_eq_append, List.forall_mem_append, List.forall_mem_singleton] at hsince
          exact .inr ⟨⟨before, timeout, since, rfl, hcall, hsince.1⟩, hsince.2⟩

theorem Interrupted.stage (h : Interrupted call log) : ∃ msg, stageOf call log = some msg := by
  obtain ⟨before, msg, timeout, since, hsplit, hcall, hsince, -⟩ := h
  exact ⟨msg, stageOf_eq_some.mpr ⟨before, timeout, since, hsplit, hcall, hsince⟩⟩

theorem Cause.append {before since : List Output} (h : Cause before msg since) (out : Output) :
    Cause before msg (since ++ [out]) := by
  have hmem : ∀ {o : Output}, o ∈ since → o ∈ since ++ [out] :=
    fun ho => List.mem_append_left [out] ho
  cases h with
  | crossed hslot => exact .crossed hslot
  | timedOut timer taken hexpired hid => exact .timedOut timer taken (hmem hexpired) hid
  | asked proxy request hasked hid => exact .asked proxy request (hmem hasked) hid
  | lost reply hreceived hid hnone =>
      by_cases hnow : ∃ proxy request, out = .httpRequested proxy request ∧ request.id = msg.id
      · obtain ⟨proxy, request, rfl, hrequest⟩ := hnow
        exact .asked proxy request (List.mem_append_right _ (List.mem_singleton_self _)) hrequest
      · refine .lost reply (hmem hreceived) hid fun proxy request hasked hrequest => ?_
        rcases List.mem_append.mp hasked with hbefore | hlast
        · exact hnone proxy request hbefore hrequest
        · exact hnow ⟨proxy, request, (List.mem_singleton.mp hlast).symm, hrequest⟩

/-- An interrupted exchange stays so while its message waits. -/
theorem Interrupted.append (h : Interrupted call log)
    (hstage : stageOf call (log ++ [out]) = some msg)
    (hout : ∀ timeout, out ≠ .sent msg timeout) : Interrupted call (log ++ [out]) := by
  obtain ⟨before, msg', timeout, since, rfl, hcall, hsince, hcause⟩ := h
  have hwaiting := stageOf_eq_some.mpr ⟨before, timeout, since, rfl, hcall, hsince⟩
  rcases stageOf_append_eq_some.mp hstage with ⟨timeout', heq, -⟩ | ⟨hsame, hleaves⟩
  · exact absurd heq (hout timeout')
  · obtain rfl : msg' = msg := Option.some.inj (hwaiting.symm.trans hsame)
    refine ⟨before, msg', timeout, since ++ [out], by simp, hcall, ?_, hcause.append out⟩
    rw [List.forall_mem_append, List.forall_mem_singleton]
    exact ⟨hsince, hleaves⟩

/-- A slot that is under way was so before, or was started since. -/
theorem slot_since {start : Option Int} {since : List Output} {id : Int}
    (h : since.foldl Output.slot start = some id) :
    start = some id ∨ (∃ reply, .received reply ∈ since ∧ reply.id = id) ∨
      ∃ timer taken, .expired timer taken ∈ since ∧ timer.id = id := by
  induction since using List.reverseRecOn with
  | nil => exact .inl h
  | append_singleton since out ih =>
      rw [List.foldl_append, List.foldl_cons, List.foldl_nil] at h
      have hlast : out ∈ since ++ [out] := List.mem_append_right _ (List.mem_singleton_self out)
      cases out with
      | received reply => exact .inr (.inl ⟨reply, hlast, Option.some.inj h⟩)
      | expired timer taken => exact .inr (.inr ⟨timer, taken, hlast, Option.some.inj h⟩)
      | removed | badFunctionCall => cases h
      | registered | sent | called | posted | progress | httpRequested =>
          rcases ih h with hstart | ⟨reply, hreply, hid⟩ | ⟨timer, taken, htimer, hid⟩
          · exact .inl hstart
          · exact .inr (.inl ⟨reply, List.mem_append_left _ hreply, hid⟩)
          · exact .inr (.inr ⟨timer, taken, List.mem_append_left _ htimer, hid⟩)

/-- A slot under the id of a message that goes on waiting is the end of its flight. -/
theorem interrupted_of_slot (hstage : stageOf call log = some msg)
    (hslot : slotOf log = some msg.id) : Interrupted call log := by
  obtain ⟨before, timeout, since, rfl, hcall, hsince⟩ := stageOf_eq_some.mp hstage
  refine ⟨before, msg, timeout, since, rfl, hcall, hsince, ?_⟩
  rw [slotOf, List.foldl_append, List.foldl_cons] at hslot
  rcases slot_since hslot with hbefore | ⟨reply, hreceived, hid⟩ | ⟨timer, taken, hexpired, hid⟩
  · exact .crossed hbefore
  · by_cases hasked : ∃ proxy request, .httpRequested proxy request ∈ since ∧ request.id = msg.id
    · obtain ⟨proxy, request, hmem, hrequest⟩ := hasked
      exact .asked proxy request hmem hrequest
    · exact .lost reply hreceived hid fun proxy request hmem hrequest =>
        hasked ⟨proxy, request, hmem, hrequest⟩
  · exact .timedOut timer taken hexpired hid

end Log

/-! ## The steps -/

/-- Outputs other than messages leave an id that is not taken out where it is. -/
theorem held_append {s s' : Session} {out : Output} (h : s'.output = s.output ++ [out])
    (hout : ∀ msg timeout, out ≠ .sent msg timeout)
    (hinflight : ∀ call msg, stageOf call s.output = some msg → msg.id ∈ s.msgInflight →
      msg.id ∈ s'.msgInflight ∨ Interrupted call s.output) (hs : s.Held) : s'.Held := by
  intro call msg hstage
  rw [h] at hstage ⊢
  rcases stageOf_append_eq_some.mp hstage with ⟨timeout, heq, -⟩ | ⟨hbefore, -⟩
  · exact absurd heq (hout msg timeout)
  · rcases hs call msg hbefore with hmem | hinterrupted
    · rcases hinflight call msg hbefore hmem with hmem' | hinterrupted
      · exact .inl hmem'
      · exact .inr (hinterrupted.append hstage (hout msg))
    · exact .inr (hinterrupted.append hstage (hout msg))

theorem held_of_other {s s' : Session} {out : Output} (h : s'.output = s.output ++ [out])
    (hout : ∀ msg timeout, out ≠ .sent msg timeout) (hinflight : s'.msgInflight = s.msgInflight)
    (hs : s.Held) : s'.Held :=
  held_append h hout (fun _ _ _ hmem => .inl (by rwa [hinflight])) hs

theorem Quiet.held {s s' : Session} (h : Quiet s s') (hs : s.Held) : s'.Held := by
  cases h with
  | put out hquiet h =>
      apply held_of_other (congrArg Tables.output h) _ (congrArg Tables.msgInflight h) hs
      rintro msg timeout rfl
      cases hquiet
  | throw _ h | received _ _ h =>
      exact held_of_other (congrArg Tables.output h) (by simp) (congrArg Tables.msgInflight h) hs
  | remove id hslot h =>
      have hinflight : s'.msgInflight = s.msgInflight.erase id := congrArg Tables.msgInflight h
      refine held_append (congrArg Tables.output h) (by simp) (fun call msg hstage hmem => ?_) hs
      by_cases hid : msg.id = id
      · subst hid
        exact .inr (interrupted_of_slot hstage hslot)
      · rw [hinflight]
        exact .inl ((List.mem_erase_of_ne hid).mpr hmem)
  | same h | handle _ _ h | take _ h | drop _ h | wait _ _ h | dequeue h | connect _ h =>
      unfold Held
      rw [show s'.output = s.output from congrArg Tables.output h]
      rw [show s'.msgInflight = s.msgInflight from congrArg Tables.msgInflight h]
      exact hs

theorem held_send (writes : Bool) (msg : Message) {s : Session} (hs : s.Held) :
    (s.send writes msg).Held := by
  intro call waiting hstage
  rw [output_send] at hstage ⊢
  rw [msgInflight_send, List.mem_insert_iff]
  by_cases hsame : waiting = msg
  · exact .inl (.inl (by rw [hsame]))
  · have hother : ∀ timeout : Int,
        Output.sent msg ((s.msgTimeout[msg.id]?).getD 0) ≠ .sent waiting timeout := by
      rintro timeout ⟨⟩
      exact hsame rfl
    rcases stageOf_append_eq_some.mp hstage with ⟨timeout, heq, -⟩ | ⟨hbefore, -⟩
    · exact absurd heq (hother timeout)
    · rcases hs call waiting hbefore with hmem | hinterrupted
      · exact .inl (.inr hmem)
      · exact .inr (hinterrupted.append hstage hother)

/-- The log shows no violation before its last entry. -/
theorem exclusive_append {s s' : Session} {out : Output} (h : s'.output = s.output ++ [out])
    (hs : s.Exclusive) :
    s'.Exclusive ↔ ∀ msg timeout, out = .sent msg timeout → msg.queued = true →
      ∀ call : Call, call.exchange = true → call ≠ msg.registration.call →
        stageOf call s.output = none := by
  unfold Exclusive
  rw [h]
  constructor
  · rintro hall msg timeout rfl
    exact hall s.output msg timeout [] rfl
  · intro hlast log msg timeout rest hsplit
    rcases List.eq_nil_or_concat rest with rfl | ⟨rest, last, rfl⟩
    · obtain ⟨rfl, hout⟩ := List.append_inj' hsplit rfl
      exact hlast msg timeout (List.head_eq_of_cons_eq hout)
    · rw [List.concat_eq_append, ← List.cons_append, ← List.append_assoc] at hsplit
      exact hs log msg timeout rest (List.append_inj' hsplit rfl).1

theorem exclusive_append_other {s s' : Session} {out : Output} (h : s'.output = s.output ++ [out])
    (hout : ∀ msg timeout, out ≠ .sent msg timeout) (hs : s.Exclusive) : s'.Exclusive :=
  (exclusive_append h hs).mpr fun msg timeout heq => absurd heq (hout msg timeout)

theorem Quiet.exclusive {s s' : Session} (h : Quiet s s') (hs : s.Exclusive) : s'.Exclusive := by
  cases h with
  | put out hquiet h =>
      apply exclusive_append_other (congrArg Tables.output h) _ hs
      rintro msg timeout rfl
      cases hquiet
  | throw _ h | received _ _ h | remove _ _ h =>
      exact exclusive_append_other (congrArg Tables.output h) (by simp) hs
  | same h | handle _ _ h | take _ h | drop _ h | wait _ _ h | dequeue h | connect _ h =>
      unfold Exclusive
      rw [show s'.output = s.output from congrArg Tables.output h]
      exact hs

/-- With nothing in flight, an exchange that is not over was interrupted. -/
theorem stageOf_eq_none_iff {s : Session} (hs : s.Held) (hinflight : s.msgInflight = [])
    (call : Call) : stageOf call s.output = none ↔ ¬ Interrupted call s.output := by
  constructor
  · intro hnone hinterrupted
    obtain ⟨msg, hstage⟩ := hinterrupted.stage
    cases hnone.symm.trans hstage
  · intro hnot
    cases hstage : stageOf call s.output with
    | none => rfl
    | some msg =>
        rcases hs call msg hstage with hmem | hinterrupted
        · rw [hinflight] at hmem
          cases hmem
        · exact absurd hinterrupted hnot

theorem undisturbedLaw (idgen : ℕ → Fin 90000) : Law idgen undisturbed Held Exclusive where
  quiet s s' h hJ := ⟨h.held hJ, h.exclusive⟩
  register s call cb timeout _ hJ := by
    obtain ⟨id, k, -, heq⟩ := s.register_spec idgen call cb timeout
    rw [heq]
    refine ⟨held_of_other rfl (by simp) rfl hJ, fun hI => iff_of_true ?_ trivial⟩
    exact exclusive_append_other rfl (by simp) hI
  send s writes msg _ _ hq hJ := by
    refine ⟨held_send writes msg hJ, fun hI => ?_⟩
    rw [exclusive_append (output_send writes msg s) hI]
    constructor
    · intro h hqueued call hexchange hne
      exact (stageOf_eq_none_iff hJ (hq hqueued) call).mp (h msg _ rfl hqueued call hexchange hne)
    · rintro h msg' timeout ⟨⟩ hqueued call hexchange hne
      exact (stageOf_eq_none_iff hJ (hq hqueued) call).mpr (h hqueued call hexchange hne)
  expire s timer entry _ _ _ hJ := by
    have hout : (s.expireTake timer entry).output =
        s.output ++ [.expired timer entry.registration] := rfl
    refine ⟨held_of_other hout (by simp) rfl hJ, fun hI => iff_of_true ?_ trivial⟩
    exact exclusive_append_other hout (by simp) hI
  disconnect s hJ := ⟨hJ, fun hI => iff_of_true hI trivial⟩
  sticky := .inr ⟨fun _ => trivial, fun _ _ => trivial⟩

/-- Exchanges are kept apart in a run exactly if, whenever a queued command is sent, no other
exchange was interrupted after its last message, or with it. -/
theorem exclusive_iff (idgen : ℕ → Fin 90000) (es : List Event) :
    ((reactive idgen).run {} es).Exclusive ↔
      (reactive idgen).Along (undisturbed.ofEvent idgen) {} es := by
  apply (undisturbedLaw idgen).run_iff
  · intro call msg hstage
    cases hstage
  · intro log msg timeout rest hsplit
    cases log <;> cases hsplit
  · intro s s' ⟨more, hmore⟩ hs' log msg timeout rest hsplit
    apply hs' log msg timeout (rest ++ more)
    rw [← hmore, hsplit]
    simp

/-- The device asks for an http request in the middle of `auth_user`, and the command that
waits is sent before the proxy answers. -/
def answeredTooLate : List Event :=
  [.connect, .call (.authUser 1 (some 1)) true, .call (.getXpub 2) true,
    .receive { id := 10000, result := some false, httpRequest := some "pin" } true, .finish true,
    .drain true, .httpResponse { call := ⟨1, true⟩, id := 10000, onReply := "pin" } true]

theorem not_exclusive_answeredTooLate :
    (reactive (Fin.ofNat 90000)).Valid {} answeredTooLate ∧
      ¬ ((reactive (Fin.ofNat 90000)).run {} answeredTooLate).Exclusive := by
  refine ⟨by decide, fun h => ?_⟩
  have hauth := h (((reactive (Fin.ofNat 90000)).run {} answeredTooLate).output.take 6)
    { registration := ⟨1, 10001, 0, ⟨2, false⟩⟩, method := .getXpub, queued := true } 0
    (((reactive (Fin.ofNat 90000)).run {} answeredTooLate).output.drop 7) (by decide) rfl
    ⟨1, true⟩ rfl (by decide)
  exact absurd hauth (by decide)

end GreenWallet.Jade.Session
