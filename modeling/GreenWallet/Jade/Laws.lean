import GreenWallet.Jade.Session

/-!
# What a slot can do

Whatever runs, a function of the API, a handler or a timer, it changes the tables of the
API in a few ways only: it registers a handler, sends a message, or does one of a dozen
things that are harmless. A law says what becomes of a property under each of these, and
under which condition it survives; the condition on an event asks for it at every place
where the event registers, sends, lets a timer take a handler, or closes the connection.
-/
namespace GreenWallet.Jade.Session
open GreenWallet.Library
open Std (ExtTreeMap)

/-- The handler names only registrations that were made. -/
def Handler.Known (made : List Registration) : Handler → Prop
  | .otaChunk exposed .. => exposed ∈ made
  | _ => True

/-- A plan that starts after these registrations sends nothing but under them, or under
those that it makes itself. -/
def Plan.Known : List Registration → Plan → Prop
  | made, .register _ cb _ next => cb.Known made ∧ ∀ r, (next r).Known (made ++ [r])
  | made, .setProxy _ _ next => next.Known made
  | made, .copyProxy _ _ next => next.Known made
  | made, .send msg _ => msg.registration ∈ made ∧ msg.queued = false
  | made, .enqueue msg _ => msg.registration ∈ made
  | _, _ => True

/-- The slot under way, as the log tells it, by the id that it takes out at its end. -/
def Output.slot : Option Int → Output → Option Int
  | _, .received reply => some reply.id
  | _, .expired timer _ => some timer.id
  | _, .removed _ | _, .badFunctionCall => none
  | slot, _ => slot

def slotOf (log : List Output) : Option Int := log.foldl Output.slot none

/-- Registrations are numbered, nothing is in the tables that was not registered, and the log
tells which slot is under way. -/
structure Known (s : Session) : Prop where
  numbered : ∀ r ∈ s.registrations, s.registrations[r.number]? = some r
  handlers : ∀ (id : Int) (entry : Entry), s.responseHandlers[id]? = some entry →
    entry.registration ∈ s.registrations ∧ entry.handler.Known s.registrations
  queue : ∀ msg ∈ s.msgQueue, msg.registration ∈ s.registrations ∧ msg.queued = true
  timers : ∀ r ∈ s.timers, r ∈ s.registrations
  slot : ∀ handling, s.handling = some handling → slotOf s.output = some handling.id

/-- Outputs that are about callbacks and http requests. -/
def Output.isQuiet : Output → Bool
  | .called .. | .posted _ | .progress .. | .httpRequested .. => true
  | _ => false

/-- The tables of the API and its connection. -/
structure Tables where
  connected : Bool
  written : List Int
  registrations : List Registration
  responseHandlers : ExtTreeMap Int Entry
  msgTimeout : ExtTreeMap Int Int
  msgQueue : List Message
  msgInflight : List Int
  timers : List Registration
  handling : Option Handling
  output : List Output

def tables (s : Session) : Tables :=
  { connected := s.connected
    written := s.written
    registrations := s.registrations
    responseHandlers := s.responseHandlers
    msgTimeout := s.msgTimeout
    msgQueue := s.msgQueue
    msgInflight := s.msgInflight
    timers := s.timers
    handling := s.handling
    output := s.output }

/-- The harmless changes of the tables. -/
inductive Quiet (s : Session) : Session → Prop
  | same {s' : Session} : s'.tables = s.tables → Quiet s s'
  | put {s' : Session} (out : Output) : out.isQuiet = true →
      s'.tables = { s.tables with output := s.output ++ [out] } → Quiet s s'
  | throw {s' : Session} : s.handling = none →
      s'.tables = { s.tables with output := s.output ++ [.badFunctionCall] } → Quiet s s'
  | received {s' : Session} (reply : Reply) : s.handling = none →
      s'.tables = { s.tables with output := s.output ++ [.received reply] } → Quiet s s'
  | handle {s' : Session} (handling : Handling) : slotOf s.output = some handling.id →
      s'.tables = { s.tables with handling := some handling } → Quiet s s'
  | take {s' : Session} (id : Int) :
      s'.tables = { s.tables with responseHandlers := s.responseHandlers.erase id } → Quiet s s'
  | drop {s' : Session} (timer : Registration) :
      s'.tables = { s.tables with timers := s.timers.erase timer } → Quiet s s'
  | wait {s' : Session} (msg : Message) : msg.registration ∈ s.registrations →
      s'.tables = { s.tables with msgQueue := s.msgQueue ++ [{ msg with queued := true }] } →
      Quiet s s'
  | dequeue {s' : Session} : s'.tables = { s.tables with msgQueue := s.msgQueue.tail } → Quiet s s'
  | remove {s' : Session} (id : Int) : slotOf s.output = some id →
      s'.tables =
        { s.tables with
          msgInflight := s.msgInflight.erase id
          handling := none
          output := s.output ++ [.removed id] } → Quiet s s'
  | connect {s' : Session} : s.connected = false →
      s'.tables = { s.tables with connected := true, written := [] } → Quiet s s'

/-- The timer takes the handler that is registered under its id. -/
def expireTake (timer : Registration) (entry : Entry) (s : Session) : Session :=
  { s with
      timers := s.timers.erase timer
      responseHandlers := s.responseHandlers.erase timer.id
      handling := some { id := timer.id, timer := true } }.put
    (.expired timer entry.registration)

/-- What is asked of a state in which something happens. -/
structure Conditions where
  register : Session → Prop := fun _ => True
  send : Bool → Session → Message → Prop := fun _ _ _ => True
  expire : Session → Registration → Prop := fun _ _ => True
  disconnect : Session → Prop := fun _ => True

variable (idgen : ℕ → Fin 90000)

namespace Conditions
variable (C : Conditions)

def ofPlan (writes : Bool) : Plan → Session → Prop
  | .register call cb timeout next, s =>
      C.register s ∧
        let (r, s) := s.registerResponseHandler idgen call cb timeout
        ofPlan writes (next r) s
  | .setProxy id proxy next, s =>
      ofPlan writes next { s with requestProxy := s.requestProxy.insert id proxy }
  | .copyProxy newId id next, s =>
      let proxy := (s.requestProxy[id]?).getD none
      ofPlan writes next
        { s with requestProxy := (s.requestProxy.insert id proxy).insert newId proxy }
  | .send msg _, s => C.send writes s msg
  | .enqueue msg _, s =>
      s.msgInflight = [] → s.msgQueue = [] → C.send writes s { msg with queued := true }
  | _, _ => True

def ofDrain (writes : Bool) (s : Session) : Prop :=
  s.msgInflight = [] → ∀ msg queue, s.msgQueue = msg :: queue →
    C.send writes { s with msgQueue := queue } msg

/-- The conditions hold wherever the event asks for them. -/
def ofEvent (s : Session) : Event → Prop
  | .call c writes =>
      let call := { number := s.calls + 1, exchange := c.isExchange }
      C.ofPlan idgen writes (c.plan call s.locked) { s with calls := s.calls + 1 }
  | .httpResponse request writes => C.ofPlan idgen writes (handleHttpResponse request) s
  | .receive reply writes =>
      s.handling = none → reply.id ≠ 0 →
        let (s, plan) := (s.put (.received reply)).processResponseMessage reply
        C.ofPlan idgen writes plan s
  | .expire timer writes =>
      s.handling = none → timer ∈ s.timers →
        (timer.id ∈ s.responseHandlers → C.expire s timer) ∧
          let (s, plan) := s.timeout timer
          C.ofPlan idgen writes plan s
  | .finish writes =>
      ∀ handling, s.handling = some handling → handling.timer = true →
        C.ofDrain writes
          ({ s with
              handling := none
              msgInflight := s.msgInflight.erase handling.id }.put (.removed handling.id))
  | .drain writes =>
      s.handling = none → s.drains ≠ 0 → C.ofDrain writes { s with drains := s.drains - 1 }
  | .disconnect => C.disconnect s
  | _ => True

end Conditions

/-- `I` survives what a slot does exactly under the conditions, and `J` survives anyway. -/
structure Law (C : Conditions) (J I : Session → Prop) : Prop where
  quiet : ∀ s s', Quiet s s' → J s → J s' ∧ (I s → I s')
  register : ∀ s call cb timeout, s.Known → J s →
    J (s.registerResponseHandler idgen call cb timeout).2 ∧
      (I s → (I (s.registerResponseHandler idgen call cb timeout).2 ↔ C.register s))
  send : ∀ s writes msg, s.Known → msg.registration ∈ s.registrations →
    (msg.queued = true → s.msgInflight = []) → J s →
    J (s.send writes msg) ∧ (I s → (I (s.send writes msg) ↔ C.send writes s msg))
  expire : ∀ s timer entry, s.Known → timer ∈ s.registrations →
    s.responseHandlers[timer.id]? = some entry → J s →
    J (s.expireTake timer entry) ∧ (I s → (I (s.expireTake timer entry) ↔ C.expire s timer))
  disconnect : ∀ s, J s → J s.disconnectDevice ∧ (I s → (I s.disconnectDevice ↔ C.disconnect s))
  /-- A broken property of the past stays broken, unless only a send can break it. -/
  sticky : (∀ s s' : Session, s.output <+: s'.output → I s' → I s) ∨
    (∀ s, C.register s) ∧ ∀ s r, C.expire s r

section Registering
variable (s : Session)

/-- One of the six ids that a registration draws at most is free. -/
def DrawsFree : Prop :=
  ∃ i < 6, JadeAPI.drawnId idgen (s.drawn + i) ∉ s.responseHandlers

/-- Drawing ids changes the generator alone, and ends with a taken id if all of them are. -/
theorem redraw_spec (tries : ℕ) (id : Int) :
    ∃ id' k, redraw idgen tries id s = (id', { s with drawn := s.drawn + k }) ∧
      (id' ∈ s.responseHandlers ↔ id ∈ s.responseHandlers ∧
        ∀ i < tries, JadeAPI.drawnId idgen (s.drawn + i) ∈ s.responseHandlers) := by
  induction tries generalizing id s with
  | zero => exact ⟨id, 0, rfl, by simp⟩
  | succ tries ih =>
      by_cases hid : id ∈ s.responseHandlers
      · obtain ⟨id', k, heq, hmem⟩ :=
          ih { s with drawn := s.drawn + 1 } (JadeAPI.drawnId idgen s.drawn)
        refine ⟨id', 1 + k, ?_, ?_⟩
        · rw [redraw, if_pos (ExtTreeMap.contains_iff_mem.mpr hid), ← Nat.add_assoc]
          exact heq
        · rw [hmem, Nat.forall_lt_succ_left]
          simp only [hid, true_and, Nat.add_zero, Nat.add_assoc, Nat.add_comm 1]
      · refine ⟨id, 0, ?_, by simp [hid]⟩
        rw [redraw, if_neg fun h => hid (ExtTreeMap.contains_iff_mem.mp h)]
        rfl

/-- A registration, in one piece; its id is a free one if one of six draws is. -/
theorem register_spec (call : Call) (cb : Handler) (timeout : Int) :
    ∃ id k, (id ∉ s.responseHandlers ↔ s.DrawsFree idgen) ∧
      s.registerResponseHandler idgen call cb timeout =
        ({ number := s.registrations.length, id, timeout, call },
          { s with
            drawn := k
            responseHandlers :=
              s.responseHandlers.insert id
                ⟨{ number := s.registrations.length, id, timeout, call }, cb⟩
            registrations :=
              s.registrations ++ [{ number := s.registrations.length, id, timeout, call }]
            msgTimeout := if timeout > 0 then s.msgTimeout.insert id timeout else s.msgTimeout
            output :=
              s.output ++
                [.registered { number := s.registrations.length, id, timeout, call }
                  (s.responseHandlers[id]?.map Entry.registration)] }) := by
  obtain ⟨id, k, heq, hmem⟩ :=
    redraw_spec idgen { s with drawn := s.drawn + 1 } 5 (JadeAPI.drawnId idgen s.drawn)
  refine ⟨id, s.drawn + 1 + k, ?_, ?_⟩
  · have hdraws : id ∈ s.responseHandlers ↔
        ∀ i < 6, JadeAPI.drawnId idgen (s.drawn + i) ∈ s.responseHandlers := by
      rw [hmem]
      simp only [Nat.add_assoc, Nat.add_comm 1]
      exact (Nat.forall_lt_succ_left (n := 5)
        (p := fun i => JadeAPI.drawnId idgen (s.drawn + i) ∈ s.responseHandlers)).symm
    rw [hdraws, DrawsFree]
    push Not
    rfl
  · simp only [registerResponseHandler, getNewId, heq]
    split_ifs <;> rfl

end Registering

section Known
variable {s s' : Session}

theorem Handler.Known.mono {made made' : List Registration} (h : made ⊆ made') :
    ∀ {handler : Handler}, handler.Known made → handler.Known made'
  | .otaChunk .., hknown => h hknown
  | .client _, _ | .forward _, _ | .signTxInitial .., _ | .receiveCommitment .., _
  | .receiveSignature .., _ | .signMessage _, _ | .signMessageSignature _, _ => trivial

theorem Known.of_fields (hs : s.Known) (hmade : s'.registrations = s.registrations)
    (hhandlers : ∀ (id : Int) (entry : Entry), s'.responseHandlers[id]? = some entry →
      s.responseHandlers[id]? = some entry)
    (hqueue : ∀ msg ∈ s'.msgQueue,
      msg ∈ s.msgQueue ∨ msg.registration ∈ s.registrations ∧ msg.queued = true)
    (htimers : ∀ r ∈ s'.timers, r ∈ s.timers ∨ r ∈ s.registrations)
    (hslot : ∀ handling, s'.handling = some handling → slotOf s'.output = some handling.id) :
    s'.Known where
  numbered := by
    rw [hmade]
    exact hs.numbered
  handlers id entry h := by
    rw [hmade]
    exact hs.handlers id entry (hhandlers id entry h)
  queue msg h := by
    rw [hmade]
    exact (hqueue msg h).elim (hs.queue msg) id
  timers r h := by
    rw [hmade]
    exact (htimers r h).elim (hs.timers r) id
  slot := hslot

theorem getElem?_of_erase {handlers : ExtTreeMap Int Entry} {k id : Int} {entry : Entry}
    (h : (handlers.erase k)[id]? = some entry) : handlers[id]? = some entry := by
  rw [ExtTreeMap.getElem?_erase] at h
  split_ifs at h
  exact h

theorem Quiet.registrations (h : Quiet s s') : s'.registrations = s.registrations := by
  cases h <;> exact congrArg Tables.registrations ‹s'.tables = _›

theorem Quiet.output (h : Quiet s s') : s.output <+: s'.output := by
  cases h with
  | put out _ h => exact ⟨[out], (congrArg Tables.output h).symm⟩
  | throw _ h => exact ⟨[.badFunctionCall], (congrArg Tables.output h).symm⟩
  | received reply _ h => exact ⟨[.received reply], (congrArg Tables.output h).symm⟩
  | remove id _ h => exact ⟨[.removed id], (congrArg Tables.output h).symm⟩
  | same h | handle _ _ h | take _ h | drop _ h | wait _ _ h | dequeue h | connect _ h =>
      exact ⟨[], (List.append_nil _).trans (congrArg Tables.output h).symm⟩

theorem Quiet.handlers (h : Quiet s s') (id : Int) (entry : Entry)
    (hentry : s'.responseHandlers[id]? = some entry) : s.responseHandlers[id]? = some entry := by
  rw [show s'.responseHandlers = s'.tables.responseHandlers from rfl] at hentry
  cases h with
  | take k h =>
      rw [h] at hentry
      exact getElem?_of_erase hentry
  | same h | put _ _ h | throw _ h | received _ _ h | handle _ _ h | drop _ h | wait _ _ h
  | dequeue h | remove _ _ h | connect _ h =>
      rw [h] at hentry
      exact hentry

theorem slotOf_append (log : List Output) (out : Output) :
    slotOf (log ++ [out]) = Output.slot (slotOf log) out := List.foldl_append

/-- What the log tells of the slot under way stays in step with it. -/
theorem Quiet.slot (h : Quiet s s')
    (hs : ∀ handling, s.handling = some handling → slotOf s.output = some handling.id) :
    ∀ handling, s'.handling = some handling → slotOf s'.output = some handling.id := by
  intro handling hhandling
  rw [show s'.handling = s'.tables.handling from rfl] at hhandling
  rw [show s'.output = s'.tables.output from rfl]
  cases h with
  | put out hquiet h =>
      rw [h] at hhandling ⊢
      rw [slotOf_append, hs handling hhandling]
      cases out <;> first | rfl | cases hquiet
  | throw hnone h | received _ hnone h =>
      rw [h] at hhandling
      cases hnone.symm.trans hhandling
  | handle handling' hslot h =>
      rw [h] at hhandling ⊢
      cases hhandling
      exact hslot
  | remove id _ h =>
      rw [h] at hhandling
      cases hhandling
  | same h | take _ h | drop _ h | wait _ _ h | dequeue h | connect _ h =>
      rw [h] at hhandling ⊢
      exact hs handling hhandling

theorem Known.quiet (hs : s.Known) (h : Quiet s s') : s'.Known := by
  apply hs.of_fields h.registrations h.handlers
  · intro msg hmsg
    rw [show s'.msgQueue = s'.tables.msgQueue from rfl] at hmsg
    cases h with
    | wait msg' hmade h =>
        rw [h] at hmsg
        rcases List.mem_append.mp hmsg with hmsg | hmsg
        · exact .inl hmsg
        · rw [List.mem_singleton.mp hmsg]
          exact .inr ⟨hmade, rfl⟩
    | dequeue h =>
        rw [h] at hmsg
        exact .inl (List.mem_of_mem_tail hmsg)
    | same h | put _ _ h | throw _ h | received _ _ h | handle _ _ h | drop _ h | take _ h
    | remove _ _ h | connect _ h =>
        rw [h] at hmsg
        exact .inl hmsg
  · intro r hr
    rw [show s'.timers = s'.tables.timers from rfl] at hr
    cases h with
    | drop timer h =>
        rw [h] at hr
        exact .inl (List.mem_of_mem_erase hr)
    | same h | put _ _ h | throw _ h | received _ _ h | handle _ _ h | wait _ _ h | dequeue h
    | take _ h | remove _ _ h | connect _ h =>
        rw [h] at hr
        exact .inl hr
  · exact h.slot hs.slot

theorem Known.number_lt (hs : s.Known) {r : Registration} (hr : r ∈ s.registrations) :
    r.number < s.registrations.length :=
  (List.getElem?_eq_some_iff.mp (hs.numbered r hr)).1

/-- A new registration has a number of its own, and is known from now on. -/
theorem Known.register (hs : s.Known) (call : Call) {cb : Handler} (hcb : cb.Known s.registrations)
    (timeout : Int) :
    (s.registerResponseHandler idgen call cb timeout).2.Known ∧
      (s.registerResponseHandler idgen call cb timeout).2.registrations =
        s.registrations ++ [(s.registerResponseHandler idgen call cb timeout).1] := by
  obtain ⟨id, k, -, heq⟩ := s.register_spec idgen call cb timeout
  rw [heq]
  refine ⟨⟨?_, ?_, ?_, ?_, ?_⟩, rfl⟩
  · intro r hr
    rcases List.mem_append.mp hr with hr | hr
    · rw [List.getElem?_append_left (hs.number_lt hr), hs.numbered r hr]
    · rw [List.mem_singleton.mp hr]
      exact List.getElem?_concat_length
  · intro k entry hentry
    have hgrow := List.subset_append_left s.registrations
      [{ number := s.registrations.length, id, timeout, call }]
    rw [ExtTreeMap.getElem?_insert] at hentry
    split_ifs at hentry with hk
    · obtain rfl := Option.some.inj hentry
      exact ⟨List.mem_append_right _ (List.mem_singleton_self _), hcb.mono hgrow⟩
    · obtain ⟨hmade, hknown⟩ := hs.handlers k entry hentry
      exact ⟨hgrow hmade, hknown.mono hgrow⟩
  · intro msg hmsg
    exact ⟨List.mem_append_left _ (hs.queue msg hmsg).1, (hs.queue msg hmsg).2⟩
  · intro r hr
    exact List.mem_append_left _ (hs.timers r hr)
  · intro handling hhandling
    rw [slotOf_append, hs.slot handling hhandling]
    rfl

/-- What a send leaves alone. -/
theorem send_frame (writes : Bool) (msg : Message) (s : Session) :
    (s.send writes msg).registrations = s.registrations ∧
      (s.send writes msg).responseHandlers = s.responseHandlers ∧
        (s.send writes msg).msgTimeout = s.msgTimeout ∧
          (s.send writes msg).msgQueue = s.msgQueue := by
  simp only [send, write, disconnectDevice, put]
  split_ifs <;> exact ⟨rfl, rfl, rfl, rfl⟩

theorem output_send (writes : Bool) (msg : Message) (s : Session) :
    (s.send writes msg).output =
      s.output ++ [.sent msg ((s.msgTimeout[msg.id]?).getD 0)] := by
  simp only [send, write, disconnectDevice, put]
  split_ifs <;> rfl

theorem handling_send (writes : Bool) (msg : Message) (s : Session) :
    (s.send writes msg).handling = s.handling := by
  simp only [send, write, disconnectDevice, put]
  split_ifs <;> rfl

theorem msgInflight_send (writes : Bool) (msg : Message) (s : Session) :
    (s.send writes msg).msgInflight = s.msgInflight.insert msg.id := by
  simp only [send, write, disconnectDevice, put]
  split_ifs <;> rfl

theorem mem_timers_send {writes : Bool} {msg : Message} {r : Registration}
    (h : r ∈ (s.send writes msg).timers) : r ∈ s.timers ∨ r = msg.registration := by
  have hsend : (s.send writes msg).timers = s.timers ∨
      (s.send writes msg).timers = s.timers ++ [msg.registration] := by
    simp only [send, write, disconnectDevice, put]
    split_ifs
    all_goals first | exact .inl rfl | exact .inr rfl
  rcases hsend with heq | heq
  · rw [heq] at h
    exact .inl h
  · rw [heq] at h
    simpa using h

theorem Known.send (hs : s.Known) (writes : Bool) {msg : Message}
    (hmsg : msg.registration ∈ s.registrations) : (s.send writes msg).Known := by
  obtain ⟨hmade, hhandlers, -, hqueue⟩ := send_frame writes msg s
  apply hs.of_fields hmade
  · intro id entry h
    rwa [hhandlers] at h
  · intro m hm
    rw [hqueue] at hm
    exact .inl hm
  · intro r hr
    rcases mem_timers_send hr with hr | rfl
    · exact .inl hr
    · exact .inr hmsg
  · intro handling hhandling
    rw [handling_send] at hhandling
    rw [output_send, slotOf_append, hs.slot handling hhandling]
    rfl

theorem Known.expireTake (hs : s.Known) (timer : Registration) (entry : Entry) :
    (s.expireTake timer entry).Known := by
  have hmade : (s.expireTake timer entry).registrations = s.registrations := rfl
  apply hs.of_fields hmade
  · intro id entry' h
    exact getElem?_of_erase h
  · intro msg hmsg
    exact .inl hmsg
  · intro r hr
    exact .inl (List.mem_of_mem_erase hr)
  · rintro handling ⟨⟩
    exact slotOf_append s.output _

theorem Known.disconnectDevice (hs : s.Known) : s.disconnectDevice.Known :=
  hs.of_fields rfl (fun _ _ h => h) (fun _ h => .inl h) (fun _ h => .inl h) hs.slot

/-- The log only grows. -/
theorem output_run (writes : Bool) (p : Plan) (s : Session) :
    s.output <+: (run idgen writes p s).2.output := by
  induction p generalizing s with
  | register call cb timeout next ih =>
      obtain ⟨id, k, -, heq⟩ := s.register_spec idgen call cb timeout
      simp only [run, heq]
      refine List.IsPrefix.trans ?_ (ih _ _)
      exact List.prefix_append _ _
  | setProxy id proxy next ih => exact ih { s with requestProxy := s.requestProxy.insert id proxy }
  | copyProxy newId id next ih =>
      simp only [run]
      refine List.IsPrefix.trans ?_ (ih _)
      exact List.prefix_rfl
  | send msg result =>
      simp only [run, output_send]
      exact List.prefix_append _ _
  | enqueue msg result =>
      simp only [run, Session.enqueue]
      split_ifs
      · rw [output_send]
        exact List.prefix_append _ _
      · exact List.prefix_rfl
  | call call callback | post callback => exact List.prefix_append _ _
  | done => exact List.prefix_rfl

end Known

section Handlers

/-- A handler fills its lists and shows progress, no more, before its last act. -/
theorem runHandler_quiet (call : Call) (reply : Reply) (handler : Handler) (s : Session) :
    Quiet s (runHandler call reply handler s).1 := by
  cases handler with
  | client callback | forward id | signMessageSignature callback => exact .same rfl
  | signTxInitial id inputs =>
      simp only [runHandler]
      split_ifs <;> exact .same rfl
  | receiveCommitment id index inputs commitments =>
      simp only [runHandler]
      split_ifs <;> exact .same rfl
  | receiveSignature id index inputs commitments signatures =>
      simp only [runHandler]
      split_ifs <;> exact .same rfl
  | otaChunk exposed size chunkSize currentPos cbProgress =>
      cases cbProgress with
      | none =>
          simp only [runHandler]
          split_ifs <;> exact .same rfl
      | some callback =>
          simp only [runHandler]
          split_ifs
          · exact .put _ rfl rfl
          · exact .put _ rfl rfl
          · exact .put _ rfl rfl
          · exact .same rfl
  | signMessage callback =>
      simp only [runHandler]
      split_ifs <;> exact .same rfl

theorem runHandler_known {call : Call} {reply : Reply} {handler : Handler} {s : Session}
    {made : List Registration} (h : handler.Known made) {plan : Plan}
    (hplan : (runHandler call reply handler s).2 = .act plan) : plan.Known made := by
  have hask : ∀ (cb : Handler) (method : Method), cb.Known made →
      (Plan.register call cb 0 fun r => .send { registration := r, method } r.id).Known made :=
    fun cb method hcb => ⟨hcb, fun r => ⟨List.mem_append_right _ (List.mem_singleton_self r), rfl⟩⟩
  cases handler with
  | client callback | signMessageSignature callback =>
      cases hplan
      trivial
  | forward id => cases hplan
  | signTxInitial id inputs =>
      simp only [runHandler] at hplan
      split_ifs at hplan
      cases hplan
      exact hask _ _ trivial
  | receiveCommitment id index inputs commitments =>
      simp only [runHandler] at hplan
      split_ifs at hplan <;> cases hplan
      · exact hask _ _ trivial
      · exact hask _ _ trivial
  | receiveSignature id index inputs commitments signatures =>
      simp only [runHandler] at hplan
      split_ifs at hplan
      cases hplan
      exact hask _ _ trivial
  | otaChunk exposed size chunkSize currentPos cbProgress =>
      simp only [runHandler] at hplan
      split_ifs at hplan <;> cases hplan
      · exact hask _ _ h
      · exact hask _ _ h
      · exact ⟨h, rfl⟩
  | signMessage callback =>
      simp only [runHandler] at hplan
      split_ifs at hplan <;> cases hplan
      · trivial
      · exact hask _ _ trivial

/-- The plans of the API send nothing but under their own registrations. -/
theorem ApiCall.known_plan (call : Call) (locked : Bool) (made : List Registration) (c : ApiCall) :
    (c.plan call locked).Known made := by
  have hlast : ∀ (made : List Registration) (r : Registration), r ∈ made ++ [r] := fun made r =>
    List.mem_append_right _ (List.mem_singleton_self r)
  have hcommand : ∀ (cb : ℕ) (method : Method), (command call cb method).Known made :=
    fun cb method => ⟨trivial, fun r => hlast made r⟩
  have hinitiate : ∀ (cb : ℕ) (method : Method) (interim : Registration → Handler),
      (∀ r, (interim r).Known (made ++ [r])) → (initiate call cb method interim).Known made :=
    fun cb method interim h => ⟨trivial, fun r => ⟨h r, fun tmp => hlast _ tmp⟩⟩
  cases c with
  | ping cb =>
      cases locked
      · exact ⟨trivial, fun r => ⟨hlast made r, rfl⟩⟩
      · trivial
  | getVersionInfo cb =>
      cases locked
      · exact ⟨trivial, fun r => hlast made r⟩
      · trivial
  | authUser cb proxy => exact ⟨trivial, fun r => hlast made r⟩
  | signMessage cb => exact ⟨trivial, fun r => hlast made r⟩
  | otaUpdate | otaDeltaUpdate => exact hinitiate _ _ _ fun r => hlast made r
  | signTx | signLiquidTx => exact hinitiate _ _ _ fun r => trivial
  | _ => exact hcommand _ _

theorem known_handleHttpResponse (request : HttpRequest) (made : List Registration) :
    (handleHttpResponse request).Known made :=
  ⟨trivial, fun r => ⟨List.mem_append_right _ (List.mem_singleton_self r), rfl⟩⟩

end Handlers

/-- From one state to the next: `J` holds again, and `I` survives exactly under the
condition. -/
structure Survives (J I : Session → Prop) (s s' : Session) (cond : Prop) : Prop where
  known : s'.Known
  keeps : J s'
  exactly : I s → (I s' ↔ cond)

theorem Survives.congr {J I : Session → Prop} {s s' : Session} {cond cond' : Prop}
    (h : Survives J I s s' cond) (hcond : cond ↔ cond') : Survives J I s s' cond' :=
  ⟨h.known, h.keeps, fun hI => (h.exactly hI).trans hcond⟩

/-- What is left after the first half of a slot: nothing has been broken yet, and the rest
is a plan. -/
structure Settles (J I : Session → Prop) (s : Session) (left : Session × Plan) : Prop where
  known : left.1.Known
  keeps : J left.1
  unbroken : I s → I left.1
  plan : left.2.Known left.1.registrations
  output : s.output <+: left.1.output

section Running
variable {idgen}
variable {C : Conditions} {J I : Session → Prop} (hL : Law idgen C J I)
include hL

theorem Law.survives_quiet {s s' : Session} (hs : s.Known) (hJ : J s) (h : Quiet s s') :
    Survives J I s s' True where
  known := hs.quiet h
  keeps := (hL.quiet s s' h hJ).1
  exactly hI := iff_of_true ((hL.quiet s s' h hJ).2 hI) trivial

theorem Law.survives_after {s s' s'' : Session} {cond : Prop} (hs : s.Known) (hJ : J s)
    (h : Quiet s s') (hrest : s'.Known → J s' → Survives J I s' s'' cond) :
    Survives J I s s'' cond := by
  obtain ⟨hJ', hI'⟩ := hL.quiet s s' h hJ
  have hsurvives := hrest (hs.quiet h) hJ'
  exact ⟨hsurvives.known, hsurvives.keeps, fun hI => hsurvives.exactly (hI' hI)⟩

omit hL in
theorem survives_same {s : Session} {cond : Prop} (hs : s.Known) (hJ : J s) (h : cond) :
    Survives J I s s cond := ⟨hs, hJ, fun hI => iff_of_true hI h⟩

/-- A plan, started where the law applies, survives exactly under its conditions. -/
theorem Law.run (writes : Bool) (p : Plan) {s : Session} (hs : s.Known)
    (hp : p.Known s.registrations) (hJ : J s) :
    Survives J I s (run idgen writes p s).2 (C.ofPlan idgen writes p s) := by
  induction p generalizing s with
  | register call cb timeout next ih =>
      obtain ⟨hJ', hI'⟩ := hL.register s call cb timeout hs hJ
      obtain ⟨hs', hmade⟩ := hs.register idgen call hp.1 timeout
      have hnext := hp.2 (s.registerResponseHandler idgen call cb timeout).1
      rw [← hmade] at hnext
      obtain ⟨hs'', hJ'', hI''⟩ := ih _ hs' hnext hJ'
      refine ⟨hs'', hJ'', fun hI => ?_⟩
      by_cases hfree : C.register s
      · exact (hI'' ((hI' hI).mpr hfree)).trans (and_iff_right hfree).symm
      · rcases hL.sticky with hsticky | ⟨halways, -⟩
        · refine iff_of_false (fun h => hfree ((hI' hI).mp (hsticky _ _ ?_ h))) fun h => hfree h.1
          exact output_run idgen writes _ _
        · exact absurd (halways s) hfree
  | setProxy id proxy next ih =>
      have hquiet : Quiet s { s with requestProxy := s.requestProxy.insert id proxy } := .same rfl
      exact hL.survives_after hs hJ hquiet fun hs' hJ' => ih hs' hp hJ'
  | copyProxy newId id next ih =>
      have hquiet : Quiet s
          { s with
            requestProxy :=
              (s.requestProxy.insert id ((s.requestProxy[id]?).getD none)).insert newId
                ((s.requestProxy[id]?).getD none) } := .same rfl
      exact hL.survives_after hs hJ hquiet fun hs' hJ' => ih hs' hp hJ'
  | send msg result =>
      obtain ⟨hJ', hI'⟩ := hL.send s writes msg hs hp.1
        (fun hq => absurd hq (by rw [hp.2]; decide)) hJ
      exact ⟨hs.send writes hp.1, hJ', hI'⟩
  | enqueue msg result =>
      simp only [Session.run, Session.enqueue, Conditions.ofPlan]
      split_ifs with hidle
      · obtain ⟨hinflight, hqueue⟩ := Bool.and_eq_true_iff.mp hidle
        rw [List.isEmpty_iff] at hinflight hqueue
        obtain ⟨hJ', hI'⟩ := hL.send s writes { msg with queued := true } hs hp (fun _ => hinflight) hJ
        refine ⟨hs.send writes hp, hJ', fun hI => (hI' hI).trans ?_⟩
        exact ⟨fun h _ _ => h, fun h => h hinflight hqueue⟩
      · apply (hL.survives_quiet hs hJ (.wait msg hp rfl)).congr
        refine iff_of_true trivial fun hinflight hqueue => ?_
        rw [hinflight, hqueue] at hidle
        exact absurd rfl hidle
  | call call callback | post callback => exact hL.survives_quiet hs hJ (.put _ rfl rfl)
  | done => exact survives_same hs hJ trivial

/-- The rest of a slot, after its first half. -/
theorem Law.settled (writes : Bool) {s : Session} {left : Session × Plan}
    (hleft : Settles J I s left) :
    Survives J I s (Session.run idgen writes left.2 left.1).2
      (C.ofPlan idgen writes left.2 left.1) := by
  have hrest := hL.run writes left.2 hleft.known hleft.plan hleft.keeps
  exact ⟨hrest.known, hrest.keeps, fun hI => hrest.exactly (hleft.unbroken hI)⟩

theorem Law.settles_done {s s' : Session} (hs : s.Known) (hJ : J s) (h : Quiet s s') :
    Settles J I s (s', .done) where
  known := hs.quiet h
  keeps := (hL.quiet s s' h hJ).1
  unbroken := (hL.quiet s s' h hJ).2
  plan := trivial
  output := h.output

theorem Law.settles_after {s s' : Session} {left : Session × Plan} (hJ : J s) (h : Quiet s s')
    (hleft : Settles J I s' left) : Settles J I s left :=
  { hleft with
    unbroken := fun hI => hleft.unbroken ((hL.quiet s s' h hJ).2 hI)
    output := h.output.trans hleft.output }

theorem Law.invoke {forward : Reply → Session → Session × Plan}
    (hforward : ∀ reply s, s.Known → J s → Settles J I s (forward reply s)) {entry : Entry}
    (reply : Reply) {s : Session} (hs : s.Known) (hJ : J s)
    (hentry : entry.handler.Known s.registrations) :
    Settles J I s (invoke forward entry reply s) := by
  have hquiet := runHandler_quiet entry.registration.call reply entry.handler s
  have hJ' := (hL.quiet _ _ hquiet hJ).1
  unfold Session.invoke
  split
  · next s' targetId reply' heq =>
      rw [heq] at hquiet hJ'
      exact hL.settles_after hJ hquiet (hforward _ _ (hs.quiet hquiet) hJ')
  · next s' plan heq =>
      have hplan := runHandler_known hentry (congrArg Prod.snd heq)
      rw [heq] at hquiet hJ'
      refine hL.settles_after hJ hquiet ⟨hs.quiet hquiet, hJ', id, ?_, List.prefix_rfl⟩
      rw [hquiet.registrations]
      exact hplan

theorem Law.callResponseHandler (rounds : ℕ) (reply : Reply) {s : Session} (hs : s.Known)
    (hJ : J s) : Settles J I s (callResponseHandler rounds reply s) := by
  induction rounds generalizing reply s with
  | zero => exact hL.settles_done hs hJ (.same rfl)
  | succ rounds ih =>
      have htake : Quiet s
          { s with
            responseHandlers := s.responseHandlers.erase reply.id
            requestProxy := s.requestProxy.erase reply.id } := .take reply.id rfl
      simp only [Session.callResponseHandler]
      split
      · exact hL.settles_done hs hJ htake
      · next entry hentry =>
          refine hL.settles_after hJ htake (hL.invoke ?_ reply (hs.quiet htake) ?_ ?_)
          · intro reply s hs hJ
            exact ih reply hs hJ
          · exact (hL.quiet _ _ htake hJ).1
          · exact (hs.handlers _ _ hentry).2

theorem Law.processResponseMessage (reply : Reply) {s : Session} (hs : s.Known) (hJ : J s)
    (hfree : s.handling = none) (hslot : slotOf s.output = some reply.id) :
    Settles J I s (s.processResponseMessage reply) := by
  have hhandling : Quiet s { s with handling := some { id := reply.id, timer := false } } :=
    .handle _ hslot rfl
  have hJ' := (hL.quiet _ _ hhandling hJ).1
  unfold Session.processResponseMessage
  split
  · simp only
    split
    · refine hL.settles_after hJ hhandling ⟨hs.quiet hhandling, hJ', id, ?_, List.prefix_rfl⟩
      exact known_handleHttpResponse _ _
    · refine hL.settles_after hJ hhandling (hL.settles_done (hs.quiet hhandling) hJ' ?_)
      exact .put _ rfl rfl
    · exact hL.settles_done hs hJ (.throw hfree rfl)
  · exact hL.settles_after hJ hhandling (hL.callResponseHandler _ reply (hs.quiet hhandling) hJ')

theorem Law.drain (writes : Bool) {s : Session} (hs : s.Known) (hJ : J s) :
    Survives J I s (s.drain writes) (C.ofDrain writes s) := by
  unfold Session.drain Conditions.ofDrain
  split_ifs with hidle
  · have hinflight := List.isEmpty_iff.mp hidle
    split
    · next hqueue =>
        refine survives_same hs hJ fun _ msg queue h => ?_
        rw [hqueue] at h
        cases h
    · next msg queue hqueue =>
        have hpop : Quiet s { s with msgQueue := queue } := .dequeue (by rw [hqueue]; rfl)
        have hmsg := hs.queue msg (by rw [hqueue]; exact List.mem_cons_self)
        apply hL.survives_after hs hJ hpop
        intro hs' hJ'
        obtain ⟨hJ'', hI''⟩ := hL.send _ writes msg hs' hmsg.1 (fun _ => hinflight) hJ'
        refine ⟨hs'.send writes hmsg.1, hJ'', fun hI => (hI'' hI).trans ?_⟩
        constructor
        · intro h _ msg' queue' heq
          rw [hqueue] at heq
          obtain ⟨rfl, rfl⟩ := List.cons_eq_cons.mp heq
          exact h
        · intro h
          exact h hinflight msg queue hqueue
  · refine survives_same hs hJ fun hinflight => ?_
    rw [hinflight] at hidle
    exact absurd rfl hidle

theorem Law.finish (writes : Bool) {s : Session} (hs : s.Known) (hJ : J s) :
    Survives J I s (s.finish writes) (C.ofEvent idgen s (.finish writes)) := by
  unfold Session.finish Conditions.ofEvent
  split
  · next hnone =>
      refine survives_same hs hJ fun handling h => ?_
      rw [hnone] at h
      cases h
  · next handling hsome =>
      by_cases htimer : handling.timer = true
      · simp only [htimer, if_true]
        have hremove : Quiet s
            ({ s with
                handling := none
                msgInflight := s.msgInflight.erase handling.id }.put (.removed handling.id)) :=
          .remove handling.id (hs.slot handling hsome) rfl
        apply hL.survives_after hs hJ hremove
        intro hs' hJ'
        apply (hL.drain writes hs' hJ').congr
        constructor
        · intro h handling' heq _
          rw [hsome] at heq
          cases heq
          exact h
        · intro h
          exact h handling hsome htimer
      · rw [if_neg htimer]
        apply (hL.survives_quiet hs hJ (.remove handling.id (hs.slot handling hsome) rfl)).congr
        refine iff_of_true trivial fun handling' heq ht => ?_
        rw [hsome] at heq
        cases heq
        exact absurd ht htimer

theorem Law.timeout {timer : Registration} {s : Session} (hs : s.Known) (hJ : J s)
    (htimer : timer ∈ s.timers) {entry : Entry}
    (hentry : s.responseHandlers[timer.id]? = some entry) :
    Settles J I (s.expireTake timer entry) (s.timeout timer) := by
  have htake := hL.expire s timer entry hs (hs.timers timer htimer) hentry hJ
  unfold Session.timeout
  rw [hentry]
  apply hL.invoke
  · intro reply s hs hJ
    exact hL.callResponseHandler _ reply hs hJ
  · exact hs.expireTake timer entry
  · exact htake.1
  · exact (hs.handlers _ _ hentry).2

theorem Law.receive (reply : Reply) (writes : Bool) {s : Session} (hs : s.Known) (hJ : J s) :
    Survives J I s (s.next idgen (.receive reply writes))
      (C.ofEvent idgen s (.receive reply writes)) := by
  simp only [Session.next, Conditions.ofEvent]
  by_cases hskip : (s.handling.isSome || reply.id == 0) = true
  · rw [if_pos hskip]
    refine survives_same hs hJ fun hnone hid => ?_
    simp [hnone, hid] at hskip
  · rw [if_neg hskip]
    have hfree : s.handling = none ∧ reply.id ≠ 0 := by simpa using hskip
    have hlog : Quiet s (s.put (.received reply)) := .received reply hfree.1 rfl
    have hleft := hL.settles_after hJ hlog
      (hL.processResponseMessage reply (hs.quiet hlog) (hL.quiet _ _ hlog hJ).1 hfree.1
        (slotOf_append s.output _))
    apply (hL.settled writes hleft).congr
    exact ⟨fun h _ _ => h, fun h => h hfree.1 hfree.2⟩

/-- A timer that finds a handler, and breaks the property at once or not. -/
theorem Law.expired {timer : Registration} (writes : Bool) {s : Session} (hs : s.Known) (hJ : J s)
    (htimer : timer ∈ s.timers) {entry : Entry}
    (hentry : s.responseHandlers[timer.id]? = some entry) :
    Survives J I s (Session.run idgen writes (s.timeout timer).2 (s.timeout timer).1).2
      (C.expire s timer ∧ C.ofPlan idgen writes (s.timeout timer).2 (s.timeout timer).1) := by
  obtain ⟨-, hI'⟩ := hL.expire s timer entry hs (hs.timers timer htimer) hentry hJ
  have hleft := hL.timeout hs hJ htimer hentry
  have hrest := hL.settled writes hleft
  refine ⟨hrest.known, hrest.keeps, fun hI => ?_⟩
  by_cases hexpire : C.expire s timer
  · rw [and_iff_right hexpire]
    exact hrest.exactly ((hI' hI).mpr hexpire)
  · rcases hL.sticky with hsticky | ⟨-, halways⟩
    · refine iff_of_false (fun h => hexpire ((hI' hI).mp (hsticky _ _ ?_ h))) ?_
      · exact hleft.output.trans (output_run idgen writes _ _)
      · exact fun h => hexpire h.1
    · exact absurd (halways s timer) hexpire

theorem Law.expires (timer : Registration) (writes : Bool) {s : Session} (hs : s.Known)
    (hJ : J s) :
    Survives J I s (s.next idgen (.expire timer writes))
      (C.ofEvent idgen s (.expire timer writes)) := by
  simp only [Session.next, Conditions.ofEvent]
  by_cases hskip : (s.handling.isSome || !s.timers.contains timer) = true
  · rw [if_pos hskip]
    refine survives_same hs hJ fun hnone hmem => ?_
    simp [hnone, hmem] at hskip
  · rw [if_neg hskip]
    have hfree : s.handling = none ∧ timer ∈ s.timers := by simpa using hskip
    cases hentry : s.responseHandlers[timer.id]? with
    | none =>
        have hnot : timer.id ∉ s.responseHandlers := by
          rw [ExtTreeMap.mem_iff_isSome_getElem?, hentry]
          simp
        have hleft : Settles J I s (s.timeout timer) := by
          rw [Session.timeout, hentry]
          exact hL.settles_done hs hJ (.drop timer rfl)
        apply (hL.settled writes hleft).congr
        exact ⟨fun h _ _ => ⟨fun h => absurd h hnot, h⟩, fun h => (h hfree.1 hfree.2).2⟩
    | some entry =>
        have hmem : timer.id ∈ s.responseHandlers := by
          rw [ExtTreeMap.mem_iff_isSome_getElem?, hentry]
          rfl
        apply (hL.expired writes hs hJ hfree.2 hentry).congr
        simp [hfree, hmem]

/-- An event survives exactly under its conditions. -/
theorem Law.next {s : Session} (hs : s.Known) (hJ : J s) (e : Event) :
    Survives J I s (s.next idgen e) (C.ofEvent idgen s e) := by
  cases e with
  | call c writes =>
      have hcount : Quiet s { s with calls := s.calls + 1 } := .same rfl
      exact hL.survives_after hs hJ hcount fun hs' hJ' =>
        hL.run writes _ hs' (c.known_plan _ _ _) hJ'
  | httpResponse request writes =>
      exact hL.run writes (handleHttpResponse request) hs (known_handleHttpResponse _ _) hJ
  | receive reply writes => exact hL.receive reply writes hs hJ
  | expire timer writes => exact hL.expires timer writes hs hJ
  | finish writes => exact hL.finish writes hs hJ
  | drain writes =>
      simp only [Session.next, Conditions.ofEvent]
      by_cases hskip : (s.handling.isSome || s.drains == 0) = true
      · rw [if_pos hskip]
        refine survives_same hs hJ fun hnone hdrains => ?_
        simp [hnone, hdrains] at hskip
      · rw [if_neg hskip]
        have hfree : s.handling = none ∧ s.drains ≠ 0 := by simpa using hskip
        have hpost : Quiet s { s with drains := s.drains - 1 } := .same rfl
        apply hL.survives_after hs hJ hpost
        intro hs' hJ'
        apply (hL.drain writes hs' hJ').congr
        exact ⟨fun h _ _ => h, fun h => h hfree.1 hfree.2⟩
  | setLocked locked => exact hL.survives_quiet hs hJ (.same rfl)
  | connect =>
      simp only [Session.next]
      split_ifs with hconnected
      · exact survives_same hs hJ trivial
      · exact hL.survives_quiet hs hJ (.connect (Bool.eq_false_iff.mpr hconnected) rfl)
  | disconnect =>
      obtain ⟨hJ', hI'⟩ := hL.disconnect s hJ
      exact ⟨hs.disconnectDevice, hJ', hI'⟩

end Running

section Log

/-- The law under which nothing can happen. -/
theorem lawless : Law idgen {} (fun _ => True) (fun _ => True) where
  quiet _ _ _ _ := ⟨trivial, id⟩
  register _ _ _ _ _ _ := ⟨trivial, fun _ => Iff.rfl⟩
  send _ _ _ _ _ _ _ := ⟨trivial, fun _ => Iff.rfl⟩
  expire _ _ _ _ _ _ _ := ⟨trivial, fun _ => Iff.rfl⟩
  disconnect _ _ := ⟨trivial, fun _ => Iff.rfl⟩
  sticky := .inl fun _ _ _ => id

theorem known_start : ({} : Session).Known where
  numbered r hr := by cases hr
  handlers id entry h := by simp at h
  queue msg hmsg := by cases hmsg
  timers r hr := by cases hr
  slot handling h := by cases h

theorem known_run (es : List Event) : ((reactive idgen).run {} es).Known := by
  apply Reactive.run_invariant (P := fun _ _ => True)
  · intro s e hs _
    exact ((lawless idgen).next hs trivial e).known
  · exact known_start
  · exact Reactive.along_of_at fun _ _ _ _ => trivial

theorem output_drain (writes : Bool) (s : Session) : s.output <+: (s.drain writes).output := by
  unfold drain
  split_ifs
  · split
    · exact List.prefix_rfl
    · rw [output_send]
      exact List.prefix_append _ _
  · exact List.prefix_rfl

theorem output_next {s : Session} (hs : s.Known) (e : Event) :
    s.output <+: (s.next idgen e).output := by
  cases e with
  | call c writes => exact output_run idgen writes _ { s with calls := s.calls + 1 }
  | httpResponse request writes => exact output_run idgen writes _ s
  | receive reply writes =>
      simp only [next]
      split_ifs with hskip
      · exact List.prefix_rfl
      · have hfree : s.handling = none ∧ reply.id ≠ 0 := by simpa using hskip
        have hlog : Quiet s (s.put (.received reply)) := .received reply hfree.1 rfl
        have hleft := (lawless idgen).processResponseMessage reply (hs.quiet hlog) trivial hfree.1
          (slotOf_append s.output _)
        exact (hlog.output.trans hleft.output).trans (output_run idgen writes _ _)
  | expire timer writes =>
      simp only [next]
      split_ifs with hskip
      · exact List.prefix_rfl
      · have htimer : timer ∈ s.timers := (by simpa using hskip : _ ∧ _).2
        cases hentry : s.responseHandlers[timer.id]? with
        | none =>
            rw [timeout, hentry]
            exact List.prefix_rfl
        | some entry =>
            have hleft := (lawless idgen).timeout hs trivial htimer hentry
            have htake : s.output <+: (s.expireTake timer entry).output := List.prefix_append _ _
            exact (htake.trans hleft.output).trans (output_run idgen writes _ _)
  | finish writes =>
      simp only [next, finish]
      split
      · exact List.prefix_rfl
      · split_ifs
        · refine List.IsPrefix.trans ?_ (output_drain writes _)
          exact List.prefix_append _ _
        · exact List.prefix_append _ _
  | drain writes =>
      simp only [next]
      split_ifs
      · exact List.prefix_rfl
      · exact output_drain writes { s with drains := s.drains - 1 }
  | connect =>
      simp only [next]
      split_ifs <;> exact List.prefix_rfl
  | setLocked | disconnect => exact List.prefix_rfl

theorem output_prefix_run {s : Session} (hs : s.Known) (es : List Event) :
    s.output <+: ((reactive idgen).run s es).output := by
  induction es generalizing s with
  | nil => exact List.prefix_rfl
  | cons e es ih =>
      exact (output_next idgen hs e).trans (ih ((lawless idgen).next hs trivial e).known)

end Log

section Runs
variable {idgen}
variable {C : Conditions} {J I : Session → Prop} (hL : Law idgen C J I) (hJ : J {}) (hI : I {})
include hL hJ hI

/-- The property holds in every state of a run exactly if every event of it meets the
conditions. -/
theorem Law.always_iff (es : List Event) :
    (reactive idgen).Always I {} es ↔ (reactive idgen).Along (C.ofEvent idgen) {} es := by
  apply Reactive.always_iff_along (J := fun s => s.Known ∧ J s) (V := fun _ _ => True)
  · intro s e hs _
    have hnext := hL.next hs.1 hs.2 e
    exact ⟨hnext.known, hnext.keeps⟩
  · intro s e hs _ hI
    exact (hL.next hs.1 hs.2 e).exactly hI
  · exact ⟨known_start, hJ⟩
  · exact hI
  · exact Reactive.along_of_at fun _ _ _ _ => trivial

/-- A property of the log that holds at the end of a run has held all along. -/
theorem Law.run_iff (hlog : ∀ s s' : Session, s.output <+: s'.output → I s' → I s)
    (es : List Event) :
    I ((reactive idgen).run {} es) ↔ (reactive idgen).Along (C.ofEvent idgen) {} es := by
  rw [← hL.always_iff hJ hI]
  constructor
  · intro hend
    apply Reactive.always_iff.mpr
    rintro fs gs rfl
    rw [Reactive.run_append] at hend
    exact hlog _ _ (output_prefix_run idgen (known_run idgen fs) gs) hend
  · exact Reactive.Always.last

end Runs

end GreenWallet.Jade.Session
