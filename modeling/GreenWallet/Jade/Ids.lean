import GreenWallet.Jade.Laws

/-!
# Request ids

Ids are drawn at random and used again. A registration gives up after five more tries,
the timeout that was noted for an id is never taken back, and a timer remembers the id it
was started for and nothing else. So an id that is drawn again may cost a request its
handler, give it the timeout of an earlier one, or have it cut short by the timer of one.
-/
namespace GreenWallet.Jade.Session
open GreenWallet.Library
open Std (ExtTreeMap)

/-- A registration replaces no other, a timer takes the handler it was started for, and a
message is sent with the timeout of its own request. -/
def Output.Safe : Output → Prop
  | .registered _ replaced => replaced = none
  | .expired timer taken => taken = timer
  | .sent msg timeout => timeout = msg.registration.timeout
  | _ => True

instance : (out : Output) → Decidable out.Safe
  | .registered _ replaced => inferInstanceAs (Decidable (replaced = none))
  | .expired timer taken => inferInstanceAs (Decidable (taken = timer))
  | .sent msg timeout => inferInstanceAs (Decidable (timeout = msg.registration.timeout))
  | .received _ | .removed _ | .called .. | .posted _ | .progress .. | .httpRequested ..
  | .badFunctionCall => isTrue trivial

def IdsSafe (s : Session) : Prop := ∀ out ∈ s.output, out.Safe

instance (s : Session) : Decidable s.IdsSafe :=
  inferInstanceAs (Decidable (∀ out ∈ s.output, out.Safe))

/-- The last timeout that a registration under the id came with, if any did. -/
def lastTimeout (made : List Registration) (id : Int) : Int :=
  made.foldl (fun timeout r => if r.id = id ∧ r.timeout > 0 then r.timeout else timeout) 0

/-- One of six draws is free; no other timeout than that of the request itself was ever
noted for the id of a message after it; and a timer that finds a handler under its id finds
no later registration under it. -/
def unmistaken (idgen : ℕ → Fin 90000) : Conditions where
  register s := s.DrawsFree idgen
  send _ s msg := lastTimeout s.registrations msg.id = msg.registration.timeout
  expire s timer := ∀ r ∈ s.registrations, r.id = timer.id → r.number ≤ timer.number

/-- A handler belongs to the last registration under its id, and the table of timeouts
holds the last one that was given. -/
structure Ledger (s : Session) : Prop where
  latest : ∀ (id : Int) (entry : Entry), s.responseHandlers[id]? = some entry →
    entry.registration.id = id ∧
      ∀ r ∈ s.registrations, r.id = id → r.number ≤ entry.registration.number
  timeouts : ∀ id, (s.msgTimeout[id]?).getD 0 = lastTimeout s.registrations id

theorem Ledger.of_fields {s s' : Session} (hs : s.Ledger)
    (hmade : s'.registrations = s.registrations) (htimeouts : s'.msgTimeout = s.msgTimeout)
    (hhandlers : ∀ (id : Int) (entry : Entry), s'.responseHandlers[id]? = some entry →
      s.responseHandlers[id]? = some entry) : s'.Ledger where
  latest id entry h := by
    rw [hmade]
    exact hs.latest id entry (hhandlers id entry h)
  timeouts id := by
    rw [hmade, htimeouts]
    exact hs.timeouts id

theorem Quiet.ledger {s s' : Session} (h : Quiet s s') (hs : s.Ledger) : s'.Ledger := by
  apply hs.of_fields h.registrations
  · cases h <;> exact congrArg Tables.msgTimeout ‹s'.tables = _›
  · exact h.handlers

theorem lastTimeout_append (made : List Registration) (r : Registration) (id : Int) :
    lastTimeout (made ++ [r]) id =
      if r.id = id ∧ r.timeout > 0 then r.timeout else lastTimeout made id :=
  List.foldl_append

theorem idsSafe_append {s s' : Session} {out : Output} (h : s'.output = s.output ++ [out])
    (hs : s.IdsSafe) : s'.IdsSafe ↔ out.Safe := by
  unfold IdsSafe
  rw [h]
  constructor
  · intro hall
    exact hall out (List.mem_append_right _ (List.mem_singleton_self out))
  · intro hout o ho
    rcases List.mem_append.mp ho with ho | ho
    · exact hs o ho
    · rw [List.mem_singleton.mp ho]
      exact hout

theorem Quiet.idsSafe {s s' : Session} (h : Quiet s s') (hs : s.IdsSafe) : s'.IdsSafe := by
  cases h with
  | put out hquiet h =>
      rw [idsSafe_append (congrArg Tables.output h) hs]
      cases out <;> first | exact trivial | cases hquiet
  | throw _ h | received _ _ h | remove _ _ h =>
      exact (idsSafe_append (congrArg Tables.output h) hs).mpr trivial
  | same h | handle _ _ h | take _ h | drop _ h | wait _ _ h | dequeue h | connect _ h =>
      have hout : s'.output = s.output := congrArg Tables.output h
      unfold IdsSafe
      rw [hout]
      exact hs

theorem Ledger.register (idgen : ℕ → Fin 90000) {s : Session} (hk : s.Known) (hs : s.Ledger)
    (call : Call) (cb : Handler) (timeout : Int) :
    (s.registerResponseHandler idgen call cb timeout).2.Ledger := by
  obtain ⟨id, k, -, heq⟩ := s.register_spec idgen call cb timeout
  rw [heq]
  constructor
  · intro k entry hentry
    rw [ExtTreeMap.getElem?_insert] at hentry
    split_ifs at hentry with hk'
    · obtain rfl := Option.some.inj hentry
      rw [Std.compare_eq_iff_eq] at hk'
      refine ⟨hk', fun r hr _ => ?_⟩
      rcases List.mem_append.mp hr with hr | hr
      · exact Nat.le_of_lt (hk.number_lt hr)
      · exact Nat.le_of_eq (congrArg Registration.number (List.mem_singleton.mp hr))
    · obtain ⟨hid, hlatest⟩ := hs.latest k entry hentry
      refine ⟨hid, fun r hr hrid => ?_⟩
      rcases List.mem_append.mp hr with hr | hr
      · exact hlatest r hr hrid
      · rw [List.mem_singleton.mp hr] at hrid
        rw [Std.compare_eq_iff_eq] at hk'
        exact absurd hrid hk'
  · intro k
    rw [lastTimeout_append, ← hs.timeouts k]
    simp only
    by_cases htimeout : timeout > 0
    · rw [if_pos htimeout, ExtTreeMap.getElem?_insert]
      by_cases hk' : id = k
      · simp [hk', htimeout]
      · simp [hk']
    · simp [htimeout]

/-- A timer takes the handler it was started for exactly if its id was not given out since. -/
theorem taken_eq_iff {s : Session} (hk : s.Known) (hs : s.Ledger) {timer : Registration}
    {entry : Entry} (htimer : timer ∈ s.registrations)
    (hentry : s.responseHandlers[timer.id]? = some entry) :
    entry.registration = timer ↔
      ∀ r ∈ s.registrations, r.id = timer.id → r.number ≤ timer.number := by
  obtain ⟨hid, hlatest⟩ := hs.latest _ _ hentry
  constructor
  · intro heq
    rw [heq] at hlatest
    exact hlatest
  · intro hall
    have hmade := (hk.handlers _ _ hentry).1
    have hnumber : entry.registration.number = timer.number :=
      Nat.le_antisymm (hall _ hmade hid) (hlatest timer htimer rfl)
    have hboth := hk.numbered _ hmade
    rw [hnumber, hk.numbered timer htimer] at hboth
    exact (Option.some.inj hboth).symm

theorem unmistakenLaw (idgen : ℕ → Fin 90000) : Law idgen (unmistaken idgen) Ledger IdsSafe where
  quiet s s' h hJ := ⟨h.ledger hJ, h.idsSafe⟩
  register s call cb timeout hk hJ := by
    refine ⟨hJ.register idgen hk call cb timeout, fun hI => ?_⟩
    obtain ⟨id, k, hfree, heq⟩ := s.register_spec idgen call cb timeout
    rw [heq, idsSafe_append rfl hI]
    refine Iff.trans ?_ hfree
    simp only [Output.Safe]
    rw [Option.map_eq_none_iff, ExtTreeMap.mem_iff_isSome_getElem?, Option.not_isSome_iff_eq_none]
  send s writes msg _ _ _ hJ := by
    obtain ⟨hmade, hhandlers, htimeouts, -⟩ := send_frame writes msg s
    refine ⟨hJ.of_fields hmade htimeouts fun id entry h => by rwa [hhandlers] at h, fun hI => ?_⟩
    rw [idsSafe_append (output_send writes msg s) hI]
    simp only [Output.Safe, unmistaken, hJ.timeouts]
  expire s timer entry hk htimer hentry hJ := by
    have hmade : (s.expireTake timer entry).registrations = s.registrations := rfl
    refine ⟨hJ.of_fields hmade rfl fun id entry h => getElem?_of_erase h, fun hI => ?_⟩
    have hout : (s.expireTake timer entry).output =
        s.output ++ [.expired timer entry.registration] := rfl
    rw [idsSafe_append hout hI]
    exact taken_eq_iff hk hJ htimer hentry
  disconnect s hJ := by
    have hmade : s.disconnectDevice.registrations = s.registrations := rfl
    exact ⟨hJ.of_fields hmade rfl fun _ _ h => h, fun hI => iff_of_true hI trivial⟩
  sticky := .inl fun s s' h hs' out hout => hs' out (h.subset hout)

theorem ledger_start : ({} : Session).Ledger where
  latest id entry h := by simp at h
  timeouts id := by simp [lastTimeout]

/-- All ids are safe in a run exactly if each time one of six draws is free, each message
finds its own timeout under its id, and each timer that finds a handler finds no later
registration under its id. -/
theorem idsSafe_iff (idgen : ℕ → Fin 90000) (es : List Event) :
    ((reactive idgen).run {} es).IdsSafe ↔
      (reactive idgen).Along ((unmistaken idgen).ofEvent idgen) {} es :=
  (unmistakenLaw idgen).run_iff ledger_start (fun _ h => by cases h)
    (fun _ _ h hs' out hout => hs' out (h.subset hout)) es

/-- Two commands are waiting for their answers, and all draws give one id. -/
def sameIdTwice : List Event := [.connect, .call (.getXpub 1) true, .call (.getXpub 2) true]

/-- A ping is answered; the next one gets its id, and then the timer of the first runs out. -/
def timerOutlivesPing : List Event :=
  [.connect, .call (.ping 1) true, .receive { id := 10000, result := some true } true, .finish true,
    .call (.ping 2) true,
    .expire { number := 0, id := 10000, timeout := 1000, call := ⟨1, false⟩ } true]

/-- A ping is answered, and a command that takes its time gets its id. -/
def timeoutInherited : List Event :=
  [.connect, .call (.ping 1) true, .receive { id := 10000, result := some true } true, .finish true,
    .call (.getXpub 2) true]

theorem not_idsSafe_timeoutInherited :
    ((reactive fun _ => 0).Valid {} sameIdTwice ∧
      ¬ ((reactive fun _ => 0).run {} sameIdTwice).IdsSafe) ∧
    ((reactive fun _ => 0).Valid {} timerOutlivesPing ∧
      ¬ ((reactive fun _ => 0).run {} timerOutlivesPing).IdsSafe) ∧
    (reactive fun _ => 0).Valid {} timeoutInherited ∧
      ¬ ((reactive fun _ => 0).run {} timeoutInherited).IdsSafe := by
  decide

end GreenWallet.Jade.Session
