import GreenWallet.Jade.Laws

/-!
# What is in flight

`JadeAPI::send` hands a message to the connection and puts its id into `m_msg_inflight`
whether or not anything was written, and nothing but an answer or a timer takes it out
again. An id that the device never saw, or saw before the connection was lost, keeps the
queue waiting.
-/
namespace GreenWallet.Jade.Session
open GreenWallet.Library

/-- Every id in flight was written to the connection that is open. -/
def OnWire (s : Session) : Prop :=
  ∀ id ∈ s.msgInflight, s.connected = true ∧ id ∈ s.written

/-- Nothing counts as written to a connection that is closed. -/
def ClosedBlank (s : Session) : Prop := s.connected = false → s.written = []

/-- A message is sent while the connection is open, and its write goes through; the
connection is closed only while nothing is in flight. -/
def wired : Conditions where
  send writes s _ := s.connected = true ∧ writes = true
  disconnect s := s.msgInflight = []

theorem Quiet.closedBlank {s s' : Session} (h : Quiet s s') (hs : s.ClosedBlank) :
    s'.ClosedBlank := by
  intro hconnected
  have hc : s'.tables.connected = false := hconnected
  have hw : s'.written = s'.tables.written := rfl
  cases h with
  | connect _ h =>
      rw [h] at hc
      cases hc
  | same h | put _ _ h | throw _ h | received _ _ h | handle _ _ h | take _ h | drop _ h
  | wait _ _ h | dequeue h | remove _ _ h =>
      rw [hw, h]
      rw [h] at hc
      exact hs hc

theorem Quiet.onWire {s s' : Session} (h : Quiet s s') (hs : s.OnWire) : s'.OnWire := by
  intro id hid
  have hi : id ∈ s'.tables.msgInflight := hid
  have hgoal : s'.connected = s'.tables.connected ∧ s'.written = s'.tables.written := ⟨rfl, rfl⟩
  rw [hgoal.1, hgoal.2]
  cases h with
  | remove k _ h =>
      rw [h] at hi ⊢
      exact hs id (List.mem_of_mem_erase hi)
  | connect hclosed h =>
      rw [h] at hi
      rw [(hs id hi).1] at hclosed
      cases hclosed
  | same h | put _ _ h | throw _ h | received _ _ h | handle _ _ h | take _ h | drop _ h
  | wait _ _ h | dequeue h =>
      rw [h] at hi ⊢
      exact hs id hi

theorem connection_send_true (msg : Message) {s : Session} (h : s.connected = true) :
    (s.send true msg).connected = true ∧ (s.send true msg).written = s.written.insert msg.id := by
  simp only [send, write, put, if_pos h, if_true]
  split_ifs <;> exact ⟨h, rfl⟩

/-- A message that is dropped leaves a closed connection behind. -/
theorem connection_send_dropped {writes : Bool} (msg : Message) {s : Session}
    (hs : s.ClosedBlank) (h : ¬ (s.connected = true ∧ writes = true)) :
    (s.send writes msg).connected = false ∧ (s.send writes msg).written = [] := by
  have hwrite : (s.write writes msg).connected = false ∧ (s.write writes msg).written = [] := by
    unfold write
    split_ifs with hconnected hwrites
    · exact absurd ⟨hconnected, hwrites⟩ h
    · exact ⟨rfl, rfl⟩
    · rw [Bool.not_eq_true] at hconnected
      exact ⟨hconnected, hs hconnected⟩
  simp only [send, put]
  split_ifs <;> exact hwrite

theorem closedBlank_send (writes : Bool) (msg : Message) {s : Session} (hs : s.ClosedBlank) :
    (s.send writes msg).ClosedBlank := by
  intro hconnected
  by_cases h : s.connected = true ∧ writes = true
  · obtain ⟨hc, rfl⟩ := h
    rw [(connection_send_true msg hc).1] at hconnected
    cases hconnected
  · exact (connection_send_dropped msg hs h).2

/-- What is sent is on the wire exactly if it was written. -/
theorem onWire_send_iff (writes : Bool) (msg : Message) {s : Session} (hblank : s.ClosedBlank)
    (hs : s.OnWire) : (s.send writes msg).OnWire ↔ s.connected = true ∧ writes = true := by
  constructor
  · intro hwire
    by_contra h
    have hsent : msg.id ∈ (s.send writes msg).msgInflight := by
      rw [msgInflight_send]
      exact List.mem_insert_self
    have hwritten := (hwire msg.id hsent).2
    rw [(connection_send_dropped msg hblank h).2] at hwritten
    cases hwritten
  · rintro ⟨hconnected, rfl⟩ id hid
    obtain ⟨hc, hwritten⟩ := connection_send_true msg hconnected
    refine ⟨hc, ?_⟩
    rw [msgInflight_send] at hid
    rw [hwritten]
    rcases List.mem_insert_iff.mp hid with rfl | hid
    · exact List.mem_insert_self
    · exact List.mem_insert_of_mem (hs id hid).2

theorem wiredLaw (idgen : ℕ → Fin 90000) : Law idgen wired ClosedBlank OnWire where
  quiet s s' h hJ := ⟨h.closedBlank hJ, h.onWire⟩
  register s call cb timeout _ hJ := by
    obtain ⟨id, k, -, heq⟩ := s.register_spec idgen call cb timeout
    rw [heq]
    exact ⟨hJ, fun hI => iff_of_true hI trivial⟩
  send s writes msg _ _ _ hJ := ⟨closedBlank_send writes msg hJ, onWire_send_iff writes msg hJ⟩
  expire s timer entry _ _ _ hJ := ⟨hJ, fun hI => iff_of_true hI trivial⟩
  disconnect s _ := by
    refine ⟨fun _ => rfl, fun _ => ?_⟩
    constructor
    · intro h
      apply List.eq_nil_iff_forall_not_mem.mpr
      intro id hid
      cases (h id hid).1
    · intro h id hid
      rw [show s.disconnectDevice.msgInflight = s.msgInflight from rfl, h] at hid
      cases hid
  sticky := .inr ⟨fun _ => trivial, fun _ _ => trivial⟩

/-- In every state of a run each id in flight was written to the open connection, exactly
if every message is sent while the connection is open, and its write goes through, and the
connection is closed only while nothing is in flight. -/
theorem always_onWire_iff (idgen : ℕ → Fin 90000) (es : List Event) :
    (reactive idgen).Always OnWire {} es ↔ (reactive idgen).Along (wired.ofEvent idgen) {} es :=
  (wiredLaw idgen).always_iff (fun _ => rfl) (fun _ hid => by cases hid) es

/-- A command is sent before the device is connected, and another one is queued behind it. -/
def sentTooEarly : List Event := [.call (.getXpub 1) true, .connect, .call (.getXpub 2) true]

/-- The connection is lost while a command is in flight, and opened again. -/
def connectionLost : List Event :=
  [.connect, .call (.getXpub 1) true, .disconnect, .connect, .call (.getXpub 2) true]

theorem not_always_onWire_sentTooEarly :
    ((reactive (Fin.ofNat 90000)).Valid {} sentTooEarly ∧
      ¬ (reactive (Fin.ofNat 90000)).Always OnWire {} sentTooEarly) ∧
    (reactive (Fin.ofNat 90000)).Valid {} connectionLost ∧
      ¬ (reactive (Fin.ofNat 90000)).Always OnWire {} connectionLost := by
  refine ⟨⟨by decide, fun h => ?_⟩, by decide, fun h => ?_⟩
  · exact absurd (h.last 10000 (by decide)) (by decide)
  · exact absurd (h.last 10000 (by decide)) (by decide)

end GreenWallet.Jade.Session
