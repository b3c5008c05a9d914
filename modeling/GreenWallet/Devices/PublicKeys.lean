import Mathlib.Data.List.Nodup
import GreenWallet.Library.Reactive

/-!
# Public keys, one activity at a time

All activities that get a public key from a device, whichever device it is, go through one
dispatcher, which fetches them one after the other. An activity belongs to its device and is
destroyed together with it. A fetch may end at once, but there is nothing left to be done by the
dispatcher then, so that it is the same as one that ends next.
-/
namespace GreenWallet.Devices
open GreenWallet.Library

structure GetWalletPublicKeyActivity where
  id : ℕ
  device : ℕ
deriving DecidableEq

structure GetWalletPublickKeyDispatcher where
  m_queue : List GetWalletPublicKeyActivity := []
  m_activity : Option GetWalletPublicKeyActivity := none
  /-- The activities that have been enqueued, in their order. -/
  enqueued : List GetWalletPublicKeyActivity := []
  fetched : List GetWalletPublicKeyActivity := []
  /-- Those that have finished or failed. -/
  ended : List GetWalletPublicKeyActivity := []
  deleted : List GetWalletPublicKeyActivity := []
  removed : List ℕ := []

inductive DispatcherEvent where
  | exec (activity : GetWalletPublicKeyActivity)
  | finished (activity : GetWalletPublicKeyActivity)
  | failed (activity : GetWalletPublicKeyActivity)
  /-- An activity that has ended is deleted by who has started it. -/
  | deleted (activity : GetWalletPublicKeyActivity)
  /-- `removeDevice`: the device is deleted, and so are its children. -/
  | removeDevice (device : ℕ)

namespace GetWalletPublickKeyDispatcher

def Destroyed (s : GetWalletPublickKeyDispatcher) (activity : GetWalletPublicKeyActivity) : Prop :=
  activity ∈ s.deleted ∨ activity.device ∈ s.removed

instance (s : GetWalletPublickKeyDispatcher) (activity : GetWalletPublicKeyActivity) :
    Decidable (s.Destroyed activity) := inferInstanceAs (Decidable (_ ∨ _))

/-- The activity has been fetched, has not ended and is alive. -/
def Pending (s : GetWalletPublickKeyDispatcher) (activity : GetWalletPublicKeyActivity) : Prop :=
  activity ∈ s.fetched ∧ activity ∉ s.ended ∧ ¬ s.Destroyed activity

instance (s : GetWalletPublickKeyDispatcher) (activity : GetWalletPublicKeyActivity) :
    Decidable (s.Pending activity) := inferInstanceAs (Decidable (_ ∧ _))

def next (s : GetWalletPublickKeyDispatcher) : GetWalletPublickKeyDispatcher :=
  match s.m_activity, s.m_queue with
  | some _, _ => s
  | none, [] => s
  | none, activity :: rest =>
      { s with m_queue := rest, m_activity := some activity, fetched := s.fetched ++ [activity] }

def enqueue (s : GetWalletPublickKeyDispatcher) (activity : GetWalletPublicKeyActivity) :
    GetWalletPublickKeyDispatcher :=
  { s with
    m_queue := s.m_queue ++ [activity]
    enqueued := s.enqueued ++ [activity] }.next

/-- The handlers that an activity has once it is fetched. -/
def ends (s : GetWalletPublickKeyDispatcher) (activity : GetWalletPublicKeyActivity) :
    GetWalletPublickKeyDispatcher :=
  { s with m_activity := none, ended := s.ended ++ [activity] }.next

end GetWalletPublickKeyDispatcher

def dispatcher : Reactive GetWalletPublickKeyDispatcher DispatcherEvent Empty where
  enabled s event :=
    match event with
    | .exec activity => activity ∉ s.enqueued ∧ activity.device ∉ s.removed
    | .finished activity => s.Pending activity
    | .failed activity => s.Pending activity
    | .deleted activity => activity ∈ s.ended
    | .removeDevice device => device ∉ s.removed
  next s event :=
    match event with
    | .exec activity => s.enqueue activity
    | .finished activity => s.ends activity
    | .failed activity => s.ends activity
    | .deleted activity => { s with deleted := activity :: s.deleted }
    | .removeDevice device => { s with removed := device :: s.removed }
  emits _ _ := []

instance (s : GetWalletPublickKeyDispatcher) :
    ∀ event : DispatcherEvent, Decidable (dispatcher.enabled s event)
  | .exec _ => inferInstanceAs (Decidable (_ ∧ _))
  | .finished activity => inferInstanceAs (Decidable (s.Pending activity))
  | .failed activity => inferInstanceAs (Decidable (s.Pending activity))
  | .deleted activity => inferInstanceAs (Decidable (activity ∈ s.ended))
  | .removeDevice device => inferInstanceAs (Decidable (device ∉ s.removed))

namespace GetWalletPublickKeyDispatcher
variable {s : GetWalletPublickKeyDispatcher}

/-- Activities are fetched in the order in which they were enqueued, one at a time; the active
one is alive and has not ended, and none in the queue is destroyed; so the queue is not left
waiting for nothing. -/
structure Serves (s : GetWalletPublickKeyDispatcher) : Prop where
  order : s.fetched ++ s.m_queue = s.enqueued
  alone : ∀ activity other, s.Pending activity → s.Pending other → activity = other
  active : ∀ activity ∈ s.m_activity, s.Pending activity
  queued : ∀ activity ∈ s.m_queue, ¬ s.Destroyed activity
  served : s.m_queue ≠ [] → ∃ activity, s.m_activity = some activity ∧ s.Pending activity

/-- The active activity and those that wait. -/
def line (s : GetWalletPublickKeyDispatcher) : List GetWalletPublicKeyActivity :=
  s.m_activity.toList ++ s.m_queue

/-- No device is removed that has an activity in the queue or an active one. -/
def Spares (s : GetWalletPublickKeyDispatcher) : DispatcherEvent → Prop
  | .removeDevice device => ∀ activity ∈ s.line, activity.device ≠ device
  | _ => True

instance (s : GetWalletPublickKeyDispatcher) : ∀ event, Decidable (s.Spares event)
  | .removeDevice device => inferInstanceAs (Decidable (∀ activity ∈ s.line, activity.device ≠ device))
  | .exec _ => isTrue trivial
  | .finished _ => isTrue trivial
  | .failed _ => isTrue trivial
  | .deleted _ => isTrue trivial

/-- What holds whichever activities are destroyed, also before `next` is called. -/
structure Noted (s : GetWalletPublickKeyDispatcher) : Prop where
  order : s.fetched ++ s.m_queue = s.enqueued
  once : s.enqueued.Nodup
  ended : ∀ activity ∈ s.ended, activity ∈ s.fetched
  deleted : ∀ activity ∈ s.deleted, activity ∈ s.ended
  pending : ∀ activity, s.Pending activity → s.m_activity = some activity
  active : ∀ activity ∈ s.m_activity, activity ∈ s.fetched ∧ activity ∉ s.ended

structure Known (s : GetWalletPublickKeyDispatcher) : Prop extends Noted s where
  idle : s.m_activity = none → s.m_queue = []

theorem Noted.not_ended_of_queued (h : s.Noted) {activity : GetWalletPublicKeyActivity}
    (hqueued : activity ∈ s.m_queue) : activity ∉ s.ended := by
  intro hended
  have hnodup := h.once
  rw [← h.order, List.nodup_append] at hnodup
  exact hnodup.2.2 activity (h.ended activity hended) activity hqueued rfl

/-- With what is known, an activity is served if it and those that wait are alive. -/
theorem Known.serves_iff (h : s.Known) :
    s.Serves ↔ ∀ activity ∈ s.line, ¬ s.Destroyed activity := by
  constructor
  · intro hserves activity hactivity
    rcases List.mem_append.mp hactivity with hactive | hqueued
    · exact (hserves.active activity (Option.mem_toList.mp hactive)).2.2
    · exact hserves.queued activity hqueued
  · intro halive
    have hactive : ∀ activity ∈ s.m_activity, s.Pending activity := by
      intro activity hactivity
      obtain ⟨hfetched, hended⟩ := h.active activity hactivity
      exact ⟨hfetched, hended,
        halive activity (List.mem_append_left _ (Option.mem_toList.mpr hactivity))⟩
    refine ⟨h.order, fun activity other hactivity hother => ?_, hactive, fun activity hqueued =>
      halive activity (List.mem_append_right _ hqueued), fun hne => ?_⟩
    · exact Option.some_inj.mp ((h.pending activity hactivity).symm.trans (h.pending other hother))
    · cases hactivity : s.m_activity with
      | none => exact absurd (h.idle hactivity) hne
      | some activity => exact ⟨activity, rfl, hactive activity hactivity⟩

theorem Noted.not_ended_of_line (h : s.Noted) {activity : GetWalletPublicKeyActivity}
    (hline : activity ∈ s.line) : activity ∉ s.ended := by
  rcases List.mem_append.mp hline with hactive | hqueued
  · exact (h.active activity (Option.mem_toList.mp hactive)).2
  · exact h.not_ended_of_queued hqueued

/-- An activity that is taken out of the queue is the first of the line still. -/
theorem line_next (s : GetWalletPublickKeyDispatcher) :
    s.next.line = s.line ∧ s.next.deleted = s.deleted ∧ s.next.removed = s.removed := by
  rw [next, line, line]
  split
  · exact ⟨rfl, rfl, rfl⟩
  · exact ⟨rfl, rfl, rfl⟩
  · rename_i hactivity hqueue
    rw [hactivity, hqueue]
    exact ⟨rfl, rfl, rfl⟩

theorem line_enqueue (s : GetWalletPublickKeyDispatcher) (activity : GetWalletPublicKeyActivity) :
    (s.enqueue activity).line = s.line ++ [activity] ∧
      (s.enqueue activity).deleted = s.deleted ∧ (s.enqueue activity).removed = s.removed := by
  obtain ⟨hline, hdeleted, hremoved⟩ := line_next { s with
    m_queue := s.m_queue ++ [activity], enqueued := s.enqueued ++ [activity] }
  refine ⟨?_, hdeleted, hremoved⟩
  rw [enqueue, hline, line, line, List.append_assoc]

theorem Noted.next (h : s.Noted) : s.next.Known := by
  cases hactivity : s.m_activity with
  | some activity =>
      have hnext : s.next = s := by rw [GetWalletPublickKeyDispatcher.next, hactivity]
      rw [hnext]
      refine ⟨h, fun hnone => ?_⟩
      rw [hactivity] at hnone
      cases hnone
  | none =>
      cases hqueue : s.m_queue with
      | nil =>
          have hnext : s.next = s := by rw [GetWalletPublickKeyDispatcher.next, hactivity, hqueue]
          rw [hnext]
          exact ⟨h, fun _ => hqueue⟩
      | cons activity rest =>
          have hnext : s.next = { s with
              m_queue := rest, m_activity := some activity
              fetched := s.fetched ++ [activity] } := by
            rw [GetWalletPublickKeyDispatcher.next, hactivity, hqueue]
          have hended : activity ∉ s.ended :=
            h.not_ended_of_queued (hqueue ▸ List.mem_cons_self)
          rw [hnext]
          refine ⟨⟨?_, h.once, ?_, h.deleted, ?_, ?_⟩, fun hnone => by cases hnone⟩
          · rw [← h.order, hqueue, List.append_assoc]
            rfl
          · exact fun other hother => List.mem_append_left _ (h.ended other hother)
          · intro other ⟨hfetched, hpending⟩
            rcases List.mem_append.mp hfetched with hold | hnew
            · have hactive := h.pending other ⟨hold, hpending⟩
              rw [hactivity] at hactive
              cases hactive
            · rw [List.mem_singleton.mp hnew]
          · intro other hother
            rw [← Option.some_inj.mp hother]
            exact ⟨List.mem_append_right _ (List.mem_singleton_self _), hended⟩

theorem Known.ends {activity : GetWalletPublicKeyActivity} (h : s.Known)
    (hpending : s.Pending activity) : (s.ends activity).Known := by
  apply Noted.next
  refine ⟨h.order, h.once, ?_, ?_, ?_, fun _ hnone => by cases hnone⟩
  · intro other hother
    rcases List.mem_append.mp hother with hold | hnew
    · exact h.ended other hold
    · rw [List.mem_singleton.mp hnew]
      exact hpending.1
  · exact fun other hother => List.mem_append_left _ (h.deleted other hother)
  · intro other ⟨hfetched, hended, halive⟩
    have hother := h.pending other
      ⟨hfetched, fun hmem => hended (List.mem_append_left _ hmem), halive⟩
    rw [h.pending activity hpending, Option.some.injEq] at hother
    exact absurd (List.mem_append_right _ (List.mem_singleton.mpr hother.symm)) hended

theorem Known.step {event : DispatcherEvent} (h : s.Known) (henabled : dispatcher.enabled s event) :
    (dispatcher.next s event).Known := by
  cases event with
  | exec activity =>
      apply Noted.next
      refine ⟨?_, ?_, h.ended, h.deleted, h.pending, h.active⟩
      · show s.fetched ++ (s.m_queue ++ [activity]) = s.enqueued ++ [activity]
        rw [← List.append_assoc, h.order]
      · rw [List.nodup_append]
        refine ⟨h.once, List.nodup_singleton _, fun other hother new hnew hsame => ?_⟩
        rw [hsame, List.mem_singleton.mp hnew] at hother
        exact henabled.1 hother
  | finished activity => exact h.ends henabled
  | failed activity => exact h.ends henabled
  | deleted activity =>
      refine ⟨⟨h.order, h.once, h.ended, ?_, ?_, h.active⟩, h.idle⟩
      · intro other hother
        rcases List.mem_cons.mp hother with rfl | hold
        · exact henabled
        · exact h.deleted other hold
      · intro other ⟨hfetched, hended, halive⟩
        exact h.pending other ⟨hfetched, hended, fun hdestroyed => halive (hdestroyed.imp
          (List.mem_cons_of_mem activity) id)⟩
  | removeDevice device =>
      refine ⟨⟨h.order, h.once, h.ended, h.deleted, ?_, h.active⟩, h.idle⟩
      intro other ⟨hfetched, hended, halive⟩
      exact h.pending other ⟨hfetched, hended, fun hdestroyed => halive (hdestroyed.imp
        id (List.mem_cons_of_mem device))⟩

/-- The step keeps everyone in the line alive exactly if it spares them. -/
theorem Known.serves_step {event : DispatcherEvent} (h : s.Known)
    (henabled : dispatcher.enabled s event) (hserves : s.Serves) :
    (dispatcher.next s event).Serves ↔ s.Spares event := by
  have halive := h.serves_iff.mp hserves
  rw [(h.step henabled).serves_iff]
  have hends (activity : GetWalletPublicKeyActivity) :
      ∀ other ∈ (s.ends activity).line, ¬ (s.ends activity).Destroyed other := by
    obtain ⟨hline, hdeleted, hremoved⟩ :=
      line_next { s with m_activity := none, ended := s.ended ++ [activity] }
    intro other hother
    rw [Destroyed, GetWalletPublickKeyDispatcher.ends, hdeleted, hremoved]
    rw [GetWalletPublickKeyDispatcher.ends, hline] at hother
    exact halive other (List.mem_append_right _ hother)
  cases event with
  | exec activity =>
      refine iff_of_true ?_ trivial
      obtain ⟨hline, hdeleted, hremoved⟩ := line_enqueue s activity
      intro other hother
      have hother' : other ∈ (s.enqueue activity).line := hother
      rw [hline, List.mem_append] at hother'
      show ¬ (other ∈ (s.enqueue activity).deleted ∨ other.device ∈ (s.enqueue activity).removed)
      rw [hdeleted, hremoved]
      rcases hother' with hold | hnew
      · exact halive other hold
      · rw [List.mem_singleton.mp hnew]
        rintro (hdeleted | hremoved)
        · exact henabled.1 (h.order ▸ List.mem_append_left _ (h.ended _ (h.deleted _ hdeleted)))
        · exact henabled.2 hremoved
  | finished activity => exact iff_of_true (hends activity) trivial
  | failed activity => exact iff_of_true (hends activity) trivial
  | deleted activity =>
      refine iff_of_true (fun other hother => ?_) trivial
      rintro (hdeleted | hremoved)
      · rcases List.mem_cons.mp hdeleted with rfl | hold
        · exact h.not_ended_of_line hother henabled
        · exact halive other hother (.inl hold)
      · exact halive other hother (.inr hremoved)
  | removeDevice device =>
      constructor
      · intro hnext activity hactivity hsame
        exact hnext activity hactivity (.inr (hsame ▸ List.mem_cons_self))
      · intro hspares other hother
        rintro (hdeleted | hremoved)
        · exact halive other hother (.inl hdeleted)
        · rcases List.mem_cons.mp hremoved with hsame | hold
          · exact hspares other hother hsame
          · exact halive other hother (.inr hold)

/-- Everyone is served exactly if no device is removed that has an activity in the line. -/
theorem serves_iff_spares {events : List DispatcherEvent} (hvalid : dispatcher.Valid {} events) :
    dispatcher.Always Serves {} events ↔ dispatcher.Along Spares {} events := by
  have hstart : Known {} :=
    { order := rfl
      once := List.nodup_nil
      ended := fun _ h => h
      deleted := fun _ h => h
      pending := fun _ h => absurd h.1 List.not_mem_nil
      active := fun _ h => by cases h
      idle := fun _ => rfl }
  exact Reactive.always_iff_along (fun s event h he => h.step he)
    (fun s event h he hserves => h.serves_step he hserves) hstart
    (hstart.serves_iff.mpr fun _ h => absurd h List.not_mem_nil) hvalid

/-- Activities of two devices, the first of which is removed when its activity has ended. -/
theorem serves_iff_spares_removed :
    dispatcher.Always Serves {}
      [.exec ⟨0, 0⟩, .exec ⟨1, 1⟩, .failed ⟨0, 0⟩, .deleted ⟨0, 0⟩, .removeDevice 0,
        .finished ⟨1, 1⟩] := by
  exact (serves_iff_spares (by decide)).mpr (by decide)

/-- The device is removed while its activity is fetched, and another activity waits for ever. -/
theorem not_serves_removed :
    ¬ ∀ events, dispatcher.Valid {} events → dispatcher.Always Serves {} events := by
  intro h
  have hserves := (h [.exec ⟨0, 0⟩, .exec ⟨1, 1⟩, .removeDevice 0] (by decide)).last
  exact absurd (hserves.active ⟨0, 0⟩ rfl) (by decide)

end GetWalletPublickKeyDispatcher
end GreenWallet.Devices
