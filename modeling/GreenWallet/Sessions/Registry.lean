import GreenWallet.Library.Leases
import GreenWallet.Sessions.Session

/-!
# The sessions of the application

The network library reports to its sessions on a thread of its own, and knows them by number.
An active session has a number, under which it is registered. A notification is posted to the
session that is registered under its number then, and handled when the application gets to it.
-/
namespace GreenWallet.Sessions
open GreenWallet.Library GreenWallet.Wallets

/-- The sessions are known by the order in which they have been made. -/
structure World where
  sessions : ℕ → Option Session := fun _ => none
  made : ℕ := 0
  g_session_id : ℕ := 0
  g_sessions : ℕ → Option ℕ := fun _ => none
  posted : List (ℕ × JsonObject) := []
  /-- How many `GA_session`s the library has made, and which it has destroyed. -/
  created : ℕ := 0
  destroyed : List ℕ := []

inductive WorldEvent where
  | make (network : Network)
  | setActive (object : ℕ) (active : Bool)
  | delete (object : ℕ)
  /-- The library reports to whom it knows by the number. -/
  | notify (id : ℕ) (details : JsonObject)
  | deliver

namespace World

/-- `GA_create_session`, the registration, and `GA_set_notification_handler`. -/
def activate (object : ℕ) (session : Session) (w : World) : World :=
  { w with
    sessions := Function.update w.sessions object
      (some { session with m_session := some w.created, m_id := w.g_session_id + 1 })
    g_session_id := w.g_session_id + 1
    g_sessions := Function.update w.g_sessions (w.g_session_id + 1) (some object)
    created := w.created + 1 }

/-- The registration is removed, and `GA_destroy_session`. -/
def deactivate (object handle : ℕ) (session : Session) (w : World) : World :=
  { w with
    sessions := Function.update w.sessions object
      (some { session with m_session := none, m_id := 0 })
    g_sessions := Function.update w.g_sessions session.m_id none
    destroyed := w.destroyed ++ [handle] }

def update (object : ℕ) (session : Session) (w : World) : World :=
  match session.m_active, session.m_session with
  | true, none => w.activate object session
  | false, some handle => w.deactivate object handle session
  | _, _ => { w with sessions := Function.update w.sessions object (some session) }

def setActive (object : ℕ) (active : Bool) (w : World) : World :=
  match w.sessions object with
  | none => w
  | some session =>
      if session.m_active = active then w
      else w.update object (Session.emit .activeChanged { session with m_active := active })

def make (network : Network) (w : World) : World :=
  { w with
    sessions := Function.update w.sessions w.made (some { m_network := network })
    made := w.made + 1 }

/-- What was posted to the object goes with it. -/
def remove (object : ℕ) (w : World) : World :=
  { w with
    sessions := Function.update w.sessions object none
    posted := w.posted.filter fun post => post.1 != object }

/-- The destructor. -/
def delete (object : ℕ) (w : World) : World := (w.setActive object false).remove object

/-- The notification handler. -/
def notify (id : ℕ) (details : JsonObject) (w : World) : World :=
  match w.g_sessions id with
  | none => w
  | some object =>
      match w.sessions object with
      | none => w
      | some _ => { w with posted := w.posted ++ [(object, details)] }

/-- The application gets to the first of what is posted. -/
def deliver (w : World) : World :=
  match w.posted with
  | [] => w
  | (object, notification) :: posted =>
      match w.sessions object with
      | none => { w with posted := posted }
      | some session =>
          { w with
            posted := posted
            sessions := Function.update w.sessions object
              (some (session.handleNotification notification)) }

def next (w : World) : WorldEvent → World
  | .make network => w.make network
  | .setActive object active => w.setActive object active
  | .delete object => w.delete object
  | .notify id details => w.notify id details
  | .deliver => w.deliver

end World

/-- All can happen at any time: the library may report late, under a number given up. -/
def world : Reactive World WorldEvent Empty where
  enabled := fun _ _ => True
  next := World.next
  emits := fun _ _ => []

namespace World

/-- The number of an active session. -/
def idOf (w : World) (object : ℕ) : Option ℕ :=
  match w.sessions object with
  | none => none
  | some session => if session.m_active then some session.m_id else none

def handleOf (w : World) (object : ℕ) : Option ℕ :=
  match w.sessions object with
  | none => none
  | some session => session.m_session

def ids (w : World) : Leases ℕ where
  next := w.g_session_id + 1
  holds := w.idOf

def handles (w : World) : Leases ℕ where
  next := w.created
  holds := w.handleOf

/-- Numbers and `GA_session`s are leased to the active sessions. The registry finds a session by
its number, and a `GA_session` has been destroyed once where it is no longer held. -/
structure Kept (w : World) : Prop where
  ids : w.ids.Kept
  registered : Leases.Finds w.g_sessions w.ids
  handles : w.handles.Kept
  destroyed : Leases.Ended w.destroyed w.handles
  active_iff : ∀ object session, w.sessions object = some session →
    (session.m_active = true ↔ session.m_session.isSome = true)
  made : ∀ object session, w.sessions object = some session → object < w.made
  posted : ∀ post ∈ w.posted, (w.sessions post.1).isSome = true

/-- The invariant holds after the step, and numbers are leased and given back only. -/
structure Moves (w w' : World) : Prop where
  kept : w'.Kept
  ids : Leases.Later w.ids w'.ids

theorem idOf_update (w : World) (object : ℕ) (session : Session) :
    idOf { w with sessions := Function.update w.sessions object (some session) } =
      Function.update w.idOf object (if session.m_active then some session.m_id else none) := by
  funext other
  by_cases h : other = object
  · simp [idOf, h]
  · simp [idOf, h]

theorem handleOf_update (w : World) (object : ℕ) (session : Session) :
    handleOf { w with sessions := Function.update w.sessions object (some session) } =
      Function.update w.handleOf object session.m_session := by
  funext other
  by_cases h : other = object
  · simp [handleOf, h]
  · simp [handleOf, h]

theorem forall_update {sessions : ℕ → Option Session} {P : ℕ → Session → Prop}
    (h : ∀ object session, sessions object = some session → P object session) {object : ℕ}
    {session : Session} (hsession : P object session) (other : ℕ) (found : Session)
    (hfound : Function.update sessions object (some session) other = some found) :
    P other found := by
  rw [Function.update_apply] at hfound
  split_ifs at hfound with heq
  · rw [heq, ← Option.some.inj hfound]
    exact hsession
  · exact h other found hfound

theorem isSome_update {sessions : ℕ → Option Session} (object : ℕ) (session : Session) {other : ℕ}
    (h : (sessions other).isSome = true) :
    (Function.update sessions object (some session) other).isSome = true := by
  rw [Function.update_apply]
  split_ifs
  · rfl
  · exact h

/-- What is posted is handled, or dropped, and the object stays as active as it is. -/
theorem Kept.put {w : World} (hw : w.Kept) {object : ℕ} {old session : Session}
    (hold : w.sessions object = some old) (hactive : session.m_active = old.m_active)
    (hsession : session.m_session = old.m_session) (hid : session.m_id = old.m_id)
    {posted : List (ℕ × JsonObject)} (hposted : ∀ post ∈ posted, post ∈ w.posted) :
    Moves w { w with
      sessions := Function.update w.sessions object (some session)
      posted := posted } := by
  have hidOf : idOf { w with sessions := Function.update w.sessions object (some session) } =
      w.idOf := by
    rw [idOf_update, hactive, hid, Function.update_eq_self_iff]
    simp [idOf, hold]
  have hhandleOf : handleOf { w with sessions := Function.update w.sessions object (some session) } =
      w.handleOf := by
    rw [handleOf_update, hsession, Function.update_eq_self_iff]
    simp [handleOf, hold]
  have hids : World.ids { w with
      sessions := Function.update w.sessions object (some session)
      posted := posted } = w.ids := congrArg (Leases.mk (w.g_session_id + 1)) hidOf
  have hhandles : World.handles { w with
      sessions := Function.update w.sessions object (some session)
      posted := posted } = w.handles := congrArg (Leases.mk w.created) hhandleOf
  constructor
  · constructor
    · exact hids ▸ hw.ids
    · exact hids ▸ hw.registered
    · exact hhandles ▸ hw.handles
    · exact hhandles ▸ hw.destroyed
    · apply forall_update hw.active_iff
      rw [hactive, hsession]
      exact hw.active_iff object old hold
    · exact forall_update hw.made (hw.made object old hold)
    · intro post hpost
      exact isSome_update object session (hw.posted post (hposted post hpost))
  · rw [hids]
    exact .same w.ids

theorem ids_activate (object : ℕ) {session : Session} (hactive : session.m_active = true)
    (w : World) : (w.activate object session).ids = w.ids.lease object := by
  have hids := idOf_update w object
    { session with m_session := some w.created, m_id := w.g_session_id + 1 }
  rw [if_pos hactive] at hids
  exact congrArg (Leases.mk (w.g_session_id + 1 + 1)) hids

theorem handles_activate (object : ℕ) (session : Session) (w : World) :
    (w.activate object session).handles = w.handles.lease object :=
  congrArg (Leases.mk (w.created + 1)) (handleOf_update w object _)

theorem ids_deactivate (object handle : ℕ) {session : Session} (hactive : session.m_active = false)
    (w : World) : (w.deactivate object handle session).ids = w.ids.release object := by
  have hids := idOf_update w object { session with m_session := none, m_id := 0 }
  rw [if_neg (Bool.eq_false_iff.mp hactive)] at hids
  exact congrArg (Leases.mk (w.g_session_id + 1)) hids

theorem handles_deactivate (object handle : ℕ) (session : Session) (w : World) :
    (w.deactivate object handle session).handles = w.handles.release object :=
  congrArg (Leases.mk w.created) (handleOf_update w object _)

theorem Kept.activate {w : World} (hw : w.Kept) {object : ℕ} {old session : Session}
    (hold : w.sessions object = some old) (hinactive : old.m_active = false)
    (hnone : old.m_session = none) (hactive : session.m_active = true) :
    (w.activate object session).Kept := by
  have hid : w.ids.holds object = none := by simp [World.ids, idOf, hold, hinactive]
  have hhandle : w.handles.holds object = none := by simp [World.handles, handleOf, hold, hnone]
  constructor
  · rw [ids_activate object hactive]
    exact hw.ids.lease object
  · rw [ids_activate object hactive]
    exact hw.registered.lease hw.ids hid
  · rw [handles_activate]
    exact hw.handles.lease object
  · rw [handles_activate]
    exact hw.destroyed.lease hw.handles hhandle
  · exact forall_update hw.active_iff (iff_of_true hactive rfl)
  · exact forall_update hw.made (hw.made object old hold)
  · intro post hpost
    exact isSome_update object _ (hw.posted post hpost)

theorem Kept.deactivate {w : World} (hw : w.Kept) {object handle : ℕ} {old session : Session}
    (hold : w.sessions object = some old) (hwas : old.m_active = true)
    (hhandle : old.m_session = some handle) (hactive : session.m_active = false)
    (hid : session.m_id = old.m_id) : (w.deactivate object handle session).Kept := by
  have hholds : w.ids.holds object = some session.m_id := by
    simp [World.ids, idOf, hold, hwas, hid]
  have hheld : w.handles.holds object = some handle := by
    simp [World.handles, handleOf, hold, hhandle]
  constructor
  · rw [ids_deactivate object handle hactive]
    exact hw.ids.release object
  · rw [ids_deactivate object handle hactive]
    exact hw.registered.release hw.ids hholds
  · rw [handles_deactivate]
    exact hw.handles.release object
  · rw [handles_deactivate]
    exact hw.destroyed.release hw.handles hheld
  · apply forall_update hw.active_iff
    exact iff_of_false (Bool.eq_false_iff.mp hactive) Bool.false_ne_true
  · exact forall_update hw.made (hw.made object old hold)
  · intro post hpost
    exact isSome_update object _ (hw.posted post hpost)

theorem Kept.setActive {w : World} (hw : w.Kept) (object : ℕ) (active : Bool) :
    Moves w (w.setActive object active) := by
  unfold World.setActive
  cases hold : w.sessions object with
  | none => exact ⟨hw, .same w.ids⟩
  | some old =>
      have hiff := hw.active_iff object old hold
      simp only
      split_ifs with hsame
      · exact ⟨hw, .same w.ids⟩
      · unfold World.update
        cases active with
        | true =>
            have hinactive : old.m_active = false := Bool.eq_false_iff.mpr hsame
            have hnone : old.m_session = none := by
              rw [hinactive] at hiff
              exact Option.not_isSome_iff_eq_none.mp fun h => Bool.false_ne_true (hiff.mpr h)
            simp only [Session.emit, hnone]
            refine ⟨hw.activate hold hinactive hnone rfl, ?_⟩
            rw [ids_activate object rfl]
            exact .lease w.ids object
        | false =>
            have hwas : old.m_active = true := by
              cases h : old.m_active with
              | true => rfl
              | false => exact absurd h hsame
            obtain ⟨handle, hhandle⟩ := Option.isSome_iff_exists.mp (hiff.mp hwas)
            simp only [Session.emit, hhandle]
            refine ⟨hw.deactivate hold hwas hhandle rfl rfl, ?_⟩
            rw [ids_deactivate object handle rfl]
            exact .release w.ids object

theorem m_active_setActive (w : World) {object : ℕ} {session : Session}
    (h : (w.setActive object false).sessions object = some session) :
    session.m_active = false := by
  unfold setActive at h
  cases hold : w.sessions object with
  | none => simp [hold] at h
  | some old =>
      simp only [hold] at h
      split_ifs at h with hsame
      · rw [hold] at h
        rw [← Option.some.inj h]
        exact hsame
      · cases hhandle : old.m_session with
        | none => simp [update, Session.emit, hhandle] at h; rw [← h]
        | some handle => simp [update, deactivate, Session.emit, hhandle] at h; rw [← h]

/-- An inactive object can go. -/
theorem Kept.remove {w : World} (hw : w.Kept) {object : ℕ}
    (hinactive : ∀ session, w.sessions object = some session → session.m_active = false) :
    (w.remove object).Kept ∧ (w.remove object).ids = w.ids := by
  have hidOf : (w.remove object).idOf = w.idOf := by
    funext other
    by_cases h : other = object
    · rw [h]
      cases hold : w.sessions object with
      | none => simp [World.remove, idOf, hold]
      | some old => simp [World.remove, idOf, hold, hinactive old hold]
    · simp [World.remove, idOf, h]
  have hhandleOf : (w.remove object).handleOf = w.handleOf := by
    funext other
    by_cases h : other = object
    · rw [h]
      cases hold : w.sessions object with
      | none => simp [World.remove, handleOf, hold]
      | some old =>
          have hiff := hw.active_iff object old hold
          rw [hinactive old hold] at hiff
          have hnone : old.m_session = none :=
            Option.not_isSome_iff_eq_none.mp fun h => Bool.false_ne_true (hiff.mpr h)
          simp [World.remove, handleOf, hold, hnone]
    · simp [World.remove, handleOf, h]
  have hids : (w.remove object).ids = w.ids := congrArg (Leases.mk (w.g_session_id + 1)) hidOf
  have hhandles : (w.remove object).handles = w.handles := congrArg (Leases.mk w.created) hhandleOf
  have hfound : ∀ other session, (w.remove object).sessions other = some session →
      w.sessions other = some session := by
    intro other session h
    simp only [World.remove, Function.update_apply] at h
    split_ifs at h
    exact h
  refine ⟨?_, hids⟩
  constructor
  · exact hids ▸ hw.ids
  · exact hids ▸ hw.registered
  · exact hhandles ▸ hw.handles
  · exact hhandles ▸ hw.destroyed
  · exact fun other session h => hw.active_iff other session (hfound other session h)
  · exact fun other session h => hw.made other session (hfound other session h)
  · intro post hpost
    obtain ⟨hmem, hne⟩ := List.mem_filter.mp hpost
    have hother : post.1 ≠ object := bne_iff_ne.mp hne
    simp only [World.remove, Function.update_of_ne hother]
    exact hw.posted post hmem

theorem Kept.delete {w : World} (hw : w.Kept) (object : ℕ) : Moves w (w.delete object) := by
  have hinactive := hw.setActive object false
  have hremoved := hinactive.kept.remove fun _ h => m_active_setActive w h
  refine ⟨hremoved.1, ?_⟩
  unfold World.delete
  rw [hremoved.2]
  exact hinactive.ids

theorem Kept.make {w : World} (hw : w.Kept) (network : Network) : Moves w (w.make network) := by
  have hfresh : w.sessions w.made = none := by
    cases h : w.sessions w.made with
    | none => rfl
    | some session => exact absurd (hw.made _ _ h) (Nat.lt_irrefl _)
  have hidOf : (w.make network).idOf = w.idOf := by
    have hupdate := idOf_update w w.made { m_network := network }
    refine hupdate.trans ?_
    rw [Function.update_eq_self_iff]
    simp [idOf, hfresh]
  have hhandleOf : (w.make network).handleOf = w.handleOf := by
    have hupdate := handleOf_update w w.made { m_network := network }
    refine hupdate.trans ?_
    rw [Function.update_eq_self_iff]
    simp [handleOf, hfresh]
  have hids : (w.make network).ids = w.ids := congrArg (Leases.mk (w.g_session_id + 1)) hidOf
  have hhandles : (w.make network).handles = w.handles := congrArg (Leases.mk w.created) hhandleOf
  constructor
  · constructor
    · exact hids ▸ hw.ids
    · exact hids ▸ hw.registered
    · exact hhandles ▸ hw.handles
    · exact hhandles ▸ hw.destroyed
    · exact forall_update hw.active_iff (by simp)
    · exact forall_update (P := fun object _ => object < w.made + 1)
        (fun object session h => Nat.lt_succ_of_lt (hw.made object session h))
        (Nat.lt_succ_self w.made)
    · intro post hpost
      exact isSome_update w.made _ (hw.posted post hpost)
  · rw [hids]
    exact .same w.ids

theorem Kept.notify {w : World} (hw : w.Kept) (id : ℕ) (details : JsonObject) :
    Moves w (w.notify id details) := by
  unfold World.notify
  cases hobject : w.g_sessions id with
  | none => exact ⟨hw, .same w.ids⟩
  | some object =>
      cases hsession : w.sessions object with
      | none => simp only [hsession]; exact ⟨hw, .same w.ids⟩
      | some session =>
          simp only [hsession]
          refine ⟨{ hw with posted := ?_ }, .same w.ids⟩
          intro post hpost
          cases List.mem_append.mp hpost with
          | inl hpost => exact hw.posted post hpost
          | inr hpost =>
              rw [List.mem_singleton.mp hpost]
              exact Option.isSome_iff_exists.mpr ⟨session, hsession⟩

end World

namespace Session

theorem handleEvent_eq (event : String) (value : Option Json) (s : Session) :
    (s.handleEvent event value).m_active = s.m_active ∧
      (s.handleEvent event value).m_session = s.m_session ∧
      (s.handleEvent event value).m_id = s.m_id := by
  unfold handleEvent
  split_ifs
  · unfold setConnected
    split_ifs <;> exact ⟨rfl, rfl, rfl⟩
  · exact ⟨rfl, rfl, rfl⟩
  · unfold setSettings
    split_ifs
    · exact ⟨rfl, rfl, rfl⟩
    · unfold setUnit
      split_ifs <;> exact ⟨rfl, rfl, rfl⟩
  · exact ⟨rfl, rfl, rfl⟩
  · unfold setBlock
    split_ifs <;> exact ⟨rfl, rfl, rfl⟩
  · exact ⟨rfl, rfl, rfl⟩
  · exact ⟨rfl, rfl, rfl⟩
  · exact ⟨rfl, rfl, rfl⟩
  · exact ⟨rfl, rfl, rfl⟩

end Session

namespace World

theorem Kept.deliver {w : World} (hw : w.Kept) : Moves w w.deliver := by
  unfold World.deliver
  cases hposted : w.posted with
  | nil => exact ⟨hw, .same w.ids⟩
  | cons post posted =>
      have hsub : ∀ other ∈ posted, other ∈ w.posted := by
        intro other hother
        rw [hposted]
        exact List.mem_cons_of_mem post hother
      simp only
      cases hsession : w.sessions post.1 with
      | none =>
          exact ⟨{ hw with posted := fun other hother => hw.posted other (hsub other hother) },
            .same w.ids⟩
      | some session =>
          have hsame := Session.handleEvent_eq (Json.toString (post.2.value "event"))
            (post.2.value (Json.toString (post.2.value "event")))
            (Session.setEvent (Json.toString (post.2.value "event"))
              (post.2.value (Json.toString (post.2.value "event")))
              (session.emit (.notificationHandled post.2)))
          exact hw.put hsession hsame.1 hsame.2.1 hsame.2.2 hsub

theorem Kept.next {w : World} (hw : w.Kept) (e : WorldEvent) : Moves w (w.next e) := by
  cases e with
  | make network => exact hw.make network
  | setActive object active => exact hw.setActive object active
  | delete object => exact hw.delete object
  | notify id details => exact hw.notify id details
  | deliver => exact hw.deliver

theorem Kept.fresh : World.Kept {} where
  ids := ⟨by simp [World.ids, idOf], by simp [World.ids, idOf]⟩
  registered := by simp [Leases.Finds, World.ids, idOf]
  handles := ⟨by simp [World.handles, handleOf], by simp [World.handles, handleOf]⟩
  destroyed := ⟨List.nodup_nil, by simp, by simp [World.handles, handleOf]⟩
  active_iff := nofun
  made := nofun
  posted := nofun

theorem along_true (w : World) (es : List WorldEvent) : world.Along (fun _ _ => True) w es := by
  induction es generalizing w with
  | nil => trivial
  | cons e es ih => exact ⟨trivial, ih _⟩

theorem kept_run (es : List WorldEvent) : (world.run {} es).Kept :=
  Reactive.run_invariant (I := World.Kept) (P := fun _ _ => True)
    (fun _ e hw _ => (hw.next e).kept) .fresh (along_true {} es)

/-- The object is a session that is active under the number. -/
def Active (w : World) (object id : ℕ) : Prop :=
  ∃ session, w.sessions object = some session ∧ session.m_active = true ∧ session.m_id = id

theorem idOf_eq_some_iff (w : World) (object id : ℕ) :
    w.idOf object = some id ↔ w.Active object id := by
  unfold idOf Active
  cases w.sessions object with
  | none => simp
  | some session =>
      cases hactive : session.m_active <;> simp [hactive]

/-- The object is an active session, and the `GA_session` is its own. -/
def Owns (w : World) (object handle : ℕ) : Prop :=
  ∃ session, w.sessions object = some session ∧ session.m_active = true ∧
    session.m_session = some handle

theorem Kept.handleOf_eq_some_iff {w : World} (hw : w.Kept) (object handle : ℕ) :
    w.handleOf object = some handle ↔ w.Owns object handle := by
  unfold World.handleOf Owns
  cases hsession : w.sessions object with
  | none => simp
  | some session =>
      have hiff := hw.active_iff object session hsession
      simp only [Option.some.injEq, exists_eq_left']
      constructor
      · intro h
        exact ⟨hiff.mpr (by rw [h]; rfl), h⟩
      · exact And.right

theorem Kept.exists_owns {w : World} (hw : w.Kept) {object id : ℕ} (h : w.Active object id) :
    ∃ handle, w.Owns object handle := by
  obtain ⟨session, hsession, hactive, _⟩ := h
  have hheld := (hw.active_iff object session hsession).mp hactive
  obtain ⟨handle, hhandle⟩ := Option.isSome_iff_exists.mp hheld
  exact ⟨handle, session, hsession, hactive, hhandle⟩

theorem Owns.eq {w : World} {object handle other : ℕ} (h : w.Owns object handle)
    (hother : w.Owns object other) : other = handle := by
  obtain ⟨session, hsession, _, hhandle⟩ := h
  obtain ⟨found, hfound, _, hheld⟩ := hother
  rw [hsession] at hfound
  rw [← Option.some.inj hfound, hhandle] at hheld
  exact (Option.some.inj hheld).symm

/-- **The registry is exact.** At any time, whatever sessions are made, activated and deleted and
whatever the library reports: the registry has the active sessions under their numbers. A number
belongs to one session, from its activation on without a break. The `GA_session`s that have not
been destroyed belong to the active sessions, each of which has one of its own, and none has been
destroyed twice. -/
theorem registry_exact (es fs gs : List WorldEvent) :
    (∀ id object, (world.run {} es).g_sessions id = some object ↔
        (world.run {} es).Active object id) ∧
      (∀ id object other, (world.run {} es).Active object id →
        (world.run {} (es ++ (fs ++ gs))).Active other id →
          other = object ∧ (world.run {} (es ++ fs)).Active object id) ∧
      (∀ handle, handle < (world.run {} es).created ∧ handle ∉ (world.run {} es).destroyed ↔
        ∃ object, (world.run {} es).Owns object handle) ∧
      (∀ handle object other, (world.run {} es).Owns object handle →
        (world.run {} es).Owns other handle → object = other) ∧
      (∀ object id, (world.run {} es).Active object id →
        ∃! handle, (world.run {} es).Owns object handle) ∧
      (world.run {} es).destroyed.Nodup := by
  have hw := kept_run es
  refine ⟨?_, ?_, ?_, ?_, ?_, hw.destroyed.nodup⟩
  · intro id object
    rw [← idOf_eq_some_iff]
    exact hw.registered id object
  · intro id object other hfirst hlast
    rw [← idOf_eq_some_iff] at hfirst hlast ⊢
    rw [Reactive.run_append] at hlast ⊢
    exact Leases.run_leased_once (R := world) (J := World.Kept) (V := fun _ _ => True)
      (fun _ e hw _ => (hw.next e).kept) (fun _ e hw _ => (hw.next e).ids) hw (along_true _ _)
      hw.ids hfirst hlast
  · intro handle
    refine (hw.destroyed.open_iff handle).trans ?_
    exact exists_congr fun object => hw.handleOf_eq_some_iff object handle
  · intro handle object other hobject hother
    rw [← hw.handleOf_eq_some_iff] at hobject hother
    exact hw.handles.owner object other handle hobject hother
  · intro object id hactive
    obtain ⟨handle, howns⟩ := hw.exists_owns hactive
    exact ⟨handle, howns, fun other hother => howns.eq hother⟩

end World
end GreenWallet.Sessions
