import GreenWallet.Http.HttpManager

/-!
# Connections that fail

The handler of a `ConnectTask` that fails deactivates the session that the manager has by
then, and fails the requests that wait. It was meant for the session that the task was
connecting, and this is another one if that session has been given up since: because the
settings have changed, or because nothing had been asked for in a while.
-/
namespace GreenWallet.Http
open GreenWallet.Library

namespace HttpManager

/-- `dispatch` creates a `ConnectTask` under these settings, for a session that is not active
or is new. -/
def Connects (s : HttpManager) (settings : Settings) : Prop :=
  s.m_running = none ∧ s.m_queue ≠ [] ∧
    s.m_session.all (fun session => !session.active || session.stale settings) = true

end HttpManager

namespace HttpEvent
variable (s : HttpManager)

/-- The event leads to a call of `dispatch` at once. -/
def Dispatches : HttpEvent → Prop
  | .dispatch => True
  | .changeSettings change => s.settings.apply change ≠ s.settings
  | .connectedChanged id _ connected =>
      ∀ session, s.m_session = some session → session.id = id → session.connected ≠ connected
  | _ => False

def settings : HttpEvent → Settings
  | .changeSettings change => s.settings.apply change
  | _ => s.settings

/-- A session that the manager has is given up. -/
def GivesUp (event : HttpEvent) : Prop :=
  event.Dispatches s ∧ s.GivesUp (event.settings s) ∨
    event = .idleTimeout ∧ s.m_running = none ∧ s.m_queue = []

/-- A `ConnectTask` is created. -/
def Connects (event : HttpEvent) : Prop := event.Dispatches s ∧ s.Connects (event.settings s)

end HttpEvent

/-- The manager has the session that the task was connecting. If it does not, then the
failure of the task leaves it, its session and its requests alone. -/
structure HttpManager.Owns (s : HttpManager) (task : ConnectTask) : Prop where
  own : s.m_session.map Session.id = some task.session
  harmless : s.m_session.map Session.id ≠ some task.session →
    (http.next s (.connectFailed task)).crashed = s.crashed ∧
      (http.next s (.connectFailed task)).m_session = s.m_session ∧
      (http.next s (.connectFailed task)).m_queue = s.m_queue

/-- What is said of the failures of connections. -/
def FailsOwn (s : HttpManager) : HttpEvent → Prop
  | .connectFailed task => s.Owns task
  | _ => True

/-- No session has been given up since the task was created. -/
def Undisturbed (s : HttpManager) (events : List HttpEvent) (task : ConnectTask) : Prop :=
  http.Since (fun s event => event.Connects s ∧ s.created = task.id)
    (fun s event => event.GivesUp s) s events

namespace HttpManager

theorem owns_iff {s : HttpManager} {task : ConnectTask} :
    s.Owns task ↔ s.m_session.map Session.id = some task.session :=
  ⟨Owns.own, fun hown => ⟨hown, fun hother => absurd hown hother⟩⟩

/-- Sessions and tasks have been created, and tasks that wait are for these sessions. -/
structure Numbered (s : HttpManager) : Prop where
  session : ∀ session ∈ s.m_session, session.id < s.sessions
  tasks : ∀ task ∈ s.tasks, task.id < s.created ∧ task.session < s.sessions

/-- What becomes of the session and the tasks. -/
structure Connection (s t : HttpManager) (replaced connects : Prop) : Prop where
  session : ∀ id < s.sessions, t.m_session.map Session.id = some id ↔
    s.m_session.map Session.id = some id ∧ ¬ replaced
  numbered : ∀ session ∈ t.m_session, session.id < t.sessions
  tasks : ∀ task ∈ t.tasks, task ∈ s.tasks ∨ connects ∧ task.id = s.created ∧
    s.created < t.created ∧ t.m_session.map Session.id = some task.session
  sessions : s.sessions ≤ t.sessions
  created : s.created ≤ t.created

section
variable {s t : HttpManager} {replaced connects : Prop}

theorem Connection.next (h : Connection s t replaced connects) (hnumbered : s.Numbered) :
    t.Numbered where
  session := h.numbered
  tasks := by
    intro task htask
    rcases h.tasks task htask with hold | ⟨-, hid, hcreated, hsession⟩
    · obtain ⟨hid, hsession⟩ := hnumbered.tasks task hold
      exact ⟨Nat.lt_of_lt_of_le hid h.created, Nat.lt_of_lt_of_le hsession h.sessions⟩
    · obtain ⟨session, hmem, hsame⟩ := Option.map_eq_some_iff.mp hsession
      exact ⟨hid ▸ hcreated, hsame ▸ h.numbered session hmem⟩

/-- Nothing is created, and the session stays or is given up. -/
structure Kept (s t : HttpManager) (replaced : Prop) : Prop where
  session : ¬ replaced → t.m_session.map Session.id = s.m_session.map Session.id
  given : replaced → t.m_session = none
  tasks : t.tasks ⊆ s.tasks
  sessions : t.sessions = s.sessions
  created : t.created = s.created

theorem Kept.of_eq (hsession : t.m_session = s.m_session) (htasks : t.tasks = s.tasks)
    (hsessions : t.sessions = s.sessions) (hcreated : t.created = s.created) : Kept s t False :=
  ⟨fun _ => congrArg _ hsession, False.elim, htasks ▸ List.Subset.refl _, hsessions, hcreated⟩

theorem Kept.numbered (hkept : Kept s t replaced) (hnumbered : s.Numbered) : t.Numbered where
  session := by
    intro session hsession
    by_cases h : replaced
    · rw [hkept.given h] at hsession
      cases hsession
    · have hsame : s.m_session.map Session.id = some session.id := by
        rw [← hkept.session h, Option.mem_def.mp hsession, Option.map_some]
      obtain ⟨old, hold, hid⟩ := Option.map_eq_some_iff.mp hsame
      rw [hkept.sessions, ← hid]
      exact hnumbered.session old hold
  tasks := by
    intro task htask
    rw [hkept.sessions, hkept.created]
    exact hnumbered.tasks task (hkept.tasks htask)

theorem Kept.session_iff (hkept : Kept s t replaced) (id : ℕ) :
    t.m_session.map Session.id = some id ↔ s.m_session.map Session.id = some id ∧ ¬ replaced := by
  by_cases h : replaced
  · simp [hkept.given h, h]
  · simp [hkept.session h, h]

theorem Kept.connection (hkept : Kept s t replaced) (hnumbered : s.Numbered) :
    Connection s t replaced connects where
  session := fun id _ => hkept.session_iff id
  numbered := (hkept.numbered hnumbered).session
  tasks := fun _ htask => .inl (hkept.tasks htask)
  sessions := Nat.le_of_eq hkept.sessions.symm
  created := Nat.le_of_eq hkept.created.symm

/-- Nothing is created in the first of two steps. -/
theorem Kept.trans {u : HttpManager} {first second : Prop} (hkept : Kept s t first)
    (hnext : Connection t u second connects) (hreplaced : replaced ↔ first ∨ second) :
    Connection s u replaced connects where
  session := by
    intro id hid
    rw [hnext.session id (hkept.sessions ▸ hid), hkept.session_iff id, hreplaced, not_or, and_assoc]
  numbered := hnext.numbered
  tasks := by
    intro task htask
    rcases hnext.tasks task htask with hold | ⟨hconnects, hid, hnew, hsession⟩
    · exact .inl (hkept.tasks hold)
    · exact .inr ⟨hconnects, hid.trans hkept.created, hkept.created ▸ hnew, hsession⟩
  sessions := hkept.sessions ▸ hnext.sessions
  created := hkept.created ▸ hnext.created

/-- The session that there is, or a new one, is connected. -/
theorem connection_connect (hnumbered : s.Numbered) (hconnects : connects) :
    Connection s (s.getSession.1.connect s.getSession.2) False connects := by
  unfold getSession connect
  cases hsession : s.m_session with
  | none =>
      refine ⟨?_, ?_, ?_, Nat.le_succ _, Nat.le_succ _⟩
      · intro id hid
        simpa [hsession] using Nat.ne_of_gt hid
      · simp
      · intro task htask
        rcases List.mem_append.mp htask with hold | hnew
        · exact .inl hold
        · obtain rfl := List.mem_singleton.mp hnew
          exact .inr ⟨hconnects, rfl, Nat.lt_succ_self _, rfl⟩
  | some session =>
      refine ⟨?_, ?_, ?_, Nat.le_refl _, Nat.le_succ _⟩
      · simp [hsession]
      · intro active hactive
        obtain rfl := Option.some.inj hactive
        exact hnumbered.session session hsession
      · intro task htask
        rcases List.mem_append.mp htask with hold | hnew
        · exact .inl hold
        · obtain rfl := List.mem_singleton.mp hnew
          exact .inr ⟨hconnects, rfl, Nat.lt_succ_self _, rfl⟩

theorem getSession_of_active (hactive : s.getSession.2.active = true) : s.getSession.1 = s := by
  unfold getSession at hactive ⊢
  cases hsession : s.m_session with
  | none => simp [hsession] at hactive
  | some session => rfl

theorem connection_serve (hnumbered : s.Numbered)
    (hconnects : s.m_running = none → s.m_queue ≠ [] →
      (∀ session ∈ s.m_session, session.active = false) → connects) :
    Connection s s.serve False connects := by
  unfold serve
  split
  · exact Kept.connection (.of_eq rfl rfl rfl rfl) hnumbered
  · rename_i request rest hqueue
    cases hrunning : s.m_running with
    | some other => exact Kept.connection (.of_eq rfl rfl rfl rfl) hnumbered
    | none =>
        simp only [Option.isSome_none, Bool.false_eq_true, if_false]
        cases hactive : s.getSession.2.active with
        | false =>
            simp only [Bool.not_false, if_true]
            apply connection_connect hnumbered
            apply hconnects hrunning (hqueue ▸ List.cons_ne_nil _ _)
            intro session hsession
            simpa [getSession, Option.mem_def.mp hsession] using hactive
        | true =>
            rw [getSession_of_active hactive]
            simp only [Bool.not_true, Bool.false_eq_true, if_false]
            split_ifs
            · exact Kept.connection (.of_eq rfl rfl rfl rfl) hnumbered
            · exact Kept.connection (.of_eq rfl rfl rfl rfl) hnumbered

theorem connection_dispatch (hnumbered : s.Numbered) (hreplaced : replaced ↔ s.GivesUp s.settings)
    (hconnects : s.Connects s.settings → connects) :
    Connection s s.dispatch replaced connects := by
  unfold dispatch
  rcases checkSettings_cases { s with idle_timer := false } with ⟨hstale, hnone⟩ | ⟨hfresh, hsame⟩
  · rw [hnone]
    have hgiven : Kept s { s with idle_timer := false, m_session := none } True :=
      ⟨fun hnot => absurd trivial hnot, fun _ => rfl, List.Subset.refl _, rfl, rfl⟩
    apply hgiven.trans (connection_serve (hgiven.numbered hnumbered) ?_)
      (iff_of_true (hreplaced.mpr hstale) (.inl trivial))
    intro hrunning hqueue _
    obtain ⟨session, hsession, hold⟩ := (Option.any_eq_true _ _).mp hstale.2
    apply hconnects ⟨hrunning, hqueue, ?_⟩
    rw [show s.m_session = some session from hsession, Option.all_some, hold, Bool.or_true]
  · rw [hsame]
    have hkept : Kept s { s with idle_timer := false } False := .of_eq rfl rfl rfl rfl
    apply hkept.trans (connection_serve (hkept.numbered hnumbered) ?_)
      (iff_of_false (fun hgiven => hfresh (hreplaced.mp hgiven)) (or_self_iff.not.mpr id))
    intro hrunning hqueue hinactive
    apply hconnects ⟨hrunning, hqueue, (Option.all_eq_true _ _).mpr ?_⟩
    intro session hsession
    rw [hinactive session hsession]
    rfl

/-- An event that leads to a call of `dispatch`, in the state that this finds. -/
theorem connection_dispatches {event : HttpEvent} (hnumbered : s.Numbered)
    (hdispatches : event.Dispatches s) (hnext : http.next s event = t.dispatch)
    (hkept : Kept s t False) (hgives : t.GivesUp t.settings ↔ s.GivesUp (event.settings s))
    (hconnects : t.Connects t.settings → s.Connects (event.settings s)) :
    Connection s (http.next s event) (event.GivesUp s) (event.Connects s) := by
  have hgiven : event.GivesUp s ↔ t.GivesUp t.settings := by
    rw [hgives]
    constructor
    · rintro (⟨-, h⟩ | ⟨rfl, -⟩)
      · exact h
      · exact absurd hdispatches id
    · exact fun h => .inl ⟨hdispatches, h⟩
  rw [hnext]
  apply hkept.trans (connection_dispatch (hkept.numbered hnumbered) hgiven ?_) (or_iff_right id).symm
  exact fun h => ⟨hdispatches, hconnects h⟩

/-- An event that calls no `dispatch`. -/
theorem connection_quiet {event : HttpEvent} (hnumbered : s.Numbered)
    (hquiet : ¬ event.Dispatches s) (hevent : event ≠ .idleTimeout)
    (hkept : Kept s (http.next s event) False) :
    Connection s (http.next s event) (event.GivesUp s) (event.Connects s) := by
  have hnot : ¬ event.GivesUp s := by
    rintro (⟨hdispatches, -⟩ | ⟨hidle, -⟩)
    · exact hquiet hdispatches
    · exact hevent hidle
  have hsame : Kept s (http.next s event) (event.GivesUp s) :=
    ⟨fun _ => hkept.session id, fun hgives => absurd hgives hnot, hkept.tasks, hkept.sessions,
      hkept.created⟩
  exact hsame.connection hnumbered

theorem kept_destroyed (s : HttpManager) (request : ℕ) : Kept s (s.destroyed request) False := by
  unfold destroyed
  by_cases hqueued : request ∈ s.m_queue <;> by_cases hrunning : s.m_running = some request <;>
    simp only [write, hqueued, hrunning, if_true, if_false] <;> exact .of_eq rfl rfl rfl rfl

theorem kept_connectFailed (s : HttpManager) : Kept s s.connectFailed False := by
  unfold connectFailed
  cases hsession : s.m_session with
  | none => exact .of_eq hsession.symm rfl rfl rfl
  | some session =>
      exact ⟨fun _ => by simp [hsession, drain, write], False.elim, List.Subset.refl _, rfl, rfl⟩

/-- A notification of a session changes only whether it is connected. -/
theorem connection_connectedChanged (hnumbered : s.Numbered) (id : ℕ) (late connected : Bool) :
    Connection s (http.next s (.connectedChanged id late connected))
      (HttpEvent.GivesUp s (.connectedChanged id late connected))
      (HttpEvent.Connects s (.connectedChanged id late connected)) := by
  by_cases hother : ∀ session, s.m_session = some session → session.id ≠ id
  · have hdispatches : HttpEvent.Dispatches s (.connectedChanged id late connected) :=
      fun session hsession hid => absurd hid (hother session hsession)
    have hnext : http.next s (.connectedChanged id late connected) = s.dispatch := by
      cases hsession : s.m_session with
      | none => simp [http, hsession]
      | some session => simp [http, hsession, hother session hsession]
    exact connection_dispatches hnumbered hdispatches hnext (.of_eq rfl rfl rfl rfl) Iff.rfl
      fun h => h
  · push Not at hother
    obtain ⟨session, hsession, hid⟩ := hother
    have hkept : Kept s { s with m_session := some (session.notified late connected) } False :=
      ⟨fun _ => by simp [hsession, Session.notified], False.elim, List.Subset.refl _, rfl, rfl⟩
    by_cases hsame : session.connected = connected
    · have hnext : http.next s (.connectedChanged id late connected) =
          { s with m_session := some (session.notified late connected) } := by
        simp [http, hsession, hid, hsame]
      have hquiet : ¬ HttpEvent.Dispatches s (.connectedChanged id late connected) :=
        fun hdispatches => hdispatches session hsession hid hsame
      exact connection_quiet hnumbered hquiet (by simp) (by rw [hnext]; exact hkept)
    · have hdispatches : HttpEvent.Dispatches s (.connectedChanged id late connected) := by
        simp [HttpEvent.Dispatches, hsession, hsame]
      have hnext : http.next s (.connectedChanged id late connected) =
          { s with m_session := some (session.notified late connected) }.dispatch := by
        simp [http, hsession, hid, hsame]
      apply connection_dispatches hnumbered hdispatches hnext hkept
      · simp [GivesUp, hsession, HttpEvent.settings, Session.stale, Session.use_tor, Session.proxy,
          Session.notified]
      · simp [Connects, hsession, HttpEvent.settings, Session.stale, Session.use_tor, Session.proxy,
          Session.notified]

/-- What an event does to the session and the tasks. -/
theorem connection_next (event : HttpEvent) (hnumbered : s.Numbered) :
    Connection s (http.next s event) (event.GivesUp s) (event.Connects s) := by
  cases event with
  | exec request =>
      exact connection_quiet hnumbered id (by simp) (.of_eq rfl rfl rfl rfl)
  | dispatch =>
      exact connection_dispatches hnumbered trivial rfl (.of_eq rfl rfl rfl rfl) Iff.rfl id
  | changeSettings change =>
      by_cases hsame : s.settings.apply change = s.settings
      · have hnext : http.next s (.changeSettings change) = s := if_pos hsame
        exact connection_quiet hnumbered (fun hchanged => hchanged hsame) (by simp)
          (by rw [hnext]; exact .of_eq rfl rfl rfl rfl)
      · exact connection_dispatches hnumbered hsame (if_neg hsame) (.of_eq rfl rfl rfl rfl) Iff.rfl id
  | connectedChanged id late connected =>
      exact connection_connectedChanged hnumbered id late connected
  | ended request =>
      exact connection_quiet hnumbered id (by simp) (.of_eq rfl rfl rfl rfl)
  | destroyed request =>
      exact connection_quiet hnumbered id (by simp) (s.kept_destroyed request)
  | connectFinished task =>
      exact connection_quiet hnumbered id (by simp)
        ⟨fun _ => rfl, False.elim, List.filter_subset_self _, rfl, rfl⟩
  | connectFailed task =>
      have hfailed := kept_connectFailed { s with tasks := s.tasks.filter (· != task) }
      exact connection_quiet hnumbered id (by simp)
        ⟨hfailed.session, False.elim, List.Subset.trans hfailed.tasks (List.filter_subset_self _),
          hfailed.sessions, hfailed.created⟩
  | idleTimeout =>
      have hbusy : (s.m_running.isSome || !s.m_queue.isEmpty) = true ↔
          ¬ HttpEvent.GivesUp s .idleTimeout := by
        cases hrunning : s.m_running <;> simp [HttpEvent.GivesUp, HttpEvent.Dispatches, hrunning]
      by_cases h : (s.m_running.isSome || !s.m_queue.isEmpty) = true
      · have hnext : http.next s .idleTimeout = { s with idle_timer := false } := if_pos h
        have hkept : Kept s { s with idle_timer := false } (HttpEvent.GivesUp s .idleTimeout) :=
          ⟨fun _ => rfl, fun hgives => absurd hgives (hbusy.mp h), List.Subset.refl _, rfl, rfl⟩
        exact hnext ▸ hkept.connection hnumbered
      · have hnext : http.next s .idleTimeout =
            { s with idle_timer := false, m_session := none } := if_neg h
        have hgiven : Kept s { s with idle_timer := false, m_session := none }
            (HttpEvent.GivesUp s .idleTimeout) :=
          ⟨fun hkeeps => absurd (hbusy.mpr hkeeps) h, fun _ => rfl, List.Subset.refl _, rfl, rfl⟩
        exact hnext ▸ hgiven.connection hnumbered

end

theorem numbered_init (settings : Settings) : Numbered { settings := settings } where
  session := fun _ hsession => by cases hsession
  tasks := fun _ htask => absurd htask List.not_mem_nil

/-- The session of a task that waits is the one that the manager has as long as it has not
been given up. -/
theorem own_iff_undisturbed (settings : Settings) (events : List HttpEvent) :
    (http.run { settings := settings } events).Numbered ∧
      ∀ task ∈ (http.run { settings := settings } events).tasks,
        (http.run { settings := settings } events).m_session.map Session.id = some task.session ↔
          Undisturbed { settings := settings } events task := by
  apply Reactive.run_history http
    (I := fun fs s => s.Numbered ∧ ∀ task ∈ s.tasks,
      s.m_session.map Session.id = some task.session ↔ Undisturbed { settings := settings } fs task)
  · exact ⟨numbered_init settings, fun _ htask => absurd htask List.not_mem_nil⟩
  · intro fs event gs _ ⟨hnumbered, hown⟩
    have hstep := connection_next event hnumbered
    refine ⟨hstep.next hnumbered, ?_⟩
    intro task htask
    unfold Undisturbed
    rw [Reactive.since_concat]
    rcases hstep.tasks task htask with hold | ⟨hconnects, hid, -, hsession⟩
    · obtain ⟨hid, hsession⟩ := hnumbered.tasks task hold
      rw [hstep.session task.session hsession, hown task hold]
      constructor
      · exact .inr
      · rintro (⟨-, hcreated⟩ | hsince)
        · exact absurd hcreated (Nat.ne_of_gt hid)
        · exact hsince
    · exact iff_of_true hsession (.inl ⟨hconnects, hid.symm⟩)

end HttpManager

/-- The failures of connections find their sessions exactly if none of these has been given
up before. -/
theorem failsOwn_iff_undisturbed (settings : Settings) (events : List HttpEvent)
    (hvalid : http.Valid { settings := settings } events) :
    http.Along FailsOwn { settings := settings } events ↔
      ∀ fs task gs, events = fs ++ .connectFailed task :: gs →
        Undisturbed { settings := settings } fs task := by
  have hwaits {fs : List HttpEvent} {task : ConnectTask} {gs : List HttpEvent}
      (hsplit : events = fs ++ .connectFailed task :: gs) :
      task ∈ (http.run { settings := settings } fs).tasks :=
    (Reactive.Along.at fs (hsplit ▸ hvalid)).2
  constructor
  · intro halong fs task gs hsplit
    have howns : (http.run { settings := settings } fs).Owns task :=
      Reactive.Along.at fs (hsplit ▸ halong)
    exact ((HttpManager.own_iff_undisturbed settings fs).2 task (hwaits hsplit)).mp howns.own
  · intro hundisturbed
    apply Reactive.along_of_at
    intro fs event gs hsplit
    cases event with
    | connectFailed task =>
        exact HttpManager.owns_iff.mpr
          (((HttpManager.own_iff_undisturbed settings fs).2 task (hwaits hsplit)).mpr
            (hundisturbed fs task gs hsplit))
    | _ => trivial

/-- Tor is turned on while a session connects for a request, which waits for the next session
when the first connection times out. -/
def torTurnedOn : List HttpEvent :=
  [.exec 0, .dispatch, .changeSettings (.setUseTor true), .connectFailed ⟨0, 0⟩]

/-- The request is destroyed before Tor is turned on, so that there is no next session. -/
def requestDestroyed : List HttpEvent :=
  [.exec 0, .dispatch, .destroyed 0, .changeSettings (.setUseTor true), .connectFailed ⟨0, 0⟩]

theorem valid_torTurnedOn : http.Valid {} torTurnedOn :=
  ⟨⟨rfl, List.not_mem_nil⟩, ⟨rfl, Nat.one_pos⟩, ⟨rfl, trivial⟩, ⟨rfl, by decide⟩, trivial⟩

theorem valid_requestDestroyed : http.Valid {} requestDestroyed :=
  ⟨⟨rfl, List.not_mem_nil⟩, ⟨rfl, Nat.one_pos⟩, ⟨rfl, by decide⟩, ⟨rfl, trivial⟩,
    ⟨rfl, by decide⟩, trivial⟩

/-- The failure of the first connection deactivates the next session and fails the request
that waits for it, or finds no session. -/
theorem not_failsOwn_torTurnedOn :
    (http.Valid {} torTurnedOn ∧ ¬ http.Along FailsOwn {} torTurnedOn ∧
      (http.run {} torTurnedOn).m_session =
        some { id := 1, made := { use_tor := true }, active := false } ∧
      droppedIds (http.run {} torTurnedOn).log = [0]) ∧
    http.Valid {} requestDestroyed ∧ ¬ http.Along FailsOwn {} requestDestroyed ∧
      (http.run {} requestDestroyed).crashed = true := by
  refine ⟨⟨valid_torTurnedOn, ?_, by decide, by decide⟩, valid_requestDestroyed, ?_, by decide⟩
  · intro ⟨_, _, _, howns, _⟩
    exact absurd howns.own (by decide)
  · intro ⟨_, _, _, _, howns, _⟩
    exact absurd howns.own (by decide)

/-- Nothing happens between the creation of a task and its failure. -/
theorem failsOwn_iff_undisturbed_timeout :
    http.Along FailsOwn {} [.exec 0, .dispatch, .connectFailed ⟨0, 0⟩] ↔
      ∀ fs task gs, [.exec 0, .dispatch, .connectFailed ⟨0, 0⟩] = fs ++ .connectFailed task :: gs →
        Undisturbed {} fs task :=
  failsOwn_iff_undisturbed {} _
    ⟨⟨rfl, List.not_mem_nil⟩, ⟨rfl, Nat.one_pos⟩, ⟨rfl, by decide⟩, trivial⟩

end GreenWallet.Http
