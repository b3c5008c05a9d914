import GreenWallet.Http.Attention
import GreenWallet.Http.ConnectFailure

/-!
# Requests on connections that are there

A session is marked as connected by the notifications of its connections, and keeps the mark when
it is deactivated. If an older connection fails when the session of the manager is connected, this
one is deactivated, and activated again for the next request; that it has been connected before
is then enough for a request to be started, on a connection that has reported nothing yet.
-/
namespace GreenWallet.Http
open GreenWallet.Library

namespace HttpEvent
variable (s : HttpManager)

/-- The session is marked as connected once the event has come. -/
def marks (session : Session) : HttpEvent → Bool
  | .connectedChanged id _ connected => if session.id = id then connected else session.connected
  | _ => session.connected

/-- A call of `dispatch` starts a request. -/
def Starts (event : HttpEvent) : Prop :=
  event.Dispatches s ∧ s.m_running = none ∧ s.m_queue ≠ [] ∧ ∃ session, s.m_session = some session ∧
    session.stale (event.settings s) = false ∧ session.active = true ∧ event.marks session = true

/-- A session that is marked as connected is deactivated, or is marked by a notification that is
late, with nothing heard of the connection that there is now. -/
def Misleads : HttpEvent → Prop
  | .connectFailed _ => ∃ session, s.m_session = some session ∧ session.connected = true
  | .connectedChanged id late connected =>
      connected = true ∧ ¬ HttpEvent.GivesUp s (.connectedChanged id late connected) ∧
        ∃ session, s.m_session = some session ∧ session.id = id ∧
          (late = true ∨ session.active = false) ∧ session.online = false
  | _ => False

/-- The session is given up, its connection reports, or a notification takes the mark away. -/
def Corrects (event : HttpEvent) : Prop :=
  event.GivesUp s ∨ ∃ session id late connected, event = .connectedChanged id late connected ∧
    s.m_session = some session ∧ session.id = id ∧
      (connected = false ∨ late = false ∧ session.active = true)

end HttpEvent

namespace HttpManager

/-- The session is marked as connected, and its connection has not reported to be. -/
def Misled (s : HttpManager) : Prop :=
  ∃ session, s.m_session = some session ∧ session.connected = true ∧ session.online = false

/-- A session that is not active has no connection. -/
def Offline (s : HttpManager) : Prop :=
  ∀ session, s.m_session = some session → session.active = false → session.online = false

/-- Requests have been started on connections that had reported to be connected. -/
def Reported (s : HttpManager) : Prop :=
  ∀ request session settings, .started request session settings ∈ s.log → session.online = true

/-- `dispatch` has a session to start a request on. -/
def Serves (s : HttpManager) : Prop :=
  s.m_running = none ∧ s.m_queue ≠ [] ∧ ∃ session, s.m_session = some session ∧
    session.stale s.settings = false ∧ session.active = true ∧ session.connected = true

section
variable {s t : HttpManager}

theorem Offline.of_eq (h : s.Offline) (hsession : t.m_session = s.m_session) : t.Offline := by
  rw [Offline, hsession]
  exact h

theorem offline_none (h : s.m_session = none) : s.Offline := by
  intro session hsession
  cases h.symm.trans hsession

theorem misled_iff_of_eq (hsession : t.m_session = s.m_session) : t.Misled ↔ s.Misled := by
  rw [Misled, Misled, hsession]

theorem not_misled_none (h : s.m_session = none) : ¬ s.Misled := by
  rintro ⟨session, hsession, -⟩
  cases h.symm.trans hsession

theorem misled_some {session : Session} (h : s.m_session = some session) :
    s.Misled ↔ session.connected = true ∧ session.online = false := by
  simp [Misled, h]

theorem reported_iff_of_eq (hlog : t.log = s.log) : t.Reported ↔ s.Reported := by
  rw [Reported, Reported, hlog]

/-- Other signals say nothing of sessions. -/
theorem reported_write (signals : List HttpSignal)
    (h : ∀ request session settings, .started request session settings ∉ signals)
    (hlog : t.log = s.log ++ signals) : t.Reported ↔ s.Reported := by
  unfold Reported
  rw [hlog]
  constructor
  · exact fun hall request session settings hmem =>
      hall request session settings (List.mem_append_left _ hmem)
  · intro hall request session settings hmem
    rcases List.mem_append.mp hmem with hold | hnew
    · exact hall request session settings hold
    · exact absurd hnew (h request session settings)

theorem reported_start {session : Session} {request : ℕ} {rest : List ℕ} :
    (s.start session request rest).Reported ↔ s.Reported ∧ session.online = true := by
  unfold Reported
  simp only [start, write, List.mem_append, List.mem_singleton]
  constructor
  · intro hall
    exact ⟨fun request session settings hmem => hall request session settings (.inl hmem),
      hall request session s.settings (.inr rfl)⟩
  · rintro ⟨hall, honline⟩ request session settings (hold | hnew)
    · exact hall request session settings hold
    · cases hnew
      exact honline

/-! ### A call of `dispatch` -/

/-- What the rest of a call comes to once the session fits the settings. -/
structure Served (s t : HttpManager) : Prop where
  offline : t.Offline
  misled : t.Misled ↔ s.Misled
  reported : t.Reported ↔ s.Reported ∧ (s.Serves → ¬ s.Misled)

/-- Nothing is started, and the session is left alone. -/
theorem served_same (hs : s.Offline) (hsession : t.m_session = s.m_session) (hlog : t.log = s.log)
    (hnot : ¬ s.Serves) : Served s t := by
  refine ⟨hs.of_eq hsession, misled_iff_of_eq hsession, ?_⟩
  rw [reported_iff_of_eq hlog]
  exact (and_iff_left fun hserves => absurd hserves hnot).symm

section
variable {request : ℕ} {rest : List ℕ} {session : Session}

theorem served_created (hqueue : s.m_queue = request :: rest) (hrunning : s.m_running = none)
    (hsession : s.m_session = none) : Served s s.serve := by
  have hnot : ¬ s.Serves := by
    rintro ⟨-, -, session, hsome, -⟩
    cases hsession.symm.trans hsome
  have hcreated : s.serve.m_session = some
      { id := s.sessions, made := s.settings, active := true } := by
    simp [serve, hqueue, hrunning, getSession, hsession, connect]
  have hlog : s.serve.log = s.log := by
    simp [serve, hqueue, hrunning, getSession, hsession, connect]
  refine ⟨?_, iff_of_false ?_ (not_misled_none hsession), ?_⟩
  · intro session hsome hinactive
    rw [← Option.some.inj (hcreated.symm.trans hsome)]
  · rw [misled_some hcreated]
    exact fun h => absurd h.1 Bool.false_ne_true
  · rw [reported_iff_of_eq hlog]
    exact (and_iff_left fun hserves => absurd hserves hnot).symm

/-- The mark stays when a session is activated. -/
theorem served_activated (hs : s.Offline) (hsession : s.m_session = some session)
    (hactive : session.active = false) : Served s (s.connect session) := by
  have hoffline := hs session hsession hactive
  have hnot : ¬ s.Serves := by
    rintro ⟨-, -, other, hother, -, hon, -⟩
    rw [Option.some.inj (hother.symm.trans hsession), hactive] at hon
    cases hon
  refine ⟨?_, ?_, ?_⟩
  · intro other hother _
    rw [← Option.some.inj hother]
  · rw [misled_some rfl, misled_some hsession]
    simp [hoffline]
  · exact (and_iff_left fun hserves => absurd hserves hnot).symm

theorem served_started (hs : s.Offline) (hsession : s.m_session = some session)
    (hserves : s.Serves) (hconnected : session.connected = true) :
    Served s (s.start session request rest) := by
  refine ⟨hs.of_eq rfl, misled_iff_of_eq rfl, ?_⟩
  rw [reported_start, misled_some hsession]
  simp [hserves, hconnected]

end

theorem served_serve (hs : s.Offline) (hfresh : ∀ session, s.m_session = some session →
    s.m_running = none → session.stale s.settings = false) : Served s s.serve := by
  cases hqueue : s.m_queue with
  | nil =>
      rw [serve_idle hqueue]
      exact served_same hs rfl rfl fun hserves => hserves.2.1 hqueue
  | cons request rest =>
      cases hrunning : s.m_running with
      | some other =>
          have hsome : s.m_running.isSome = true := by rw [hrunning]; rfl
          rw [serve_running hqueue hsome]
          apply served_same hs rfl rfl
          intro hserves
          cases hrunning.symm.trans hserves.1
      | none =>
          cases hsession : s.m_session with
          | none => exact served_created hqueue hrunning hsession
          | some session =>
              have hserves : s.Serves ↔ session.active = true ∧ session.connected = true := by
                simp [Serves, hqueue, hrunning, hsession, hfresh session hsession hrunning]
              cases hactive : session.active with
              | false =>
                  rw [serve_inactive hqueue hrunning hsession hactive]
                  exact served_activated hs hsession hactive
              | true =>
                  cases hconnected : session.connected with
                  | false =>
                      rw [serve_unconnected hqueue hrunning hsession hactive hconnected]
                      apply served_same hs rfl rfl
                      rw [hserves, hconnected]
                      exact fun h => Bool.false_ne_true h.2
                  | true =>
                      rw [serve_start hqueue hrunning hsession hactive hconnected]
                      exact served_started hs hsession (hserves.mpr ⟨hactive, hconnected⟩) hconnected

theorem dispatch_spec (hs : s.Offline) :
    s.dispatch.Offline ∧ (s.dispatch.Misled ↔ s.Misled ∧ ¬ s.GivesUp s.settings) ∧
      (s.dispatch.Reported ↔ s.Reported ∧ (s.Serves → ¬ s.Misled)) := by
  unfold dispatch
  rcases checkSettings_cases { s with idle_timer := false } with ⟨hgives, hnone⟩ | ⟨hkeeps, hsame⟩
  · rw [hnone]
    have hserved := served_serve (s := { s with idle_timer := false, m_session := none })
      (offline_none rfl) (fun _ h => nomatch h)
    have hserves : ¬ s.Serves := by
      rintro ⟨-, -, session, hsession, hfresh, -⟩
      have hstale : s.m_session.any (·.stale s.settings) = true := hgives.2
      rw [hsession, Option.any_some, hfresh] at hstale
      cases hstale
    refine ⟨hserved.offline, ?_, ?_⟩
    · rw [hserved.misled]
      exact iff_of_false (not_misled_none rfl) fun h => h.2 hgives
    · rw [hserved.reported]
      refine and_congr_right fun _ => iff_of_true ?_ fun h => absurd h hserves
      exact fun _ => not_misled_none rfl
  · rw [hsame]
    have hfresh : ∀ session, s.m_session = some session → s.m_running = none →
        session.stale s.settings = false := by
      intro session hsession hrunning
      rw [← Bool.not_eq_true]
      intro hstale
      refine hkeeps ⟨hrunning, ?_⟩
      have hsession : ({ s with idle_timer := false } : HttpManager).m_session = some session :=
        hsession
      rw [hsession]
      exact hstale
    have hserved := served_serve (s := { s with idle_timer := false }) (hs.of_eq rfl) hfresh
    exact ⟨hserved.offline, hserved.misled.trans (and_iff_left hkeeps).symm, hserved.reported⟩

/-! ### The steps of a run -/

variable {e : HttpEvent}

/-- What an event does to the marks of the session, and to what is started on it. -/
structure Traced (s t : HttpManager) (e : HttpEvent) : Prop where
  offline : t.Offline
  misled : t.Misled ↔ e.Misleads s ∨ s.Misled ∧ ¬ e.Corrects s
  reported : t.Reported ↔ s.Reported ∧ (e.Starts s → ¬ t.Misled)

/-- An event that leads to a call of `dispatch`, in the state that this finds. -/
theorem traced_dispatch {u : HttpManager} (hu : u.Offline) (hlog : u.log = s.log)
    (hstarts : e.Starts s ↔ u.Serves)
    (hmisled : u.Misled ∧ ¬ u.GivesUp u.settings ↔ e.Misleads s ∨ s.Misled ∧ ¬ e.Corrects s) :
    Traced s u.dispatch e := by
  obtain ⟨hoffline, hdispatched, hreported⟩ := dispatch_spec hu
  refine ⟨hoffline, hdispatched.trans hmisled, ?_⟩
  rw [hreported, reported_iff_of_eq hlog, hstarts, hdispatched]
  refine and_congr_right fun _ => imp_congr_right fun hserves => not_congr ?_
  refine (and_iff_left ?_).symm
  rintro ⟨-, hstale⟩
  obtain ⟨-, -, session, hsession, hfresh, -⟩ := hserves
  rw [hsession, Option.any_some, hfresh] at hstale
  cases hstale

/-- An event that calls no `dispatch`. -/
theorem traced_quiet (hoffline : t.Offline) (hdispatches : ¬ e.Dispatches s)
    (hreported : t.Reported ↔ s.Reported)
    (hmisled : t.Misled ↔ e.Misleads s ∨ s.Misled ∧ ¬ e.Corrects s) : Traced s t e :=
  ⟨hoffline, hmisled, hreported.trans (and_iff_left fun h => absurd h.1 hdispatches).symm⟩

/-- An event that leaves the session alone, and may fail requests that wait. -/
theorem traced_same (hs : s.Offline) (hdispatches : ¬ e.Dispatches s)
    (hevent : e ≠ .idleTimeout) (hmisleads : ¬ e.Misleads s)
    (hother : ∀ id late connected, e ≠ .connectedChanged id late connected)
    (hsession : t.m_session = s.m_session) (hreported : t.Reported ↔ s.Reported) :
    Traced s t e := by
  apply traced_quiet (hs.of_eq hsession) hdispatches hreported
  rw [misled_iff_of_eq hsession, or_iff_right hmisleads]
  refine (and_iff_left ?_).symm
  rintro ((⟨h, -⟩ | ⟨h, -⟩) | ⟨session, id, late, connected, h, -⟩)
  · exact hdispatches h
  · exact hevent h
  · exact hother id late connected h

theorem corrects_iff_givesUp
    (hother : ∀ session id late connected, e = .connectedChanged id late connected →
      s.m_session = some session → session.id ≠ id) : e.Corrects s ↔ e.GivesUp s := by
  refine or_iff_left ?_
  rintro ⟨session, id, late, connected, h, hsession, hid, -⟩
  exact hother session id late connected h hsession hid

theorem givesUp_iff (hdispatches : e.Dispatches s) :
    e.GivesUp s ↔ s.GivesUp (e.settings s) := by
  constructor
  · rintro (⟨-, h⟩ | ⟨rfl, -⟩)
    · exact h
    · exact absurd hdispatches id
  · exact fun h => .inl ⟨hdispatches, h⟩

/-- A notification of a session that has been given up. -/
theorem traced_unheard (hs : s.Offline) {id : ℕ} (late connected : Bool)
    (hother : ∀ session, s.m_session = some session → session.id ≠ id) :
    Traced s (http.next s (.connectedChanged id late connected))
      (.connectedChanged id late connected) := by
  have hdispatches : HttpEvent.Dispatches s (.connectedChanged id late connected) :=
    fun session hsession hid => absurd hid (hother session hsession)
  have hnext : http.next s (.connectedChanged id late connected) = s.dispatch := by
    cases hsession : s.m_session with
    | none => simp [http, hsession]
    | some session => simp [http, hsession, hother session hsession]
  rw [hnext]
  apply traced_dispatch hs rfl
  · unfold HttpEvent.Starts Serves
    rw [and_iff_right hdispatches]
    refine and_congr_right fun _ => and_congr_right fun _ => exists_congr fun session => ?_
    refine and_congr_right fun hsession => and_congr_right fun _ => and_congr_right fun _ => ?_
    rw [HttpEvent.marks, if_neg (hother session hsession)]
  · have hmisleads : ¬ HttpEvent.Misleads s (.connectedChanged id late connected) := by
      rintro ⟨-, -, session, hsession, hid, -⟩
      exact hother session hsession hid
    rw [or_iff_right hmisleads, corrects_iff_givesUp, givesUp_iff hdispatches]
    · rfl
    · rintro session id late connected ⟨⟩ hsession
      exact hother session hsession

section
variable {session : Session} (hsession : s.m_session = some session) (late connected : Bool)
include hsession

theorem offline_notified (hs : s.Offline) :
    Offline { s with m_session := some (session.notified late connected) } := by
  intro told hsome hinactive
  obtain rfl := Option.some.inj hsome
  have hactive : session.active = false := hinactive
  simpa [Session.notified, hactive] using hs session hsession hactive

omit hsession in
theorem misled_notified_iff :
    Misled { s with m_session := some (session.notified late connected) } ↔
      connected = true ∧ (late = true ∨ session.active = false) ∧ session.online = false := by
  rw [misled_some rfl]
  cases connected <;> cases late <;> cases hactive : session.active <;>
    simp [Session.notified, hactive]

theorem misleads_notified_iff :
    HttpEvent.Misleads s (.connectedChanged session.id late connected) ↔
      connected = true ∧ ¬ HttpEvent.GivesUp s (.connectedChanged session.id late connected) ∧
        (late = true ∨ session.active = false) ∧ session.online = false := by
  simp [HttpEvent.Misleads, hsession]

theorem corrects_notified_iff :
    HttpEvent.Corrects s (.connectedChanged session.id late connected) ↔
      HttpEvent.GivesUp s (.connectedChanged session.id late connected) ∨
        connected = false ∨ late = false ∧ session.active = true := by
  refine or_congr_right ?_
  constructor
  · rintro ⟨other, _, _, _, ⟨⟩, hother, -, h⟩
    rwa [Option.some.inj (hother.symm.trans hsession)] at h
  · exact fun h => ⟨session, session.id, late, connected, rfl, hsession, rfl, h⟩

/-- A notification of what the session is marked with already. -/
theorem traced_repeated (hs : s.Offline) (hsame : session.connected = connected) :
    Traced s (http.next s (.connectedChanged session.id late connected))
      (.connectedChanged session.id late connected) := by
  have hquiet : ¬ HttpEvent.Dispatches s (.connectedChanged session.id late connected) :=
    fun hdispatches => hdispatches session hsession rfl hsame
  have hkept : ¬ HttpEvent.GivesUp s (.connectedChanged session.id late connected) := by
    rintro (⟨h, -⟩ | ⟨h, -⟩)
    · exact hquiet h
    · cases h
  have hnext : http.next s (.connectedChanged session.id late connected) =
      { s with m_session := some (session.notified late connected) } := by
    simp [http, hsession, hsame]
  rw [hnext]
  apply traced_quiet (offline_notified hsession late connected hs) hquiet (reported_iff_of_eq rfl)
  rw [misled_notified_iff, misleads_notified_iff hsession, corrects_notified_iff hsession,
    misled_some hsession, hsame, and_iff_right hkept, or_iff_right hkept]
  cases connected <;> cases late <;> cases session.active <;> simp

/-- A notification that marks the session, or takes its mark away. -/
theorem traced_marked (hs : s.Offline) (hchanged : session.connected ≠ connected) :
    Traced s (http.next s (.connectedChanged session.id late connected))
      (.connectedChanged session.id late connected) := by
  have hdispatches : HttpEvent.Dispatches s (.connectedChanged session.id late connected) := by
    simp [HttpEvent.Dispatches, hsession, hchanged]
  have hnext : http.next s (.connectedChanged session.id late connected) =
      { s with m_session := some (session.notified late connected) }.dispatch := by
    simp [http, hsession, hchanged]
  have hgives : HttpEvent.GivesUp s (.connectedChanged session.id late connected) ↔
      GivesUp { s with m_session := some (session.notified late connected) } s.settings := by
    rw [givesUp_iff hdispatches]
    simp [GivesUp, hsession, HttpEvent.settings, Session.stale, Session.use_tor, Session.proxy,
      Session.notified]
  rw [hnext]
  refine traced_dispatch (s := s) (offline_notified hsession late connected hs) rfl ?_ ?_
  · rw [HttpEvent.Starts, and_iff_right hdispatches]
    simp [Serves, hsession, HttpEvent.settings, HttpEvent.marks, Session.stale, Session.use_tor,
      Session.proxy, Session.notified]
  · rw [misled_notified_iff, misleads_notified_iff hsession, corrects_notified_iff hsession, ← hgives,
      misled_some hsession, Bool.eq_not_of_ne hchanged]
    cases connected <;> simp [and_comm, and_assoc]

end

theorem traced_connectedChanged (hs : s.Offline) (id : ℕ) (late connected : Bool) :
    Traced s (http.next s (.connectedChanged id late connected))
      (.connectedChanged id late connected) := by
  by_cases hother : ∀ session, s.m_session = some session → session.id ≠ id
  · exact traced_unheard hs late connected hother
  · push Not at hother
    obtain ⟨session, hsession, rfl⟩ := hother
    by_cases hsame : session.connected = connected
    · exact traced_repeated hsession late connected hs hsame
    · exact traced_marked hsession late connected hs hsame

theorem traced_idleTimeout (hs : s.Offline) : Traced s (http.next s .idleTimeout) .idleTimeout := by
  have hmisleads : ¬ HttpEvent.Misleads s .idleTimeout := id
  by_cases hbusy : (s.m_running.isSome || !s.m_queue.isEmpty) = true
  · have hnext : http.next s .idleTimeout = { s with idle_timer := false } := if_pos hbusy
    have hquiet : ¬ HttpEvent.Dispatches s .idleTimeout := id
    rw [hnext]
    refine traced_quiet (s := s) (hs.of_eq rfl) hquiet (reported_iff_of_eq rfl) ?_
    have hkeeps : ¬ HttpEvent.GivesUp s .idleTimeout := by
      rintro (⟨h, -⟩ | ⟨-, hrunning, hqueue⟩)
      · exact h
      · simp [hrunning, hqueue] at hbusy
    rw [or_iff_right hmisleads, corrects_iff_givesUp (by simp), and_iff_left hkeeps]
    exact misled_iff_of_eq rfl
  · have hnext : http.next s .idleTimeout = { s with idle_timer := false, m_session := none } :=
      if_neg hbusy
    have hquiet : ¬ HttpEvent.Dispatches s .idleTimeout := id
    rw [hnext]
    refine traced_quiet (s := s) (offline_none rfl) hquiet (reported_iff_of_eq rfl) ?_
    have hgives : HttpEvent.GivesUp s .idleTimeout := .inr ⟨rfl, by simpa using hbusy⟩
    rw [or_iff_right hmisleads, corrects_iff_givesUp (by simp)]
    exact iff_of_false (not_misled_none rfl) fun h => h.2 hgives

theorem traced_next (hs : s.Offline) (e : HttpEvent) : Traced s (http.next s e) e := by
  cases e with
  | connectedChanged id late connected => exact traced_connectedChanged hs id late connected
  | exec request =>
      refine traced_same hs id (by simp) id (by simp) rfl (reported_write _ ?_ rfl)
      simp
  | dispatch =>
      refine traced_dispatch (u := { s with posted := s.posted - 1 }) (hs.of_eq rfl) rfl ?_ ?_
      · exact and_iff_right trivial
      · have hmisleads : ¬ HttpEvent.Misleads s .dispatch := id
        have hdispatches : HttpEvent.Dispatches s .dispatch := trivial
        rw [or_iff_right hmisleads, corrects_iff_givesUp (by simp), givesUp_iff hdispatches]
        rfl
  | changeSettings change =>
      by_cases hsame : s.settings.apply change = s.settings
      · have hnext : http.next s (.changeSettings change) = s := if_pos hsame
        rw [hnext]
        exact traced_same hs (fun h => h hsame) (by simp) id (by simp) rfl Iff.rfl
      · have hnext : http.next s (.changeSettings change) =
            { s with settings := s.settings.apply change }.dispatch := if_neg hsame
        have hmisleads : ¬ HttpEvent.Misleads s (.changeSettings change) := id
        have hdispatches : HttpEvent.Dispatches s (.changeSettings change) := hsame
        rw [hnext]
        refine traced_dispatch (s := s) (hs.of_eq rfl) rfl (and_iff_right hdispatches) ?_
        rw [or_iff_right hmisleads, corrects_iff_givesUp (by simp), givesUp_iff hdispatches]
        rfl
  | ended request => exact traced_same hs id (by simp) id (by simp) rfl Iff.rfl
  | connectFinished task => exact traced_same hs id (by simp) id (by simp) rfl Iff.rfl
  | destroyed request =>
      have hsession : (s.destroyed request).m_session = s.m_session := by
        unfold HttpManager.destroyed
        dsimp only
        split_ifs <;> rfl
      refine traced_same hs id (by simp) id (by simp) hsession ?_
      change (s.destroyed request).Reported ↔ s.Reported
      unfold HttpManager.destroyed
      by_cases hqueued : request ∈ s.m_queue
      · apply reported_write [.dropped request] (by simp)
        simp only [if_pos hqueued]
        split_ifs <;> rfl
      · apply reported_iff_of_eq
        simp only [if_neg hqueued]
        split_ifs <;> rfl
  | connectFailed task =>
      have hquiet : ¬ HttpEvent.Dispatches s (.connectFailed task) := id
      change Traced s { s with tasks := s.tasks.filter (· != task) }.connectFailed _
      unfold HttpManager.connectFailed
      cases hsession : s.m_session with
      | none =>
          refine traced_same hs hquiet (by simp) ?_ (by simp) hsession.symm Iff.rfl
          rintro ⟨session, hsome, -⟩
          cases hsession.symm.trans hsome
      | some session =>
          refine traced_quiet ?_ hquiet (reported_write _ (by simp) rfl) ?_
          · intro other hother _
            rw [← Option.some.inj hother]
          · have hcorrects : ¬ HttpEvent.Corrects s (.connectFailed task) := by
              rintro ((⟨h, -⟩ | ⟨h, -⟩) | ⟨_, _, _, _, h, -⟩)
              · exact h
              · cases h
              · cases h
            rw [misled_some rfl, and_iff_left hcorrects, misled_some hsession]
            simp only [HttpEvent.Misleads, hsession, Option.some.injEq, exists_eq_left']
            tauto
  | idleTimeout => exact traced_idleTimeout hs

theorem misled_iff_since (settings : Settings) (events : List HttpEvent) :
    (http.run { settings := settings } events).Misled ↔
      http.Since HttpEvent.Misleads HttpEvent.Corrects { settings := settings } events :=
  Reactive.iff_since (J := Offline) (V := fun _ _ => True)
    (fun _ e hs _ => (traced_next hs e).offline) (fun _ e hs _ => (traced_next hs e).misled)
    (offline_none rfl) (not_misled_none rfl) (Reactive.along_of_at fun _ _ _ _ => trivial)

/-- A run starts requests only on connections that had reported if and only if no request is
started since the session has been marked wrongly. -/
theorem reported_run (settings : Settings) (events : List HttpEvent) :
    (http.run { settings := settings } events).Reported ↔
      ∀ fs e gs, events = fs ++ e :: gs → e.Starts (http.run { settings := settings } fs) →
        ¬ http.Since HttpEvent.Misleads HttpEvent.Corrects { settings := settings }
          (fs ++ [e]) := by
  have hnone : Reported { settings := settings } :=
    fun _ _ _ hstarted => absurd hstarted List.not_mem_nil
  rw [Reactive.run_iff_along (P := fun s e => e.Starts s → ¬ (http.next s e).Misled)
    (fun _ e hs => (traced_next hs e).offline) (fun _ e hs => (traced_next hs e).reported)
    (offline_none rfl) events, and_iff_right hnone]
  apply Reactive.along_iff_forall
  intro fs e gs _ _
  rw [← misled_iff_since, Reactive.run_concat]

end
end HttpManager

/-- Requests run one at a time and in their order, on sessions that have the settings of that
moment: these are connected if and only if no request is started once the failure of a connection,
or a late notification, has left the session marked as connected. -/
theorem honoured_iff (settings : Settings) (events : List HttpEvent)
    (hvalid : http.Valid { settings := settings } events) :
    Honoured (http.run { settings := settings } events) ↔
      ∀ fs e gs, events = fs ++ e :: gs → e.Starts (http.run { settings := settings } fs) →
        ¬ http.Since HttpEvent.Misleads HttpEvent.Corrects { settings := settings }
          (fs ++ [e]) := by
  rw [← HttpManager.reported_run]
  have haccounted := accounted_run settings events hvalid
  constructor
  · intro h request session used hstarted
    exact (h.current request session used hstarted).1
  · intro hreported
    constructor
    · intro request session used hstarted
      exact ⟨hreported request session used hstarted,
        (haccounted.current request session used hstarted).2⟩
    · rw [haccounted.running]
      exact Option.length_toList_le
    · exact haccounted.order
    · exact (List.nodup_append.mp haccounted.nodup).1

/-- Tor is turned on while a session connects. The next session connects, and is deactivated
when the first connection times out. -/
def connectedBefore : List HttpEvent :=
  [.exec 0, .dispatch, .changeSettings (.setUseTor true), .connectedChanged 1 false true,
    .connectFailed ⟨0, 0⟩, .ended 0, .exec 1, .exec 2, .dispatch, .dispatch]

theorem valid_connectedBefore : http.Valid {} connectedBefore :=
  ⟨⟨rfl, by decide⟩, ⟨rfl, by decide⟩, ⟨rfl, by decide⟩, ⟨rfl, by decide⟩, ⟨rfl, by decide⟩,
    ⟨rfl, by decide⟩, ⟨rfl, by decide⟩, ⟨rfl, by decide⟩, ⟨rfl, by decide⟩, ⟨rfl, by decide⟩,
    trivial⟩

/-- The session is activated again for the requests that come after, and the second call of
`dispatch` starts one before the connection has reported. -/
theorem not_honoured_connectedBefore :
    http.Valid {} connectedBefore ∧ ¬ Honoured (http.run {} connectedBefore) := by
  refine ⟨valid_connectedBefore, ?_⟩
  intro h
  have hlast : (http.run {} connectedBefore).log.getLast? = some (.started 1
      { id := 1, made := { use_tor := true }, active := true, connected := true }
      { use_tor := true }) := rfl
  have hcurrent := h.current _ _ _ (List.mem_of_getLast? hlast)
  exact absurd hcurrent.1 Bool.false_ne_true

/-- The first of the requests is started on a connection that has reported. -/
theorem honoured_iff_connectedBefore :
    Honoured (http.run {} (connectedBefore.take 4)) ↔
      ∀ fs e gs, connectedBefore.take 4 = fs ++ e :: gs → e.Starts (http.run {} fs) →
        ¬ http.Since HttpEvent.Misleads HttpEvent.Corrects {} (fs ++ [e]) :=
  honoured_iff {} _
    ⟨⟨rfl, by decide⟩, ⟨rfl, by decide⟩, ⟨rfl, by decide⟩, ⟨rfl, by decide⟩, trivial⟩

end GreenWallet.Http
