import GreenWallet.Http.HttpManager

/-!
# Requests that wait

`dispatch` starts one request and returns, or returns because the session is not connected. Every
request that is left in the queue depends on somebody calling it again: a call that is queued, the
end of the request that runs, or a session that is getting connected. A session keeps `connected`
when it is deactivated, so that it may be activated again without a change to tell of.
-/
namespace GreenWallet.Http
open GreenWallet.Library

namespace HttpManager

/-- The session is getting connected, and the manager will be told. -/
def Connecting (s : HttpManager) : Prop :=
  ∃ session, s.m_session = some session ∧ session.active = true ∧ session.connected = false

/-- If requests wait, then there will be a call of `dispatch`. -/
def Attended (s : HttpManager) : Prop :=
  s.crashed = false → s.m_queue ≠ [] → 0 < s.posted ∨ s.m_running.isSome = true ∨ s.Connecting

/-- The session is not active, and is still marked as connected. -/
def StillConnected (s : HttpManager) : Prop :=
  ∃ session, s.m_session = some session ∧ session.stale s.settings = false ∧
    session.active = false ∧ session.connected = true

/-- The last call of `dispatch` that is queued activates a session that is marked as connected. -/
def Forgets (s : HttpManager) : HttpEvent → Prop
  | .dispatch => s.posted = 1 ∧ s.m_queue ≠ [] ∧ s.m_running = none ∧ s.StillConnected
  | _ => False

instance (s : HttpManager) : Decidable s.StillConnected :=
  match hsession : s.m_session with
  | none => isFalse fun ⟨session, h, _⟩ => by rw [hsession] at h; cases h
  | some session =>
      decidable_of_iff (session.stale s.settings = false ∧ session.active = false ∧
          session.connected = true) (by simp [StillConnected, hsession])

instance (s : HttpManager) (e : HttpEvent) : Decidable (s.Forgets e) := by
  cases e <;> unfold Forgets <;> infer_instance

/-! ### A call of `dispatch` -/

section
variable {s : HttpManager} {request : ℕ} {rest : List ℕ}

theorem serve_idle (hqueue : s.m_queue = []) : s.serve = { s with idle_timer := true } := by
  simp [serve, hqueue]

theorem serve_running (hqueue : s.m_queue = request :: rest) (hrunning : s.m_running.isSome = true) :
    s.serve = s := by
  simp [serve, hqueue, hrunning]

/-- A session is created and activated. -/
theorem serve_created (hqueue : s.m_queue = request :: rest) (hrunning : s.m_running = none)
    (hsession : s.m_session = none) : s.serve.Connecting := by
  simp [serve, hqueue, hrunning, getSession, hsession, connect, Connecting]

theorem serve_inactive (hqueue : s.m_queue = request :: rest) (hrunning : s.m_running = none)
    {session : Session} (hsession : s.m_session = some session) (hactive : session.active = false) :
    s.serve = s.connect session := by
  simp [serve, hqueue, hrunning, getSession, hsession, hactive]

theorem serve_unconnected (hqueue : s.m_queue = request :: rest) (hrunning : s.m_running = none)
    {session : Session} (hsession : s.m_session = some session) (hactive : session.active = true)
    (hconnected : session.connected = false) : s.serve = s := by
  simp [serve, hqueue, hrunning, getSession, hsession, hactive, hconnected]

theorem serve_start (hqueue : s.m_queue = request :: rest) (hrunning : s.m_running = none)
    {session : Session} (hsession : s.m_session = some session) (hactive : session.active = true)
    (hconnected : session.connected = true) : s.serve = s.start session request rest := by
  simp [serve, hqueue, hrunning, getSession, hsession, hactive, hconnected]

end

/-- Requests wait, and the session to use is not active but is marked as connected. -/
def Reactivates (s : HttpManager) : Prop :=
  s.m_queue ≠ [] ∧ s.m_running = none ∧
    ∃ session, s.m_session = some session ∧ session.active = false ∧ session.connected = true

theorem attended_serve {s : HttpManager} (h : s.posted = 0 → ¬ s.Reactivates) :
    s.serve.Attended := by
  cases hqueue : s.m_queue with
  | nil =>
      rw [serve_idle hqueue]
      exact fun _ hwaits => absurd hqueue hwaits
  | cons request rest =>
      intro _ _
      cases hrunning : s.m_running with
      | some other =>
          have hsome : s.m_running.isSome = true := by rw [hrunning]; rfl
          rw [serve_running hqueue hsome]
          exact .inr (.inl hsome)
      | none =>
          cases hsession : s.m_session with
          | none => exact .inr (.inr (serve_created hqueue hrunning hsession))
          | some session =>
              cases hactive : session.active with
              | false =>
                  rw [serve_inactive hqueue hrunning hsession hactive]
                  by_cases hposted : s.posted = 0
                  · have hconnected : session.connected = false := by
                      by_contra hconnected
                      exact h hposted ⟨by simp [hqueue], hrunning, session, hsession, hactive,
                        by simpa using hconnected⟩
                    exact .inr (.inr ⟨_, rfl, rfl, hconnected⟩)
                  · exact .inl (Nat.pos_of_ne_zero hposted)
              | true =>
                  cases hconnected : session.connected with
                  | false =>
                      rw [serve_unconnected hqueue hrunning hsession hactive hconnected]
                      exact .inr (.inr ⟨session, hsession, hactive, hconnected⟩)
                  | true =>
                      rw [serve_start hqueue hrunning hsession hactive hconnected]
                      exact .inr (.inl rfl)

theorem not_attended_serve {s : HttpManager} (hcrashed : s.crashed = false) (hposted : s.posted = 0)
    (h : s.Reactivates) : ¬ s.serve.Attended := by
  obtain ⟨hwaits, hrunning, session, hsession, hactive, hconnected⟩ := h
  obtain ⟨request, rest, hqueue⟩ := List.exists_cons_of_ne_nil hwaits
  rw [serve_inactive hqueue hrunning hsession hactive]
  intro hattended
  have hsame : (s.connect session).posted = s.posted ∧ (s.connect session).m_running = none :=
    ⟨rfl, hrunning⟩
  rcases hattended hcrashed hwaits with hcall | hruns | ⟨found, hfound, -, hgetting⟩
  · omega
  · rw [hsame.2] at hruns
    cases hruns
  · rw [← Option.some.inj hfound] at hgetting
    rw [hconnected] at hgetting
    cases hgetting

theorem reactivates_checkSettings (s : HttpManager) :
    { s with idle_timer := false }.checkSettings.Reactivates ↔
      s.m_queue ≠ [] ∧ s.m_running = none ∧ s.StillConnected := by
  rcases { s with idle_timer := false }.checkSettings_cases with ⟨hgives, hnone⟩ | ⟨hkeeps, hsame⟩
  · rw [hnone]
    constructor
    · intro ⟨_, _, session, hsession, _⟩
      cases hsession
    · intro ⟨_, _, session, hsession, hfresh, _⟩
      have hstale : s.m_session.any (·.stale s.settings) = true := hgives.2
      rw [hsession, Option.any_some, hfresh] at hstale
      cases hstale
  · rw [hsame]
    constructor
    · intro ⟨hwaits, hrunning, session, hsession, hmarked⟩
      refine ⟨hwaits, hrunning, session, hsession, ?_, hmarked⟩
      by_contra hstale
      have hany : s.m_session.any (·.stale s.settings) = true := by
        have hsession : s.m_session = some session := hsession
        rw [hsession, Option.any_some]
        exact eq_true_of_ne_false hstale
      exact hkeeps ⟨hrunning, hany⟩
    · intro ⟨hwaits, hrunning, session, hsession, _, hmarked⟩
      exact ⟨hwaits, hrunning, session, hsession, hmarked⟩

theorem posted_checkSettings (s : HttpManager) :
    s.checkSettings.posted = s.posted ∧ s.checkSettings.crashed = s.crashed := by
  rcases s.checkSettings_cases with ⟨-, hnone⟩ | ⟨-, hsame⟩
  · rw [hnone]
    exact ⟨rfl, rfl⟩
  · rw [hsame]
    exact ⟨rfl, rfl⟩

theorem attended_dispatch {s : HttpManager}
    (h : s.posted = 0 → s.m_queue ≠ [] → s.m_running = none → ¬ s.StillConnected) :
    s.dispatch.Attended := by
  apply attended_serve
  rw [(posted_checkSettings _).1]
  intro hposted hreactivates
  obtain ⟨hwaits, hrunning, hstill⟩ := (reactivates_checkSettings s).mp hreactivates
  exact h hposted hwaits hrunning hstill

theorem not_attended_dispatch {s : HttpManager} (hcrashed : s.crashed = false)
    (hposted : s.posted = 0) (hwaits : s.m_queue ≠ []) (hrunning : s.m_running = none)
    (hstill : s.StillConnected) : ¬ s.dispatch.Attended := by
  have hsame := posted_checkSettings { s with idle_timer := false }
  exact not_attended_serve (hsame.2.trans hcrashed) (hsame.1.trans hposted)
    ((reactivates_checkSettings s).mpr ⟨hwaits, hrunning, hstill⟩)

/-! ### The steps of a run -/

theorem attended_of_posted {s : HttpManager} (h : 0 < s.posted) : s.Attended :=
  fun _ _ => .inl h

/-- Where no call is queued and no request runs, the session is getting connected. -/
theorem Attended.connecting {s : HttpManager} (hs : s.Attended) (hcrashed : s.crashed = false)
    (hposted : s.posted = 0) (hwaits : s.m_queue ≠ []) (hrunning : s.m_running = none) :
    s.Connecting := by
  rcases hs hcrashed hwaits with hcall | hruns | hconnecting
  · omega
  · rw [hrunning] at hruns
    cases hruns
  · exact hconnecting

theorem Attended.destroyed {s : HttpManager} (hs : s.Attended) (request : ℕ) :
    (s.destroyed request).Attended := by
  unfold HttpManager.destroyed
  dsimp only
  split_ifs
  · exact attended_of_posted (Nat.succ_pos _)
  · intro hcrashed hwaits
    have hwaited : s.m_queue ≠ [] := by
      intro hempty
      exact hwaits (by simp [write, hempty])
    exact hs hcrashed hwaited
  · exact attended_of_posted (Nat.succ_pos _)
  · intro hcrashed hwaits
    have hwaited : s.m_queue ≠ [] := by
      intro hempty
      exact hwaits (by simp [hempty])
    exact hs hcrashed hwaited

theorem Attended.changeSettings {s : HttpManager} (hs : s.Attended) (hcrashed : s.crashed = false)
    (settings : Settings) : ({ s with settings := settings }.dispatch).Attended := by
  apply attended_dispatch
  intro hposted hwaits hrunning ⟨session, hsession, _, hinactive, _⟩
  obtain ⟨found, hfound, hactive, -⟩ := hs.connecting hcrashed hposted hwaits hrunning
  rw [Option.some.inj (hfound.symm.trans hsession), hinactive] at hactive
  cases hactive

theorem Attended.redispatch {s : HttpManager} (hs : s.Attended) (hcrashed : s.crashed = false) :
    s.dispatch.Attended := hs.changeSettings hcrashed s.settings

/-- A notification that tells nothing new. -/
theorem Attended.notified {s : HttpManager} (hs : s.Attended) {session : Session}
    (hsession : s.m_session = some session) (late : Bool) :
    Attended { s with m_session := some (session.notified late session.connected) } := by
  intro hcrashed hwaits
  rcases hs hcrashed hwaits with hcall | hruns | ⟨found, hfound, hactive, hconnected⟩
  · exact .inl hcall
  · exact .inr (.inl hruns)
  · obtain rfl : found = session := Option.some.inj (hfound.symm.trans hsession)
    exact .inr (.inr ⟨_, rfl, hactive, hconnected⟩)

theorem Attended.connectedChanged {s : HttpManager} (hs : s.Attended) (hcrashed : s.crashed = false)
    {session : Session} (hsession : s.m_session = some session) (late connected : Bool) :
    ({ s with m_session := some (session.notified late connected) }.dispatch).Attended := by
  apply attended_dispatch
  intro hposted hwaits hrunning ⟨changed, hchanged, _, hinactive, _⟩
  obtain ⟨found, hfound, hactive, -⟩ := hs.connecting hcrashed hposted hwaits hrunning
  rw [← Option.some.inj hchanged] at hinactive
  rw [Option.some.inj (hfound.symm.trans hsession)] at hactive
  have hinactive : session.active = false := hinactive
  rw [hinactive] at hactive
  cases hactive

theorem Attended.connectFailed {s : HttpManager} : s.connectFailed.Attended := by
  unfold HttpManager.connectFailed
  split
  · intro hcrashed
    cases hcrashed
  · exact fun _ hwaits => absurd rfl hwaits

theorem attended_next {s : HttpManager} {e : HttpEvent} (he : http.enabled s e) (hs : s.Attended) :
    (http.next s e).Attended ↔ ¬ s.Forgets e := by
  have hcrashed : s.crashed = false := he.1
  cases e with
  | exec request => exact iff_of_true (attended_of_posted (Nat.succ_pos _)) not_false
  | dispatch =>
      have hposted : 0 < s.posted := he.2
      constructor
      · intro hattended ⟨hlast, hwaits, hrunning, hstill⟩
        have hnone : s.posted - 1 = 0 := by omega
        exact not_attended_dispatch (s := { s with posted := s.posted - 1 }) hcrashed hnone hwaits
          hrunning hstill hattended
      · intro hforgets
        refine attended_dispatch (s := { s with posted := s.posted - 1 }) ?_
        intro hnone hwaits hrunning hstill
        have hnone : s.posted - 1 = 0 := hnone
        exact hforgets ⟨by omega, hwaits, hrunning, hstill⟩
  | changeSettings change =>
      refine iff_of_true ?_ not_false
      dsimp only [http]
      split_ifs
      · exact hs
      · exact hs.changeSettings hcrashed _
  | connectedChanged id late connected =>
      refine iff_of_true ?_ not_false
      dsimp only [http]
      split
      · rename_i session hsession
        split_ifs with hid hsame
        · rw [← hsame]
          exact hs.notified hsession late
        · exact hs.connectedChanged hcrashed hsession late connected
        · exact hs.redispatch hcrashed
      · exact hs.redispatch hcrashed
  | ended request => exact iff_of_true (attended_of_posted (Nat.succ_pos _)) not_false
  | destroyed request => exact iff_of_true (hs.destroyed request) not_false
  | connectFinished task => exact iff_of_true hs not_false
  | connectFailed task => exact iff_of_true .connectFailed not_false
  | idleTimeout =>
      refine iff_of_true ?_ not_false
      dsimp only [http, HttpManager.idleTimeout]
      split_ifs with hbusy
      · exact hs
      · intro _ hwaits
        have hwaits : s.m_queue ≠ [] := hwaits
        exact absurd (by simp [hwaits]) hbusy

/-- **No request waits for nothing.** While requests wait and the manager has not crashed, a call
of `dispatch` is queued, a request runs or the session is getting connected: in every state of a
run, exactly if no last queued call finds requests waiting for a session that is not active and
is still marked as connected. -/
theorem requests_attended_iff (settings : Settings) {es : List HttpEvent}
    (hes : http.Valid { settings := settings } es) :
    http.Always Attended { settings := settings } es ↔
      http.Along (fun s e => ¬ s.Forgets e) { settings := settings } es :=
  Reactive.always_iff_along (J := fun _ => True) (V := http.enabled) (fun _ _ _ _ => trivial)
    (fun _ _ _ he hs => attended_next he hs) trivial (fun _ hwaits => absurd rfl hwaits) hes

/-- The `ConnectTask` of a session that is marked as connected fails, and requests come after. -/
def failedWhenConnected : List HttpEvent :=
  [.exec 0, .dispatch, .connectedChanged 0 false true, .ended 0, .dispatch, .connectFailed ⟨0, 0⟩,
    .exec 1, .exec 2, .dispatch, .dispatch]

theorem requests_attended_iff_failedWhenConnected :
    http.Always Attended {} failedWhenConnected := by
  have hes : http.Valid {} failedWhenConnected :=
    ⟨⟨rfl, by decide⟩, ⟨rfl, by decide⟩, ⟨rfl, by decide⟩, ⟨rfl, by decide⟩, ⟨rfl, by decide⟩,
      ⟨rfl, by decide⟩, ⟨rfl, by decide⟩, ⟨rfl, by decide⟩, ⟨rfl, by decide⟩, ⟨rfl, by decide⟩,
      trivial⟩
  have hforgets : http.Along (fun s e => ¬ s.Forgets e) {} failedWhenConnected := by decide +kernel
  exact (requests_attended_iff {} hes).mpr hforgets

/-- Had there been one request only, it would wait for nothing. -/
example : ¬ http.Along (fun s e => ¬ s.Forgets e) {} (failedWhenConnected.take 7 ++ [.dispatch]) := by
  decide +kernel

end HttpManager
end GreenWallet.Http
