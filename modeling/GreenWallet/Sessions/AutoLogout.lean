import GreenWallet.Library.Clock
import GreenWallet.Sessions.Session

/-!
# The automatic logout

The settings say after how many minutes without input the user is logged out, and they reach
the session with notifications and with the answers to its requests. The logout timer is the
only timer of the session. It runs from the setting of a time until it has timed out, and input
starts it anew.
-/
namespace GreenWallet.Sessions
open GreenWallet.Library GreenWallet.Wallets

/-- What a session is told by the library, by tasks, by the user and by its timers. -/
inductive Event where
  | handleNotification (notification : JsonObject)
  | setConnected (connected : Bool)
  | setSettings (settings : JsonObject)
  | eventFilter (type : EventType)
  | elapse (milliseconds : ℕ)
  | timerEvent (id : ℤ)

def Event.duration : Event → ℕ
  | .elapse milliseconds => milliseconds
  | _ => 0

/-- A call that may set the time. -/
def Event.IsCall : Event → Prop
  | .handleNotification _ | .setConnected _ | .setSettings _ => True
  | _ => False

def Timer.TimesOut (timer : Timer) : Prop := 95 * timer.interval ≤ 100 * timer.elapsed

instance (timer : Timer) : Decidable timer.TimesOut :=
  inferInstanceAs (Decidable (95 * timer.interval ≤ 100 * timer.elapsed))

def EventType.IsInput (type : EventType) : Prop := ∀ other, type ≠ .other other

def Signal.isAutoLogout : Signal → Bool
  | .autoLogoutTriggered => true
  | _ => false

namespace Session

/-- The application passes its events through its filters. -/
def enabled (session : Session) : Event → Prop
  | .eventFilter _ => session.logout.filters = true
  | .timerEvent id => ∃ timer ∈ session.logout.timers, timer.id = id ∧ timer.TimesOut
  | _ => True

instance (session : Session) (event : Event) : Decidable (session.enabled event) :=
  match event with
  | .eventFilter _ => inferInstanceAs (Decidable (session.logout.filters = true))
  | .timerEvent id =>
      inferInstanceAs (Decidable (∃ timer ∈ session.logout.timers, timer.id = id ∧ timer.TimesOut))
  | .handleNotification _ | .setConnected _ | .setSettings _ | .elapse _ => isTrue trivial

def next (session : Session) : Event → Session
  | .handleNotification notification => session.handleNotification notification
  | .setConnected connected => session.setConnected connected
  | .setSettings settings => session.setSettings settings
  | .eventFilter type => session.eventFilter type
  | .elapse milliseconds => session.elapse milliseconds
  | .timerEvent id => session.timerEvent id

/-- How often the logout has been triggered. -/
def autoLogouts (session : Session) : ℕ := session.emitted.countP Signal.isAutoLogout

/-- The time is set anew. -/
def Changes (session : Session) (event : Event) : Prop :=
  (session.next event).logout.m_altimeout ≠ session.logout.m_altimeout

/-- The time is set anew, or there is input. -/
def Restarts (session : Session) (event : Event) : Prop :=
  session.Changes event ∨ ∃ type, event = .eventFilter type ∧ type.IsInput

/-- The logout timer times out. -/
def Triggers (session : Session) (event : Event) : Prop :=
  event = .timerEvent session.logout.m_logout_timer

end Session

def session : Reactive Session Event Signal where
  enabled := Session.enabled
  next := Session.next
  emits := fun s e => (s.next e).emitted.drop s.emitted.length

instance (s : Session) (e : Event) : Decidable (session.enabled s e) :=
  inferInstanceAs (Decidable (s.enabled e))

theorem Event.IsCall.ne_eventFilter {e : Event} (he : e.IsCall) (type : EventType) :
    e ≠ .eventFilter type := by
  intro h
  rw [h] at he
  exact he

theorem Event.IsCall.duration {e : Event} (he : e.IsCall) : e.duration = 0 := by
  cases e with
  | elapse _ => exact absurd he id
  | _ => rfl

/-- The kinds of steps. -/
theorem Event.kinds (e : Event) :
    e.IsCall ∨ (∃ type, e = .eventFilter type) ∨
      (∃ milliseconds, e = .elapse milliseconds) ∨ ∃ id, e = .timerEvent id := by
  cases e <;> simp [IsCall]

/-! ### The timer -/

namespace LogoutTimer

/-- It filters events exactly if there is a time, and no timer but that of the logout runs. -/
structure Kept (l : LogoutTimer) : Prop where
  filters_iff : l.filters = true ↔ 0 < l.m_altimeout
  timer : l.m_logout_timer = -1 ∧ l.timers = [] ∨
    0 < l.m_logout_timer ∧ 0 < l.m_altimeout ∧
      ∃ elapsed, l.timers = [⟨l.m_logout_timer, interval l.m_altimeout, elapsed⟩]

/-- What the timer shows while it runs. -/
def shown (l : LogoutTimer) : Option ℕ := l.timers.head?.map Timer.elapsed

variable {l : LogoutTimer}

theorem Kept.timers_clear (hl : l.Kept) : l.clear.timers = [] := by
  unfold clear
  split_ifs with hruns
  · cases hl.timer with
    | inl hstopped => exact absurd hstopped.1 hruns
    | inr hrunning =>
        obtain ⟨elapsed, htimers⟩ := hrunning.2.2
        simp [stop, killTimer, htimers]
  · cases hl.timer with
    | inl hstopped => exact hstopped.2
    | inr hrunning =>
        have := hrunning.1
        omega

theorem m_logout_timer_clear : l.clear.m_logout_timer = -1 := by
  unfold clear
  split_ifs with hruns
  · rfl
  · exact not_not.mp hruns

theorem Kept.startTimer {altimeout : Int32} (hpositive : 0 < altimeout) {filtering : Bool}
    (hfilters : filtering = true) (htimers : l.timers = []) :
    Kept { l.startTimer (interval altimeout) with
      m_altimeout := altimeout
      filters := filtering } := by
  constructor
  · exact iff_of_true hfilters hpositive
  · refine .inr ⟨?_, hpositive, 0, ?_⟩
    · simp only [LogoutTimer.startTimer]
      omega
    · simp only [LogoutTimer.startTimer, htimers, List.nil_append]

theorem Kept.setAltimeout (hl : l.Kept) (altimeout : Int32) : (l.setAltimeout altimeout).Kept := by
  unfold LogoutTimer.setAltimeout
  split_ifs with hsame hpositive
  · exact hl
  · exact Kept.startTimer hpositive rfl hl.timers_clear
  · constructor
    · exact iff_of_false Bool.false_ne_true hpositive
    · exact .inl ⟨m_logout_timer_clear, hl.timers_clear⟩

/-- The timer of a running logout is killed for good. -/
theorem Kept.timers_killTimer (hl : l.Kept) : (l.killTimer l.m_logout_timer).timers = [] := by
  cases hl.timer with
  | inl hstopped => simp [killTimer, hstopped.2]
  | inr hrunning =>
      obtain ⟨elapsed, htimers⟩ := hrunning.2.2
      simp [killTimer, htimers]

/-- What input does, and nothing else. -/
theorem eventFilter_eq (type : EventType) (l : LogoutTimer) :
    type.IsInput ∧ l.m_logout_timer ≠ -1 ∧ l.eventFilter type =
        (l.killTimer l.m_logout_timer).startTimer (interval l.m_altimeout) ∨
      (type.IsInput → l.m_logout_timer = -1) ∧ l.eventFilter type = l := by
  by_cases hruns : l.m_logout_timer = -1
  · right
    cases type <;> simp [eventFilter, hruns]
  · cases type with
    | other type =>
        right
        exact ⟨fun h => absurd rfl (h type), rfl⟩
    | _ =>
        left
        exact ⟨nofun, hruns, if_pos hruns⟩

theorem Kept.eventFilter (hl : l.Kept) (type : EventType) : (l.eventFilter type).Kept := by
  cases eventFilter_eq type l with
  | inl htouched =>
      rw [htouched.2.2]
      cases hl.timer with
      | inl hstopped => exact absurd hstopped.1 htouched.2.1
      | inr hrunning =>
          exact Kept.startTimer hrunning.2.1 (hl.filters_iff.mpr hrunning.2.1) hl.timers_killTimer
  | inr hsame =>
      rw [hsame.2]
      exact hl

theorem Kept.elapse (hl : l.Kept) (milliseconds : ℕ) : (l.elapse milliseconds).Kept := by
  constructor
  · exact hl.filters_iff
  · cases hl.timer with
    | inl hstopped => exact .inl ⟨hstopped.1, by simp [LogoutTimer.elapse, hstopped.2]⟩
    | inr hrunning =>
        obtain ⟨elapsed, htimers⟩ := hrunning.2.2
        refine .inr ⟨hrunning.1, hrunning.2.1, elapsed + milliseconds, ?_⟩
        simp [LogoutTimer.elapse, htimers]

theorem Kept.stop (hl : l.Kept) : l.stop.Kept := by
  constructor
  · exact hl.filters_iff
  · exact .inl ⟨rfl, hl.timers_killTimer⟩

theorem Kept.fresh : Kept {} where
  filters_iff := by decide
  timer := .inl ⟨rfl, rfl⟩

/-! ### What the timer shows -/

theorem Kept.shown_eq_none_iff (hl : l.Kept) : l.shown = none ↔ l.m_logout_timer = -1 := by
  cases hl.timer with
  | inl hstopped => simp [shown, hstopped.1, hstopped.2]
  | inr hrunning =>
      obtain ⟨elapsed, htimers⟩ := hrunning.2.2
      have hne : l.m_logout_timer ≠ -1 := by have := hrunning.1; omega
      simp [shown, htimers, hne]

theorem shown_setAltimeout (hl : l.Kept) {altimeout : Int32} {shown : ℕ}
    (h : shown ∈ (l.setAltimeout altimeout).shown) :
    altimeout ≠ l.m_altimeout ∧ shown = 0 ∨ altimeout = l.m_altimeout ∧ shown ∈ l.shown := by
  unfold setAltimeout at h
  split_ifs at h with hsame hpositive
  · exact .inr ⟨hsame.symm, h⟩
  · left
    simp [LogoutTimer.shown, startTimer, hl.timers_clear] at h
    exact ⟨Ne.symm hsame, h.symm⟩
  · simp [LogoutTimer.shown, hl.timers_clear] at h

theorem shown_eventFilter (hl : l.Kept) {type : EventType} {shown : ℕ}
    (h : shown ∈ (l.eventFilter type).shown) :
    type.IsInput ∧ shown = 0 ∨ ¬ type.IsInput ∧ shown ∈ l.shown := by
  cases eventFilter_eq type l with
  | inl htouched =>
      rw [htouched.2.2] at h
      simp [LogoutTimer.shown, startTimer, hl.timers_killTimer] at h
      exact .inl ⟨htouched.1, h.symm⟩
  | inr hsame =>
      rw [hsame.2] at h
      refine .inr ⟨?_, h⟩
      intro hinput
      rw [hl.shown_eq_none_iff.mpr (hsame.1 hinput)] at h
      cases h

theorem shown_elapse {milliseconds shown : ℕ} (h : shown ∈ (l.elapse milliseconds).shown) :
    ∃ before ∈ l.shown, shown = before + milliseconds := by
  unfold LogoutTimer.shown elapse at h
  unfold LogoutTimer.shown
  cases htimers : l.timers with
  | nil => simp [htimers] at h
  | cons timer timers =>
      simp [htimers] at h
      exact ⟨timer.elapsed, rfl, h.symm⟩

end LogoutTimer

/-! ### The session -/

namespace Session

theorem autoLogouts_emit (signal : Signal) (s : Session) :
    (s.emit signal).autoLogouts = s.autoLogouts + if signal.isAutoLogout then 1 else 0 := by
  simp [autoLogouts, emit, List.countP_append, List.countP_cons]

/-- A step that sets the time, perhaps to what it is, and triggers nothing. -/
structure Sets (s t : Session) : Prop where
  logout : ∃ altimeout, t.logout = s.logout.setAltimeout altimeout
  autoLogouts : t.autoLogouts = s.autoLogouts

theorem Sets.of_eq {s t : Session} (hlogout : t.logout = s.logout)
    (hcount : t.autoLogouts = s.autoLogouts) : Sets s t where
  logout := ⟨s.logout.m_altimeout, by rw [hlogout, LogoutTimer.setAltimeout, if_pos rfl]⟩
  autoLogouts := hcount

theorem Sets.emit {s t : Session} (h : Sets s t) {signal : Signal}
    (hsignal : signal.isAutoLogout = false) : Sets s (t.emit signal) where
  logout := h.logout
  autoLogouts := by rw [autoLogouts_emit, hsignal, h.autoLogouts]; rfl

theorem Sets.same {s : Session} : Sets s s := .of_eq rfl rfl

theorem Sets.after {s t u : Session} (hlogout : t.logout = s.logout)
    (hcount : t.autoLogouts = s.autoLogouts) (h : Sets t u) : Sets s u where
  logout := hlogout ▸ h.logout
  autoLogouts := h.autoLogouts.trans hcount

theorem sets_setConnected (connected : Bool) (s : Session) : Sets s (s.setConnected connected) := by
  unfold setConnected
  split_ifs
  · exact .same
  · apply Sets.emit _ rfl
    exact .of_eq rfl rfl

theorem sets_setBlock (block : JsonObject) (s : Session) : Sets s (s.setBlock block) := by
  unfold setBlock
  split_ifs
  · exact .same
  · apply Sets.emit _ rfl
    exact .of_eq rfl rfl

theorem setUnit_eq (unit : String) (s : Session) :
    (s.setUnit unit).logout = s.logout ∧ (s.setUnit unit).autoLogouts = s.autoLogouts := by
  unfold setUnit
  split_ifs
  · exact ⟨rfl, rfl⟩
  · exact ⟨rfl, autoLogouts_emit _ _⟩

theorem sets_setSettings (settings : JsonObject) (s : Session) :
    Sets s (s.setSettings settings) := by
  unfold setSettings
  split_ifs
  · exact .same
  · have hunit := setUnit_eq (Json.toString (settings.value "unit"))
      { s with m_settings := settings }
    apply Sets.emit _ rfl
    exact ⟨⟨_, congrArg (LogoutTimer.setAltimeout _) hunit.1⟩, hunit.2⟩

theorem sets_handleEvent (event : String) (value : Option Json) (s : Session) :
    Sets s (s.handleEvent event value) := by
  unfold handleEvent
  split_ifs
  · exact (sets_setConnected _ s).emit rfl
  · exact Sets.same.emit rfl
  · exact sets_setSettings _ s
  · exact Sets.same.emit rfl
  · exact (sets_setBlock _ s).emit rfl
  · exact Sets.same.emit rfl
  · exact Sets.same.emit rfl
  · exact Sets.same.emit rfl
  · exact .same

theorem sets_handleNotification (notification : JsonObject) (s : Session) :
    Sets s (s.handleNotification notification) := by
  apply Sets.after _ _ (sets_handleEvent _ _ _)
  · rfl
  · rw [setEvent, autoLogouts_emit]
    exact autoLogouts_emit (.notificationHandled notification) s

theorem sets_of_isCall (s : Session) {e : Event} (he : e.IsCall) : Sets s (s.next e) := by
  cases e with
  | handleNotification notification => exact sets_handleNotification notification s
  | setConnected connected => exact sets_setConnected connected s
  | setSettings settings => exact sets_setSettings settings s
  | eventFilter _ | elapse _ | timerEvent _ => exact absurd he id

theorem m_altimeout_setAltimeout (altimeout : Int32) (l : LogoutTimer) :
    (l.setAltimeout altimeout).m_altimeout = altimeout := by
  unfold LogoutTimer.setAltimeout
  split_ifs with hsame
  · exact hsame
  · rfl
  · rfl

theorem m_altimeout_eventFilter (type : EventType) (l : LogoutTimer) :
    (l.eventFilter type).m_altimeout = l.m_altimeout := by
  cases LogoutTimer.eventFilter_eq type l with
  | inl htouched =>
      rw [htouched.2.2]
      rfl
  | inr hsame => rw [hsame.2]

theorem not_changes_timerEvent (s : Session) (id : ℤ) : ¬ s.Changes (.timerEvent id) := by
  simp only [Changes, next, timerEvent, not_not]
  split_ifs <;> rfl

theorem restarts_eventFilter (s : Session) (type : EventType) :
    s.Restarts (.eventFilter type) ↔ type.IsInput := by
  have hsame : ¬ s.Changes (.eventFilter type) := not_not.mpr (m_altimeout_eventFilter type s.logout)
  simp [Restarts, hsame]

theorem restarts_iff_changes (s : Session) {e : Event} (he : ∀ type, e ≠ .eventFilter type) :
    s.Restarts e ↔ s.Changes e := by
  simp [Restarts, he]

theorem kept_next {s : Session} (hs : s.logout.Kept) (e : Event) : (s.next e).logout.Kept := by
  rcases e.kinds with hcall | ⟨type, rfl⟩ | ⟨milliseconds, rfl⟩ | ⟨id, rfl⟩
  · obtain ⟨altimeout, hlogout⟩ := (sets_of_isCall s hcall).logout
    rw [hlogout]
    exact hs.setAltimeout altimeout
  · exact hs.eventFilter type
  · exact hs.elapse milliseconds
  · simp only [next, timerEvent]
    split_ifs
    · exact hs.stop
    · exact hs

/-- After a step the timer shows zero if the step restarts it, and else what it has shown and the
time of the step. -/
theorem shown_next {s : Session} (hs : s.logout.Kept) (e : Event) {shown : ℕ}
    (h : shown ∈ (s.next e).logout.shown) :
    s.Restarts e ∧ shown = 0 ∨
      ¬ s.Restarts e ∧ ∃ before ∈ s.logout.shown, shown = before + e.duration := by
  rcases e.kinds with hcall | ⟨type, rfl⟩ | ⟨milliseconds, rfl⟩ | ⟨id, rfl⟩
  · obtain ⟨altimeout, hlogout⟩ := (sets_of_isCall s hcall).logout
    rw [hlogout] at h
    rw [restarts_iff_changes s hcall.ne_eventFilter, Changes, hlogout, m_altimeout_setAltimeout,
      hcall.duration]
    cases LogoutTimer.shown_setAltimeout hs h with
    | inl hset => exact .inl hset
    | inr hkeeps => exact .inr ⟨not_not.mpr hkeeps.1, shown, hkeeps.2, rfl⟩
  · rw [restarts_eventFilter]
    cases LogoutTimer.shown_eventFilter hs h with
    | inl htouched => exact .inl htouched
    | inr hkeeps => exact .inr ⟨hkeeps.1, shown, hkeeps.2, rfl⟩
  · have hsame : ¬ s.Changes (.elapse milliseconds) := not_not.mpr rfl
    rw [restarts_iff_changes s fun _ => Event.noConfusion]
    exact .inr ⟨hsame, LogoutTimer.shown_elapse h⟩
  · rw [restarts_iff_changes s fun _ => Event.noConfusion]
    refine .inr ⟨not_changes_timerEvent s id, shown, ?_, rfl⟩
    simp only [next, timerEvent] at h
    split_ifs at h
    · have hstopped : s.logout.stop.shown = none := hs.stop.shown_eq_none_iff.mpr rfl
      have hshown : shown ∈ s.logout.stop.shown := h
      rw [hstopped] at hshown
      cases hshown
    · exact h

theorem autoLogouts_next (s : Session) (e : Event) :
    s.Triggers e ∧ (s.next e).autoLogouts = s.autoLogouts + 1 ∨
      ¬ s.Triggers e ∧ (s.next e).autoLogouts = s.autoLogouts := by
  rcases e.kinds with hcall | ⟨type, rfl⟩ | ⟨milliseconds, rfl⟩ | ⟨id, rfl⟩
  · refine .inr ⟨?_, (sets_of_isCall s hcall).autoLogouts⟩
    intro htriggers
    rw [htriggers] at hcall
    exact hcall
  · exact .inr ⟨Event.noConfusion, rfl⟩
  · exact .inr ⟨Event.noConfusion, rfl⟩
  · simp only [Triggers, next, timerEvent, Event.timerEvent.injEq]
    split_ifs with hid
    · exact .inl ⟨hid, autoLogouts_emit _ _⟩
    · exact .inr ⟨hid, rfl⟩

/-- The logout timer starts to run. -/
def Starts (s : Session) (e : Event) : Prop :=
  s.Changes e ∧ 0 < (s.next e).logout.m_altimeout

/-- It does not run on. -/
def Stops (s : Session) (e : Event) : Prop := s.Triggers e ∨ s.Changes e

theorem running_setAltimeout (l : LogoutTimer) (altimeout : Int32) :
    (l.setAltimeout altimeout).m_logout_timer ≠ -1 ↔
      altimeout ≠ l.m_altimeout ∧ 0 < altimeout ∨
        l.m_logout_timer ≠ -1 ∧ ¬ altimeout ≠ l.m_altimeout := by
  have hcleared : l.clear.m_logout_timer = -1 := LogoutTimer.m_logout_timer_clear
  unfold LogoutTimer.setAltimeout
  split_ifs with hsame hpositive
  · simp [hsame]
  · have hstarted : (l.clear.started : ℤ) + 1 ≠ -1 := by omega
    simp [LogoutTimer.startTimer, hstarted, hpositive, Ne.symm hsame]
  · simp [hcleared, hpositive, Ne.symm hsame]

theorem running_next (s : Session) (e : Event) :
    (s.next e).logout.m_logout_timer ≠ -1 ↔
      s.Starts e ∨ s.logout.m_logout_timer ≠ -1 ∧ ¬ s.Stops e := by
  rcases e.kinds with hcall | ⟨type, rfl⟩ | ⟨milliseconds, rfl⟩ | ⟨id, rfl⟩
  · obtain ⟨altimeout, hlogout⟩ := (sets_of_isCall s hcall).logout
    have htriggers : ¬ s.Triggers e := by
      intro htriggers
      rw [htriggers] at hcall
      exact hcall
    simp only [Starts, Stops, Changes, htriggers, hlogout, m_altimeout_setAltimeout, false_or]
    exact running_setAltimeout s.logout altimeout
  · have hsame : ¬ s.Changes (.eventFilter type) := not_not.mpr (m_altimeout_eventFilter type s.logout)
    have htriggers : ¬ s.Triggers (.eventFilter type) := Event.noConfusion
    simp only [Starts, Stops, hsame, htriggers, false_and, or_self, not_false_eq_true, and_true,
      false_or]
    cases LogoutTimer.eventFilter_eq type s.logout with
    | inl htouched =>
        have hstarted : (s.logout.started : ℤ) + 1 ≠ -1 := by omega
        simp only [next, eventFilter, htouched.2.2]
        exact iff_of_true hstarted htouched.2.1
    | inr hsame =>
        simp only [next, eventFilter, hsame.2]
  · have hsame : ¬ s.Changes (.elapse milliseconds) := not_not.mpr rfl
    have htriggers : ¬ s.Triggers (.elapse milliseconds) := Event.noConfusion
    simp only [Starts, Stops, hsame, htriggers, false_and, or_self, not_false_eq_true, and_true,
      false_or]
    exact Iff.rfl
  · have hsame := not_changes_timerEvent s id
    simp only [Starts, Stops, hsame, Triggers, next, timerEvent, Event.timerEvent.injEq, false_and,
      or_false, false_or]
    split_ifs with hid
    · simp [hid, emit, LogoutTimer.stop]
    · simp [hid]

/-- The session has been idle, which means that nothing has restarted the timer, for at least 95 %
of the time of the settings, and the timer has not timed out meanwhile. -/
def IdleFor (network : Network) (es : List Event) : Prop :=
  ∃ fs f gs, es = fs ++ f :: gs ∧ (session.run { m_network := network } fs).Restarts f ∧
    session.Along (fun s e => ¬ s.Restarts e ∧ ¬ s.Triggers e)
      (session.next (session.run { m_network := network } fs) f) gs ∧
    95 * LogoutTimer.interval (session.run { m_network := network } es).logout.m_altimeout ≤
      100 * Reactive.taken Event.duration gs

theorem kept_run {network : Network} {es : List Event}
    (hes : session.Valid { m_network := network } es) :
    (session.run { m_network := network } es).logout.Kept :=
  Reactive.run_invariant (I := fun s => s.logout.Kept) (fun _ e hs _ => kept_next hs e) .fresh hes

theorem not_triggers_of_shown {s : Session} (hs : s.logout.Kept) {e : Event}
    (h : (s.next e).logout.shown.isSome) : ¬ s.Triggers e := by
  intro htriggers
  have hstopped : s.logout.stop.shown = none := hs.stop.shown_eq_none_iff.mpr rfl
  rw [htriggers] at h
  simp only [next, timerEvent, if_true, emit, hstopped] at h
  exact Bool.false_ne_true h

theorem idleFor_of_timesOut {network : Network} {es : List Event}
    (hes : session.Valid { m_network := network } es) {timer : Timer}
    (hlogout : (session.run { m_network := network } es).logout.Kept)
    (htimer : timer ∈ (session.run { m_network := network } es).logout.timers)
    (htimesOut : timer.TimesOut) : IdleFor network es := by
  cases hlogout.timer with
  | inl hstopped =>
      rw [hstopped.2] at htimer
      cases htimer
  | inr hrunning =>
      obtain ⟨elapsed, htimers⟩ := hrunning.2.2
      have hshown : elapsed ∈ (session.run { m_network := network } es).logout.shown := by
        simp [LogoutTimer.shown, htimers]
      obtain ⟨fs, f, gs, hsplit, hrestarts, hquiet, htaken⟩ :=
        Reactive.clock_history (J := fun s => s.logout.Kept) (Z := Restarts)
          (fun _ e hs _ => kept_next hs e) (fun _ e hs _ _ h => shown_next hs e h) .fresh rfl hes
          hshown
      refine ⟨fs, f, gs, hsplit, hrestarts, ?_, ?_⟩
      · apply hquiet.imp
        intro s e ⟨hs, hrestarts, hshown⟩
        exact ⟨hrestarts, not_triggers_of_shown hs hshown⟩
      · rw [htimers, List.mem_singleton] at htimer
        rw [htimer] at htimesOut
        rw [← htaken]
        exact htimesOut

/-- **The logout comes after a time without input, and once.** The timer runs exactly since a
positive time has been set, up to a trigger or to another time. The logout is triggered once when
it times out and at no other step, and then the session has been idle for the time set, less the
twentieth of it by which a coarse timer may be early. -/
theorem auto_logout_after_idle {network : Network} {es : List Event}
    (hes : session.Valid { m_network := network } es) :
    ((session.run { m_network := network } es).logout.m_logout_timer ≠ -1 ↔
        session.Since Starts Stops { m_network := network } es) ∧
      ∀ e, session.enabled (session.run { m_network := network } es) e →
        ((session.run { m_network := network } es).Triggers e →
          (session.run { m_network := network } (es ++ [e])).autoLogouts =
              (session.run { m_network := network } es).autoLogouts + 1 ∧
            0 < (session.run { m_network := network } es).logout.m_altimeout ∧
            IdleFor network es) ∧
        (¬ (session.run { m_network := network } es).Triggers e →
          (session.run { m_network := network } (es ++ [e])).autoLogouts =
            (session.run { m_network := network } es).autoLogouts) := by
  have hkept := kept_run hes
  constructor
  · exact Reactive.iff_since (J := fun _ => True)
      (I := fun s => s.logout.m_logout_timer ≠ -1) (fun _ _ _ _ => trivial)
      (fun s e _ _ => running_next s e) trivial (not_not.mpr rfl) hes
  · intro e he
    rw [Reactive.run_concat]
    have hcount := autoLogouts_next (session.run { m_network := network } es) e
    constructor
    · intro htriggers
      refine ⟨(hcount.resolve_right fun hquiet => hquiet.1 htriggers).2, ?_⟩
      rw [htriggers] at he
      obtain ⟨timer, htimer, _, htimesOut⟩ := he
      refine ⟨?_, idleFor_of_timesOut hes hkept htimer htimesOut⟩
      cases hkept.timer with
      | inl hstopped =>
          rw [hstopped.2] at htimer
          cases htimer
      | inr hrunning => exact hrunning.2.1
    · intro hquiet
      exact (hcount.resolve_left fun htriggers => hquiet htriggers.1).2

def bitcoin : Network where
  isMainnet := true
  isLiquid := false

/-- Five minutes are set, there is input after one of them, and none in the next five. -/
def fiveMinutes : List Event :=
  [.handleNotification
      [("event", .string "settings"),
        ("settings", .object [("altimeout", .number 5), ("unit", .string "btc")])],
    .elapse 60000, .eventFilter .keyPress, .elapse 299000]

theorem auto_logout_after_idle_fiveMinutes :
    (session.run { m_network := bitcoin } (fiveMinutes ++ [.timerEvent 2])).autoLogouts =
        (session.run { m_network := bitcoin } fiveMinutes).autoLogouts + 1 ∧
      IdleFor bitcoin fiveMinutes := by
  have hes : session.Valid { m_network := bitcoin } fiveMinutes := by decide +kernel
  have he : session.enabled (session.run { m_network := bitcoin } fiveMinutes) (.timerEvent 2) := by
    decide +kernel
  have htriggers : (session.run { m_network := bitcoin } fiveMinutes).Triggers (.timerEvent 2) :=
    congrArg Event.timerEvent (by decide +kernel)
  obtain ⟨honce, _, hidle⟩ := ((auto_logout_after_idle hes).2 _ he).1 htriggers
  exact ⟨honce, hidle⟩

end Session
end GreenWallet.Sessions
