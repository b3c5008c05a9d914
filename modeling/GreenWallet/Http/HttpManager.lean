import Mathlib.Data.List.Nodup
import GreenWallet.Library.Reactive

/-!
# Requests over HTTP

Requests are queued and run one after the other on a session that the manager keeps. The
session is made with the settings of that moment for Tor and the proxy, and is given up when
these change or when nothing has been asked for in a while. Of a session that has been given
up only its signals and its `ConnectTask` are left.

Everything but the handlers here is up to the environment: when requests are submitted, end
and are destroyed, when calls of `dispatch` that are queued are made, and what becomes of the
connections. A session has a connection of its own while it is active, and is marked as connected
if the last notification of it said so, which may have come from an earlier connection.
-/
namespace GreenWallet.Http
open GreenWallet.Library

structure Settings where
  use_tor : Bool := false
  use_proxy : Bool := false
  proxy_host : String := ""
  proxy_port : Int32 := 9001
deriving DecidableEq

/-- Without a proxy the string is null, which equals an empty one. -/
def Settings.proxy (settings : Settings) : String :=
  if settings.use_proxy then settings.proxy_host ++ ":" ++ toString settings.proxy_port else ""

inductive SettingsChange where
  | setUseTor (use_tor : Bool)
  | setUseProxy (use_proxy : Bool)
  | setProxyHost (proxy_host : String)
  | setProxyPort (proxy_port : Int32)

def Settings.apply (settings : Settings) : SettingsChange → Settings
  | .setUseTor use_tor => { settings with use_tor := use_tor }
  | .setUseProxy use_proxy => { settings with use_proxy := use_proxy }
  | .setProxyHost proxy_host => { settings with proxy_host := proxy_host }
  | .setProxyPort proxy_port => { settings with proxy_port := proxy_port }

/-- A session has the settings that it was made with. -/
structure Session where
  id : ℕ
  made : Settings
  active : Bool := false
  connected : Bool := false
  /-- The connection that there is now has reported to be connected. -/
  online : Bool := false
deriving DecidableEq

namespace Session

def use_tor (session : Session) : Bool := session.made.use_tor

def use_proxy (session : Session) : Bool := session.made.use_proxy

def proxy (session : Session) : String := session.made.proxy

/-- A notification comes in. -/
def notified (late connected : Bool) (session : Session) : Session :=
  { session with
    connected := connected
    online := if late || !session.active then session.online else connected }

end Session

structure ConnectTask where
  id : ℕ
  session : ℕ
deriving DecidableEq

inductive HttpSignal where
  | submitted (request : ℕ)
  /-- A request is started on a session, under these settings. -/
  | started (request : ℕ) (session : Session) (settings : Settings)
  /-- A request that waits is destroyed, or failed by `drain`. -/
  | dropped (request : ℕ)

structure HttpManager where
  settings : Settings := {}
  /-- How many sessions and tasks have been created. -/
  sessions : ℕ := 0
  created : ℕ := 0
  m_session : Option Session := none
  m_queue : List ℕ := []
  m_running : Option ℕ := none
  idle_timer : Bool := false
  /-- Calls of `dispatch` that are queued. -/
  posted : ℕ := 0
  tasks : List ConnectTask := []
  /-- Requests that have been started and have not ended. -/
  running : List ℕ := []
  /-- Requests that have been submitted and not destroyed. -/
  alive : List ℕ := []
  crashed : Bool := false
  log : List HttpSignal := []

namespace HttpManager

def write (s : HttpManager) (signals : List HttpSignal) : HttpManager :=
  { s with log := s.log ++ signals }

/-- The session is given up if it is not as the settings are now, but not while it is used. -/
def checkSettings (s : HttpManager) : HttpManager :=
  match s.m_session, s.m_running with
  | some session, none =>
      if session.use_tor != s.settings.use_tor || session.proxy != s.settings.proxy then
        { s with m_session := none }
      else s
  | _, _ => s

/-- The session, which is created if there is none. -/
def getSession (s : HttpManager) : HttpManager × Session :=
  match s.m_session with
  | some session => (s, session)
  | none =>
      let session : Session := { id := s.sessions, made := s.settings }
      ({ s with sessions := s.sessions + 1, m_session := some session }, session)

def connect (s : HttpManager) (session : Session) : HttpManager :=
  { s with
    m_session := some { session with active := true, online := false }
    created := s.created + 1
    tasks := s.tasks ++ [{ id := s.created, session := session.id }] }

def start (s : HttpManager) (session : Session) (request : ℕ) (rest : List ℕ) : HttpManager :=
  { s.write [.started request session s.settings] with
    m_queue := rest
    m_running := some request
    running := s.running ++ [request] }

/-- `dispatch`, after the check of the settings. -/
def serve (s : HttpManager) : HttpManager :=
  match s.m_queue with
  | [] => { s with idle_timer := true }
  | request :: rest =>
      if s.m_running.isSome then s
      else
        let (s, session) := s.getSession
        if !session.active then s.connect session
        else if !session.connected then s
        else s.start session request rest

def dispatch (s : HttpManager) : HttpManager := { s with idle_timer := false }.checkSettings.serve

def drain (s : HttpManager) : HttpManager :=
  { s.write (s.m_queue.map .dropped) with m_queue := [] }

/-- The handler of a `ConnectTask` that has failed, which does not look at its session. -/
def connectFailed (s : HttpManager) : HttpManager :=
  match s.m_session with
  | none => { s with crashed := true }
  | some session =>
      { s with m_session := some { session with active := false, online := false } }.drain

/-- The handler of `Activity::destroyed`. -/
def destroyed (s : HttpManager) (request : ℕ) : HttpManager :=
  let s := if request ∈ s.m_queue then s.write [.dropped request] else s
  let s := { s with
    m_queue := s.m_queue.filter (· != request)
    running := s.running.filter (· != request)
    alive := s.alive.filter (· != request) }
  if s.m_running = some request then { s with m_running := none, posted := s.posted + 1 } else s

/-- What the timeout of the idle timer does. -/
def idleTimeout (s : HttpManager) : HttpManager :=
  let s := { s with idle_timer := false }
  if s.m_running.isSome || !s.m_queue.isEmpty then s else { s with m_session := none }

end HttpManager

inductive HttpEvent where
  | exec (request : ℕ)
  /-- A call of `dispatch` that is queued is made. -/
  | dispatch
  | changeSettings (change : SettingsChange)
  /-- A notification of a session, of one given up too; it is late if the connection that it
  comes from is not there any more. -/
  | connectedChanged (session : ℕ) (late connected : Bool)
  /-- A request has finished or failed. -/
  | ended (request : ℕ)
  | destroyed (request : ℕ)
  | connectFinished (task : ConnectTask)
  | connectFailed (task : ConnectTask)
  | idleTimeout

def submittedIds (log : List HttpSignal) : List ℕ :=
  log.filterMap fun signal => match signal with
    | .submitted request => some request
    | _ => none

def startedIds (log : List HttpSignal) : List ℕ :=
  log.filterMap fun signal => match signal with
    | .started request _ _ => some request
    | _ => none

def droppedIds (log : List HttpSignal) : List ℕ :=
  log.filterMap fun signal => match signal with
    | .dropped request => some request
    | _ => none

def http : Reactive HttpManager HttpEvent Empty where
  enabled s event :=
    s.crashed = false ∧ match event with
      | .exec request => request ∉ submittedIds s.log
      | .dispatch => 0 < s.posted
      | .changeSettings _ => True
      | .connectedChanged session _ _ => session < s.sessions
      | .ended request => request ∈ s.running
      | .destroyed request => request ∈ s.alive
      | .connectFinished task => task ∈ s.tasks
      | .connectFailed task => task ∈ s.tasks
      | .idleTimeout => s.idle_timer = true
  next s event :=
    match event with
    | .exec request =>
        { s.write [.submitted request] with
          m_queue := s.m_queue ++ [request]
          alive := s.alive ++ [request]
          posted := s.posted + 1 }
    | .dispatch => { s with posted := s.posted - 1 }.dispatch
    | .changeSettings change =>
        if s.settings.apply change = s.settings then s
        else { s with settings := s.settings.apply change }.dispatch
    | .connectedChanged id late connected =>
        match s.m_session with
        | some session =>
            if session.id = id then
              let told := session.notified late connected
              if session.connected = connected then { s with m_session := some told }
              else { s with m_session := some told }.dispatch
            else s.dispatch
        | none => s.dispatch
    | .ended request =>
        { s with
          running := s.running.filter (· != request)
          m_running := none
          posted := s.posted + 1 }
    | .destroyed request => s.destroyed request
    | .connectFinished task => { s with tasks := s.tasks.filter (· != task) }
    | .connectFailed task => { s with tasks := s.tasks.filter (· != task) }.connectFailed
    | .idleTimeout => s.idleTimeout
  emits _ _ := []

/-- Requests run one at a time and in their order, and each is started on a session that is
connected and has the settings of that moment. -/
structure Honoured (s : HttpManager) : Prop where
  current : ∀ request session settings, .started request session settings ∈ s.log →
    session.online = true ∧ session.use_tor = settings.use_tor ∧
      session.use_proxy = settings.use_proxy ∧ session.proxy = settings.proxy
  alone : s.running.length ≤ 1
  order : startedIds s.log ++ s.m_queue =
    (submittedIds s.log).filter fun request => request ∉ droppedIds s.log
  once : (startedIds s.log).Nodup

section
variable (log more : List HttpSignal)

@[simp] theorem submittedIds_append :
    submittedIds (log ++ more) = submittedIds log ++ submittedIds more := List.filterMap_append

@[simp] theorem startedIds_append : startedIds (log ++ more) = startedIds log ++ startedIds more :=
  List.filterMap_append

@[simp] theorem droppedIds_append : droppedIds (log ++ more) = droppedIds log ++ droppedIds more :=
  List.filterMap_append

end

/-- What holds between two events. -/
structure Accounted (s : HttpManager) : Prop where
  current : ∀ request session settings, .started request session settings ∈ s.log →
    session.connected = true ∧ session.use_tor = settings.use_tor ∧
      session.use_proxy = settings.use_proxy ∧ session.proxy = settings.proxy
  running : s.running = s.m_running.toList
  order : startedIds s.log ++ s.m_queue =
    (submittedIds s.log).filter fun request => request ∉ droppedIds s.log
  dropped : droppedIds s.log ⊆ submittedIds s.log
  distinct : (submittedIds s.log).Nodup

/-- The session may be used under the settings of this moment. -/
def HttpManager.Checked (s : HttpManager) : Prop :=
  s.m_running = none → ∀ session, s.m_session = some session →
    session.use_tor = s.settings.use_tor ∧ session.proxy = s.settings.proxy

/-- The comparison with the settings in `dispatch`. -/
def Session.stale (session : Session) (settings : Settings) : Bool :=
  session.use_tor != settings.use_tor || session.proxy != settings.proxy

namespace HttpManager

/-- `dispatch` gives the session up under these settings. -/
def GivesUp (s : HttpManager) (settings : Settings) : Prop :=
  s.m_running = none ∧ s.m_session.any (·.stale settings) = true

theorem checkSettings_cases (s : HttpManager) :
    s.GivesUp s.settings ∧ s.checkSettings = { s with m_session := none } ∨
      ¬ s.GivesUp s.settings ∧ s.checkSettings = s := by
  unfold checkSettings GivesUp
  split
  · rename_i session hsession hrunning
    simp only [hsession, hrunning, Option.any_some, Session.stale, true_and]
    split_ifs with hstale
    · exact .inl ⟨hstale, rfl⟩
    · exact .inr ⟨hstale, rfl⟩
  · rename_i hother
    refine .inr ⟨?_, rfl⟩
    intro ⟨hrunning, hstale⟩
    obtain ⟨session, hsession, -⟩ := (Option.any_eq_true _ _).mp hstale
    exact hother session hsession hrunning

theorem checked_checkSettings (s : HttpManager) : s.checkSettings.Checked := by
  intro hrunning session hsession
  rcases s.checkSettings_cases with ⟨-, hnone⟩ | ⟨hfresh, hsame⟩
  · rw [hnone] at hsession
    cases hsession
  · rw [hsame] at hrunning hsession ⊢
    have hnot : session.stale s.settings = false := by
      simpa [GivesUp, hrunning, hsession] using hfresh
    simpa [Session.stale] using hnot

theorem settings_getSession (s : HttpManager) : s.getSession.1.settings = s.settings := by
  unfold HttpManager.getSession
  split
  · rfl
  · rfl

/-- A session that is created has the settings of the moment. -/
theorem getSession_settings {s : HttpManager} (hchecked : s.Checked) (hrunning : s.m_running = none) :
    s.getSession.2.use_tor = s.settings.use_tor ∧ s.getSession.2.proxy = s.settings.proxy := by
  unfold HttpManager.getSession
  split
  · rename_i session hsession
    exact hchecked hrunning session hsession
  · exact ⟨rfl, rfl⟩

end HttpManager

theorem Settings.proxy_eq_empty_iff (settings : Settings) :
    settings.proxy = "" ↔ settings.use_proxy = false := by
  unfold Settings.proxy
  cases settings.use_proxy <;> simp

/-- The proxy tells whether one is used. -/
theorem Session.use_proxy_eq {session : Session} {settings : Settings}
    (h : session.proxy = settings.proxy) : session.use_proxy = settings.use_proxy := by
  have hempty := session.made.proxy_eq_empty_iff
  rw [← Session.proxy, h, settings.proxy_eq_empty_iff] at hempty
  rw [Session.use_proxy]
  cases hmade : session.made.use_proxy <;> simp_all

namespace Accounted
variable {s : HttpManager}

theorem of_eq {t : HttpManager} (h : Accounted s) (hlog : t.log = s.log)
    (hqueue : t.m_queue = s.m_queue) (hrunning : t.running = s.running)
    (hrun : t.m_running = s.m_running) : Accounted t where
  current := hlog ▸ h.current
  running := by rw [hrunning, hrun, h.running]
  order := by rw [hlog, hqueue, h.order]
  dropped := hlog ▸ h.dropped
  distinct := hlog ▸ h.distinct

theorem nodup (h : Accounted s) : (startedIds s.log ++ s.m_queue).Nodup := by
  rw [h.order]
  exact h.distinct.filter _

theorem queued_submitted (h : Accounted s) : s.m_queue ⊆ submittedIds s.log := by
  intro request hqueued
  have hmem : request ∈ startedIds s.log ++ s.m_queue := List.mem_append_right _ hqueued
  rw [h.order] at hmem
  exact List.mem_of_mem_filter hmem

/-- Requests that wait are dropped. -/
theorem drop (h : Accounted s) {requests : List ℕ} (hrequests : requests ⊆ s.m_queue) :
    Accounted
      { s.write (requests.map .dropped) with
        m_queue := s.m_queue.filter fun request => request ∉ requests } where
  current := by
    intro request session settings hstarted
    apply h.current request session settings
    simpa [HttpManager.write] using hstarted
  running := h.running
  order := by
    have hstarted : (startedIds s.log).filter (fun request => request ∉ requests) =
        startedIds s.log := by
      rw [List.filter_eq_self]
      intro request hrequest
      have hdisjoint := (List.nodup_append.mp h.nodup).2.2 request hrequest
      simpa using fun hdropped => hdisjoint request (hrequests hdropped) rfl
    have hdropped : droppedIds (requests.map .dropped) = requests := by simp [droppedIds]
    have hnone : startedIds (requests.map .dropped) = [] := by simp [startedIds]
    have hsubmitted : submittedIds (requests.map .dropped) = [] := by simp [submittedIds]
    simp only [HttpManager.write, startedIds_append, submittedIds_append, droppedIds_append,
      hdropped, hnone, hsubmitted, List.append_nil]
    rw [← hstarted, ← List.filter_append, h.order, List.filter_filter]
    congr 1
    funext request
    simp [and_comm]
  dropped := by
    have hwaited : requests ⊆ submittedIds s.log := List.Subset.trans hrequests h.queued_submitted
    simpa [HttpManager.write, submittedIds, droppedIds] using ⟨h.dropped, hwaited⟩
  distinct := by
    simpa [HttpManager.write, submittedIds] using h.distinct

theorem checkSettings (h : Accounted s) : Accounted s.checkSettings := by
  rcases s.checkSettings_cases with ⟨-, hnone⟩ | ⟨-, hsame⟩
  · rw [hnone]
    exact h.of_eq rfl rfl rfl rfl
  · rw [hsame]
    exact h

theorem getSession (h : Accounted s) : Accounted s.getSession.1 := by
  unfold HttpManager.getSession
  split
  · exact h
  · exact h.of_eq rfl rfl rfl rfl

/-- The first request that waits is started. -/
theorem start (h : Accounted s) {session : Session} {request : ℕ} {rest : List ℕ}
    (hqueue : s.m_queue = request :: rest) (hrunning : s.m_running = none)
    (hconnected : session.connected = true) (htor : session.use_tor = s.settings.use_tor)
    (hproxy : session.proxy = s.settings.proxy) : Accounted (s.start session request rest) where
  current := by
    intro other used settings hstarted
    rcases List.mem_append.mp hstarted with hold | hnew
    · exact h.current other used settings hold
    · obtain ⟨-, rfl, rfl⟩ : other = request ∧ used = session ∧ settings = s.settings := by
        simpa using hnew
      exact ⟨hconnected, htor, Session.use_proxy_eq hproxy, hproxy⟩
  running := by
    have hold := h.running
    rw [hrunning] at hold
    rw [HttpManager.start, hold]
    rfl
  order := by
    have horder := h.order
    rw [hqueue] at horder
    simpa [HttpManager.start, HttpManager.write, startedIds, submittedIds, droppedIds] using horder
  dropped := by
    simpa [HttpManager.start, HttpManager.write, submittedIds, droppedIds] using h.dropped
  distinct := by
    simpa [HttpManager.start, HttpManager.write, submittedIds] using h.distinct

theorem serve (h : Accounted s) (hchecked : s.Checked) : Accounted s.serve := by
  unfold HttpManager.serve
  split
  · exact h.of_eq rfl rfl rfl rfl
  · rename_i request rest hqueue
    cases hrunning : s.m_running with
    | some other => exact h
    | none =>
        obtain ⟨htor, hproxy⟩ := HttpManager.getSession_settings hchecked hrunning
        have hsettings := s.settings_getSession
        have hsame : s.getSession.1.m_queue = request :: rest ∧
            s.getSession.1.m_running = none := by
          unfold HttpManager.getSession
          split
          · exact ⟨hqueue, hrunning⟩
          · exact ⟨hqueue, hrunning⟩
        simp only [Option.isSome_none, Bool.false_eq_true, if_false]
        split_ifs with hactive hconnected
        · exact h.getSession.of_eq rfl rfl rfl rfl
        · exact h.getSession
        · apply h.getSession.start hsame.1 hsame.2 (by simpa using hconnected)
          · rw [hsettings, htor]
          · rw [hsettings, hproxy]

theorem dispatch (h : Accounted s) : Accounted s.dispatch := by
  have hstopped : Accounted { s with idle_timer := false } := h.of_eq rfl rfl rfl rfl
  exact hstopped.checkSettings.serve (HttpManager.checked_checkSettings _)

theorem connectFailed (h : Accounted s) : Accounted s.connectFailed := by
  unfold HttpManager.connectFailed
  split
  · exact h.of_eq rfl rfl rfl rfl
  · rename_i session hsession
    have hdrained := h.drop (List.Subset.refl s.m_queue)
    exact hdrained.of_eq rfl (by simp [HttpManager.drain]) rfl rfl

/-- A request that runs is destroyed. -/
theorem removeRunning (h : Accounted s) (request : ℕ) :
    Accounted
      { s with
        running := s.running.filter (· != request)
        m_running := if s.m_running = some request then none else s.m_running } where
  current := h.current
  running := by
    have hrunning := h.running
    cases hrun : s.m_running with
    | none => simp [hrunning, hrun]
    | some other =>
        by_cases hsame : other = request
        · simp [hrunning, hrun, hsame]
        · simp [hrunning, hrun, hsame]
  order := h.order
  dropped := h.dropped
  distinct := h.distinct

theorem destroyed (h : Accounted s) (request : ℕ) : Accounted (s.destroyed request) := by
  unfold HttpManager.destroyed
  by_cases hqueued : request ∈ s.m_queue
  · have hdropped := (h.drop (List.cons_subset.mpr ⟨hqueued, List.nil_subset _⟩)).removeRunning request
    have hfilter : s.m_queue.filter (· != request) =
        s.m_queue.filter fun other => other ∉ [request] := by
      congr 1
      funext other
      by_cases hsame : other = request <;> simp [hsame]
    simp only [if_pos hqueued]
    split_ifs with hrunning
    · exact hdropped.of_eq rfl hfilter rfl (if_pos hrunning).symm
    · exact hdropped.of_eq rfl hfilter rfl (if_neg hrunning).symm
  · have hremoved := h.removeRunning request
    have hfilter : s.m_queue.filter (· != request) = s.m_queue := by
      rw [List.filter_eq_self]
      intro other hother
      rw [bne_iff_ne]
      exact fun hsame => hqueued (hsame ▸ hother)
    simp only [if_neg hqueued]
    split_ifs with hrunning
    · exact hremoved.of_eq rfl hfilter rfl (if_pos hrunning).symm
    · exact hremoved.of_eq rfl hfilter rfl (if_neg hrunning).symm

theorem exec (h : Accounted s) {request : ℕ} (hfresh : request ∉ submittedIds s.log) :
    Accounted (http.next s (.exec request)) where
  current := by
    intro other session settings hstarted
    apply h.current other session settings
    simpa [http, HttpManager.write] using hstarted
  running := h.running
  order := by
    have hkept : request ∉ droppedIds s.log := fun hdropped => hfresh (h.dropped hdropped)
    have hdropped : droppedIds [.submitted request] = [] := rfl
    have hstarted : startedIds [.submitted request] = [] := rfl
    have hsubmitted : submittedIds [.submitted request] = [request] := rfl
    simp only [http, HttpManager.write, startedIds_append, submittedIds_append, droppedIds_append,
      hdropped, hstarted, hsubmitted, List.append_nil, List.filter_append]
    rw [← List.append_assoc, h.order, List.filter_singleton]
    simp [hkept]
  dropped := by
    simp only [http, HttpManager.write, submittedIds_append, droppedIds_append]
    exact List.append_subset.mpr
      ⟨List.Subset.trans h.dropped (List.subset_append_left _ _), List.nil_subset _⟩
  distinct := by
    simp only [http, HttpManager.write, submittedIds_append]
    rw [List.nodup_append']
    exact ⟨h.distinct, List.nodup_singleton _, List.disjoint_singleton.mpr hfresh⟩

/-- Whatever is submitted, changed, connected, ended and destroyed. -/
theorem next {event : HttpEvent} (h : Accounted s) (henabled : http.enabled s event) :
    Accounted (http.next s event) := by
  cases event with
  | exec request => exact h.exec henabled.2
  | dispatch =>
      have hposted : Accounted { s with posted := s.posted - 1 } := h.of_eq rfl rfl rfl rfl
      exact hposted.dispatch
  | changeSettings change =>
      have hsettings : Accounted { s with settings := s.settings.apply change } :=
        h.of_eq rfl rfl rfl rfl
      simp only [http]
      split_ifs
      · exact h
      · exact hsettings.dispatch
  | connectedChanged id late connected =>
      simp only [http]
      split
      · rename_i session hsession
        have htold : Accounted { s with m_session := some (session.notified late connected) } :=
          h.of_eq rfl rfl rfl rfl
        split_ifs
        · exact htold
        · exact htold.dispatch
        · exact h.dispatch
      · exact h.dispatch
  | ended request =>
      have hrun : s.m_running = some request := by
        have hrunning : request ∈ s.running := henabled.2
        rwa [h.running, Option.mem_toList] at hrunning
      exact (h.removeRunning request).of_eq rfl rfl rfl (if_pos hrun).symm
  | destroyed request => exact h.destroyed request
  | connectFinished task => exact h.of_eq rfl rfl rfl rfl
  | connectFailed task =>
      have htasks : Accounted { s with tasks := s.tasks.filter (· != task) } :=
        h.of_eq rfl rfl rfl rfl
      exact htasks.connectFailed
  | idleTimeout =>
      simp only [http, HttpManager.idleTimeout]
      split_ifs
      · exact h.of_eq rfl rfl rfl rfl
      · exact h.of_eq rfl rfl rfl rfl

end Accounted

theorem accounted_init (settings : Settings) : Accounted { settings := settings } where
  current := fun _ _ _ hstarted => absurd hstarted List.not_mem_nil
  running := rfl
  order := rfl
  dropped := List.nil_subset _
  distinct := List.nodup_nil

theorem accounted_run (settings : Settings) (events : List HttpEvent)
    (hvalid : http.Valid { settings := settings } events) :
    Accounted (http.run { settings := settings } events) :=
  Reactive.run_invariant (fun _ _ haccounted henabled => Accounted.next haccounted henabled)
    (accounted_init settings) hvalid

end GreenWallet.Http
