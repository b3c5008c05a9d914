import GreenWallet.Tasks.Dispatching

/-!
# The sessions of a context

A context has a session for each network it logs in to. `loginNetwork` makes the tasks
that connect the session and log in, and has it released when the first of them times
out or the second fails. The dispatcher goes on with the other tasks of a group
whatever becomes of one of them, and fails them all in the end.

What the tasks do is `Dispatching`; the handlers of their signals change no task, so
they are run here once a step of it is done, in the order of the signals.
-/
namespace GreenWallet.Wallets
open GreenWallet.Library GreenWallet.Tasks

/-- A `Session`, with the number under which it was created. -/
structure Session where
  id : ℕ
  network : ℕ
deriving DecidableEq

structure SessionManager where
  created : ℕ := 0
  sessions : List Session := []
  garbage : List Session := []

namespace SessionManager

def create (network : ℕ) (m : SessionManager) : SessionManager × Session :=
  let session : Session := { id := m.created, network := network }
  ({ m with created := m.created + 1, sessions := m.sessions ++ [session] }, session)

def release (session : Session) (m : SessionManager) : SessionManager :=
  { m with sessions := m.sessions.erase session, garbage := m.garbage ++ [session] }

end SessionManager

/-- The part of a `Context` that keeps its sessions. -/
structure Context where
  sessions : ℕ → Option Session := fun _ => none
  sessions_list : List Session := []
  assets_loaded : Bool := false

/-- What `loginNetwork` leaves behind: a session, and the tasks whose handlers release it. -/
structure Attempt (ι : Type) where
  session : Session
  connect : ι
  login : ι

inductive SessionSignal where
  /-- `releaseSession`, with what it takes out of the map of the context. -/
  | released (session : Session) (taken : Option Session)
  | loggedIn (session : Session)
deriving DecidableEq

structure Logins (ι : Type) where
  dispatching : Dispatching ι
  context : Context := {}
  manager : SessionManager := {}
  attempts : List (Attempt ι) := []
  /-- What has become of the sessions so far. -/
  log : List SessionSignal := []

/-- The arguments of `loginNetwork`, what it looks up, and the tasks it constructs. -/
structure LoginNetwork (ι : Type) where
  group : GroupId
  network : ℕ
  isLiquid : Bool
  connect : ι
  login : ι
  /-- Used if the network is Liquid and no assets have been loaded. -/
  assets : ι
  /-- Where the settings of the primary session have a `pricing`. -/
  settings : Option ι

/-- The handlers that `loginNetwork` connects. -/
inductive Heard where
  | timedOut
  | loginFailed
  | loginFinished
deriving DecidableEq

inductive LoginEvent (ι : Type) where
  | step (e : Step ι)
  | loginNetwork (call : LoginNetwork ι)
  /-- Others ask for the session of a network. -/
  | getOrCreateSession (network : ℕ)

namespace Logins
variable {ι : Type}

def getOrCreateSession (network : ℕ) (s : Logins ι) : Logins ι × Session :=
  match s.context.sessions network with
  | some session => (s, session)
  | none =>
      let (manager, session) := s.manager.create network
      ({ s with
          manager := manager
          context :=
            { s.context with
              sessions := Function.update s.context.sessions network (some session)
              sessions_list := s.context.sessions_list ++ [session] } },
        session)

/-- The session goes to the garbage; from the map goes whatever its network has there. -/
def releaseSession (session : Session) (s : Logins ι) : Logins ι :=
  { s with
    context :=
      { s.context with
        sessions := Function.update s.context.sessions session.network none
        sessions_list := s.context.sessions_list.erase session }
    manager := s.manager.release session
    log := s.log ++ [.released session (s.context.sessions session.network)] }

/-- Which handlers of an attempt a signal reaches. -/
def heard [DecidableEq ι] (signal : Signal ι) (attempt : Attempt ι) : List Heard :=
  match signal with
  | .failed t error =>
      (if t = attempt.connect ∧ error = "timeout error" then [.timedOut] else []) ++
        if t = attempt.login then [.loginFailed] else []
  | .finished t => if t = attempt.login then [.loginFinished] else []
  | _ => []

/-- A handler runs. `loadNetwork`, which adds tasks only, asks for the session again. -/
def react (s : Logins ι) : Attempt ι × Heard → Logins ι
  | (attempt, .timedOut) | (attempt, .loginFailed) => s.releaseSession attempt.session
  | (attempt, .loginFinished) =>
      let s := { s with log := s.log ++ [SessionSignal.loggedIn attempt.session] }
      (s.getOrCreateSession attempt.session.network).1

variable [DecidableEq ι]

/-- The handlers that run, each for its attempt. -/
def allHeard (attempts : List (Attempt ι)) (signals : List (Signal ι)) : List (Attempt ι × Heard) :=
  signals.flatMap fun signal => attempts.flatMap fun attempt =>
    (heard signal attempt).map (attempt, ·)

variable [Fintype ι]

def step (s : Logins ι) (e : Step ι) : Logins ι :=
  (allHeard s.attempts (Dispatching.reactive.emits s.dispatching e)).foldl react
    { s with dispatching := s.dispatching.next e }

def loginNetwork (s : Logins ι) (call : LoginNetwork ι) : Logins ι :=
  let (s, session) := s.getOrCreateSession call.network
  let loads := call.isLiquid && !s.context.assets_loaded
  let w := s.dispatching.world
  let w :=
    if loads then
      ((w.then_ call.connect call.assets).then_ call.assets call.login).groupAdd call.group
        call.assets
    else w
  let w :=
    match call.settings with
    | some settings => (w.then_ call.login settings).groupAdd call.group settings
    | none => w
  let w := (w.groupAdd call.group call.connect).groupAdd call.group call.login
  { s with
    dispatching := { s.dispatching with world := w }
    context := { s.context with assets_loaded := s.context.assets_loaded || call.isLiquid }
    attempts :=
      s.attempts ++ [{ session := session, connect := call.connect, login := call.login }] }

def next (s : Logins ι) : LoginEvent ι → Logins ι
  | .step e => s.step e
  | .loginNetwork call => s.loginNetwork call
  | .getOrCreateSession network => (s.getOrCreateSession network).1

/-- The tasks of a call are new ones, of the classes that `loginNetwork` constructs. -/
def Constructs (s : Logins ι) (call : LoginNetwork ι) : Prop :=
  let tasks := [call.connect, call.login, call.assets] ++ call.settings.toList
  tasks.Nodup ∧
    (∀ attempt ∈ s.attempts, attempt.connect ∉ tasks ∧ attempt.login ∉ tasks) ∧
    (s.dispatching.world.tasks call.connect).type = .connect 10000 ∧
    (s.dispatching.world.tasks call.login).type = .login ∧
    (s.dispatching.world.tasks call.assets).type = .loadAssets ∧
    ∀ t ∈ call.settings, (s.dispatching.world.tasks t).type = .changeSettings

instance (s : Logins ι) (call : LoginNetwork ι) : Decidable (s.Constructs call) := by
  unfold Constructs
  infer_instance

end Logins

/-- The context at work, with the signals of the tasks. -/
def logins {ι : Type} [DecidableEq ι] [Fintype ι] : Reactive (Logins ι) (LoginEvent ι) (Signal ι) where
  enabled := fun s e =>
    match e with
    | .step e => s.dispatching.enabled e
    | .loginNetwork call => s.Constructs call
    | .getOrCreateSession _ => True
  next := Logins.next
  emits := fun s e =>
    match e with
    | .step e => Dispatching.reactive.emits s.dispatching e
    | _ => []

instance {ι : Type} [DecidableEq ι] [Fintype ι] (s : Logins ι) (e : LoginEvent ι) :
    Decidable (logins.enabled s e) := by
  cases e <;> simp only [logins] <;> infer_instance

/-- The session a signal is about, and whether it was released. -/
def SessionSignal.key : SessionSignal → Session × Bool
  | .released session _ => (session, true)
  | .loggedIn session => (session, false)

/-- The session a handler is about, and whether it releases it. -/
def Heard.key {ι : Type} : Attempt ι × Heard → Session × Bool
  | (attempt, .timedOut) | (attempt, .loginFailed) => (attempt.session, true)
  | (attempt, .loginFinished) => (attempt.session, false)

/-- Whatever ends a session is the first thing that is said about it. -/
def EndsFirst (keys : List (Session × Bool)) : Prop :=
  keys.Pairwise fun earlier later => later.2 = true → earlier.1 ≠ later.1

/-- Each session is released at most once and not after its login, so the lists of the
manager stay apart and without repetition, and no other session leaves the map. -/
structure ReleasedOnce {ι : Type} (s : Logins ι) : Prop where
  once : s.log.Pairwise fun earlier later => ∀ session taken taken',
    earlier = .released session taken → later ≠ .released session taken'
  beforeLogin : s.log.Pairwise fun earlier later => ∀ session taken,
    earlier = .loggedIn session → later ≠ .released session taken
  disjoint : ∀ session ∈ s.manager.sessions, session ∉ s.manager.garbage
  sessions : s.manager.sessions.Nodup
  garbage : s.manager.garbage.Nodup
  own : ∀ session taken, .released session taken ∈ s.log → ∀ other ∈ taken, other = session

/-- What the handlers that run in a run are about, in their order. -/
def outcomes {ι : Type} [DecidableEq ι] [Fintype ι] (s : Logins ι) (es : List (LoginEvent ι)) :
    List (Session × Bool) :=
  (logins.trace s es).flatMap fun step =>
    (Logins.allHeard step.1.attempts step.2.2).map Heard.key

namespace Logins
variable {ι : Type}

/-- The manager and the context as they are while every session ends first. -/
structure Kept (s : Logins ι) : Prop where
  sessions : s.manager.sessions.Nodup
  garbage : s.manager.garbage.Nodup
  disjoint : ∀ session ∈ s.manager.sessions, session ∉ s.manager.garbage
  below : ∀ session, session ∈ s.manager.sessions ∨ session ∈ s.manager.garbage →
    session.id < s.manager.created
  /-- A session that was released is in the garbage. -/
  released : ∀ session, session ∈ s.manager.garbage ↔ (session, true) ∈ s.log.map SessionSignal.key
  mapped : ∀ session, session ∈ s.manager.sessions ↔
    s.context.sessions session.network = some session
  attempts : ∀ attempt ∈ s.attempts,
    attempt.session ∈ s.manager.sessions ∨ attempt.session ∈ s.manager.garbage
  own : ∀ session taken, .released session taken ∈ s.log → taken = some session
  network : ∀ network session, s.context.sessions network = some session →
    session.network = network

/-- The session that is created is none of those there have been. -/
theorem Kept.ne_created {s : Logins ι} (hs : s.Kept) (network : ℕ) {session : Session}
    (hmem : session ∈ s.manager.sessions ∨ session ∈ s.manager.garbage) :
    session ≠ { id := s.manager.created, network := network } := by
  intro hsame
  subst hsame
  exact absurd (hs.below _ hmem) (Nat.lt_irrefl _)

theorem Kept.getOrCreateSession {s : Logins ι} (hs : s.Kept) (network : ℕ) :
    (s.getOrCreateSession network).1.Kept := by
  unfold Logins.getOrCreateSession
  cases hsession : s.context.sessions network with
  | some session => exact hs
  | none =>
      exact
        { sessions := by
            rw [SessionManager.create, ← List.concat_eq_append]
            exact List.Nodup.concat (fun hmem => hs.ne_created network (.inl hmem) rfl) hs.sessions
          garbage := hs.garbage
          disjoint := by
            intro session hmem hgarbage
            rcases List.mem_append.mp hmem with hold | hnew
            · exact hs.disjoint session hold hgarbage
            · exact hs.ne_created network (.inr hgarbage) (List.mem_singleton.mp hnew)
          below := by
            rintro session (hmem | hmem)
            · rcases List.mem_append.mp hmem with hold | hnew
              · exact Nat.lt_succ_of_lt (hs.below session (.inl hold))
              · rw [List.mem_singleton.mp hnew]
                exact Nat.lt_succ_self _
            · exact Nat.lt_succ_of_lt (hs.below session (.inr hmem))
          released := hs.released
          mapped := by
            intro session
            simp only [SessionManager.create, List.mem_append, List.mem_singleton]
            by_cases hnetwork : session.network = network
            · rw [hnetwork, Function.update_self, Option.some_inj]
              constructor
              · rintro (hmem | rfl)
                · rw [hs.mapped, hnetwork, hsession] at hmem
                  cases hmem
                · rfl
              · intro hsame
                subst hsame
                exact .inr rfl
            · rw [Function.update_of_ne hnetwork, ← hs.mapped]
              constructor
              · rintro (hmem | rfl)
                · exact hmem
                · exact absurd rfl hnetwork
              · exact .inl
          attempts := by
            intro attempt hattempt
            rcases hs.attempts attempt hattempt with hmem | hmem
            · exact .inl (List.mem_append_left _ hmem)
            · exact .inr hmem
          own := hs.own
          network := by
            intro other session hother
            simp only [SessionManager.create] at hother
            by_cases hnetwork : other = network
            · rw [hnetwork, Function.update_self, Option.some_inj] at hother
              rw [← hother, hnetwork]
            · rw [Function.update_of_ne hnetwork] at hother
              exact hs.network other session hother }

theorem Kept.releaseSession {s : Logins ι} (hs : s.Kept) {session : Session}
    (hsession : session ∈ s.manager.sessions ∨ session ∈ s.manager.garbage)
    (hfirst : (session, true) ∉ s.log.map SessionSignal.key) : (s.releaseSession session).Kept := by
  have hgarbage : session ∉ s.manager.garbage := fun hmem => hfirst ((hs.released session).mp hmem)
  have hmem : session ∈ s.manager.sessions := hsession.resolve_right hgarbage
  have hmapped := (hs.mapped session).mp hmem
  exact
    { sessions := hs.sessions.erase session
      garbage := by
        rw [Logins.releaseSession, SessionManager.release, ← List.concat_eq_append]
        exact List.Nodup.concat hgarbage hs.garbage
      disjoint := by
        intro other hother hmem
        obtain ⟨hne, hother⟩ := (hs.sessions.mem_erase_iff).mp hother
        rcases List.mem_append.mp hmem with hold | hnew
        · exact hs.disjoint other hother hold
        · exact hne (List.mem_singleton.mp hnew)
      below := by
        rintro other (hother | hother)
        · exact hs.below other (.inl (List.mem_of_mem_erase hother))
        · rcases List.mem_append.mp hother with hold | hnew
          · exact hs.below other (.inr hold)
          · rw [List.mem_singleton.mp hnew]
            exact hs.below session (.inl hmem)
      released := by
        intro other
        simp only [Logins.releaseSession, SessionManager.release, List.mem_append,
          List.mem_singleton, List.map_append, List.map_singleton, SessionSignal.key,
          Prod.mk.injEq, and_true]
        rw [hs.released]
      mapped := by
        intro other
        simp only [Logins.releaseSession, SessionManager.release]
        rw [hs.sessions.mem_erase_iff, hs.mapped]
        by_cases hnetwork : other.network = session.network
        · rw [hnetwork, Function.update_self, hmapped]
          simp only [Option.some_inj, reduceCtorEq, iff_false, not_and]
          exact fun hne heq => hne heq.symm
        · rw [Function.update_of_ne hnetwork]
          refine and_iff_right ?_
          intro hsame
          subst hsame
          exact hnetwork rfl
      attempts := by
        intro attempt hattempt
        rcases hs.attempts attempt hattempt with hother | hother
        · by_cases heq : attempt.session = session
          · right
            rw [heq]
            exact List.mem_append_right _ (List.mem_singleton_self _)
          · exact .inl ((hs.sessions.mem_erase_iff).mpr ⟨heq, hother⟩)
        · exact .inr (List.mem_append_left _ hother)
      own := by
        intro other taken hmem
        rcases List.mem_append.mp hmem with hold | hnew
        · exact hs.own other taken hold
        · obtain ⟨rfl, rfl⟩ := SessionSignal.released.inj (List.mem_singleton.mp hnew)
          exact hmapped
      network := by
        intro network other hother
        simp only [Logins.releaseSession] at hother
        by_cases hnetwork : network = session.network
        · rw [hnetwork, Function.update_self] at hother
          cases hother
        · rw [Function.update_of_ne hnetwork] at hother
          exact hs.network network other hother }

theorem Kept.loggedIn {s : Logins ι} (hs : s.Kept) (session : Session) :
    { s with log := s.log ++ [SessionSignal.loggedIn session] }.Kept where
  sessions := hs.sessions
  garbage := hs.garbage
  disjoint := hs.disjoint
  below := hs.below
  released := by
    intro other
    rw [hs.released, List.map_append, List.mem_append]
    simp [SessionSignal.key]
  mapped := hs.mapped
  attempts := hs.attempts
  own := by
    intro other taken hmem
    rcases List.mem_append.mp hmem with hmem | hmem
    · exact hs.own other taken hmem
    · cases List.mem_singleton.mp hmem
  network := hs.network

theorem getOrCreateSession_kept (network : ℕ) (s : Logins ι) :
    (s.getOrCreateSession network).1.log = s.log ∧
      (s.getOrCreateSession network).1.attempts = s.attempts ∧
      (s.getOrCreateSession network).1.dispatching = s.dispatching := by
  unfold getOrCreateSession
  split <;> exact ⟨rfl, rfl, rfl⟩

theorem getOrCreateSession_mem (network : ℕ) {s : Logins ι} (hs : s.Kept) :
    (s.getOrCreateSession network).2 ∈ (s.getOrCreateSession network).1.manager.sessions := by
  unfold getOrCreateSession
  cases hsession : s.context.sessions network with
  | some session =>
      refine (hs.mapped session).mpr ?_
      rw [hs.network network session hsession, hsession]
  | none => exact List.mem_append_right _ (List.mem_singleton_self _)

theorem react_kept (s : Logins ι) (heard : Attempt ι × Heard) :
    (s.react heard).log.map SessionSignal.key = s.log.map SessionSignal.key ++ [Heard.key heard] ∧
      (s.react heard).attempts = s.attempts := by
  obtain ⟨attempt, heard⟩ := heard
  cases heard with
  | timedOut | loginFailed => exact ⟨List.map_append, rfl⟩
  | loginFinished =>
      obtain ⟨hlog, hattempts, -⟩ := getOrCreateSession_kept attempt.session.network
        { s with log := s.log ++ [SessionSignal.loggedIn attempt.session] }
      refine ⟨?_, hattempts⟩
      simp only [react, hlog]
      exact List.map_append

theorem Kept.react {s : Logins ι} (hs : s.Kept) {heard : Attempt ι × Heard}
    (hattempt : heard.1 ∈ s.attempts)
    (hfirst : EndsFirst (s.log.map SessionSignal.key ++ [Heard.key heard])) :
    (s.react heard).Kept := by
  obtain ⟨attempt, heard⟩ := heard
  cases heard with
  | timedOut | loginFailed =>
      apply hs.releaseSession (hs.attempts attempt hattempt)
      intro hmem
      exact (List.pairwise_append.mp hfirst).2.2 _ hmem _ (List.mem_singleton_self _) rfl rfl
  | loginFinished => exact (hs.loggedIn attempt.session).getOrCreateSession _

theorem foldl_react_kept (heards : List (Attempt ι × Heard)) (s : Logins ι) :
    (heards.foldl Logins.react s).log.map SessionSignal.key =
        s.log.map SessionSignal.key ++ heards.map Heard.key ∧
      (heards.foldl Logins.react s).attempts = s.attempts := by
  induction heards generalizing s with
  | nil => simp
  | cons heard heards ih =>
      obtain ⟨hkeys, hattempts⟩ := s.react_kept heard
      rw [List.foldl_cons, (ih _).1, (ih _).2, hkeys, hattempts]
      simp

theorem Kept.foldl_react {heards : List (Attempt ι × Heard)} {s : Logins ι} (hs : s.Kept)
    (hattempts : ∀ heard ∈ heards, heard.1 ∈ s.attempts)
    (hfirst : EndsFirst (s.log.map SessionSignal.key ++ heards.map Heard.key)) :
    (heards.foldl Logins.react s).Kept := by
  induction heards generalizing s with
  | nil => exact hs
  | cons heard heards ih =>
      obtain ⟨hkeys, hsame⟩ := s.react_kept heard
      rw [List.map_cons, List.append_cons] at hfirst
      apply ih
      · exact hs.react (hattempts heard List.mem_cons_self) (List.pairwise_append.mp hfirst).1
      · intro other hother
        rw [hsame]
        exact hattempts other (List.mem_cons_of_mem _ hother)
      · rw [hkeys]
        exact hfirst

variable [DecidableEq ι]

theorem mem_attempts_of_mem_allHeard {attempts : List (Attempt ι)} {signals : List (Signal ι)}
    {heard : Attempt ι × Heard} (h : heard ∈ allHeard attempts signals) : heard.1 ∈ attempts := by
  simp only [allHeard, List.mem_flatMap, List.mem_map] at h
  obtain ⟨signal, -, attempt, hattempt, heard, -, rfl⟩ := h
  exact hattempt

variable [Fintype ι]

/-- What the handlers are about is what is said about the sessions. -/
theorem keys_next (s : Logins ι) (e : LoginEvent ι) :
    (s.next e).log.map SessionSignal.key =
      s.log.map SessionSignal.key ++
        (allHeard s.attempts (logins.emits s e)).map Heard.key := by
  cases e with
  | step e => exact (foldl_react_kept _ _).1
  | loginNetwork call =>
      simp only [next, loginNetwork, logins, allHeard, List.flatMap_nil, List.map_nil,
        List.append_nil, (getOrCreateSession_kept call.network s).1]
  | getOrCreateSession network =>
      simp only [next, logins, allHeard, List.flatMap_nil, List.map_nil, List.append_nil,
        (getOrCreateSession_kept network s).1]

theorem Kept.next {s : Logins ι} (hs : s.Kept) {e : LoginEvent ι}
    (hfirst : EndsFirst ((s.next e).log.map SessionSignal.key)) : (s.next e).Kept := by
  cases e with
  | step e =>
      have hdispatching : { s with dispatching := s.dispatching.next e }.Kept :=
        ⟨hs.sessions, hs.garbage, hs.disjoint, hs.below, hs.released, hs.mapped, hs.attempts, hs.own,
          hs.network⟩
      rw [keys_next] at hfirst
      exact hdispatching.foldl_react (fun heard hheard => mem_attempts_of_mem_allHeard hheard) hfirst
  | loginNetwork call =>
      have hsession := hs.getOrCreateSession call.network
      have hmem := getOrCreateSession_mem call.network hs
      refine ⟨hsession.sessions, hsession.garbage, hsession.disjoint, hsession.below,
        hsession.released, hsession.mapped, ?_, hsession.own, hsession.network⟩
      intro attempt hattempt
      rcases List.mem_append.mp hattempt with hattempt | hattempt
      · exact hsession.attempts attempt hattempt
      · rw [List.mem_singleton.mp hattempt]
        exact .inl hmem
  | getOrCreateSession network => exact hs.getOrCreateSession network

/-- No task has been constructed for a session yet. -/
def fresh (types : ι → TaskType) : Logins ι := { dispatching := .fresh types }

omit [DecidableEq ι] [Fintype ι] in
theorem Kept.fresh (types : ι → TaskType) : (Logins.fresh types).Kept where
  sessions := List.nodup_nil
  garbage := List.nodup_nil
  disjoint := List.forall_mem_nil _
  below := by
    rintro session (hmem | hmem)
    · cases hmem
    · cases hmem
  released := fun session => iff_of_false List.not_mem_nil List.not_mem_nil
  mapped := fun session => iff_of_false List.not_mem_nil (by exact Option.some_ne_none session ∘ Eq.symm)
  attempts := List.forall_mem_nil _
  own := by
    intro session taken hmem
    cases hmem
  network := by
    intro network session hsession
    cases hsession

theorem keys_run (types : ι → TaskType) (es : List (LoginEvent ι)) :
    (logins.run (fresh types) es).log.map SessionSignal.key = outcomes (fresh types) es := by
  induction es using List.reverseRecOn with
  | nil => rfl
  | append_singleton es e ih =>
      rw [Reactive.run_concat, outcomes, Reactive.trace_concat, List.flatMap_append, ← outcomes, ← ih]
      simp only [List.flatMap_singleton]
      exact keys_next _ e

/-- A run whose sessions end first keeps the manager and the context as they should be. -/
theorem kept_run {types : ι → TaskType} {es : List (LoginEvent ι)}
    (hfirst : EndsFirst (outcomes (fresh types) es)) : (logins.run (fresh types) es).Kept := by
  induction es using List.reverseRecOn with
  | nil => exact .fresh types
  | append_singleton es e ih =>
      rw [← keys_run, Reactive.run_concat] at hfirst
      have hbefore : EndsFirst (outcomes (fresh types) es) := by
        have hkeys := hfirst
        change EndsFirst (((logins.run (fresh types) es).next e).log.map SessionSignal.key) at hkeys
        rw [keys_next, keys_run] at hkeys
        exact (List.pairwise_append.mp hkeys).1
      rw [Reactive.run_concat]
      exact (ih hbefore).next hfirst

omit [DecidableEq ι] [Fintype ι] in
/-- What is released twice, or after its login, has not ended first. -/
theorem endsFirst_iff (log : List SessionSignal) :
    EndsFirst (log.map SessionSignal.key) ↔
      (log.Pairwise fun earlier later => ∀ session taken taken',
          earlier = .released session taken → later ≠ .released session taken') ∧
        log.Pairwise fun earlier later => ∀ session taken,
          earlier = .loggedIn session → later ≠ .released session taken := by
  rw [EndsFirst, List.pairwise_map, ← List.pairwise_and_iff]
  apply Iff.of_eq
  congr 1
  funext earlier later
  apply propext
  cases later with
  | loggedIn session => simp [SessionSignal.key]
  | released later taken' =>
      cases earlier with
      | loggedIn earlier => simp [SessionSignal.key, eq_comm]
      | released earlier taken =>
          simp only [SessionSignal.key, true_imp_iff, reduceCtorEq, false_imp_iff, implies_true,
            and_true, ne_eq, SessionSignal.released.injEq, not_and]
          constructor
          · rintro hne session t t' ⟨rfl, rfl⟩ heq
            exact absurd heq.symm hne
          · rintro h rfl
            exact h earlier taken taken' ⟨rfl, rfl⟩ rfl rfl

theorem releasedOnce_iff {types : ι → TaskType} {es : List (LoginEvent ι)} :
    ReleasedOnce (logins.run (fresh types) es) ↔ EndsFirst (outcomes (fresh types) es) := by
  constructor
  · intro h
    rw [← keys_run, endsFirst_iff]
    exact ⟨h.once, h.beforeLogin⟩
  · intro hfirst
    have hkept := kept_run hfirst
    rw [← keys_run, endsFirst_iff] at hfirst
    refine ⟨hfirst.1, hfirst.2, hkept.disjoint, hkept.sessions, hkept.garbage, ?_⟩
    intro session taken hmem other hother
    rw [hkept.own session taken hmem, Option.mem_some_iff] at hother
    exact hother.symm

end Logins

/-- **Sessions are released once.** In every state of a run each session has been released
at most once, and not after its login, and the lists of the manager and the map of the
context are in order, exactly if of all that the tasks of a session come to, a failure
that releases it comes first. -/
theorem releasedOnce_iff_endsFirst {ι : Type} [DecidableEq ι] [Fintype ι] (types : ι → TaskType)
    (es : List (LoginEvent ι)) :
    logins.Always ReleasedOnce (Logins.fresh types) es ↔ EndsFirst (outcomes (Logins.fresh types) es) := by
  rw [Reactive.always_iff]
  constructor
  · intro h
    exact Logins.releasedOnce_iff.mp (h es [] (List.append_nil es).symm)
  · rintro hfirst fs gs rfl
    apply Logins.releasedOnce_iff.mpr
    rw [outcomes, Reactive.trace_append, List.flatMap_append] at hfirst
    exact (List.pairwise_append.mp hfirst).1

/-- The tasks of one call. -/
inductive CallTask where
  | connect
  | login
  | assets
deriving DecidableEq

instance : Fintype CallTask where
  elems := {.connect, .login, .assets}
  complete := by
    intro t
    cases t <;> decide

def CallTask.type : CallTask → TaskType
  | .connect => .connect 10000
  | .login => .login
  | .assets => .loadAssets

/-- The connection times out; the next pass fails the login with it, when the network has
another session already. -/
def connectionTimesOut : List (LoginEvent CallTask) :=
  let seen : Surroundings := { connected := false }
  [.loginNetwork
      { group := 0, network := 0, isLiquid := false, connect := .connect, login := .login,
        assets := .assets, settings := none },
    .step (.client ⟨.dispatcherAdd 0 0, rfl⟩), .step (.pass 0), .step (.work seen),
    .step (.work seen), .step (.work seen), .step (.work seen),
    .step (.client ⟨.completes ⟨.connect, .connectTimeout⟩ { connected := false }, rfl⟩),
    .getOrCreateSession 0, .step (.pass 0), .step (.work seen)]

theorem not_releasedOnce_connectionTimesOut :
    logins.Valid (Logins.fresh CallTask.type) connectionTimesOut ∧
      .released { id := 0, network := 0 } (some { id := 1, network := 0 }) ∈
        (logins.run (Logins.fresh CallTask.type) connectionTimesOut).log ∧
      ¬ logins.Always ReleasedOnce (Logins.fresh CallTask.type) connectionTimesOut := by
  refine ⟨by decide, by decide, ?_⟩
  intro h
  have hgarbage : (logins.run (Logins.fresh CallTask.type) connectionTimesOut).manager.garbage =
      [{ id := 0, network := 0 }, { id := 0, network := 0 }] := by decide
  have hnodup := h.last.garbage
  rw [hgarbage] at hnodup
  exact absurd hnodup (by decide)

end GreenWallet.Wallets
