import GreenWallet.Login.Requests
import GreenWallet.Tasks.Unlocking

/-!
# One login at a time

A task that sets up or unlocks a device becomes `Active` as it asks for `auth_user`, and is not
asked again. `JadeIdentifyTask` asks a device in its temporary state and stays `Ready`, so that
every pass asks once more, and the http requests that come back are forgotten.
-/
namespace GreenWallet.Tasks
open GreenWallet.Library

namespace View

/-- The `update` asks for `auth_user`, without a change of the status and with one outstanding. -/
def AsksAgain (v : View) : Dispatching.Move → Prop
  | .updates seen =>
      v.type = .jadeIdentify ∧ v.status = .ready ∧ seen.device = true ∧ seen.network = true ∧
        seen.deviceState = .temporary ∧ .identifyUser ∈ v.pendings
  | _ => False

/-- How many `auth_user` are outstanding. -/
def authUsers (v : View) : ℕ :=
  match v.type.authUser with
  | none => 0
  | some p => v.pendings.count p

theorem authUsers_of_type {v : View} {p : Pending} (h : v.type.authUser = some p) :
    v.authUsers = v.pendings.count p := by
  simp only [authUsers, h]

theorem AsksAgain.type {v : View} {m : Dispatching.Move} (h : v.AsksAgain m) :
    v.type = .jadeIdentify := by
  cases m with
  | updates seen => exact h.1
  | _ => cases h

/-- The tasks that become `Active` as they ask are not asked again. -/
theorem authUsers_le_one {v : View} (htype : v.type ≠ .jadeIdentify)
    (hasks : v.type.setsUnlocking → v.Asks) : v.authUsers ≤ 1 := by
  by_cases hsets : v.type.setsUnlocking
  · have hwork : v.type.authUser = some .work := by rcases hsets with h | h <;> rw [h] <;> rfl
    rw [authUsers_of_type hwork]
    exact (hasks hsets).once
  · have hnone : v.type.authUser = none := by
      unfold TaskType.setsUnlocking at hsets
      cases h : v.type <;> simp_all [TaskType.authUser]
    simp only [authUsers, hnone, Nat.zero_le]

theorem count_identifyUser_complete {v : View} (htype : v.type = .jadeIdentify) (p : Pending)
    (report : Report) : (v.complete p report).pendings = v.pendings := by
  cases p with
  | work => simp [View.complete, htype]
  | disconnected =>
      simp only [View.complete]
      split_ifs
      · rfl
      · simp [View.setUnlocking]
  | _ => rfl

theorem identify_update_iff {v : View} (htype : v.type = .jadeIdentify)
    (honce : v.pendings.count .identifyUser ≤ 1) (seen : Surroundings) :
    (v.update seen).pendings.count .identifyUser ≤ 1 ↔ ¬ v.AsksAgain (.updates seen) := by
  simp only [View.update, htype, jadeIdentify, whenReady, AsksAgain]
  by_cases hcan : v.status = .ready ∧ (seen.device && seen.network) = true
  · rw [if_pos hcan]
    obtain ⟨hready, hseen⟩ := hcan
    obtain ⟨hdevice, hnetwork⟩ := Bool.and_eq_true_iff.mp hseen
    cases hstate : seen.deviceState with
    | locked => exact iff_of_true honce (by simp)
    | temporary =>
        simp only [View.start, List.count_append, List.count_singleton_self, hready, hdevice,
          hnetwork, true_and]
        rw [← List.count_eq_zero]
        omega
    | uninitialized | unsaved | ready =>
        refine iff_of_true ?_ (by simp)
        simpa [View.launch, View.start, List.count_append] using honce
  · rw [if_neg hcan]
    refine iff_of_true honce ?_
    rintro ⟨-, hready, hdevice, hnetwork, -⟩
    exact hcan ⟨hready, by rw [hdevice, hnetwork]; rfl⟩

theorem Becomes.identify_iff {v v' : View} {m : Dispatching.Move} (hb : v.Becomes m v')
    (htype : v.type = .jadeIdentify) (honce : v.pendings.count .identifyUser ≤ 1) :
    v'.pendings.count .identifyUser ≤ 1 ↔ ¬ v.AsksAgain m := by
  cases hb with
  | stays => exact iff_of_true honce id
  | failed => exact iff_of_true honce id
  | updates seen => exact identify_update_iff htype honce seen
  | completes p report hmem =>
      refine iff_of_true ?_ id
      rw [count_identifyUser_complete (v := v.drop p) htype]
      exact ((v.sublist_drop p).count_le _).trans honce
  | loses => exact iff_of_true ((v.sublist_lose.count_le _).trans honce) id

end View

namespace World
variable {ι : Type} [DecidableEq ι]

theorem authUsers_view (w : World ι) (t : ι) : w.authUsers t = (w.view t).authUsers := by
  unfold authUsers View.authUsers
  rw [view_type]
  cases (w.tasks t).type.authUser with
  | none => rfl
  | some p => exact (count_pendings w t p).symm

end World
end GreenWallet.Tasks

namespace GreenWallet.JadeLogin
open GreenWallet.Library GreenWallet.Tasks GreenWallet.Jade

namespace Login
variable {ι : Type}

/-- What has come in is with a request, or on its way to the controller. -/
def PassedOn (s : Login ι) : Prop := s.proxies.map Prod.snd ++ s.posted = s.received

variable [DecidableEq ι]

/-- No task has two `auth_user` outstanding, and no http request of one is forgotten. -/
structure AuthenticatesOnce (s : Login ι) : Prop where
  once : ∀ t, s.dispatching.world.authUsers t ≤ 1
  passedOn : s.PassedOn

/-- What is known of the tasks of a login. -/
def Known (s : Login ι) : Prop :=
  ∀ t, (s.dispatching.world.view t).type.isOfLogin = true →
    (s.dispatching.world.view t).OfLogin ∧
      ((s.dispatching.world.view t).type.setsUnlocking → (s.dispatching.world.view t).Asks)

theorem known_fresh (types : ι → TaskType) : (fresh types).Known := fun t ht =>
  ⟨.fresh ht, fun _ => .fresh (types t)⟩

/-- Whatever is not a step of the dispatchers shows in no view. -/
structure SameViews (s s' : Login ι) : Prop where
  view : ∀ t, s'.dispatching.world.view t = s.dispatching.world.view t

theorem SameViews.known {s s' : Login ι} (h : SameViews s s') (hs : s.Known) : s'.Known := by
  intro t
  rw [h.view]
  exact hs t

theorem SameViews.authUsers {s s' : Login ι} (h : SameViews s s') (t : ι) :
    s'.dispatching.world.authUsers t = s.dispatching.world.authUsers t := by
  rw [World.authUsers_view, World.authUsers_view, h.view]

variable {sha256 : List UInt8 → List UInt8} {authority : String → String}

theorem sameViews_handleHttpRequest (made : Made ι) (params : Fields) (s : Login ι) :
    SameViews s (s.handleHttpRequest sha256 authority made params) := by
  rcases handleHttpRequest_cases sha256 authority made params s with hcase | hcase
  · rw [hcase]
    exact ⟨view_wire made _ _⟩
  · rw [hcase]
    exact ⟨fun _ => rfl⟩

variable (sha256 authority) in
/-- No request that is made or accepted touches what has come in. -/
theorem calls_handleHttpRequest (made : Made ι) (params : Fields) (s : Login ι) :
    (s.handleHttpRequest sha256 authority made params).proxies = s.proxies ∧
      (s.handleHttpRequest sha256 authority made params).posted = s.posted ∧
      (s.handleHttpRequest sha256 authority made params).received = s.received := by
  rcases handleHttpRequest_cases sha256 authority made params s with hcase | hcase
  · rw [hcase]
    exact ⟨rfl, rfl, rfl⟩
  · rw [hcase]
    exact ⟨rfl, rfl, rfl⟩

theorem passedOn_handleHttpRequest (made : Made ι) (params : Fields) (s : Login ι) :
    (s.handleHttpRequest sha256 authority made params).PassedOn ↔ s.PassedOn := by
  obtain ⟨hproxies, hposted, hreceived⟩ := calls_handleHttpRequest sha256 authority made params s
  rw [PassedOn, hproxies, hposted, hreceived, PassedOn]

/-- A call that the controller takes goes from what is posted to the proxies. -/
theorem passedOn_invoke {s : Login ι} {x : Exchange ι} {posted : List (Exchange ι)}
    (hposted : s.posted = x :: posted) (made : Made ι) :
    (({ s with posted := posted } : Login ι).invoke sha256 authority made x).PassedOn ↔
      s.PassedOn := by
  obtain ⟨hproxies, hrest, hreceived⟩ :=
    calls_handleHttpRequest sha256 authority made (x.req.value "params").toMap
      ({ s with posted := posted } : Login ι)
  simp only [invoke, PassedOn, hproxies, hrest, hreceived, hposted, List.map_append,
    List.append_assoc, List.map_cons, List.map_nil, List.singleton_append]

omit [DecidableEq ι] in
/-- Nothing that is forgotten is ever passed on. -/
theorem not_passedOn_forget {s : Login ι} (hs : s.PassedOn) (x : Exchange ι) :
    ¬ ({ s with received := s.received ++ [x] } : Login ι).PassedOn := by
  intro hnext
  have hlength := congrArg List.length (Eq.trans hs.symm hnext)
  simp at hlength

/-- An http request is forgotten exactly if it is one of `JadeIdentifyTask`. -/
theorem passedOn_receive_iff {s : Login ι} (hs : s.PassedOn) {x : Exchange ι}
    (hx : 0 < s.dispatching.world.authUsers x.task) :
    (s.receive x).PassedOn ↔ (s.dispatching.world.tasks x.task).type ≠ .jadeIdentify := by
  have hpost : ({ s with received := s.received ++ [x], posted := s.posted ++ [x] } :
      Login ι).PassedOn := by
    rw [PassedOn, ← List.append_assoc, hs]
  unfold receive
  cases htype : (s.dispatching.world.tasks x.task).type
  case jadeSetup | jadeUnlock => exact iff_of_true hpost (by simp)
  case jadeIdentify => exact iff_of_false (not_passedOn_forget hs x) (by simp)
  all_goals
    simp only [World.authUsers, htype, TaskType.authUser] at hx
    exact absurd hx (Nat.lt_irrefl 0)

variable [Fintype ι]

/-- The step neither asks again nor forgets an http request. -/
def Heeds (s : Login ι) : LoginEvent ι → Prop
  | .step e _ => ∀ t, ¬ (s.dispatching.world.view t).AsksAgain (s.dispatching.move t e)
  | .httpRequest x => (s.dispatching.world.tasks x.task).type ≠ .jadeIdentify
  | _ => True

/-- Only the dispatchers move the tasks. -/
theorem sameViews_next {s : Login ι} {e : LoginEvent ι} (he : s.enabled e)
    (hclient : ∀ e' response, e ≠ .step e' response) :
    SameViews s (s.next sha256 authority e) := by
  cases e with
  | step e response => exact absurd rfl (hclient e response)
  | httpRequest x =>
      simp only [next, receive]
      split <;> exact ⟨fun _ => rfl⟩
  | handle made =>
      unfold next
      cases hposted : s.posted with
      | nil => exact absurd hposted he.1
      | cons x posted =>
          exact ⟨(sameViews_handleHttpRequest made _ ({ s with posted := posted } : Login ι)).view⟩
  | processJadePin params made => exact sameViews_handleHttpRequest made params s
  | accept request remember made =>
      obtain ⟨c, -, -, haccept⟩ := accept_eq sha256 authority made he.1 remember
      simp only [next, haccept]
      exact ⟨view_wire made request _⟩
  | reject request =>
      obtain ⟨c, -, -, hreject⟩ := reject_eq sha256 authority he
      simp only [next, hreject]
      exact ⟨fun _ => rfl⟩

theorem dispatching_step (s : Login ι) (e : Step ι) (response : Fields) :
    (s.step e response).dispatching = s.dispatching.next e := by
  rw [step, foldl_finish]
  rfl

theorem passedOn_step (s : Login ι) (e : Step ι) (response : Fields) :
    (s.step e response).PassedOn ↔ s.PassedOn := by
  rw [step, foldl_finish]
  exact Iff.rfl

theorem Known.next {s : Login ι} (hs : s.Known) {e : LoginEvent ι} (he : s.enabled e) :
    (s.next sha256 authority e).Known := by
  by_cases hclient : ∀ e' response, e ≠ .step e' response
  · exact (sameViews_next he hclient).known hs
  · push Not at hclient
    obtain ⟨e, response, rfl⟩ := hclient
    intro t ht
    have htype : ((s.dispatching.next e).world.view t).type = (s.dispatching.world.view t).type :=
      (s.dispatching.extends_next e).type t
    rw [Login.next, dispatching_step] at ht ⊢
    rw [htype] at ht
    obtain ⟨hlogin, hasks⟩ := hs t ht
    have hb := s.dispatching.step_becomes he hlogin
    refine ⟨hb.ofLogin hlogin, fun hsets => ?_⟩
    rw [htype] at hsets
    exact hb.asks (hasks hsets) hsets

/-- A step asks again, if it does, for a `JadeIdentifyTask`. -/
theorem once_step_iff {s : Login ι} (hs : s.Known)
    (honce : ∀ t, s.dispatching.world.authUsers t ≤ 1) {e : Step ι} (he : s.dispatching.enabled e) :
    (∀ t, (s.dispatching.next e).world.authUsers t ≤ 1) ↔
      ∀ t, ¬ (s.dispatching.world.view t).AsksAgain (s.dispatching.move t e) := by
  refine forall_congr' fun t => ?_
  have htype : ((s.dispatching.next e).world.view t).type = (s.dispatching.world.view t).type :=
    (s.dispatching.extends_next e).type t
  have hbefore := honce t
  rw [World.authUsers_view] at hbefore ⊢
  by_cases hidentify : (s.dispatching.world.view t).type = .jadeIdentify
  · have hauth : (s.dispatching.world.view t).type.authUser = some .identifyUser := by
      rw [hidentify]
      rfl
    have hb := s.dispatching.step_becomes he (hs t (by rw [hidentify]; rfl)).1
    rw [View.authUsers_of_type hauth] at hbefore
    rw [← htype] at hauth
    rw [View.authUsers_of_type hauth]
    exact hb.identify_iff hidentify hbefore
  · refine iff_of_true (View.authUsers_le_one (by rwa [htype]) fun hsets => ?_)
      fun hasks => hidentify hasks.type
    rw [htype] at hsets
    obtain ⟨hlogin, hasks⟩ := hs t hsets.isOfLogin
    exact (s.dispatching.step_becomes he hlogin).asks (hasks hsets) hsets

theorem authenticatesOnce_next_iff {s : Login ι} (hs : s.Known) {e : LoginEvent ι}
    (he : s.enabled e) (honce : ∀ t, s.dispatching.world.authUsers t ≤ 1) (hpassed : s.PassedOn) :
    (s.next sha256 authority e).AuthenticatesOnce ↔ s.Heeds e := by
  have hstays : (∀ e' response, e ≠ .step e' response) →
      ((s.next sha256 authority e).AuthenticatesOnce ↔
        (s.next sha256 authority e).PassedOn) := by
    intro hclient
    refine ⟨AuthenticatesOnce.passedOn, fun hnext => ⟨fun t => ?_, hnext⟩⟩
    rw [(sameViews_next he hclient).authUsers]
    exact honce t
  cases e with
  | step e response =>
      have hstep := once_step_iff hs honce he
      rw [← dispatching_step s e response] at hstep
      exact ⟨fun hnext => hstep.mp hnext.once,
        fun hheeds => ⟨hstep.mpr hheeds, (passedOn_step s e response).mpr hpassed⟩⟩
  | httpRequest x => exact (hstays (by simp)).trans (passedOn_receive_iff hpassed he)
  | handle made =>
      refine (hstays (by simp)).trans (iff_of_true ?_ trivial)
      unfold Login.next
      cases hposted : s.posted with
      | nil => exact absurd hposted he.1
      | cons x posted => exact (passedOn_invoke hposted made).mpr hpassed
  | processJadePin params made =>
      refine (hstays (by simp)).trans (iff_of_true ?_ trivial)
      exact (passedOn_handleHttpRequest made params s).mpr hpassed
  | accept request remember made =>
      refine (hstays (by simp)).trans (iff_of_true ?_ trivial)
      obtain ⟨c, -, -, haccept⟩ := accept_eq sha256 authority made he.1 remember
      simp only [Login.next, haccept]
      exact hpassed
  | reject request =>
      refine (hstays (by simp)).trans (iff_of_true ?_ trivial)
      obtain ⟨c, -, -, hreject⟩ := reject_eq sha256 authority he
      simp only [Login.next, hreject]
      exact hpassed

omit [Fintype ι] in
theorem authUsers_fresh (types : ι → TaskType) (t : ι) :
    (fresh types).dispatching.world.authUsers t ≤ 1 := by
  rw [World.authUsers_view, View.authUsers]
  cases ((fresh types).dispatching.world.view t).type.authUser with
  | none => exact Nat.zero_le 1
  | some p => exact Nat.zero_le 1

end Login

variable {ι : Type} [Fintype ι] [DecidableEq ι]

/-- In every state of a run every task has at most one `auth_user` outstanding and all its
http requests passed on, exactly if no step updates a `JadeIdentifyTask` that has asked a
temporary device already, and no http request comes in the `auth_user` of one. -/
theorem authenticatesOnce_iff (sha256 : List UInt8 → List UInt8) (authority : String → String)
    (types : ι → TaskType) {es : List (LoginEvent ι)}
    (hes : (login sha256 authority).Valid (.fresh types) es) :
    (login sha256 authority).Always Login.AuthenticatesOnce (.fresh types) es ↔
      (login sha256 authority).Along Login.Heeds (.fresh types) es := by
  refine Reactive.always_iff_along (J := Login.Known) (fun s e hs he => hs.next he) ?_
    (Login.known_fresh types) ?_ hes
  · rintro s e hs he ⟨honce, hpassed⟩
    exact Login.authenticatesOnce_next_iff hs he honce hpassed
  · exact ⟨Login.authUsers_fresh types, rfl⟩

/-- Passes that come to the identification of a device in its temporary state. -/
def identifies (passes : ℕ) : List (LoginEvent (Fin 2)) :=
  (added [first]).map (fun e => .step e []) ++
    (List.replicate passes (.step (.pass first) [] ::
      List.replicate 3 (.step (.work { deviceState := .temporary }) []))).flatten

theorem authenticatesOnce_iff_identifies :
    (login (fun _ => []) id).Always Login.AuthenticatesOnce
        (.fresh (pair .jadeIdentify .createAccount)) (identifies 1) ↔
      (login (fun _ => []) id).Along Login.Heeds
        (.fresh (pair .jadeIdentify .createAccount)) (identifies 1) :=
  authenticatesOnce_iff (fun _ => []) id (pair .jadeIdentify .createAccount) (by decide)

/-- The `auth_user` of the identification asks back. -/
def identifyAsksBack : List (LoginEvent (Fin 2)) :=
  identifies 1 ++ [.httpRequest { task := first, id := 0, req := [] }]

/-- Two passes leave two `auth_user` outstanding, and an http request of one goes nowhere. -/
theorem not_authenticatesOnce_identifies :
    ((login (fun _ => []) id).Valid (.fresh (pair .jadeIdentify .createAccount)) (identifies 2) ∧
      ¬ (login (fun _ => []) id).Always Login.AuthenticatesOnce
        (.fresh (pair .jadeIdentify .createAccount)) (identifies 2)) ∧
    (login (fun _ => []) id).Valid (.fresh (pair .jadeIdentify .createAccount)) identifyAsksBack ∧
      ¬ (login (fun _ => []) id).Always Login.AuthenticatesOnce
        (.fresh (pair .jadeIdentify .createAccount)) identifyAsksBack := by
  refine ⟨⟨by decide, fun h => ?_⟩, by decide, fun h => ?_⟩
  · exact absurd (h.last.once first) (by decide)
  · have hlength := congrArg List.length h.last.passedOn
    exact absurd hlength (by decide)

end GreenWallet.JadeLogin
