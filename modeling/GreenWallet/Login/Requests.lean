import GreenWallet.Login.System

/-!
# The requests of a login

A request is made when the controller takes it up. It is asked about until it is accepted or
rejected; once it is accepted, its answers are the `finished` of one `HttpRequestTask`. Every
answer of a request goes to the exchange that it is connected to.
-/
namespace GreenWallet.Tasks

/-- The move completes the work of the task with success. -/
def Dispatching.Move.succeeds : Dispatching.Move → Bool
  | .completes .work report => report.ok
  | _ => false

theorem Dispatching.succeeds_move_iff {ι : Type} [Fintype ι] [DecidableEq ι] {s : Dispatching ι}
    {t : ι} {e : Step ι} :
    (s.move t e).succeeds = true ↔
      ∃ report, e = .client ⟨.completes ⟨t, .work⟩ report, rfl⟩ ∧ report.ok = true := by
  constructor
  · intro h
    cases e with
    | pass d => cases h
    | work seen =>
        simp only [move] at h
        split_ifs at h <;> cases h
    | client e =>
        obtain ⟨e, hclient⟩ := e
        cases e with
        | completes c report =>
            obtain ⟨u, p⟩ := c
            simp only [move] at h
            split_ifs at h with hu
            · cases p with
              | work => exact ⟨report, by subst hu; rfl, h⟩
              | _ => cases h
            · cases h
        | lost u =>
            simp only [move] at h
            split_ifs at h <;> cases h
        | _ => cases h
  · rintro ⟨report, rfl, hok⟩
    simp only [move, if_true, Move.succeeds, hok]

namespace View

/-- An `HttpRequestTask` makes one call at most, and has finished only by it. -/
structure Requests (v : View) : Prop where
  type : v.type = .httpRequest
  ofLogin : v.OfLogin
  pendings : v.pendings = [] ∨ v.status ≠ .ready ∧ v.status ≠ .finished ∧ v.pendings = [.work]
  unfinished : v.status = .ready ∨ v.pendings = [.work] → v.finished = 0
  once : v.finished ≤ 1

theorem Requests.fresh : ({ type := .httpRequest } : View).Requests where
  type := rfl
  ofLogin := .fresh rfl
  pendings := .inl rfl
  unfinished _ := rfl
  once := Nat.zero_le 1

theorem Requests.launch {v : View} (h : v.Requests) (hready : v.status = .ready) :
    (v.launch .work).Requests ∧ (v.launch .work).finished = 0 := by
  have hzero := h.unfinished (.inl hready)
  have hnone : v.pendings = [] := h.pendings.resolve_right fun hand => hand.1 hready
  have hfinished : (v.launch .work).finished = 0 := by
    simp [View.launch, View.start, set_finished, hzero]
  refine ⟨⟨by simp [View.launch, View.start, h.type], ?_, .inr ?_, fun _ => hfinished, ?_⟩, hfinished⟩
  · exact keptByMoves_ofLogin.launch h.ofLogin
  · simp [View.launch, View.start, hnone]
  · rw [hfinished]
    exact Nat.zero_le 1

theorem Requests.answered {v : View} (h : v.Requests) (hmem : .work ∈ v.pendings)
    (report : Report) :
    ((v.drop .work).set report.outcome).Requests ∧
      ((v.drop .work).set report.outcome).finished = if report.ok = true then 1 else 0 := by
  obtain ⟨hready, hunfinished, hwork⟩ : v.status ≠ .ready ∧ v.status ≠ .finished ∧
      v.pendings = [.work] := by
    rcases h.pendings with hnone | hwork
    · rw [hnone] at hmem
      cases hmem
    · exact hwork
  have hzero := h.unfinished (.inr hwork)
  have hnone : ((v.drop .work).set report.outcome).pendings = [] := by simp [View.drop, hwork]
  have hfinished : ((v.drop .work).set report.outcome).finished =
      if report.ok = true then 1 else 0 := by
    rw [set_finished]
    by_cases hok : report.ok = true
    · simp [Report.outcome, hok, View.drop, hunfinished, hzero]
    · simp [Report.outcome, hok, View.drop, hzero]
  refine ⟨⟨by simp [View.drop, h.type], ?_, .inl hnone, ?_, ?_⟩, hfinished⟩
  · exact keptByMoves_ofLogin.set _ _ (keptByMoves_ofLogin.drop v .work h.ofLogin)
  · rintro (hstatus | hpending)
    · rcases report.outcome_cases with hs | hs <;> simp [hs] at hstatus
    · rw [hnone] at hpending
      cases hpending
  · rw [hfinished]
    split_ifs
    · exact Nat.le_refl 1
    · exact Nat.zero_le 1

/-- The task emits `finished` exactly when its call succeeds. -/
theorem Becomes.requests {v v' : View} {m : Dispatching.Move} (hb : v.Becomes m v')
    (h : v.Requests) :
    v'.Requests ∧ v'.finished = v.finished + if m.succeeds = true then 1 else 0 := by
  cases hb with
  | stays => exact ⟨h, rfl⟩
  | failed =>
      refine ⟨⟨h.type, (Becomes.failed).ofLogin h.ofLogin, ?_, ?_, h.once⟩, rfl⟩
      · rcases h.pendings with hnone | ⟨-, -, hwork⟩
        · exact .inl hnone
        · exact .inr ⟨by simp [write], by simp [write], hwork⟩
      · rintro (hready | hwork)
        · simp [write] at hready
        · exact h.unfinished (.inr hwork)
  | updates seen =>
      have hupdate : v.update seen = v.whenReady seen.connected fun v => v.launch .work := by
        simp only [View.update, h.type]
      rw [hupdate, whenReady]
      by_cases hcan : v.status = .ready ∧ seen.connected = true
      · obtain ⟨hrequests, hfinished⟩ := h.launch hcan.1
        rw [if_pos hcan, hfinished, h.unfinished (.inl hcan.1)]
        exact ⟨hrequests, rfl⟩
      · rw [if_neg hcan]
        exact ⟨h, rfl⟩
  | completes p report hmem =>
      obtain rfl : p = .work := by
        rcases h.pendings with hnone | ⟨-, -, hwork⟩
        · rw [hnone] at hmem
          cases hmem
        · rwa [hwork, List.mem_singleton] at hmem
      obtain ⟨hrequests, hfinished⟩ := h.answered hmem report
      have hzero : v.finished = 0 := by
        rcases h.pendings with hnone | ⟨-, -, hwork⟩
        · rw [hnone] at hmem
          cases hmem
        · exact h.unfinished (.inr hwork)
      rw [complete_httpRequest (v := v.drop .work) h.type, hfinished, hzero, Nat.zero_add]
      exact ⟨hrequests, rfl⟩
  | loses hlost =>
      rw [h.type] at hlost
      cases hlost

end View
end GreenWallet.Tasks

namespace GreenWallet.JadeLogin
open GreenWallet.Library GreenWallet.Tasks GreenWallet.Jade

namespace Login
variable {ι : Type}

/-- What the request has emitted `finished` with. -/
def answers (s : Login ι) (request : ℕ) : List (ℕ × Fields) :=
  s.finished.filter fun answer => answer.1 == request

/-- The `handleHttpResponse` that an answer of a request leads to. -/
def responseTo (s : Login ι) (answer : ℕ × Fields) : Option (HttpResponse ι) :=
  (s.proxies.lookup answer.1).map fun x =>
    { request := answer.1, exchange := x, body := answer.2.value "body" }

/-- The request has been answered, once, and so has the exchange that it is made for. -/
def AnsweredOnce (s : Login ι) (request : ℕ) : Prop :=
  ∃ response, s.answers request = [(request, response)] ∧
    ∀ x, s.proxies.lookup request = some x →
      s.responses.filter (fun r => r.request == request) =
        [{ request := request, exchange := x, body := response.value "body" }]

/-- Requests emit `finished`, one after the other. -/
def finishAll (answered : List (ℕ × Fields)) (s : Login ι) : Login ι :=
  { s with
    finished := s.finished ++ answered
    responses := s.responses ++ answered.filterMap s.responseTo }

theorem finish_eq (request : ℕ) (response : Fields) (s : Login ι) :
    s.finish request response = s.finishAll [(request, response)] := by
  unfold finish finishAll
  cases hproxy : s.proxies.lookup request <;> simp [responseTo, hproxy]

theorem foldl_finish (requests : List ℕ) (response : Fields) (s : Login ι) :
    requests.foldl (fun s request => s.finish request response) s =
      s.finishAll (requests.map fun request => (request, response)) := by
  induction requests generalizing s with
  | nil => simp [finishAll]
  | cons request requests ih =>
      have hsame : (s.finishAll [(request, response)]).responseTo = s.responseTo := rfl
      rw [List.foldl_cons, ih, finish_eq, finishAll, hsame]
      simp only [finishAll, List.map_cons, List.append_assoc, List.singleton_append]
      rw [← List.filterMap_append, List.singleton_append]

theorem answers_finishAll (s : Login ι) (answered : List (ℕ × Fields)) (request : ℕ) :
    (s.finishAll answered).answers request =
      s.answers request ++ answered.filter fun answer => answer.1 == request := by
  rw [answers, answers, finishAll, List.filter_append]

/-- What is known of the requests, of those still asked about and of those accepted. -/
structure Wired [DecidableEq ι] (s : Login ι) : Prop where
  asked : ∀ request ∈ s.controller.asked.map Prod.fst, request < s.controller.requests ∧
    s.answers request = [] ∧ ∀ t, s.requestOf t ≠ some request
  wired : ∀ t request, s.requestOf t = some request → request < s.controller.requests ∧
    (s.dispatching.world.view t).Requests ∧
      (s.answers request).length = (s.dispatching.world.view t).finished
  injective : ∀ t u request, s.requestOf t = some request → s.requestOf u = some request → t = u
  finished : ∀ answer ∈ s.finished, answer.1 < s.controller.requests
  proxies : ∀ proxy ∈ s.proxies, proxy.1 < s.controller.requests
  responses : s.responses = s.finished.filterMap s.responseTo

variable [DecidableEq ι]

theorem Wired.fresh (types : ι → TaskType) : (fresh types).Wired where
  asked request h := by cases h
  wired t request h := by cases h
  injective t u request h := by cases h
  finished answer h := by cases h
  proxies proxy h := by cases h
  responses := rfl

/-- A request passes on the signals of its own task. -/
theorem Wired.count_passedOn {s : Login ι} (h : s.Wired) {t : ι} {request : ℕ}
    (ht : s.requestOf t = some request) (signals : List (Signal ι)) :
    (signals.filterMap s.passedOn).count request = signals.count (.finished t) := by
  induction signals with
  | nil => rfl
  | cons signal signals ih =>
      rw [List.filterMap_cons]
      cases signal with
      | finished u =>
          by_cases hu : u = t
          · subst hu
            simp only [passedOn, ht, List.count_cons_self, ih]
          · have hne : (Signal.finished u : Signal ι) ≠ .finished t := by simpa using hu
            rw [List.count_cons_of_ne hne, ← ih]
            cases hrequest : s.requestOf u with
            | none => simp only [passedOn, hrequest]
            | some other =>
                have hother : other ≠ request := by
                  rintro rfl
                  exact hu (h.injective u t other hrequest ht)
                simp only [passedOn, hrequest]
                exact List.count_cons_of_ne hother
      | _ => rw [List.count_cons_of_ne (by simp), ← ih]; rfl

theorem Wired.answers_eq_nil {s : Login ι} (h : s.Wired) {request : ℕ}
    (hle : s.controller.requests ≤ request) : s.answers request = [] := by
  apply List.filter_eq_nil_iff.mpr
  intro answer hmem hanswer
  have hlt := h.finished answer hmem
  rw [beq_iff_eq] at hanswer
  omega

theorem Wired.requestOf_ne {s : Login ι} (h : s.Wired) {request : ℕ}
    (hle : s.controller.requests ≤ request) (t : ι) : s.requestOf t ≠ some request := by
  intro ht
  have hlt := (h.wired t request ht).1
  omega

/-- The controller may forget what it asks about, and make new requests. -/
theorem Wired.withController {s : Login ι} (h : s.Wired) {c : JadeController}
    (hle : s.controller.requests ≤ c.requests)
    (hasked : ∀ request ∈ c.asked.map Prod.fst, request ∈ s.controller.asked.map Prod.fst ∨
      s.controller.requests ≤ request ∧ request < c.requests) :
    ({ s with controller := c } : Login ι).Wired where
  asked request hmem := by
    rcases hasked request hmem with hold | ⟨hnew, hlt⟩
    · obtain ⟨hlt, hnone, hfree⟩ := h.asked request hold
      exact ⟨Nat.lt_of_lt_of_le hlt hle, hnone, hfree⟩
    · exact ⟨hlt, h.answers_eq_nil hnew, h.requestOf_ne hnew⟩
  wired t request ht := by
    obtain ⟨hlt, hrest⟩ := h.wired t request ht
    exact ⟨Nat.lt_of_lt_of_le hlt hle, hrest⟩
  injective := h.injective
  finished answer hmem := Nat.lt_of_lt_of_le (h.finished answer hmem) hle
  proxies proxy hmem := Nat.lt_of_lt_of_le (h.proxies proxy hmem) hle
  responses := h.responses

/-- `accept`: two tasks are added, and the second one answers the request. -/
def wire (made : Made ι) (request : ℕ) (s : Login ι) : Login ι :=
  { (s.addTask made.dispatcher made.connectGroup made.connect).addTask made.dispatcher
      made.httpRequestGroup made.httpRequest with
    requestOf := Function.update s.requestOf made.httpRequest (some request) }

theorem view_addTask (s : Login ι) (d : DispatcherId) (g : GroupId) (t u : ι) :
    (s.addTask d g t).dispatching.world.view u = s.dispatching.world.view u := by
  simp only [addTask, World.addTask, World.groupAdd, World.dispatcherAdd]
  split_ifs <;> rfl

theorem view_wire (made : Made ι) (request : ℕ) (s : Login ι) (t : ι) :
    (s.wire made request).dispatching.world.view t = s.dispatching.world.view t :=
  (view_addTask _ _ _ _ t).trans (view_addTask s _ _ _ t)

theorem Wired.wire {s : Login ι} (h : s.Wired) {made : Made ι} {request : ℕ}
    (hview : s.dispatching.world.view made.httpRequest = { type := .httpRequest })
    (hlt : request < s.controller.requests) (hnone : s.answers request = [])
    (hfree : ∀ t, s.requestOf t ≠ some request)
    (hasked : request ∉ s.controller.asked.map Prod.fst) : (s.wire made request).Wired where
  asked other hmem := by
    obtain ⟨hother, hanswers, hunwired⟩ := h.asked other hmem
    refine ⟨hother, hanswers, fun t ht => ?_⟩
    simp only [Login.wire, Function.update_apply] at ht
    split_ifs at ht with hmade
    · obtain rfl : request = other := by simpa using ht
      exact hasked hmem
    · exact hunwired t ht
  wired t other ht := by
    rw [view_wire]
    simp only [Login.wire, Function.update_apply] at ht
    split_ifs at ht with hmade
    · obtain rfl : request = other := by simpa using ht
      subst hmade
      rw [hview]
      refine ⟨hlt, .fresh, ?_⟩
      exact congrArg List.length hnone
    · exact h.wired t other ht
  injective t u other ht hu := by
    simp only [Login.wire, Function.update_apply] at ht hu
    split_ifs at ht hu with hmade hmade' hmade'
    · rw [hmade, hmade']
    · obtain rfl : request = other := by simpa using ht
      exact absurd hu (hfree u)
    · obtain rfl : request = other := by simpa using hu
      exact absurd ht (hfree t)
    · exact h.injective t u other ht hu
  finished := h.finished
  proxies := h.proxies
  responses := h.responses

/-- What answers no request yet may be connected to an exchange. -/
theorem Wired.connect {s : Login ι} (h : s.Wired) {request : ℕ}
    (hlt : request < s.controller.requests) (hnone : s.answers request = []) (x : Exchange ι) :
    ({ s with proxies := s.proxies ++ [(request, x)] } : Login ι).Wired where
  asked := h.asked
  wired := h.wired
  injective := h.injective
  finished := h.finished
  proxies proxy hmem := by
    rcases List.mem_append.mp hmem with hmem | hmem
    · exact h.proxies proxy hmem
    · rw [List.mem_singleton.mp hmem]
      exact hlt
  responses := by
    have hsame : ∀ answer ∈ s.finished,
        ({ s with proxies := s.proxies ++ [(request, x)] } : Login ι).responseTo answer =
          s.responseTo answer := by
      intro answer hmem
      have hne : (answer.1 == request) = false := by
        have hnot := List.filter_eq_nil_iff.mp hnone answer hmem
        simpa using hnot
      simp only [responseTo, List.lookup_append, List.lookup_cons, List.lookup_nil, hne,
        Option.or_none]
    exact h.responses.trans (List.filterMap_congr fun answer hmem => (hsame answer hmem).symm)

section
variable (sha256 : List UInt8 → List UInt8) (authority : String → String)

/-- A request is accepted as it is made, or the user is asked about it. -/
theorem handleHttpRequest_cases (made : Made ι) (params : Fields) (s : Login ι) :
    s.handleHttpRequest sha256 authority made params =
        ({ s with controller := { s.controller with requests := s.controller.requests + 1 } } :
          Login ι).wire made s.controller.requests ∨
      s.handleHttpRequest sha256 authority made params =
        { s with
          controller := { s.controller with
            requests := s.controller.requests + 1
            asked := s.controller.asked ++ [(s.controller.requests, { params := params })] } } := by
  unfold handleHttpRequest JadeController.handleHttpRequest
  simp only
  split_ifs
  · exact .inl rfl
  · exact .inr rfl

theorem accept_eq (made : Made ι) {request : ℕ} {s : Login ι}
    (h : (s.controller.asked.lookup request).isSome = true) (remember : Bool) :
    ∃ c : JadeController, c.requests = s.controller.requests ∧
      c.asked = s.controller.asked.filter (fun entry => entry.1 != request) ∧
      s.accept sha256 authority made request remember =
        ({ s with controller := c } : Login ι).wire made request := by
  obtain ⟨asked, hasked⟩ := Option.isSome_iff_exists.mp h
  unfold accept JadeController.handle
  simp only [hasked]
  exact ⟨(s.controller.answer sha256 authority request remember asked).1, rfl, rfl, rfl⟩

omit [DecidableEq ι] in
theorem reject_eq {request : ℕ} {s : Login ι}
    (h : (s.controller.asked.lookup request).isSome = true) :
    ∃ c : JadeController, c.requests = s.controller.requests ∧
      c.asked = s.controller.asked.filter (fun entry => entry.1 != request) ∧
      s.reject sha256 authority request =
        ({ s with controller := c } : Login ι).finishAll [(request, [])] := by
  obtain ⟨asked, hasked⟩ := Option.isSome_iff_exists.mp h
  unfold reject JadeController.handle
  simp only [hasked, finish_eq]
  exact ⟨{ s.controller with
    asked := s.controller.asked.filter fun entry => entry.1 != request }, rfl, rfl, rfl⟩

end

/-- What is no longer asked about. -/
theorem mem_asked_filter {asked : List (ℕ × JadeHttpRequest)} {request other : ℕ}
    (h : other ∈ (asked.filter fun entry => entry.1 != request).map Prod.fst) :
    other ∈ asked.map Prod.fst ∧ other ≠ request := by
  obtain ⟨entry, hmem, rfl⟩ := List.mem_map.mp h
  obtain ⟨hasked, hne⟩ := List.mem_filter.mp hmem
  exact ⟨List.mem_map_of_mem hasked, by simpa using hne⟩

theorem mem_asked_of_lookup {asked : List (ℕ × JadeHttpRequest)} {request : ℕ}
    (h : (asked.lookup request).isSome = true) : request ∈ asked.map Prod.fst := by
  obtain ⟨entry, hmem, hentry⟩ := List.lookup_isSome_iff.mp h
  rw [beq_iff_eq] at hentry
  rw [hentry]
  exact List.mem_map_of_mem hmem

variable {sha256 : List UInt8 → List UInt8} {authority : String → String}

theorem Wired.handleHttpRequest {s : Login ι} (h : s.Wired) {made : Made ι} (hmade : s.New made)
    (params : Fields) : (s.handleHttpRequest sha256 authority made params).Wired := by
  rcases handleHttpRequest_cases sha256 authority made params s with hcase | hcase
  · have hcontroller : ({ s with
        controller := { s.controller with requests := s.controller.requests + 1 } } :
          Login ι).Wired := h.withController (Nat.le_succ _) fun _ => .inl
    rw [hcase]
    refine hcontroller.wire hmade.httpRequest (Nat.lt_succ_self _)
      (h.answers_eq_nil (Nat.le_refl _)) (h.requestOf_ne (Nat.le_refl _)) fun hmem => ?_
    exact Nat.lt_irrefl _ (h.asked _ hmem).1
  · rw [hcase]
    apply h.withController (Nat.le_succ _)
    intro request hmem
    rw [List.map_append, List.mem_append] at hmem
    rcases hmem with hmem | hmem
    · exact .inl hmem
    · obtain rfl := List.mem_singleton.mp hmem
      exact .inr ⟨Nat.le_refl _, Nat.lt_succ_self _⟩

/-- A request that is accepted or rejected is no longer asked about. -/
theorem Wired.taken {s : Login ι} (h : s.Wired) {c : JadeController} {request : ℕ}
    (hasked : (s.controller.asked.lookup request).isSome = true)
    (hrequests : c.requests = s.controller.requests)
    (hrest : c.asked = s.controller.asked.filter fun entry => entry.1 != request) :
    ({ s with controller := c } : Login ι).Wired ∧ request < c.requests ∧
      request ∉ c.asked.map Prod.fst := by
  refine ⟨?_, ?_, fun hmem => ?_⟩
  · apply h.withController (Nat.le_of_eq hrequests.symm)
    intro other hmem
    rw [hrest] at hmem
    exact .inl (mem_asked_filter hmem).1
  · rw [hrequests]
    exact (h.asked request (mem_asked_of_lookup hasked)).1
  · rw [hrest] at hmem
    exact (mem_asked_filter hmem).2 rfl

theorem Wired.accept {s : Login ι} (h : s.Wired) {made : Made ι} (hmade : s.New made)
    {request : ℕ} (hasked : (s.controller.asked.lookup request).isSome = true) (remember : Bool) :
    (s.accept sha256 authority made request remember).Wired := by
  obtain ⟨c, hrequests, hrest, haccept⟩ := accept_eq sha256 authority made hasked remember
  obtain ⟨-, hnone, hfree⟩ := h.asked request (mem_asked_of_lookup hasked)
  obtain ⟨hcontroller, hlt, hgone⟩ := h.taken hasked hrequests hrest
  rw [haccept]
  exact hcontroller.wire hmade.httpRequest hlt hnone hfree hgone

omit [DecidableEq ι] in
theorem responses_finishAll {s : Login ι} (h : s.responses = s.finished.filterMap s.responseTo)
    (answers : List (ℕ × Fields)) :
    (s.finishAll answers).responses =
      (s.finishAll answers).finished.filterMap (s.finishAll answers).responseTo := by
  simp only [finishAll, List.filterMap_append]
  rw [h]
  rfl

/-- A request that no task answers is answered otherwise. -/
theorem Wired.finishUnwired {s : Login ι} (h : s.Wired) {request : ℕ}
    (hlt : request < s.controller.requests) (hfree : ∀ t, s.requestOf t ≠ some request)
    (hasked : request ∉ s.controller.asked.map Prod.fst) (response : Fields) :
    (s.finishAll [(request, response)]).Wired := by
  have hother : ∀ other, other ≠ request →
      (s.finishAll [(request, response)]).answers other = s.answers other := by
    intro other hne
    rw [answers_finishAll, List.filter_cons_of_neg (by simpa using Ne.symm hne), List.filter_nil,
      List.append_nil]
  refine ⟨?_, ?_, h.injective, ?_, h.proxies, ?_⟩
  · intro other hmem
    have hne : other ≠ request := by
      rintro rfl
      exact hasked hmem
    rw [hother other hne]
    exact h.asked other hmem
  · intro t other ht
    have hne : other ≠ request := by
      rintro rfl
      exact hfree t ht
    rw [hother other hne]
    exact h.wired t other ht
  · intro answer hmem
    rcases List.mem_append.mp hmem with hmem | hmem
    · exact h.finished answer hmem
    · rw [List.mem_singleton.mp hmem]
      exact hlt
  · exact responses_finishAll h.responses _

theorem Wired.reject {s : Login ι} (h : s.Wired) {request : ℕ}
    (hasked : (s.controller.asked.lookup request).isSome = true) :
    (s.reject sha256 authority request).Wired := by
  obtain ⟨c, hrequests, hrest, hreject⟩ := reject_eq sha256 authority hasked
  obtain ⟨-, -, hfree⟩ := h.asked request (mem_asked_of_lookup hasked)
  obtain ⟨hcontroller, hlt, hgone⟩ := h.taken hasked hrequests hrest
  rw [hreject]
  exact hcontroller.finishUnwired hlt hfree hgone []

/-- What is new stays so as the controller takes up a call. -/
theorem New.popped {s : Login ι} {made : Made ι} (h : s.New made) (posted : List (Exchange ι)) :
    ({ s with posted := posted } : Login ι).New made :=
  ⟨h.connect, h.httpRequest, h.connectGroup, h.httpRequestGroup, h.groups, h.requestOf⟩

theorem Wired.receive {s : Login ι} (h : s.Wired) (x : Exchange ι) : (s.receive x).Wired := by
  unfold Login.receive
  split <;> exact ⟨h.asked, h.wired, h.injective, h.finished, h.proxies, h.responses⟩

theorem Wired.invoke {s : Login ι} (h : s.Wired) {made : Made ι} (hmade : s.New made)
    (x : Exchange ι) : (s.invoke sha256 authority made x).Wired := by
  have hnext : (s.handleHttpRequest sha256 authority made (x.req.value "params").toMap).Wired :=
    h.handleHttpRequest hmade _
  have hnone := h.answers_eq_nil (Nat.le_refl _)
  unfold Login.invoke
  rcases handleHttpRequest_cases sha256 authority made (x.req.value "params").toMap s with
    hcase | hcase
  · rw [hcase] at hnext ⊢
    exact hnext.connect (Nat.lt_succ_self _) hnone x
  · rw [hcase] at hnext ⊢
    exact hnext.connect (Nat.lt_succ_self _) hnone x

variable [Fintype ι]

theorem Wired.step {s : Login ι} (h : s.Wired) {e : Step ι} (he : s.dispatching.enabled e)
    (response : Fields) : (s.step e response).Wired := by
  unfold Login.step
  rw [foldl_finish]
  generalize hrequests : (Dispatching.reactive.emits s.dispatching e).filterMap s.passedOn = requests
  have hpassed : ∀ request ∈ requests, ∃ t, s.requestOf t = some request := by
    intro request hmem
    rw [← hrequests, List.mem_filterMap] at hmem
    obtain ⟨signal, -, hsignal⟩ := hmem
    cases signal with
    | finished t => exact ⟨t, hsignal⟩
    | _ => cases hsignal
  have hcount : ∀ request, ((requests.map fun request => (request, response)).filter
      fun answer => answer.1 == request).length = requests.count request := by
    intro request
    rw [List.filter_map, List.length_map, List.count_eq_length_filter]
    rfl
  refine ⟨?_, ?_, h.injective, ?_, h.proxies, ?_⟩
  · intro request hasked
    obtain ⟨hlt, hnone, hfree⟩ := h.asked request hasked
    have hzero : requests.count request = 0 := by
      apply List.count_eq_zero.mpr
      intro hmem
      obtain ⟨t, ht⟩ := hpassed request hmem
      exact hfree t ht
    rw [← hcount request, List.length_eq_zero_iff] at hzero
    refine ⟨hlt, ?_, hfree⟩
    rw [answers_finishAll, hzero, List.append_nil]
    exact hnone
  · intro t request ht
    obtain ⟨hlt, hview, hlength⟩ := h.wired t request ht
    have hrequests' := ((s.dispatching.step_becomes he hview.ofLogin).requests hview).1
    refine ⟨hlt, hrequests', ?_⟩
    rw [answers_finishAll, List.length_append, hcount, ← hrequests, h.count_passedOn ht]
    have hemits := s.dispatching.count_emits e t
    rw [← hlength] at hemits
    exact hemits
  · intro answer hmem
    rcases List.mem_append.mp hmem with hmem | hmem
    · exact h.finished answer hmem
    · obtain ⟨request, hrequest, rfl⟩ := List.mem_map.mp hmem
      obtain ⟨t, ht⟩ := hpassed request hrequest
      exact (h.wired t request ht).1
  · exact responses_finishAll h.responses _

theorem Wired.next {s : Login ι} (h : s.Wired) {e : LoginEvent ι} (he : s.enabled e) :
    (s.next sha256 authority e).Wired := by
  cases e with
  | step e response => exact h.step he response
  | httpRequest x => exact h.receive x
  | handle made =>
      obtain ⟨hposted, hmade⟩ := he
      unfold Login.next
      cases hlist : s.posted with
      | nil => exact absurd hlist hposted
      | cons x posted =>
          have hpopped : ({ s with posted := posted } : Login ι).Wired :=
            ⟨h.asked, h.wired, h.injective, h.finished, h.proxies, h.responses⟩
          exact hpopped.invoke (hmade.popped posted) x
  | processJadePin params made => exact h.handleHttpRequest he params
  | accept request remember made => exact h.accept he.2 he.1 remember
  | reject request => exact h.reject he

end Login
end GreenWallet.JadeLogin
