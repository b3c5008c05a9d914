import GreenWallet.Login.Requests
import GreenWallet.Tasks.Once

/-!
# Accepted requests

An accepted request is answered by `finished` of its `HttpRequestTask`, and by nothing else: a
task that fails emits `failed`, to which the request is not connected. So the request passes
one response on if `GA_http_request` succeeds, be it after the group of the task has failed,
and none otherwise.
-/
namespace GreenWallet.JadeLogin
open GreenWallet.Library GreenWallet.Tasks GreenWallet.Jade

namespace Login
variable {ι : Type} [DecidableEq ι] [Fintype ι]
variable {sha256 : List UInt8 → List UInt8} {authority : String → String}

/-- The step completes the `GA_http_request` that is made for the request, with success. -/
def Succeeds (request : ℕ) (s : Login ι) (e : LoginEvent ι) : Prop :=
  ∃ t report response, s.requestOf t = some request ∧
    e = .step (.client ⟨.completes ⟨t, .work⟩ report, rfl⟩) response ∧ report.ok = true

/-- The `HttpRequestTask` of the request has finished. -/
def Answered (request : ℕ) (s : Login ι) : Prop :=
  ∃ t, s.requestOf t = some request ∧ (s.dispatching.world.view t).finished = 1

theorem succeeds_step_iff {s : Login ι} {e : Step ι} {response : Fields} {request : ℕ} :
    s.Succeeds request (.step e response) ↔
      ∃ t, s.requestOf t = some request ∧ (s.dispatching.move t e).succeeds = true := by
  simp only [Dispatching.succeeds_move_iff]
  constructor
  · rintro ⟨t, report, _, ht, he, hok⟩
    cases he
    exact ⟨t, ht, report, rfl, hok⟩
  · rintro ⟨t, ht, report, rfl, hok⟩
    exact ⟨t, report, response, ht, rfl, hok⟩

omit [Fintype ι] in
theorem answered_congr {s s' : Login ι} (hrequest : s'.requestOf = s.requestOf)
    (hview : ∀ t, s'.dispatching.world.view t = s.dispatching.world.view t) (request : ℕ) :
    s'.Answered request ↔ s.Answered request := by
  simp only [Answered, hrequest, hview]

omit [Fintype ι] in
/-- A task that has just been made has answered nothing. -/
theorem answered_wire {s : Login ι} {made : Made ι} (hmade : s.New made) (other request : ℕ)
    (c : JadeController) :
    (({ s with controller := c } : Login ι).wire made other).Answered request ↔
      s.Answered request := by
  constructor
  · rintro ⟨t, ht, hfinished⟩
    rw [view_wire] at hfinished
    simp only [Login.wire, Function.update_apply] at ht
    split_ifs at ht with htask
    · rw [htask, hmade.httpRequest] at hfinished
      cases hfinished
    · exact ⟨t, ht, hfinished⟩
  · rintro ⟨t, ht, hfinished⟩
    have hne : t ≠ made.httpRequest := by
      rintro rfl
      rw [hmade.requestOf] at ht
      cases ht
    refine ⟨t, ?_, ?_⟩
    · simp only [Login.wire, Function.update_apply, if_neg hne]
      exact ht
    · rw [view_wire]
      exact hfinished

omit [Fintype ι] in
theorem answered_handleHttpRequest {s : Login ι} {made : Made ι} (hmade : s.New made)
    (params : Fields) (request : ℕ) :
    (s.handleHttpRequest sha256 authority made params).Answered request ↔ s.Answered request := by
  rcases handleHttpRequest_cases sha256 authority made params s with hcase | hcase
  · rw [hcase]
    exact answered_wire hmade _ request _
  · rw [hcase]
    exact answered_congr rfl (fun _ => rfl) request

theorem Wired.answered_step_iff {s : Login ι} (h : s.Wired) {e : Step ι}
    (he : s.dispatching.enabled e) (response : Fields) (request : ℕ) :
    (s.step e response).Answered request ↔
      s.Succeeds request (.step e response) ∨ s.Answered request := by
  unfold Login.step
  rw [foldl_finish, succeeds_step_iff]
  have htask : ∀ t, s.requestOf t = some request →
      (((s.dispatching.next e).world.view t).finished = 1 ↔
        (s.dispatching.move t e).succeeds = true ∨ (s.dispatching.world.view t).finished = 1) := by
    intro t ht
    have hview := (h.wired t request ht).2.1
    obtain ⟨hnext, hfinished⟩ := (s.dispatching.step_becomes he hview.ofLogin).requests hview
    have honce := hnext.once
    rw [hfinished] at honce ⊢
    by_cases hsucceeds : (s.dispatching.move t e).succeeds = true
    · simp only [hsucceeds, if_true, true_or, iff_true] at honce ⊢
      omega
    · simp [hsucceeds]
  constructor
  · rintro ⟨t, ht, hfinished⟩
    rcases (htask t ht).mp hfinished with hsucceeds | hbefore
    · exact .inl ⟨t, ht, hsucceeds⟩
    · exact .inr ⟨t, ht, hbefore⟩
  · rintro (⟨t, ht, hsucceeds⟩ | ⟨t, ht, hbefore⟩)
    · exact ⟨t, ht, (htask t ht).mpr (.inl hsucceeds)⟩
    · exact ⟨t, ht, (htask t ht).mpr (.inr hbefore)⟩

theorem Wired.answered_next_iff {s : Login ι} (h : s.Wired) {e : LoginEvent ι} (he : s.enabled e)
    (request : ℕ) :
    (s.next sha256 authority e).Answered request ↔ s.Succeeds request e ∨ s.Answered request := by
  have hclient : (∀ e' response, e ≠ .step e' response) → ¬ s.Succeeds request e := by
    rintro hne ⟨t, report, response, -, heq, -⟩
    exact hne _ response heq
  cases e with
  | step e response => exact h.answered_step_iff he response request
  | httpRequest x =>
      rw [or_iff_right (hclient (by simp))]
      simp only [Login.next, Login.receive]
      split <;> exact answered_congr rfl (fun _ => rfl) request
  | handle made =>
      rw [or_iff_right (hclient (by simp))]
      obtain ⟨hposted, hmade⟩ := he
      unfold Login.next
      cases hlist : s.posted with
      | nil => exact absurd hlist hposted
      | cons x posted => exact answered_handleHttpRequest (hmade.popped posted) _ request
  | processJadePin params made =>
      rw [or_iff_right (hclient (by simp))]
      exact answered_handleHttpRequest he params request
  | accept other remember made =>
      rw [or_iff_right (hclient (by simp))]
      obtain ⟨c, -, -, haccept⟩ := accept_eq sha256 authority made he.1 remember
      simp only [Login.next, haccept]
      exact answered_wire he.2 other request c
  | reject other =>
      rw [or_iff_right (hclient (by simp))]
      obtain ⟨c, -, -, hreject⟩ := reject_eq sha256 authority he
      simp only [Login.next, hreject]
      exact answered_congr rfl (fun _ => rfl) request

omit [DecidableEq ι] [Fintype ι] in
theorem filter_responses (s : Login ι) (request : ℕ) :
    (s.finished.filterMap s.responseTo).filter (fun r => r.request == request) =
      (s.answers request).filterMap s.responseTo := by
  rw [answers, List.filter_filterMap, List.filterMap_filter]
  apply List.filterMap_congr
  intro answer _
  unfold responseTo
  cases s.proxies.lookup answer.1 with
  | none => simp
  | some x => simp [Option.filter_some]

omit [Fintype ι] in
theorem Wired.answeredOnce_iff_answered {s : Login ι} (h : s.Wired) {t : ι} {request : ℕ}
    (ht : s.requestOf t = some request) : s.AnsweredOnce request ↔ s.Answered request := by
  have hlength := (h.wired t request ht).2.2
  constructor
  · rintro ⟨response, hanswers, -⟩
    rw [hanswers] at hlength
    exact ⟨t, ht, hlength.symm⟩
  · rintro ⟨u, hu, hfinished⟩
    obtain rfl := h.injective u t request hu ht
    rw [hfinished] at hlength
    obtain ⟨answer, hanswers⟩ := List.length_eq_one_iff.mp hlength
    have hmem : answer ∈ s.answers request := by rw [hanswers]; exact List.mem_singleton_self _
    obtain rfl : answer.1 = request := by simpa using (List.mem_filter.mp hmem).2
    refine ⟨answer.2, hanswers, fun x hproxy => ?_⟩
    rw [h.responses, filter_responses, hanswers]
    simp [responseTo, hproxy]

end Login

variable {ι : Type} [Fintype ι] [DecidableEq ι]

/-- An accepted request is answered exactly once if and only if the `GA_http_request` that is
made for it succeeds: its task may otherwise fail, or never come to it. -/
theorem answeredOnce_iff (sha256 : List UInt8 → List UInt8) (authority : String → String)
    (types : ι → TaskType) {es : List (LoginEvent ι)}
    (hes : (login sha256 authority).Valid (.fresh types) es) {t : ι} {request : ℕ}
    (ht : ((login sha256 authority).run (.fresh types) es).requestOf t = some request) :
    ((login sha256 authority).run (.fresh types) es).AnsweredOnce request ↔
      (login sha256 authority).Happens (Login.Succeeds request) (.fresh types) es := by
  have hwired : ((login sha256 authority).run (.fresh types) es).Wired :=
    Reactive.run_invariant (fun s e hs he => hs.next he) (.fresh types) hes
  rw [hwired.answeredOnce_iff_answered ht]
  refine Reactive.iff_happens (J := Login.Wired) (fun s e hs he => hs.next he)
    (fun s e hs he => hs.answered_next_iff he request) (.fresh types) ?_ hes
  rintro ⟨u, hu, -⟩
  cases hu

/-- Two tasks, and two groups for them. -/
def made : Made (Fin 2) where
  dispatcher := first
  connect := first
  connectGroup := first
  httpRequest := second
  httpRequestGroup := second

/-- The user accepts a request, and a pass comes to its task; the call ends as it may. -/
def acceptedRequest (ok : Bool) : List (LoginEvent (Fin 2)) :=
  [.processJadePin [] made, .accept 0 false made] ++
    (passOf 2).map (fun e => .step e []) ++
    [.step (completes ⟨second, .work⟩ { ok := ok }) [("body", .text "pin")]]

theorem answeredOnce_iff_acceptedRequest :
    ((login (fun _ => []) id).run (.fresh (pair (.connect 60000) .httpRequest))
        (acceptedRequest true)).AnsweredOnce 0 ↔
      (login (fun _ => []) id).Happens (Login.Succeeds 0)
        (.fresh (pair (.connect 60000) .httpRequest)) (acceptedRequest true) := by
  apply answeredOnce_iff (t := second)
  · decide
  · decide

/-- `GA_http_request` fails, and nothing is ever answered. -/
theorem not_answeredOnce_acceptedRequest :
    (login (fun _ => []) id).Valid (.fresh (pair (.connect 60000) .httpRequest))
        (acceptedRequest false) ∧
      ((login (fun _ => []) id).run (.fresh (pair (.connect 60000) .httpRequest))
        (acceptedRequest false)).requestOf second = some 0 ∧
      ((login (fun _ => []) id).run (.fresh (pair (.connect 60000) .httpRequest))
        (acceptedRequest false)).dispatching.world.status second = .failed ∧
      ((login (fun _ => []) id).run (.fresh (pair (.connect 60000) .httpRequest))
        (acceptedRequest false)).dispatching.world.calls = [] ∧
      ¬ ((login (fun _ => []) id).run (.fresh (pair (.connect 60000) .httpRequest))
        (acceptedRequest false)).AnsweredOnce 0 := by
  refine ⟨by decide, by decide, by decide, by decide, ?_⟩
  rintro ⟨response, hanswers, -⟩
  have hnone : ((login (fun _ => []) id).run (.fresh (pair (.connect 60000) .httpRequest))
      (acceptedRequest false)).finished.length = 0 := by decide
  have hlength := congrArg List.length hanswers
  rw [Login.answers, List.length_eq_zero_iff.mp hnone] at hlength
  cases hlength

end GreenWallet.JadeLogin
