import Mathlib.Data.List.Basic
import Mathlib.Data.List.Infix

/-!
# Requests made one after the other

A component that has a list of requests to make can make each after the answer to the one
before it, and stop at the first that fails. What it has been answered so far, and the request
that is outstanding, are then bound to the list.
-/
namespace GreenWallet.Library

section
variable {ρ ε α : Type*} {requests : List ρ}

/-- The answers to the requests made so far, and the request that is outstanding. -/
inductive Serial (requests : List ρ) : List (ρ × Except ε α) → Option ρ → Prop
  | start : Serial requests [] requests[0]?
  | ok {log : List (ρ × Except ε α)} {request : ρ} (value : α)
      (h : Serial requests log (some request)) :
      Serial requests (log ++ [(request, .ok value)]) requests[log.length + 1]?
  | error {log : List (ρ × Except ε α)} {request : ρ} (failure : ε)
      (h : Serial requests log (some request)) :
      Serial requests (log ++ [(request, .error failure)]) none

/-- Some request has failed. -/
def Failure (log : List (ρ × Except ε α)) : Prop := ∃ request failure, (request, .error failure) ∈ log

variable {log : List (ρ × Except ε α)} {waiting : Option ρ}

theorem not_failure_nil : ¬ Failure ([] : List (ρ × Except ε α)) := by
  intro ⟨request, failure, hmem⟩
  cases hmem

theorem failure_concat_ok (request : ρ) (value : α) :
    Failure (log ++ [(request, .ok value)]) ↔ Failure log := by
  simp [Failure]

theorem failure_concat_error (request : ρ) (failure : ε) :
    Failure (log ++ [(request, .error failure)]) :=
  ⟨request, failure, List.mem_append_right _ (List.mem_singleton_self _)⟩

namespace Serial

/-- Nothing is outstanding after a failure, and only the last answer is one. -/
theorem stops (h : Serial requests log waiting) (hfailure : Failure log) :
    waiting = none ∧ ∃ before request failure, log = before ++ [(request, .error failure)] ∧
      ¬ Failure before := by
  induction h with
  | start => exact absurd hfailure not_failure_nil
  | ok value h ih => cases (ih ((failure_concat_ok _ value).mp hfailure)).1
  | @error log request failure h ih =>
      refine ⟨rfl, log, request, failure, rfl, fun hbefore => ?_⟩
      cases (ih hbefore).1

theorem not_failure {request : ρ} (h : Serial requests log (some request)) : ¬ Failure log := by
  intro hfailure
  cases (h.stops hfailure).1

theorem waiting_eq (h : Serial requests log waiting) (hfailure : ¬ Failure log) :
    waiting = requests[log.length]? := by
  cases h with
  | start => rfl
  | ok value h => rw [List.length_append, List.length_singleton]
  | error failure h => exact absurd (failure_concat_error _ _) hfailure

/-- The requests are made in their order. -/
theorem made (h : Serial requests log waiting) : log.map Prod.fst = requests.take log.length := by
  induction h with
  | start => rfl
  | @ok log request value h ih =>
      rw [List.map_append, ih, List.length_append, List.length_singleton,
        List.take_add_one, ← h.waiting_eq h.not_failure]
      rfl
  | @error log request failure h ih =>
      rw [List.map_append, ih, List.length_append, List.length_singleton,
        List.take_add_one, ← h.waiting_eq h.not_failure]
      rfl

theorem length_le (h : Serial requests log waiting) : log.length ≤ requests.length := by
  have hlength := congrArg List.length h.made
  rw [List.length_map, List.length_take] at hlength
  omega

/-- With the one that is outstanding too. -/
theorem started (h : Serial requests log waiting) :
    log.map Prod.fst ++ waiting.toList <+: requests := by
  by_cases hfailure : Failure log
  · rw [(h.stops hfailure).1, h.made, Option.toList_none, List.append_nil]
    exact List.take_prefix _ _
  · rw [h.waiting_eq hfailure, h.made, ← List.take_add_one]
    exact List.take_prefix _ _

/-- The answer to one of the requests. -/
theorem answer_eq (h : Serial requests log waiting) {i : ℕ} {answer : ρ × Except ε α}
    (hanswer : log[i]? = some answer) : requests[i]? = some answer.1 := by
  have hlt : i < log.length := (List.getElem?_eq_some_iff.mp hanswer).choose
  rw [← List.getElem?_take_of_lt hlt, ← h.made, List.getElem?_map, hanswer]
  rfl

end Serial

/-! ## Lists of values -/

/-- The entries there are come from every `stride`-th request, beginning with `offset`. -/
def Entries {β : Type*} (decode : α → β) (stride offset : ℕ) (log : List (ρ × Except ε α))
    (entries : List β) : Prop :=
  ∀ i entry, entries[i]? = some entry →
    ∃ request value, log[stride * i + offset]? = some (request, .ok value) ∧ entry = decode value

variable {β : Type*} {decode : α → β} {stride offset : ℕ} {entries : List β}

theorem entries_nil : Entries decode stride offset log [] := by
  intro i entry hentry
  cases hentry

theorem Entries.append (h : Entries decode stride offset log entries) (more : List (ρ × Except ε α)) :
    Entries decode stride offset (log ++ more) entries := by
  intro i entry hentry
  obtain ⟨request, value, hlog, hvalue⟩ := h i entry hentry
  have hlt := (List.getElem?_eq_some_iff.mp hlog).choose
  exact ⟨request, value, by rw [List.getElem?_append_left hlt, hlog], hvalue⟩

/-- The next answer gives the next entry. -/
theorem Entries.concat (h : Entries decode stride offset log entries)
    (hlength : stride * entries.length + offset = log.length) (request : ρ) (value : α) :
    Entries decode stride offset (log ++ [(request, .ok value)]) (entries ++ [decode value]) := by
  intro i entry hentry
  rcases Nat.lt_trichotomy i entries.length with hlt | rfl | hgt
  · rw [List.getElem?_append_left hlt] at hentry
    exact h.append _ i entry hentry
  · rw [List.getElem?_concat_length, Option.some.injEq] at hentry
    exact ⟨request, value, by rw [hlength, List.getElem?_concat_length], hentry.symm⟩
  · rw [List.getElem?_eq_none (by rw [List.length_append, List.length_singleton]; omega)] at hentry
    cases hentry

/-- Where each item takes the same number of requests. -/
theorem getElem?_flatMap {ι : Type*} {f : ι → List ρ} {width : ℕ}
    (hwidth : ∀ item, (f item).length = width) (items : List ι) (i : ℕ) {j : ℕ} (hj : j < width) :
    (items.flatMap f)[width * i + j]? = items[i]?.bind fun item => (f item)[j]? := by
  induction items generalizing i with
  | nil => rfl
  | cons item items ih =>
      rw [List.flatMap_cons]
      cases i with
      | zero =>
          rw [Nat.mul_zero, Nat.zero_add, List.getElem?_append_left (by rw [hwidth]; exact hj)]
          rfl
      | succ i =>
          have hindex : width * (i + 1) + j = (f item).length + (width * i + j) := by
            rw [hwidth, Nat.mul_succ]
            omega
          rw [hindex, List.getElem?_append_right (Nat.le_add_right _ _), Nat.add_sub_cancel_left, ih]
          rfl

end
end GreenWallet.Library
