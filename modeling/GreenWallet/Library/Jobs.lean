import Mathlib.Data.List.Basic
import Mathlib.Data.List.Nodup
import GreenWallet.Library.Keyed

/-!
# Jobs in flight

A component that works asynchronously launches jobs and is told, in any order,
which of them have finished. Jobs are numbered as they are launched, so that two
that were launched for the same thing stay apart.
-/
namespace GreenWallet.Library

structure Jobs (α : Type*) where
  launched : ℕ := 0
  inFlight : List (ℕ × α) := []
  below : ∀ job ∈ inFlight, job.1 < launched := by exact List.forall_mem_nil _
  nodup : (inFlight.map Prod.fst).Nodup := by exact List.nodup_nil

namespace Jobs
variable {α : Type*}

def launch (a : α) (jobs : Jobs α) : Jobs α where
  launched := jobs.launched + 1
  inFlight := jobs.inFlight ++ [(jobs.launched, a)]
  below := by
    intro job hjob
    rcases List.mem_append.mp hjob with hjob | hjob
    · exact Nat.lt_succ_of_lt (jobs.below job hjob)
    · rw [List.mem_singleton.mp hjob]
      exact Nat.lt_succ_self _
  nodup := by
    have hfresh : jobs.launched ∉ jobs.inFlight.map Prod.fst := by
      intro hmem
      obtain ⟨job, hjob, heq⟩ := List.mem_map.mp hmem
      exact absurd (jobs.below job hjob) (by omega)
    rw [List.map_append, List.nodup_append]
    refine ⟨jobs.nodup, List.nodup_singleton _, ?_⟩
    intro id hid other hother heq
    rw [List.map_singleton, List.mem_singleton] at hother
    rw [heq, hother] at hid
    exact hfresh hid

def finish (id : ℕ) (jobs : Jobs α) : Jobs α where
  launched := jobs.launched
  inFlight := jobs.inFlight.filter fun job => job.1 != id
  below := fun job hjob => jobs.below job (List.mem_of_mem_filter hjob)
  nodup := jobs.nodup.sublist (List.filter_sublist.map Prod.fst)

/-- The job of a number has got further. -/
def update (id : ℕ) (a : α) (jobs : Jobs α) : Jobs α where
  launched := jobs.launched
  inFlight := jobs.inFlight.map fun job => if job.1 = id then (id, a) else job
  below := by
    intro job hjob
    obtain ⟨old, hold, rfl⟩ := List.mem_map.mp hjob
    have := jobs.below old hold
    split_ifs with hid
    · rwa [← hid]
    · exact this
  nodup := by
    have hids : (jobs.inFlight.map fun job => if job.1 = id then (id, a) else job).map Prod.fst =
        jobs.inFlight.map Prod.fst := by
      rw [List.map_map]
      apply List.map_congr_left
      intro job _
      simp only [Function.comp_apply]
      split_ifs with hid
      · exact hid.symm
      · rfl
    rw [hids]
    exact jobs.nodup

/-- The job in flight under a number. -/
def find (jobs : Jobs α) (id : ℕ) : Option α := jobs.inFlight.lookup id

def idle (jobs : Jobs α) : Bool := jobs.inFlight.isEmpty

theorem find_eq_none_of_le {jobs : Jobs α} {id : ℕ} (h : jobs.launched ≤ id) :
    jobs.find id = none := by
  apply List.lookup_eq_none_iff.mpr
  intro job hjob
  have := jobs.below job hjob
  simp only [bne_iff_ne, ne_eq]
  omega

@[simp] theorem find_launch (jobs : Jobs α) (a : α) : (jobs.launch a).find jobs.launched = some a := by
  have hnone : jobs.inFlight.lookup jobs.launched = none := find_eq_none_of_le (Nat.le_refl _)
  simp only [find, launch, List.lookup_append, hnone, Option.none_or, List.lookup_cons_self]

theorem find_finish_of_ne {jobs : Jobs α} {id other : ℕ} (h : other ≠ id) :
    (jobs.finish id).find other = jobs.find other :=
  Keyed.lookup_filter_of_ne jobs.inFlight h

theorem find_finish_self (jobs : Jobs α) (id : ℕ) : (jobs.finish id).find id = none := by
  apply List.lookup_eq_none_iff.mpr
  intro job hjob
  have hother : job.1 ≠ id := by simpa using (List.mem_filter.mp hjob).2
  simpa using Ne.symm hother

theorem find_finish (jobs : Jobs α) (id other : ℕ) :
    (jobs.finish id).find other = if other = id then none else jobs.find other := by
  split_ifs with h
  · rw [h, find_finish_self]
  · exact find_finish_of_ne h

theorem find_launch_eq (jobs : Jobs α) (a : α) (id : ℕ) :
    (jobs.launch a).find id = if id = jobs.launched then some a else jobs.find id := by
  split_ifs with h
  · rw [h, find_launch]
  · have hnew : List.lookup id [(jobs.launched, a)] = none := by
      apply List.lookup_eq_none_iff.mpr
      simpa using h
    rw [find, launch, List.lookup_append, hnew, Option.or_none]
    rfl

theorem idle_iff {jobs : Jobs α} : jobs.idle = true ↔ ∀ id, jobs.find id = none := by
  rw [idle, List.isEmpty_iff]
  constructor
  · intro h id
    rw [find, h, List.lookup_nil]
  · intro h
    cases hjobs : jobs.inFlight with
    | nil => rfl
    | cons job inFlight =>
        have := h job.1
        rw [find, hjobs, List.lookup_cons_self] at this
        cases this

@[simp] theorem idle_launch (jobs : Jobs α) (a : α) : (jobs.launch a).idle = false := by
  rw [Bool.eq_false_iff]
  intro hidle
  have := idle_iff.mp hidle jobs.launched
  rw [find_launch] at this
  cases this

end Jobs
end GreenWallet.Library
