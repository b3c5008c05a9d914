import Mathlib.Data.List.Induction
import Mathlib.Order.Lattice
import Mathlib.Tactic.SplitIfs

/-!
# The best of a list

A loop that goes over a list with the best so far, and takes another only if its score is higher.
What it ends with comes before all that have the same score, and is there only if some score is above
the floor.
-/
namespace GreenWallet.Library
variable {α κ : Type*} [LinearOrder κ] (score : α → κ) (floor : κ)

/-- One round of the loop. -/
def better (best : Option α) (a : α) : Option α :=
  if best.elim floor score < score a then some a else best

def best (as : List α) : Option α := as.foldl (better score floor) none

theorem best_concat (as : List α) (a : α) :
    best score floor (as ++ [a]) =
      if (best score floor as).elim floor score < score a then some a else best score floor as := by
  rw [best, List.foldl_append]
  rfl

/-- No score is above that of the best. -/
theorem score_le_best (as : List α) :
    floor ≤ (best score floor as).elim floor score ∧
      ∀ a ∈ as, score a ≤ (best score floor as).elim floor score := by
  induction as using List.reverseRecOn with
  | nil => exact ⟨le_rfl, List.forall_mem_nil _⟩
  | append_singleton as a ih =>
      rw [best_concat]
      split_ifs with hlt
      · refine ⟨ih.1.trans hlt.le, ?_⟩
        intro b hb
        cases List.mem_append.mp hb with
        | inl hold => exact (ih.2 b hold).trans hlt.le
        | inr hnew => rw [List.mem_singleton.mp hnew]; exact le_rfl
      · refine ⟨ih.1, ?_⟩
        intro b hb
        cases List.mem_append.mp hb with
        | inl hold => exact ih.2 b hold
        | inr hnew => rw [List.mem_singleton.mp hnew]; exact not_lt.mp hlt

variable {score floor} {as : List α} {a : α}

/-- The best is the first with the highest score. -/
theorem best_split (h : best score floor as = some a) :
    floor < score a ∧ ∃ before after, as = before ++ a :: after ∧
      (∀ b ∈ before, score b < score a) ∧ ∀ b ∈ after, score b ≤ score a := by
  induction as using List.reverseRecOn with
  | nil => cases h
  | append_singleton as b ih =>
      rw [best_concat] at h
      split_ifs at h with hlt
      · cases h
        have hle := score_le_best score floor as
        refine ⟨hle.1.trans_lt hlt, as, [], rfl, ?_, List.forall_mem_nil _⟩
        exact fun c hc => (hle.2 c hc).trans_lt hlt
      · obtain ⟨hfloor, before, after, hsplit, hbefore, hafter⟩ := ih h
        refine ⟨hfloor, before, after ++ [b], ?_, hbefore, ?_⟩
        · rw [hsplit, List.append_assoc, List.cons_append]
        · intro c hc
          cases List.mem_append.mp hc with
          | inl hold => exact hafter c hold
          | inr hnew =>
              rw [h] at hlt
              rw [List.mem_singleton.mp hnew]
              exact not_lt.mp hlt

theorem best_mem (h : best score floor as = some a) : a ∈ as := by
  obtain ⟨-, before, after, hsplit, -⟩ := best_split h
  rw [hsplit]
  exact List.mem_append_right _ List.mem_cons_self

end GreenWallet.Library
