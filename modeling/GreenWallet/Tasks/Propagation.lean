import GreenWallet.Library.Flood
import GreenWallet.Tasks.World

/-!
# Failure propagation

`setStatus(Failed)` floods the outputs: it enters every task that is not `Failed`
yet and writes over whatever status it finds there. The tasks it fails are those
that a path of outputs leads to, through tasks that are not `Failed`, which does
not depend on the order in which a `QSet` is traversed.
-/
namespace GreenWallet.Tasks
open GreenWallet.Library

namespace World
variable {ι : Type}

variable [DecidableEq ι]

theorem status_write (w : World ι) (t : ι) (s : Status) (u : ι) :
    (w.write t s).status u = if u = t then s else w.status u := by
  by_cases hu : u = t
  · subst hu
    simp [write, status, setTask, emit]
  · simp [write, status, setTask, emit, hu]

theorem outputs_write (w : World ι) (t : ι) (s : Status) (u : ι) :
    ((w.write t s).tasks u).outputs = (w.tasks u).outputs := by
  by_cases hu : u = t
  · subst hu
    simp [write, setTask, emit]
  · simp [write, setTask, emit, hu]

@[simp] theorem log_write (w : World ι) (t : ι) (s : Status) :
    (w.write t s).log =
      w.log ++ .statusChanged t s :: outcomeSignal t (w.tasks t).error s := rfl

variable [Fintype ι]

/-- The tasks that have not failed. -/
def unfailed (w : World ι) : Finset ι := Finset.univ.filter fun t => w.status t ≠ .failed

theorem unfailed_write_lt {w : World ι} {t : ι} (h : w.status t ≠ .failed) :
    (w.write t .failed).unfailed.card < w.unfailed.card := by
  refine Finset.card_lt_card ⟨?_, fun hsub => ?_⟩
  · intro u hu
    simp only [unfailed, Finset.mem_filter, Finset.mem_univ, true_and, status_write] at hu ⊢
    split_ifs at hu with hut
    · exact (hu rfl).elim
    · exact hu
  · have ht : t ∈ w.unfailed := by simp [unfailed, h]
    have hmem := hsub ht
    simp [unfailed, status_write] at hmem

/-- A write of `Failed` marks a task; the marked places are the failed tasks. -/
def failure : Marking (World ι) ι where
  marked w t := w.status t = .failed
  mark w t := w.write t .failed
  succ w t := (w.tasks t).outputs
  left w := w.unfailed.card
  marked_mark := by
    intro w t u _
    rw [status_write]
    split_ifs with hu
    · simp [hu]
    · simp [hu]
  succ_mark := fun w t => funext fun u => outputs_write w t .failed u
  left_mark := unfailed_write_lt

instance : ∀ (w : World ι) (t : ι), Decidable (failure.marked w t) :=
  fun w t => inferInstanceAs (Decidable (w.status t = .failed))

theorem left_lt_depth (w : World ι) : failure.left w < Fintype.card ι + 1 :=
  Nat.lt_succ_of_le (Finset.card_le_univ _)

theorem setStatusNested_failed (n : ℕ) (t : ι) (w : World ι) :
    setStatusNested n t .failed w = failure.flood n t w := by
  induction n generalizing t w with
  | zero => rfl
  | succ n ih =>
      have hfold : (fun w u => setStatusNested n u .failed w) =
          fun (w : World ι) u => failure.flood n u w := funext fun w => funext fun u => ih u w
      have hout : ((w.write t .failed).tasks t).outputs = (w.tasks t).outputs :=
        outputs_write w t .failed t
      simp only [setStatusNested, Marking.flood, hfold, hout, if_true]
      rfl

/-- A status other than `Failed` is written to the one task. -/
theorem setStatus_eq_write {s : Status} (hs : s ≠ .failed) (w : World ι) (t : ι) :
    w.setStatus t s = if w.status t = s then w else w.write t s := by
  simp only [setStatus, setStatusNested, if_neg hs]

theorem setStatus_failed (w : World ι) (t : ι) :
    w.setStatus t .failed = failure.flood (Fintype.card ι + 1) t w :=
  setStatusNested_failed _ t w

/-- The recursion of the source, in which nothing bounds the nesting. -/
theorem setStatus_failed_eq {w : World ι} {t : ι} (h : w.status t ≠ .failed) :
    w.setStatus t .failed =
      (w.tasks t).outputs.foldl (fun w u => w.setStatus u .failed) (w.write t .failed) := by
  have hleft : failure.left (w.write t .failed) < Fintype.card ι :=
    Nat.lt_of_lt_of_le (unfailed_write_lt h) (Finset.card_le_univ _)
  have hdepth : ∀ (us : List ι) (v : World ι), failure.left v < Fintype.card ι →
      failure.floodAll (Fintype.card ι) us v = us.foldl (fun w u => w.setStatus u .failed) v := by
    intro us
    induction us with
    | nil => exact fun _ _ => rfl
    | cons u us ih =>
        intro v hv
        have hstep : failure.flood (Fintype.card ι) u v = v.setStatus u .failed :=
          (failure.flood_depth u hv (left_lt_depth v)).trans (setStatus_failed v u).symm
        have hle := failure.left_flood_le (Fintype.card ι) u v
        rw [Marking.floodAll_cons, ih _ (Nat.lt_of_le_of_lt hle hv), hstep, List.foldl_cons]
  rw [setStatus_failed, failure.flood_unmarked h]
  exact hdepth _ _ hleft

/-- The failure of a task reaches another one over the outputs. -/
def FailureReaches (w : World ι) (t u : ι) : Prop := failure.Reaches w t u

/-- What every write of `Failed` keeps, `setStatus(Failed)` keeps. -/
theorem setStatus_failed_invariant {I : World ι → Prop}
    (hwrite : ∀ w t, I w → I (w.write t .failed)) {w : World ι} (h : I w) (t : ι) :
    I (w.setStatus t .failed) := by
  rw [setStatus_failed]
  exact failure.flood_invariant (fun w t hw _ => hwrite w t hw) _ t h

theorem setStatus_invariant {I : World ι → Prop} (hwrite : ∀ w t s, I w → I (w.write t s))
    {w : World ι} (h : I w) (t : ι) (s : Status) : I (w.setStatus t s) := by
  by_cases hs : s = .failed
  · subst hs
    exact setStatus_failed_invariant (fun w t => hwrite w t .failed) h t
  · rw [setStatus_eq_write hs]
    split_ifs
    · exact h
    · exact hwrite w t s h

/-- Failing a task fails it and what its failure reaches, and nothing else. -/
theorem status_setStatus_failed (w : World ι) (t u : ι) :
    (w.setStatus t .failed).status u = .failed ↔
      w.status u = .failed ∨ w.FailureReaches t u := by
  rw [setStatus_failed]
  exact failure.marked_flood (left_lt_depth w) u

theorem status_setStatus {s : Status} (hs : s ≠ .failed) (w : World ι) (t u : ι) :
    (w.setStatus t s).status u = if u = t then s else w.status u := by
  rw [setStatus_eq_write hs]
  by_cases h : w.status t = s
  · rw [if_pos h]
    split_ifs with hu
    · rw [hu, h]
    · rfl
  · rw [if_neg h, status_write]

theorem outputs_setStatus (w : World ι) (t : ι) (s : Status) (u : ι) :
    ((w.setStatus t s).tasks u).outputs = (w.tasks u).outputs :=
  setStatus_invariant (I := fun v => (v.tasks u).outputs = (w.tasks u).outputs)
    (fun v t s h => (outputs_write v t s u).trans h) rfl t s

end World
end GreenWallet.Tasks
