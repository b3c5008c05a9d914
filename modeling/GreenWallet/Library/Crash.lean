import Mathlib.Data.List.Basic

/-!
# Procedures cut short

A procedure is a list of steps on a state. A crash keeps what the steps before it have
done. What a crash can do to one view of the state depends on how many of the steps
change that view: with none it is kept, and with one it is as before or as after.
-/
namespace GreenWallet.Library.Crash
variable {σ τ γ : Type*} (apply : σ → τ → σ)

/-- The state that a crash after `k` steps leaves. -/
def crashed (s : σ) (steps : List τ) (k : ℕ) : σ := (steps.take k).foldl apply s

def finished (s : σ) (steps : List τ) : σ := steps.foldl apply s

@[simp] theorem crashed_zero (s : σ) (steps : List τ) : crashed apply s steps 0 = s := rfl

@[simp] theorem crashed_nil (s : σ) (k : ℕ) : crashed apply s [] k = s := by
  rw [crashed, List.take_nil, List.foldl_nil]

@[simp] theorem crashed_cons_succ (s : σ) (step : τ) (steps : List τ) (k : ℕ) :
    crashed apply s (step :: steps) (k + 1) = crashed apply (apply s step) steps k := rfl

theorem crashed_of_length_le (s : σ) {steps : List τ} {k : ℕ} (h : steps.length ≤ k) :
    crashed apply s steps k = finished apply s steps := by
  rw [crashed, List.take_of_length_le h, finished]

@[simp] theorem finished_nil (s : σ) : finished apply s [] = s := rfl

@[simp] theorem finished_cons (s : σ) (step : τ) (steps : List τ) :
    finished apply s (step :: steps) = finished apply (apply s step) steps := rfl

theorem finished_append (s : σ) (steps more : List τ) :
    finished apply s (steps ++ more) = finished apply (finished apply s steps) more :=
  List.foldl_append

variable {apply}

/-- An invariant of the steps holds of what a crash leaves. -/
theorem crashed_invariant {I : σ → Prop} {steps : List τ}
    (hstep : ∀ step ∈ steps, ∀ s, I s → I (apply s step)) {s : σ} (hs : I s) (k : ℕ) :
    I (crashed apply s steps k) := by
  induction steps generalizing s k with
  | nil =>
      rw [crashed_nil]
      exact hs
  | cons step steps ih =>
      cases k with
      | zero => exact hs
      | succ k =>
          rw [crashed_cons_succ]
          exact ih (fun other hother => hstep other (List.mem_cons_of_mem step hother))
            (hstep step List.mem_cons_self s hs) k

theorem finished_invariant {I : σ → Prop} {steps : List τ}
    (hstep : ∀ step ∈ steps, ∀ s, I s → I (apply s step)) {s : σ} (hs : I s) :
    I (finished apply s steps) := by
  rw [← crashed_of_length_le apply s (Nat.le_refl _)]
  exact crashed_invariant hstep hs _

/-- What no step changes, no crash does. -/
theorem view_crashed (view : σ → γ) {steps : List τ}
    (hview : ∀ step ∈ steps, ∀ s, view (apply s step) = view s) (s : σ) (k : ℕ) :
    view (crashed apply s steps k) = view s := by
  apply crashed_invariant (I := fun t => view t = view s)
  · intro step hstep t ht
    rw [hview step hstep t, ht]
  · rfl

/-- A view that only the last step changes is found as before or as after. -/
theorem view_crashed_concat (view : σ → γ) {steps : List τ}
    (hview : ∀ step ∈ steps, ∀ s, view (apply s step) = view s) (step : τ) (s : σ) (k : ℕ) :
    view (crashed apply s (steps ++ [step]) k) = view s ∨
      view (crashed apply s (steps ++ [step]) k) = view (finished apply s (steps ++ [step])) := by
  rcases Nat.lt_or_ge steps.length k with hk | hk
  · right
    rw [crashed_of_length_le apply s (by rw [List.length_append]; exact hk)]
  · left
    rw [crashed, List.take_append_of_le_length hk]
    exact view_crashed view hview s k

end GreenWallet.Library.Crash
