import Mathlib.Logic.Function.Basic

/-!
# Values that are nowhere twice

A table has some value at some places. No value is at two of them.
-/
namespace GreenWallet.Library
variable {ι κ : Type*}

def Once (f : ι → Option κ) : Prop := ∀ i j a, f i = some a → f j = some a → i = j

namespace Once
variable [DecidableEq ι] {f : ι → Option κ} {n : ι}

theorem update_none (h : Once f) (n : ι) : Once (Function.update f n none) := by
  have hkept : ∀ i a, Function.update f n none i = some a → f i = some a := by
    intro i a hi
    by_cases hin : i = n
    · rw [hin, Function.update_self] at hi
      cases hi
    · rw [Function.update_of_ne hin] at hi
      exact hi
  intro i j a hi hj
  exact h i j a (hkept i a hi) (hkept j a hj)

/-- A value at a place that was free is nowhere twice exactly if it was nowhere. -/
theorem update_some_iff (hn : f n = none) (a : κ) :
    Once (Function.update f n (some a)) ↔ Once f ∧ ∀ i, f i ≠ some a := by
  have hne : ∀ i b, f i = some b → i ≠ n := by
    intro i b hi hin
    rw [hin, hn] at hi
    cases hi
  have hkept : ∀ i b, f i = some b → Function.update f n (some a) i = some b := by
    intro i b hi
    rw [Function.update_of_ne (hne i b hi)]
    exact hi
  constructor
  · intro h
    constructor
    · intro i j b hi hj
      exact h i j b (hkept i b hi) (hkept j b hj)
    · intro i hi
      exact hne i a hi (h i n a (hkept i a hi) (Function.update_self ..))
  · intro ⟨h, hnew⟩ i j b hi hj
    by_cases hin : i = n
    · by_cases hjn : j = n
      · rw [hin, hjn]
      · rw [hin, Function.update_self] at hi
        rw [Function.update_of_ne hjn, ← hi] at hj
        exact absurd hj (hnew j)
    · rw [Function.update_of_ne hin] at hi
      by_cases hjn : j = n
      · rw [hjn, Function.update_self] at hj
        rw [← hj] at hi
        exact absurd hi (hnew i)
      · rw [Function.update_of_ne hjn] at hj
        exact h i j b hi hj

end Once
end GreenWallet.Library
