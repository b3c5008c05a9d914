import Mathlib.Order.Lattice
import Mathlib.Order.RelClasses

/-!
# Weak orders by a key first

What is sorted need not be ordered linearly, but what is not told apart must be a matter of
equivalence: a strict weak order. A key that is ordered linearly comes first, and another
strict weak order decides between what has one key.
-/
namespace GreenWallet.Library
variable {α κ : Type*} [LinearOrder κ]

/-- The order of the keys, and that of the fallback where they are equal. -/
def KeyFirst (key : α → κ) (fallback : α → α → Prop) (a b : α) : Prop :=
  key a < key b ∨ key a = key b ∧ fallback a b

variable {key : α → κ} {fallback : α → α → Prop} {a b c : α}

theorem KeyFirst.le (h : KeyFirst key fallback a b) : key a ≤ key b := by
  cases h with
  | inl hlt => exact hlt.le
  | inr heq => exact heq.1.le

/-- What is not told apart has one key, and the fallback does not tell it apart either. -/
theorem KeyFirst.incomparable_iff :
    ¬ KeyFirst key fallback a b ∧ ¬ KeyFirst key fallback b a ↔
      key a = key b ∧ ¬ fallback a b ∧ ¬ fallback b a := by
  constructor
  · intro h
    have hle : key b ≤ key a := not_lt.mp fun hlt => h.1 (.inl hlt)
    have hge : key a ≤ key b := not_lt.mp fun hlt => h.2 (.inl hlt)
    have heq : key a = key b := le_antisymm hge hle
    exact ⟨heq, fun hab => h.1 (.inr ⟨heq, hab⟩), fun hba => h.2 (.inr ⟨heq.symm, hba⟩)⟩
  · intro h
    constructor
    · intro hab
      cases hab with
      | inl hlt => exact hlt.ne h.1
      | inr heq => exact h.2.1 heq.2
    · intro hba
      cases hba with
      | inl hlt => exact hlt.ne h.1.symm
      | inr heq => exact h.2.2 heq.2

theorem isStrictWeakOrder_keyFirst (hfallback : IsStrictWeakOrder α fallback) :
    IsStrictWeakOrder α (KeyFirst key fallback) where
  irrefl a h := by
    cases h with
    | inl hlt => exact lt_irrefl _ hlt
    | inr heq => exact hfallback.irrefl a heq.2
  trans a b c hab hbc := by
    cases hab with
    | inl hlt => exact .inl (hlt.trans_le hbc.le)
    | inr heq =>
        cases hbc with
        | inl hlt => exact .inl (heq.1.trans_lt hlt)
        | inr heq' => exact .inr ⟨heq.1.trans heq'.1, hfallback.trans a b c heq.2 heq'.2⟩
  incomp_trans a b c hab hbc := by
    rw [KeyFirst.incomparable_iff] at hab hbc ⊢
    exact ⟨hab.1.trans hbc.1, hfallback.incomp_trans a b c hab.2 hbc.2⟩

end GreenWallet.Library
