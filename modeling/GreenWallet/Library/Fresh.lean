import Mathlib.Data.List.Nodup
import Mathlib.Data.List.Perm.Subperm
import Mathlib.Data.Nat.Find
import Mathlib.Data.Set.Function
import Mathlib.Order.Interval.Set.Defs

/-!
# The first name that is free

A search goes through the names of a sequence, and ends with the first one that is not
taken. With different names it takes at most one round more than there are names taken.
-/
namespace GreenWallet.Library
variable {α : Type*} [DecidableEq α]

/-- There is no result when the search is still going on after the given number of rounds. -/
def firstFree (name : ℕ → α) (taken : List α) : ℕ → ℕ → Option α
  | 0, _ => none
  | rounds + 1, n =>
      if name n ∈ taken then firstFree name taken rounds (n + 1) else some (name n)

variable {name : ℕ → α} {taken : List α} {n rounds : ℕ}

theorem firstFree_eq {k : ℕ} (htaken : ∀ j, n ≤ j → j < k → name j ∈ taken)
    (hfree : name k ∉ taken) (hn : n ≤ k) (hrounds : k - n < rounds) :
    firstFree name taken rounds n = some (name k) := by
  induction rounds generalizing n with
  | zero => omega
  | succ rounds ih =>
      by_cases hlast : n = k
      · subst hlast
        exact if_neg hfree
      · have hstep : firstFree name taken (rounds + 1) n = firstFree name taken rounds (n + 1) :=
          if_pos (htaken n (Nat.le_refl n) (by omega))
        rw [hstep]
        exact ih (fun j hj => htaken j (by omega)) (by omega) (by omega)

omit [DecidableEq α] in
/-- Among more names than there are taken, one is free. -/
theorem exists_free (hname : Set.InjOn name (Set.Ici n)) (taken : List α) :
    ∃ k ≤ taken.length, name (n + k) ∉ taken := by
  by_contra hall
  push Not at hall
  have hnodup : ((List.range (taken.length + 1)).map fun k => name (n + k)).Nodup := by
    apply List.Nodup.map_on _ List.nodup_range
    intro i _ j _ hij
    have hsum := hname (Nat.le_add_right n i) (Nat.le_add_right n j) hij
    omega
  have hsubset : ((List.range (taken.length + 1)).map fun k => name (n + k)) ⊆ taken := by
    intro found hfound
    obtain ⟨k, hk, rfl⟩ := List.mem_map.mp hfound
    exact hall k (Nat.lt_succ_iff.mp (List.mem_range.mp hk))
  have hlength := (List.subperm_of_subset hnodup hsubset).length_le
  rw [List.length_map, List.length_range] at hlength
  omega

/-- The search ends, with the first name that is free. -/
theorem exists_firstFree (hname : Set.InjOn name (Set.Ici n)) (taken : List α) :
    ∃ k, n ≤ k ∧ name k ∉ taken ∧ (∀ j, n ≤ j → j < k → name j ∈ taken) ∧
      ∀ rounds > taken.length, firstFree name taken rounds n = some (name k) := by
  have hfree := exists_free hname taken
  have hfirst : ∃ k, name (n + k) ∉ taken := by
    obtain ⟨k, -, hk⟩ := hfree
    exact ⟨k, hk⟩
  have hle : Nat.find hfirst ≤ taken.length := by
    obtain ⟨k, hle, hk⟩ := hfree
    exact (Nat.find_min' hfirst hk).trans hle
  have htaken : ∀ j, n ≤ j → j < n + Nat.find hfirst → name j ∈ taken := by
    intro j hj hlt
    have hmem := not_not.mp (Nat.find_min hfirst (m := j - n) (by omega))
    rwa [Nat.add_sub_cancel' hj] at hmem
  refine ⟨n + Nat.find hfirst, Nat.le_add_right _ _, Nat.find_spec hfirst, htaken, ?_⟩
  intro rounds hrounds
  exact firstFree_eq htaken (Nat.find_spec hfirst) (by omega) (by omega)

/-- Numbers are written differently. -/
theorem toString_toList_injective : Function.Injective fun n : ℕ => (toString n).toList := by
  intro i j h
  have hdigits : Nat.toDigits 10 i = Nat.toDigits 10 j := by
    simpa only [Nat.toString_eq_ofList_toDigits, String.toList_ofList] using h
  calc
    i = Nat.ofDigitChars 10 (Nat.toDigits 10 i) 0 := Nat.ofDigitChars_ten_toDigits.symm
    _ = Nat.ofDigitChars 10 (Nat.toDigits 10 j) 0 := by rw [hdigits]
    _ = j := Nat.ofDigitChars_ten_toDigits

end GreenWallet.Library
