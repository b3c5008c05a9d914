import GreenWallet.Library.Reactive

/-!
# Clocks of a reactive component

A clock runs or not. Some steps set it to zero; the others let it advance by the time they
take, or stop it. What a running clock shows is then the time since it was last set.
-/
namespace GreenWallet.Library.Reactive
variable {σ ε ω : Type*} {R : Reactive σ ε ω}

/-- The time that the events take together. -/
def taken (duration : ε → ℕ) : List ε → ℕ
  | [] => 0
  | e :: es => duration e + taken duration es

theorem taken_concat (duration : ε → ℕ) (es : List ε) (e : ε) :
    taken duration (es ++ [e]) = taken duration es + duration e := by
  induction es with
  | nil => simp [taken]
  | cons f es ih => rw [List.cons_append, taken, ih, taken, Nat.add_assoc]

/-- Since the last step that set the clock, it has run without a break, and it shows the time. -/
theorem clock_history {J : σ → Prop} {V Z : σ → ε → Prop} {clock : σ → Option ℕ}
    {duration : ε → ℕ} (hJ : ∀ s e, J s → V s e → J (R.next s e))
    (hclock : ∀ s e, J s → V s e → ∀ shown ∈ clock (R.next s e),
      Z s e ∧ shown = 0 ∨ ¬ Z s e ∧ ∃ before ∈ clock s, shown = before + duration e)
    {s : σ} {es : List ε} (hs : J s) (hstopped : clock s = none) (hes : R.Along V s es)
    {shown : ℕ} (hshown : shown ∈ clock (R.run s es)) :
    ∃ fs f gs, es = fs ++ f :: gs ∧ Z (R.run s fs) f ∧
      R.Along (fun s e => J s ∧ ¬ Z s e ∧ (clock (R.next s e)).isSome) (R.next (R.run s fs) f) gs ∧
      shown = taken duration gs := by
  induction es using List.reverseRecOn generalizing shown with
  | nil =>
      rw [run_nil, hstopped] at hshown
      cases hshown
  | append_singleton es e ih =>
      have hparts := (R.along_append V s es [e]).mp hes
      have hJe : J (R.run s es) := run_invariant hJ hs hparts.1
      rw [run_concat] at hshown
      cases hclock (R.run s es) e hJe hparts.2.1 shown hshown with
      | inl hset =>
          exact ⟨es, e, [], rfl, hset.1, trivial, hset.2⟩
      | inr hrun =>
          obtain ⟨before, hbefore, hadvance⟩ := hrun.2
          obtain ⟨fs, f, gs, hsplit, hZ, hquiet, htaken⟩ := ih hparts.1 hbefore
          have hrest : R.run (R.next (R.run s fs) f) gs = R.run s es := by
            rw [hsplit, run_append, run_cons]
          refine ⟨fs, f, gs ++ [e], by rw [hsplit]; simp, hZ, ?_, ?_⟩
          · rw [along_append, hrest]
            exact ⟨hquiet, ⟨hJe, hrun.1, Option.isSome_of_mem hshown⟩, trivial⟩
          · rw [hadvance, htaken, taken_concat]

end GreenWallet.Library.Reactive
