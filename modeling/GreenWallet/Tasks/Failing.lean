import GreenWallet.Tasks.Propagation

/-!
# The recursion of setStatus(Failed)

The calls of `setStatus(Failed)` as the source makes them: a task that is `Failed`
already returns at once, any other one is written first and then fails its outputs.
No depth bounds the derivation, which is a record of the calls that were made. That
each call has a derivation is the termination of the source, on cycles as well.
-/
namespace GreenWallet.Tasks.World

variable {ι : Type} [DecidableEq ι]

/-- The loop over the tasks of a list, each of which is set to `Failed`, from a world
to the one in which the loop has ended. -/
inductive FailsAll : World ι → List ι → World ι → Prop
  | nil (w : World ι) : FailsAll w [] w
  | skip {w v : World ι} {t : ι} {ts : List ι} : w.status t = .failed →
      FailsAll w ts v → FailsAll w (t :: ts) v
  | enter {w u v : World ι} {t : ι} {ts : List ι} : w.status t ≠ .failed →
      FailsAll (w.write t .failed) ((w.write t .failed).tasks t).outputs u →
      FailsAll u ts v → FailsAll w (t :: ts) v

/-- A call of `setStatus(Failed)` on one task that has returned. -/
def SetsFailed (w : World ι) (t : ι) (v : World ι) : Prop := FailsAll w [t] v

theorem FailsAll.deterministic {w v : World ι} {ts : List ι} (h : FailsAll w ts v)
    {v' : World ι} (h' : FailsAll w ts v') : v' = v := by
  induction h generalizing v' with
  | nil w =>
      cases h'
      rfl
  | skip hfailed _ ih =>
      cases h' with
      | skip _ hrest => exact ih hrest
      | enter hopen _ _ => exact (hopen hfailed).elim
  | enter hopen _ _ ihout ih =>
      cases h' with
      | skip hfailed _ => exact (hopen hfailed).elim
      | enter _ hout hrest =>
          have hu := ihout hout
          subst hu
          exact ih hrest

variable [Fintype ι]

theorem unfailed_setStatus_le (w : World ι) (t : ι) :
    (w.setStatus t .failed).unfailed.card ≤ w.unfailed.card := by
  rw [setStatus_failed]
  exact failure.left_flood_le _ t w

/-- Every loop ends. The induction is on the tasks that are not `Failed`, of which a
nested loop finds one less, and for one number of them on the list. -/
theorem failsAll_foldl (n : ℕ) (ts : List ι) (w : World ι) (hn : w.unfailed.card ≤ n) :
    FailsAll w ts (ts.foldl (fun w u => w.setStatus u .failed) w) := by
  induction n generalizing ts w with
  | zero =>
      have hall : ∀ u, w.status u = .failed := by
        intro u
        by_contra hu
        have hmem : u ∈ w.unfailed := by simp [unfailed, hu]
        have := Finset.card_pos.mpr ⟨u, hmem⟩
        omega
      induction ts with
      | nil => exact .nil w
      | cons t ts ih =>
          have hstay : w.setStatus t .failed = w := by
            rw [setStatus_failed]
            exact failure.flood_marked (hall t)
          rw [List.foldl_cons, hstay]
          exact .skip (hall t) ih
  | succ n ihn =>
      induction ts generalizing w with
      | nil => exact .nil w
      | cons t ts ih =>
          rw [List.foldl_cons]
          by_cases ht : w.status t = .failed
          · have hstay : w.setStatus t .failed = w := by
              rw [setStatus_failed]
              exact failure.flood_marked ht
            rw [hstay]
            exact .skip ht (ih w hn)
          · have hlt := unfailed_write_lt ht
            have hle := unfailed_setStatus_le w t
            have hout : ((w.write t .failed).tasks t).outputs = (w.tasks t).outputs :=
              outputs_write w t .failed t
            apply FailsAll.enter ht
            · rw [hout]
              exact ihn _ _ (by omega)
            · rw [← setStatus_failed_eq ht]
              exact ih _ (by omega)

theorem setsFailed_setStatus (w : World ι) (t : ι) : SetsFailed w t (w.setStatus t .failed) :=
  failsAll_foldl _ [t] w (Nat.le_refl _)

/-- A status that is not `Failed` after the call was not written by it. -/
theorem status_setStatus_of_ne {w : World ι} {t u : ι}
    (h : (w.setStatus t .failed).status u ≠ .failed) :
    (w.setStatus t .failed).status u = w.status u := by
  refine setStatus_failed_invariant (t := t)
    (I := fun v => v.status u ≠ .failed → v.status u = w.status u) ?_ (fun _ => rfl) h
  intro v x hv hopen
  rw [status_write] at hopen ⊢
  by_cases hu : u = x
  · rw [if_pos hu] at hopen
    exact (hopen rfl).elim
  · rw [if_neg hu] at hopen ⊢
    exact hv hopen

/-- A call on a task that is not `Failed` returns, in one way only. It fails the task
and those that a path of outputs leads to through tasks that were not `Failed`, and
leaves the status of every other task as it is. -/
theorem setsFailed_reaches (w : World ι) (t : ι) (h : w.status t ≠ .failed) :
    ∃ v, SetsFailed w t v ∧ (∀ v', SetsFailed w t v' → v' = v) ∧ ∀ u,
      (w.status u ≠ .failed ∧ v.status u = .failed ↔
        Relation.ReflTransGen (fun x y => y ∈ (w.tasks x).outputs ∧ w.status y ≠ .failed) t u) ∧
      (v.status u ≠ .failed → v.status u = w.status u) := by
  refine ⟨w.setStatus t .failed, setsFailed_setStatus w t,
    fun v' hv' => (setsFailed_setStatus w t).deterministic hv', fun u => ⟨?_, ?_⟩⟩
  · rw [status_setStatus_failed]
    constructor
    · intro hbecome
      exact (hbecome.2.resolve_left hbecome.1).2
    · intro hpath
      have hopen : w.status u ≠ .failed := by
        cases hpath with
        | refl => exact h
        | tail _ hlast => exact hlast.2
      exact ⟨hopen, .inr ⟨h, hpath⟩⟩
  · exact status_setStatus_of_ne

/-- Two tasks that need each other: the call comes back to the first one and ends. -/
theorem setsFailed_cycle :
    ∃ v, SetsFailed (((fresh fun _ : Bool => .login).needs false true).needs true false) false v ∧
      v.status true = .failed := by
  obtain ⟨v, hv, -, hstatus⟩ := setsFailed_reaches
    (((fresh fun _ : Bool => .login).needs false true).needs true false) false (by decide)
  exact ⟨v, hv, ((hstatus true).1.mpr (.single ⟨by decide, by decide⟩)).2⟩

end GreenWallet.Tasks.World
