import GreenWallet.Tasks.Frame

/-!
# Resolvers and the data asked of a device

`m_resolver` is what the pages show while the device is asked. It is written in two places:
the handlers of a resolver reset it, and it is set after `resolve()` has returned. A resolver
that has emitted by then, since nothing was required or the device refused at once, is set all
the same.
-/
namespace GreenWallet.Tasks
open GreenWallet.Library

variable {ι : Type} [DecidableEq ι]

namespace World

/-- Whether each task exposes a resolver, and how many of its resolvers have not emitted yet. -/
def resolvers (w : World ι) (t : ι) : Bool × ℕ :=
  ((w.tasks t).resolver, w.calls.count ⟨t, .resolver⟩)

/-- `m_resolver` is set exactly if a resolver has been started that has not emitted yet. -/
def Reflects (w : World ι) : Prop := ∀ t, (w.tasks t).resolver = true ↔ ⟨t, .resolver⟩ ∈ w.calls

/-- The resolver that an event starts, if it does, and its task. -/
def startedResolver (w : World ι) : Event ι → Option (ι × Resolution)
  | .completes c report => (w.resolverOf c report).map fun resolution => (c.task, resolution)
  | .selectDevice t resolution => some (t, resolution)
  | _ => none

/-- A resolver ends later than it is started, unless another one of its task is outstanding;
and when it ends, no other one of its task is. -/
def Separates (w : World ι) (e : Event ι) : Prop :=
  (∀ t resolution, w.startedResolver e = some (t, resolution) →
    resolution = .later ∨ ⟨t, .resolver⟩ ∈ w.calls) ∧
  ∀ t report, e = .completes ⟨t, .resolver⟩ report → w.calls.count ⟨t, .resolver⟩ ≤ 1

theorem reflects_iff_resolvers (w : World ι) :
    w.Reflects ↔ ∀ t, (w.resolvers t).1 = true ↔ 0 < (w.resolvers t).2 := by
  simp only [Reflects, resolvers, List.count_pos_iff]

/-! ## What leaves the resolvers alone -/

theorem resolvers_start (w : World ι) (t : ι) {p : Pending} (hp : p ≠ .resolver) :
    (w.start t p).resolvers = w.resolvers := by
  funext u
  simp [resolvers, World.start, List.count_append, hp]

theorem resolvers_setTask (w : World ι) (t : ι) {f : Task ι → Task ι}
    (hf : ∀ task, (f task).resolver = task.resolver) :
    (w.setTask t f).resolvers = w.resolvers := by
  funext u
  by_cases hu : u = t
  · subst hu
    simp [resolvers, setTask, hf]
  · simp [resolvers, setTask, hu]

theorem resolvers_write (w : World ι) (t : ι) (s : Status) :
    (w.write t s).resolvers = w.resolvers :=
  resolvers_setTask w t (f := fun task => { task with status := s }) fun _ => rfl

theorem resolvers_insertInput (w : World ι) (t u : ι) :
    (w.insertInput t u).resolvers = w.resolvers :=
  resolvers_setTask w t (f := fun task => { task with inputs := task.inputs.insert u }) fun _ => rfl

theorem resolvers_insertOutput (w : World ι) (t u : ι) :
    (w.insertOutput t u).resolvers = w.resolvers :=
  resolvers_setTask w t (f := fun task => { task with outputs := task.outputs.insert u }) fun _ =>
    rfl

theorem resolvers_setResolver (w : World ι) (t : ι) (resolver : Bool) :
    (w.setResolver t resolver).resolvers =
      Function.update w.resolvers t (resolver, (w.resolvers t).2) := by
  funext u
  by_cases hu : u = t
  · subst hu
    simp [resolvers, setResolver, setTask]
  · simp [resolvers, setResolver, setTask, hu]

theorem resolvers_start_resolver (w : World ι) (t : ι) :
    (w.start t .resolver).resolvers =
      Function.update w.resolvers t ((w.resolvers t).1, (w.resolvers t).2 + 1) := by
  funext u
  by_cases hu : u = t
  · subst hu
    simp [resolvers, World.start, List.count_append]
  · simp [resolvers, World.start, List.count_append, hu, Ne.symm hu]

theorem resolvers_drop (w : World ι) (c : Call ι) :
    (w.drop c).resolvers =
      if c.pending = .resolver then
        Function.update w.resolvers c.task ((w.resolvers c.task).1, (w.resolvers c.task).2 - 1)
      else w.resolvers := by
  obtain ⟨t, p⟩ := c
  split_ifs with hp
  · have hp' : p = .resolver := hp
    subst hp'
    funext u
    by_cases hu : u = t
    · subst hu
      simp [resolvers, World.drop, List.count_erase_self]
    · simp [resolvers, World.drop, hu]
  · funext u
    have hne : (⟨u, .resolver⟩ : Call ι) ≠ ⟨t, p⟩ := by
      intro h
      exact hp (Call.mk.inj h).2.symm
    have hwork : (⟨u, .resolver⟩ : Call ι) ≠ ⟨t, .work⟩ := by simp
    simp only [resolvers, World.drop]
    split_ifs
    · rw [List.count_erase_of_ne hwork, List.count_erase_of_ne hne]
    · rw [List.count_erase_of_ne hne]

theorem resolvers_lose (w : World ι) (t : ι) : (w.lose t).resolvers = w.resolvers := by
  funext u
  have hne : ∀ p, (w.tasks t).type.authUser = some p → (⟨u, .resolver⟩ : Call ι) ≠ ⟨t, p⟩ := by
    rintro p hp ⟨⟩
    cases htype : (w.tasks t).type <;> rw [htype] at hp <;> cases hp
  simp only [resolvers, World.lose]
  cases hauth : (w.tasks t).type.authUser with
  | none => rfl
  | some p =>
      simp only [Option.elim_some]
      rw [List.count_erase_of_ne (hne p hauth)]

variable [Fintype ι]

theorem resolvers_setStatus (w : World ι) (t : ι) (s : Status) :
    (w.setStatus t s).resolvers = w.resolvers :=
  setStatus_invariant (I := fun w' => w'.resolvers = w.resolvers)
    (fun w' u s h => (resolvers_write w' u s).trans h) rfl t s

theorem keptBut_resolvers (w : World ι) (t : ι) :
    KeptBut t fun w' => w'.resolvers = w.resolvers where
  setStatus w' s h := (resolvers_setStatus w' t s).trans h
  start w' _ hp h := (resolvers_start w' t hp).trans h
  setUnlocking _ _ h := h
  setTask w' _ hf h := (resolvers_setTask w' t fun task => (hf task).2).trans h

theorem resolvers_groupUpdate (seen : ι → Surroundings) (w : World ι) (g : GroupId) :
    (w.groupUpdate seen g).resolvers = w.resolvers := by
  have hgroup (w' : World ι) (s : Status) : (w'.setGroupStatus g s).resolvers = w'.resolvers := by
    unfold setGroupStatus
    split_ifs <;> rfl
  have hvisits : ∀ (ts : List ι) (w' : World ι),
      (ts.foldl (visit seen) w').resolvers = w'.resolvers := by
    intro ts
    induction ts with
    | nil => exact fun w' => rfl
    | cons t ts ih =>
        intro w'
        rw [List.foldl_cons, ih]
        unfold visit
        split_ifs
        · have hemit : (w'.emit [.update t]).resolvers = w'.resolvers := rfl
          exact (keptBut_resolvers w' t).update hemit (seen t)
        · rfl
  have hsweep : ∀ (ts : List ι) (w' : World ι), (w'.sweep ts).resolvers = w'.resolvers := by
    intro ts
    induction ts with
    | nil => exact fun w' => rfl
    | cons t ts ih => exact fun w' => (ih _).trans (resolvers_setStatus w' t .failed)
  simp only [groupUpdate]
  split_ifs
  · rfl
  · exact hgroup w .finished
  · rw [hgroup, hsweep]
  · rw [hvisits]
    unfold showActive
    split_ifs
    · exact hgroup w .active
    · rfl

theorem resolvers_dispatcherUpdate (seen : ι → Surroundings) (w : World ι) (d : DispatcherId) :
    (w.dispatcherUpdate seen d).resolvers = w.resolvers := by
  have hgroups : ∀ (gs : List GroupId) (w' : World ι),
      (gs.foldl (groupUpdate seen) w').resolvers = w'.resolvers := by
    intro gs
    induction gs with
    | nil => exact fun w' => rfl
    | cons g gs ih => exact fun w' => (ih _).trans (resolvers_groupUpdate seen w' g)
  unfold dispatcherUpdate updateBusy setBusy
  split_ifs
  · exact hgroups _ w
  · exact hgroups _ w

/-! ## What a step makes of the resolvers -/

theorem resolvers_startResolver (w : World ι) (t : ι) (resolution : Resolution) :
    (AuthHandlerTask.startResolver t w resolution).resolvers =
      Function.update w.resolvers t
        (true, (w.resolvers t).2 + if resolution = .later then 1 else 0) := by
  unfold AuthHandlerTask.startResolver
  rw [resolvers_setResolver]
  cases resolution with
  | later => simp [resolvers_start_resolver]
  | resolved code =>
      have hresolved : (AuthHandlerTask.resolverResolved t w code).resolvers =
          Function.update w.resolvers t (false, (w.resolvers t).2) :=
        (resolvers_start _ t Pending.noConfusion).trans (resolvers_setResolver w t false)
      simp [hresolved]
  | failed error =>
      have hfailed : (AuthHandlerTask.resolverFailed t w error).resolvers =
          Function.update w.resolvers t (false, (w.resolvers t).2) :=
        (keptBut_resolvers (w.setResolver t false) t).fails rfl error |>.trans
          (resolvers_setResolver w t false)
      simp [hfailed]

theorem resolvers_resolved (w : World ι) (t : ι) (report : Report) :
    (AuthHandlerTask.resolved t w report).resolvers =
      Function.update w.resolvers t (false, (w.resolvers t).2) := by
  rw [← resolvers_setResolver]
  unfold AuthHandlerTask.resolved
  split_ifs
  · exact resolvers_start _ t Pending.noConfusion
  · exact (keptBut_resolvers (w.setResolver t false) t).fails rfl report.details

theorem next_eq_startResolver {w : World ι} {t : ι} {report : Report}
    (hauth : (w.tasks t).authHandler = true) (hstatus : report.status = some .requiredData)
    (hdevice : report.device = true) :
    AuthHandlerTask.next t w report = AuthHandlerTask.startResolver t w report.resolution := by
  simp [AuthHandlerTask.next, AuthHandlerTask.handleRequiredData, hauth, hstatus, hdevice]

/-- A continuation that starts a resolver does nothing else. -/
theorem resolvers_complete_of_resolverOf {w : World ι} {c : Call ι} {report : Report}
    {resolution : Resolution} (h : w.resolverOf c report = some resolution) :
    (w.complete c report).resolvers =
      (AuthHandlerTask.startResolver c.task w resolution).resolvers := by
  obtain ⟨t, p⟩ := c
  rw [resolverOf] at h
  obtain ⟨⟨hasks, hstatus, hdevice⟩, hsome⟩ := Option.ite_some_none_eq_some.mp h
  subst hsome
  cases p with
  | call =>
      obtain ⟨hok, hauth⟩ := Bool.and_eq_true_iff.mp hasks
      have hset : (w.setAuthHandler t).resolvers = w.resolvers := resolvers_setTask w t fun _ => rfl
      simp only [World.complete, AuthHandlerTask.called, hok, if_true]
      by_cases hhandler : report.handler = true
      · have hauth' : ((w.setAuthHandler t).tasks t).authHandler = true := by
          simp [setAuthHandler, setTask]
        rw [if_pos hhandler, next_eq_startResolver hauth' hstatus hdevice,
          resolvers_startResolver, resolvers_startResolver, hset]
      · have hauth' : (w.tasks t).authHandler = true := by simpa [hhandler] using hauth
        rw [if_neg hhandler, next_eq_startResolver hauth' hstatus hdevice]
  | requestCode | resolveCode | handlerCall =>
      obtain ⟨hok, hauth⟩ := Bool.and_eq_true_iff.mp hasks
      simp only [World.complete, AuthHandlerTask.stepped, hok, if_true]
      rw [next_eq_startResolver hauth hstatus hdevice]
  | _ => cases hasks

/-- What a step can make of the resolvers. -/
inductive ResolverStep (w : World ι) (e : Event ι) : (ι → Bool × ℕ) → Prop
  | same (none : w.startedResolver e = none)
      (other : ∀ t report, e ≠ .completes ⟨t, .resolver⟩ report) : ResolverStep w e w.resolvers
  | starts {t : ι} {resolution : Resolution} (started : w.startedResolver e = some (t, resolution))
      (other : ∀ t report, e ≠ .completes ⟨t, .resolver⟩ report) :
      ResolverStep w e (Function.update w.resolvers t
        (true, (w.resolvers t).2 + if resolution = .later then 1 else 0))
  | ends {t : ι} {report : Report} (none : w.startedResolver e = none)
      (completes : e = .completes ⟨t, .resolver⟩ report) :
      ResolverStep w e (Function.update w.resolvers t (false, (w.resolvers t).2 - 1))

theorem resolverStep_complete (w : World ι) (c : Call ι) (report : Report) :
    ResolverStep w (.completes c report) ((w.drop c).complete c report).resolvers := by
  have hdrop := resolvers_drop w c
  obtain ⟨t, p⟩ := c
  by_cases hp : p = .resolver
  · subst hp
    have hresolved : ((w.drop ⟨t, .resolver⟩).complete ⟨t, .resolver⟩ report).resolvers =
        Function.update w.resolvers t (false, (w.resolvers t).2 - 1) := by
      refine (resolvers_resolved _ t report).trans ?_
      rw [hdrop, if_pos rfl]
      simp
    rw [hresolved]
    exact .ends rfl rfl
  · have hother : ∀ u other, (Event.completes ⟨t, p⟩ report : Event ι) ≠
        .completes ⟨u, .resolver⟩ other := by
      intro u other h
      exact hp (Call.mk.inj (Event.completes.inj h).1).2
    rw [if_neg hp] at hdrop
    cases hof : w.resolverOf ⟨t, p⟩ report with
    | none =>
        have hsame : ((w.drop ⟨t, p⟩).complete ⟨t, p⟩ report).resolvers = w.resolvers := by
          apply (keptBut_resolvers w t).complete hdrop hp report
          intro w' resolution _ hsome
          have hnone : w.resolverOf ⟨t, p⟩ report = some resolution := hsome
          rw [hof] at hnone
          cases hnone
        rw [hsame]
        exact .same (by rw [startedResolver, hof]; rfl) hother
    | some resolution =>
        have hof' : (w.drop ⟨t, p⟩).resolverOf ⟨t, p⟩ report = some resolution := hof
        rw [resolvers_complete_of_resolverOf hof', resolvers_startResolver, hdrop]
        exact .starts (by rw [startedResolver, hof]; rfl) hother

theorem resolver_step (w : World ι) (e : Event ι) : ResolverStep w e (w.next e).resolvers := by
  have hsame (hnone : w.startedResolver e = none)
      (hother : ∀ t report, e ≠ .completes ⟨t, .resolver⟩ report)
      (h : (w.next e).resolvers = w.resolvers) : ResolverStep w e (w.next e).resolvers := by
    rw [h]
    exact .same hnone hother
  cases e with
  | completes c report => exact resolverStep_complete w c report
  | selectDevice t resolution =>
      have hnext : (w.next (.selectDevice t resolution)).resolvers = _ :=
        resolvers_startResolver w t resolution
      rw [hnext]
      exact .starts rfl (by simp)
  | lost t => exact hsame rfl (by simp) (resolvers_lose w t)
  | pass d seen => exact hsame rfl (by simp) (resolvers_dispatcherUpdate seen w d)
  | requestCode t method => exact hsame rfl (by simp) (resolvers_start w t Pending.noConfusion)
  | resolveCode t code => exact hsame rfl (by simp) (resolvers_start w t Pending.noConfusion)
  | needs t u =>
      exact hsame rfl (by simp) ((resolvers_insertOutput _ u t).trans (resolvers_insertInput w t u))
  | then_ t u =>
      exact hsame rfl (by simp) ((resolvers_insertInput _ u t).trans (resolvers_insertOutput w t u))
  | groupAdd g t =>
      apply hsame rfl (by simp)
      simp only [next, groupAdd]
      split_ifs <;> rfl
  | dispatcherAdd d g =>
      apply hsame rfl (by simp)
      simp only [next, dispatcherAdd]
      split_ifs <;> rfl
  | groupRemove | dispatcherRemove => exact hsame rfl (by simp) rfl

/-- A state that reflects its resolvers goes on to one exactly if the step keeps them apart. -/
theorem Reflects.next_iff {w : World ι} (h : w.Reflects) (e : Event ι) :
    (w.next e).Reflects ↔ w.Separates e := by
  rw [reflects_iff_resolvers] at h
  have hmem (t : ι) : ⟨t, .resolver⟩ ∈ w.calls ↔ 0 < (w.resolvers t).2 := List.count_pos_iff.symm
  have hupdate (t : ι) (resolver : Bool) (n : ℕ) :
      (∀ u, (Function.update w.resolvers t (resolver, n) u).1 = true ↔
        0 < (Function.update w.resolvers t (resolver, n) u).2) ↔ (resolver = true ↔ 0 < n) := by
    constructor
    · intro hall
      simpa using hall t
    · intro hhere u
      by_cases hu : u = t
      · subst hu
        simpa using hhere
      · simpa [hu] using h u
  rw [reflects_iff_resolvers]
  have hstep := resolver_step w e
  generalize (w.next e).resolvers = after at hstep ⊢
  cases hstep with
  | same hnone hother =>
      refine iff_of_true h ⟨fun t resolution hsome => ?_, fun t report he => ?_⟩
      · rw [hnone] at hsome
        cases hsome
      · exact absurd he (hother t report)
  | @starts t resolution hstarted hother =>
      rw [hupdate]
      constructor
      · intro hnow
        refine ⟨fun u other hsome => ?_, fun u report he => absurd he (hother u report)⟩
        rw [hstarted, Option.some.injEq, Prod.mk.injEq] at hsome
        obtain ⟨rfl, rfl⟩ := hsome
        by_cases hlater : resolution = .later
        · exact .inl hlater
        · rw [if_neg hlater, Nat.add_zero] at hnow
          exact .inr ((hmem t).mpr (hnow.mp rfl))
      · intro ⟨hlate, _⟩
        refine iff_of_true rfl ?_
        rcases hlate t resolution hstarted with hlater | houtstanding
        · rw [if_pos hlater]
          exact Nat.succ_pos _
        · exact Nat.lt_of_lt_of_le ((hmem t).mp houtstanding) (Nat.le_add_right _ _)
  | @ends t report hnone hcompletes =>
      have hcount : (w.resolvers t).2 = w.calls.count ⟨t, .resolver⟩ := rfl
      rw [hupdate]
      constructor
      · intro hnow
        refine ⟨fun u resolution hsome => ?_, fun u other he => ?_⟩
        · rw [hnone] at hsome
          cases hsome
        · rw [hcompletes] at he
          obtain rfl := (Call.mk.inj (Event.completes.inj he).1).1
          by_contra hmore
          cases hnow.mpr (by omega)
      · intro ⟨_, halone⟩
        have hone := halone t report hcompletes
        refine iff_of_false Bool.false_ne_true ?_
        omega

/-- `m_resolver` reflects the resolvers throughout a run exactly if each of them ends later than
it is started, one at a time. -/
theorem reflects_iff (types : ι → TaskType) (es : List (Event ι)) :
    reactive.Always Reflects (.fresh types) es ↔ reactive.Along Separates (.fresh types) es := by
  have hall (w : World ι) (fs : List (Event ι)) : reactive.Along (fun _ _ => True) w fs := by
    induction fs generalizing w with
    | nil => trivial
    | cons e fs ih => exact ⟨trivial, ih _⟩
  have hfresh : (World.fresh types).Reflects := by
    intro t
    simp [fresh]
  exact Reactive.always_iff_along (J := fun _ => True) (V := fun _ _ => True)
    (fun _ _ _ _ => trivial) (fun w e _ _ h => h.next_iff e) trivial hfresh (hall _ es)

/-- A task that asks the device for the keys of no paths at all. -/
def nothingRequired : List (Event (Fin 1)) :=
  [.groupAdd 0 0, .dispatcherAdd 0 0, .pass 0 fun _ => {},
    .completes ⟨0, .call⟩ { status := some .requiredData, resolution := .resolved "" }]

/-- The resolver has resolved, and stays set. -/
theorem not_reflects_nothingRequired :
    reactive.Valid (.fresh fun _ : Fin 1 => .login) nothingRequired ∧
      ¬ reactive.Always Reflects (.fresh fun _ : Fin 1 => .login) nothingRequired := by
  refine ⟨by decide, fun h => ?_⟩
  have hlast := h.last 0
  exact absurd hlast (by decide)

end World
end GreenWallet.Tasks
