import GreenWallet.Tasks.View

/-!
# The tasks of a Jade login, each alone

A login sets up, unlocks and identifies the device, and makes http requests for it. What
`update` and the continuations of these tasks do shows in the view of the task alone: here
they are functions of the view, and a run of the dispatchers moves the view of such a task
by these functions, or by failing it.
-/
namespace GreenWallet.Tasks
open GreenWallet.Library

/-- The tasks that a login adds to the ones of a session. -/
def TaskType.isOfLogin : TaskType → Bool
  | .jadeSetup | .jadeUnlock | .jadeIdentify | .httpRequest => true
  | _ => false

/-- What the tasks of a login wait for. -/
def Pending.isOfLogin : Pending → Bool
  | .work | .identifyUser | .disconnected => true
  | _ => false

/-- How a task ends that reports success or failure. -/
def Report.outcome (report : Report) : Status := if report.ok then .finished else .failed

theorem Report.outcome_cases (report : Report) :
    report.outcome = .finished ∨ report.outcome = .failed := by
  unfold outcome
  split_ifs
  · exact .inl rfl
  · exact .inr rfl

namespace View

def whenReady (v : View) (can : Bool) (go : View → View) : View :=
  if v.status = .ready ∧ can = true then go v else v

def launch (v : View) (p : Pending) : View := (v.set .active).start p

def jadeSetup (v : View) (seen : Surroundings) : View :=
  v.whenReady seen.device fun v =>
    if seen.deviceState ≠ .uninitialized ∧ seen.deviceState ≠ .unsaved then v.set .finished
    else if seen.network then ((v.set .active).setUnlocking true).start .work
    else v

def jadeUnlock (v : View) (seen : Surroundings) : View :=
  v.whenReady seen.device fun v =>
    if seen.deviceState = .ready then v.set .finished
    else if seen.network then
      let v := (v.set .active).setUnlocking true
      if seen.api then (v.start .disconnected).start .work else v.set .failed
    else v

def jadeIdentify (v : View) (seen : Surroundings) : View :=
  v.whenReady (seen.device && seen.network) fun v =>
    match seen.deviceState with
    | .locked => v
    | .temporary => v.start .identifyUser
    | _ => v.launch .work

def update (v : View) (seen : Surroundings) : View :=
  match v.type with
  | .httpRequest => v.whenReady seen.connected fun v => v.launch .work
  | .jadeSetup => v.jadeSetup seen
  | .jadeUnlock => v.jadeUnlock seen
  | .jadeIdentify => v.jadeIdentify seen
  | _ => v

def complete (v : View) (p : Pending) (report : Report) : View :=
  match p with
  | .work =>
      match v.type with
      | .jadeSetup => (v.setUnlocking false).set report.outcome
      | .jadeUnlock => if v.status ≠ .active then v else (v.setUnlocking false).set report.outcome
      | _ => v.set report.outcome
  | .disconnected => if v.status ≠ .active then v else (v.setUnlocking false).set .failed
  | _ => v

theorem complete_httpRequest {v : View} (h : v.type = .httpRequest) (report : Report) :
    v.complete .work report = v.set report.outcome := by
  simp only [complete, h]

theorem complete_jadeSetup {v : View} (h : v.type = .jadeSetup) (report : Report) :
    v.complete .work report = (v.setUnlocking false).set report.outcome := by
  simp only [complete, h]

theorem complete_jadeUnlock {v : View} (h : v.type = .jadeUnlock) (hs : v.status = .active)
    (report : Report) : v.complete .work report = (v.setUnlocking false).set report.outcome := by
  simp [complete, h, hs]

/-- An answer that comes late is not listened to. -/
theorem complete_jadeUnlock_late {v : View} (h : v.type = .jadeUnlock) (hs : v.status ≠ .active)
    (report : Report) : v.complete .work report = v := by
  simp [complete, h, hs]

theorem complete_disconnected {v : View} (hs : v.status = .active) (report : Report) :
    v.complete .disconnected report = (v.setUnlocking false).set .failed := by
  simp [complete, hs]

theorem complete_disconnected_late {v : View} (hs : v.status ≠ .active) (report : Report) :
    v.complete .disconnected report = v := by
  simp [complete, hs]

@[simp] theorem set_type (v : View) (s : Status) : (v.set s).type = v.type := by
  unfold set
  split_ifs <;> rfl

@[simp] theorem set_status (v : View) (s : Status) : (v.set s).status = s := by
  unfold set
  split_ifs with h
  · exact h
  · rfl

@[simp] theorem set_prompt (v : View) (s : Status) : (v.set s).prompt = v.prompt := by
  unfold set
  split_ifs <;> rfl

@[simp] theorem set_pendings (v : View) (s : Status) : (v.set s).pendings = v.pendings := by
  unfold set
  split_ifs <;> rfl

@[simp] theorem set_unlocking (v : View) (s : Status) : (v.set s).unlocking = v.unlocking := by
  unfold set
  split_ifs <;> rfl

theorem set_finished (v : View) (s : Status) :
    (v.set s).finished =
      if v.status ≠ .finished ∧ s = .finished then v.finished + 1 else v.finished := by
  unfold set write
  split_ifs <;> simp_all

/-- The view of a task of a login. -/
structure OfLogin (v : View) : Prop where
  type : v.type.isOfLogin = true
  prompt : v.prompt = none
  pendings : ∀ p ∈ v.pendings, p.isOfLogin = true

theorem OfLogin.plain {v : View} (h : v.OfLogin) : v.Plain where
  type := by
    have htype := h.type
    cases hv : v.type <;> rw [hv] at htype <;> first | rfl | cases htype
  prompt := h.prompt

/-- Where the view of a task of a login can get to from one step to the next. -/
inductive Becomes (v : View) : Dispatching.Move → View → Prop
  | stays : Becomes v .others v
  | failed : Becomes v .others (v.write .failed)
  | updates (seen : Surroundings) : Becomes v (.updates seen) (v.update seen)
  | completes (p : Pending) (report : Report) : p ∈ v.pendings →
      Becomes v (.completes p report) ((v.drop p).complete p report)
  | loses : v.type.authUser.any (fun p => p ∈ v.pendings) = true → Becomes v .loses v.lose

theorem drop_of_ne {p : Pending} (hp : p ≠ .disconnected) (v : View) :
    v.drop p = { v with pendings := v.pendings.erase p } := by
  simp only [drop, if_neg hp]

theorem drop_disconnected (v : View) :
    v.drop .disconnected =
      { v with pendings := (v.pendings.erase .disconnected).erase .work } := rfl

theorem sublist_drop (v : View) (p : Pending) : (v.drop p).pendings.Sublist v.pendings := by
  by_cases hp : p = .disconnected
  · rw [hp, drop_disconnected]
    exact List.erase_sublist.trans List.erase_sublist
  · rw [drop_of_ne hp]
    exact List.erase_sublist

theorem mem_of_mem_drop {v : View} {p q : Pending} (h : q ∈ (v.drop p).pendings) :
    q ∈ v.pendings := (v.sublist_drop p).subset h

theorem sublist_lose (v : View) : v.lose.pendings.Sublist v.pendings := by
  unfold lose
  cases v.type.authUser with
  | none => exact List.Sublist.refl _
  | some p => exact List.erase_sublist

theorem mem_of_mem_lose {v : View} {q : Pending} (h : q ∈ v.lose.pendings) : q ∈ v.pendings :=
  v.sublist_lose.subset h

theorem write_failed (v : View) : v.write .failed = v.set .failed := by
  unfold set
  split_ifs with h
  · cases v
    cases h
    rfl
  · rfl

/-- Kept by whatever the view of a task of a login can do. -/
structure KeptByMoves (I : View → Prop) : Prop where
  set : ∀ v s, I v → I (v.set s)
  start : ∀ v p, p.isOfLogin = true → I v → I (v.start p)
  setUnlocking : ∀ v unlocking, I v → I (v.setUnlocking unlocking)
  drop : ∀ v p, I v → I (v.drop p)
  lose : ∀ v, I v → I v.lose

namespace KeptByMoves
variable {I : View → Prop} {v : View} (hI : KeptByMoves I)
include hI

omit hI in
theorem whenReady {can : Bool} {go : View → View} (h : I v) (hgo : I (go v)) :
    I (v.whenReady can go) := by
  unfold View.whenReady
  split_ifs
  · exact hgo
  · exact h

theorem launch (h : I v) : I (v.launch .work) := hI.start _ .work rfl (hI.set v .active h)

theorem update (h : I v) (seen : Surroundings) : I (v.update seen) := by
  have hfinished := hI.set v .finished h
  have hunlocking := hI.setUnlocking _ true (hI.set v .active h)
  unfold View.update
  split
  · exact whenReady h (hI.launch h)
  · apply whenReady h
    split_ifs
    · exact hfinished
    · exact hI.start _ .work rfl hunlocking
    · exact h
  · apply whenReady h
    simp only
    split_ifs
    · exact hfinished
    · exact hI.start _ .work rfl (hI.start _ .disconnected rfl hunlocking)
    · exact hI.set _ .failed hunlocking
    · exact h
  · apply whenReady h
    split
    · exact h
    · exact hI.start v .identifyUser rfl h
    · exact hI.launch h
  · exact h

theorem complete (h : I v) (p : Pending) (report : Report) : I (v.complete p report) := by
  have hcleared := hI.setUnlocking v false h
  unfold View.complete
  split
  · split
    · exact hI.set _ _ hcleared
    · split_ifs
      · exact h
      · exact hI.set _ _ hcleared
    · exact hI.set v _ h
  · split_ifs
    · exact h
    · exact hI.set _ .failed hcleared
  · exact h

theorem becomes {v' : View} {m : Dispatching.Move} (h : I v) (hb : v.Becomes m v') : I v' := by
  cases hb with
  | stays => exact h
  | failed =>
      rw [write_failed]
      exact hI.set v .failed h
  | updates seen => exact hI.update h seen
  | completes p report _ => exact hI.complete (hI.drop v p h) p report
  | loses => exact hI.lose v h

end KeptByMoves

theorem keptByMoves_type (type : TaskType) : KeptByMoves fun v => v.type = type where
  set v s h := (v.set_type s).trans h
  start _ _ _ h := h
  setUnlocking _ _ h := h
  drop _ _ h := h
  lose _ h := h

theorem keptByMoves_ofLogin : KeptByMoves OfLogin where
  set v s h := ⟨by simpa using h.type, by simpa using h.prompt, by simpa using h.pendings⟩
  start v p hp h := by
    refine ⟨h.type, h.prompt, fun q hq => ?_⟩
    rcases List.mem_append.mp hq with hq | hq
    · exact h.pendings q hq
    · rwa [List.mem_singleton.mp hq]
  setUnlocking _ _ h := ⟨h.type, h.prompt, h.pendings⟩
  drop v p h := ⟨h.type, h.prompt, fun q hq => h.pendings q (mem_of_mem_drop hq)⟩
  lose v h := ⟨h.type, h.prompt, fun q hq => h.pendings q (mem_of_mem_lose hq)⟩

theorem Becomes.type {v v' : View} {m : Dispatching.Move} (hb : v.Becomes m v') :
    v'.type = v.type := (keptByMoves_type v.type).becomes rfl hb

theorem Becomes.ofLogin {v v' : View} {m : Dispatching.Move} (hb : v.Becomes m v')
    (h : v.OfLogin) : v'.OfLogin := keptByMoves_ofLogin.becomes h hb

theorem OfLogin.fresh {type : TaskType} (h : type.isOfLogin = true) :
    ({ type := type } : View).OfLogin where
  type := h
  prompt := rfl
  pendings p hp := by cases hp

end View

namespace World
variable {ι : Type} [Fintype ι] [DecidableEq ι]

omit [Fintype ι] in
theorem view_whenReady (w : World ι) (t : ι) (can : Bool) (go : World ι → World ι)
    {go' : View → View} (h : (go w).view t = go' (w.view t)) :
    (whenReady t w can go).view t = (w.view t).whenReady can go' := by
  unfold whenReady View.whenReady
  rw [view_status]
  split_ifs
  · exact h
  · rfl

theorem view_launch (w : World ι) (t : ι) (p : Pending) :
    (launch t w p).view t = (w.view t).launch p := by
  rw [launch, view_start, view_setStatus]
  rfl

theorem view_jadeSetup (w : World ι) (seen : Surroundings) (t : ι) :
    (JadeSetupTask.update seen t w).view t = (w.view t).jadeSetup seen := by
  apply view_whenReady
  split_ifs
  · exact view_setStatus w t .finished
  · rw [view_start, view_setUnlocking, view_setStatus]
  · rfl

theorem view_jadeUnlock (w : World ι) (seen : Surroundings) (t : ι) :
    (JadeUnlockTask.update seen t w).view t = (w.view t).jadeUnlock seen := by
  apply view_whenReady
  simp only
  split_ifs
  · exact view_setStatus w t .finished
  · rw [view_start, view_start, view_setUnlocking, view_setStatus]
  · rw [view_setStatus, view_setUnlocking, view_setStatus]
  · rfl

theorem view_jadeIdentify (w : World ι) (seen : Surroundings) (t : ι) :
    (JadeIdentifyTask.update seen t w).view t = (w.view t).jadeIdentify seen := by
  apply view_whenReady
  cases seen.deviceState with
  | locked => rfl
  | temporary => exact view_start w t .identifyUser
  | uninitialized | unsaved | ready => exact view_launch w t .work

/-- The `update` of a task of a login is that of its view. -/
theorem view_update {w : World ι} {t : ι} (h : (w.view t).type.isOfLogin = true)
    (seen : Surroundings) : (w.update seen t).view t = (w.view t).update seen := by
  rw [view_type] at h
  unfold update View.update
  rw [view_type]
  cases htype : (w.tasks t).type
  case httpRequest => exact view_whenReady w t _ _ (view_launch w t .work)
  case jadeSetup => exact view_jadeSetup w seen t
  case jadeUnlock => exact view_jadeUnlock w seen t
  case jadeIdentify => exact view_jadeIdentify w seen t
  all_goals
    rw [htype] at h
    cases h

/-- The continuations of a task of a login are those of its view. -/
theorem view_complete {w : World ι} {t : ι} (h : (w.view t).type.isOfLogin = true) {p : Pending}
    (hp : p.isOfLogin = true) (report : Report) :
    (w.complete ⟨t, p⟩ report).view t = (w.view t).complete p report := by
  rw [view_type] at h
  cases p with
  | work =>
      simp only [complete, worked, View.complete, view_type]
      cases htype : (w.tasks t).type
      case jadeSetup =>
        simp only [JadeSetupTask.answered]
        rw [view_setStatus, view_setUnlocking]
        rfl
      case jadeUnlock =>
        simp only [JadeUnlockTask.answered]
        by_cases hactive : w.status t ≠ .active
        · rw [if_pos hactive]
          exact (if_pos hactive).symm
        · rw [if_neg hactive, view_setStatus, view_setUnlocking]
          exact (if_neg hactive).symm
      case httpRequest | jadeIdentify => exact view_setStatus w t _
      all_goals
        rw [htype] at h
        cases h
  | disconnected =>
      simp only [complete, JadeUnlockTask.disconnected, View.complete]
      by_cases hactive : w.status t ≠ .active
      · rw [if_pos hactive]
        exact (if_pos hactive).symm
      · rw [if_neg hactive, view_setStatus, view_setUnlocking]
        exact (if_neg hactive).symm
  | identifyUser => rfl
  | call | requestCode | resolveCode | handlerCall | resolver | connect | connectTimeout | fetch =>
      cases hp

end World

namespace Dispatching
variable {ι : Type} [Fintype ι] [DecidableEq ι]

/-- A step moves the view of a task of a login as the task alone would, or fails it. -/
theorem step_becomes (s : Dispatching ι) {e : Step ι} (he : s.enabled e) {t : ι}
    (ht : (s.world.view t).OfLogin) :
    (s.world.view t).Becomes (s.move t e) ((s.next e).world.view t) := by
  have hstep := s.step_view he ht.plain
  generalize s.move t e = m at hstep ⊢
  generalize (s.next e).world.view t = v at hstep ⊢
  cases hstep with
  | others h =>
      rcases h with rfl | rfl
      · exact .stays
      · exact .failed
  | updates seen =>
      have hsame := s.world.view_emit_update t t
      rw [World.view_update (by rw [hsame]; exact ht.type), hsame]
      exact .updates seen
  | completes p report hmem =>
      have hp : p ∈ (s.world.view t).pendings := World.mem_pendings.mpr hmem
      have hdrop := s.world.view_drop t p
      rw [World.view_complete (by rw [hdrop]; exact ht.type) (ht.pendings p hp), hdrop]
      exact .completes p report hp
  | loses hlost =>
      rw [World.view_lose]
      refine .loses ?_
      obtain ⟨p, hauth, hmem⟩ := (Option.any_eq_true _ _).mp hlost
      refine (Option.any_eq_true _ _).mpr ⟨p, hauth, ?_⟩
      simpa [World.mem_pendings] using hmem

end Dispatching
end GreenWallet.Tasks
