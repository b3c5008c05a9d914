import Mathlib.Data.List.Nodup
import GreenWallet.Controllers.BCUR

/-!
# Parts one at a time

A part that is scanned waits in a queue until the task that decodes can take it. It is in
order as long as the queue waits for an answer: a part that comes when one is being
resolved does not wait, and a queue that an earlier task has left is taken for parts of
the present one.
-/
namespace GreenWallet.Controllers
open GreenWallet.Library

namespace BCURController

/-- The parts a task has been given, in that order. -/
def partsOf (s : BCURController) (id : ℕ) : List String :=
  (s.submitted.filter fun submission => submission.1 = id).map Prod.snd

/-- Each task has at most one resolution outstanding, and is given each part once, in the
order of arrival. A part is given to a task or waits, and parts wait only for an answer. -/
structure OneByOne (s : BCURController) : Prop where
  single : ∀ task ∈ s.task, task.resolving ≤ 1
  once : ∀ id, (s.partsOf id).Nodup
  ordered : ∀ id, (s.partsOf id).Sublist s.seen
  kept : ∀ data ∈ s.seen, isUR data = true →
    data ∈ s.submitted.map Prod.snd ∨ data ∈ s.pending
  waits : ∀ task ∈ s.task, task.prompt.isSome = true → s.pending ≠ [] → 0 < task.resolving

/-- No new part is scanned while a resolution is outstanding, and a task that first asks
finds no part in front of the queue that was there before its own. -/
def Orderly (s : BCURController) : BCUREvent → Prop
  | .process data => s.decoded = false → data ∉ s.seen → isUR data = true →
      ∀ task ∈ s.task, task.prompt.isSome = true → task.resolving = 0
  | .called (.resolveCode _ _) =>
      ∀ task ∈ s.task, ∀ part ∈ s.pending.head?, ¬ [part, task.part].Sublist s.seen
  | _ => True

/-- What holds whatever the task is at. -/
structure Base (s : BCURController) : Prop where
  nodup : s.seen.Nodup
  ids : ∀ submission ∈ s.submitted, submission.1 < s.tasks
  ordered : ∀ id, (s.partsOf id).Sublist s.seen
  kept : ∀ data ∈ s.seen, isUR data = true →
    data ∈ s.submitted.map Prod.snd ∨ data ∈ s.pending

theorem Base.same {s s' : BCURController} (h : s.Base) (hseen : s'.seen = s.seen)
    (htasks : s'.tasks = s.tasks) (hsubmitted : s'.submitted = s.submitted)
    (hpending : s'.pending = s.pending) : s'.Base := by
  have hparts : s'.partsOf = s.partsOf := by
    funext id
    rw [partsOf, partsOf, hsubmitted]
  constructor
  · rw [hseen]
    exact h.nodup
  · rw [hsubmitted, htasks]
    exact h.ids
  · rw [hparts, hseen]
    exact h.ordered
  · rw [hsubmitted, hpending, hseen]
    exact h.kept

/-- The task has asked, and what it was given and what waits have arrived in that order. -/
structure Lined (s : BCURController) (task : DecodeTask) : Prop where
  current : s.task = some task
  prompt : task.prompt.isSome = true
  stage : task.stage = .called
  id : task.id < s.tasks
  sublist : (s.partsOf task.id ++ s.pending).Sublist s.seen

/-- The task has not asked yet. What an earlier task left has arrived before its part. -/
structure Unasked (s : BCURController) (task : DecodeTask) (left new : List String) : Prop where
  current : s.task = some task
  prompt : task.prompt = none
  resolving : task.resolving = 0
  id : task.id < s.tasks
  parts : s.partsOf task.id = [task.part]
  pending : s.pending = left ++ new
  sublist : (left ++ task.part :: new).Sublist s.seen

inductive Phase (s : BCURController) : Prop
  | idle (none : s.task = none) (sublist : s.pending.Sublist s.seen) : Phase s
  | unasked (task : DecodeTask) (left new : List String) (h : Unasked s task left new) : Phase s
  | asked (task : DecodeTask) (h : Lined s task) : Phase s

/-- What orderly steps keep. -/
structure Good (s : BCURController) : Prop where
  base : s.Base
  phase : s.Phase
  single : ∀ task ∈ s.task, task.resolving ≤ 1
  waits : ∀ task ∈ s.task, task.prompt.isSome = true → s.pending ≠ [] → 0 < task.resolving

theorem Good.oneByOne {s : BCURController} (h : s.Good) : s.OneByOne where
  single := h.single
  once id := (h.base.ordered id).nodup h.base.nodup
  ordered := h.base.ordered
  kept := h.base.kept
  waits := h.waits

/-- In every phase the queue is in order of arrival. -/
theorem Phase.pending_sublist {s : BCURController} (h : s.Phase) : s.pending.Sublist s.seen := by
  cases h with
  | idle _ hsub => exact hsub
  | unasked task left new h =>
      rw [h.pending]
      exact (List.Sublist.append_left (List.sublist_cons_self _ _) left).trans h.sublist
  | asked task h => exact (List.sublist_append_right _ _).trans h.sublist

theorem Good.idle {s : BCURController} (hb : s.Base) (hnone : s.task = none)
    (hsub : s.pending.Sublist s.seen) : s.Good where
  base := hb
  phase := .idle hnone hsub
  single := by simp [hnone]
  waits := by simp [hnone]

theorem Good.unasked {s : BCURController} (hb : s.Base) {task : DecodeTask}
    {left new : List String} (h : s.Unasked task left new) : s.Good where
  base := hb
  phase := .unasked task left new h
  single := by simp [h.current, h.resolving]
  waits := by simp [h.current, h.prompt]

theorem not_sublist_swap {α : Type*} {l : List α} {a b : α} (h : l.Nodup)
    (hab : [a, b].Sublist l) : ¬ [b, a].Sublist l := by
  induction l with
  | nil => simp at hab
  | cons x l ih =>
      rw [List.nodup_cons] at h
      intro hba
      rw [List.cons_sublist_cons'] at hab hba
      rcases hab with hab | ⟨rfl, hb⟩
      · rcases hba with hba | ⟨rfl, _⟩
        · exact ih h.2 hab hba
        · exact h.1 (hab.subset (by simp))
      · rw [List.singleton_sublist] at hb
        rcases hba with hba | ⟨rfl, _⟩
        · exact h.1 (hba.subset (by simp))
        · exact h.1 hb

theorem partsOf_append {s s' : BCURController} {id : ℕ} {part : String}
    (h : s'.submitted = s.submitted ++ [(id, part)]) (other : ℕ) :
    s'.partsOf other = if id = other then s.partsOf other ++ [part] else s.partsOf other := by
  simp only [partsOf, h, List.filter_append, List.map_append]
  split_ifs with hid <;> simp [hid]

/-- A part that is submitted, by a task that has so far been given what came before. -/
theorem Base.submitted {s t : BCURController} (h : s.Base) {id : ℕ} {part : String}
    (hsubmitted : t.submitted = s.submitted ++ [(id, part)]) (hnodup : t.seen.Nodup)
    (hseen : s.seen.Sublist t.seen) (htasks : s.tasks ≤ t.tasks) (hid : id < t.tasks)
    (hpart : (s.partsOf id ++ [part]).Sublist t.seen)
    (hkept : ∀ data ∈ t.seen, isUR data = true →
      data ∈ s.submitted.map Prod.snd ∨ data = part ∨ data ∈ t.pending) : t.Base := by
  constructor
  · exact hnodup
  · intro submission hmem
    rw [hsubmitted] at hmem
    rcases List.mem_append.mp hmem with hold | hlast
    · exact Nat.lt_of_lt_of_le (h.ids submission hold) htasks
    · rw [List.mem_singleton.mp hlast]
      exact hid
  · intro other
    rw [partsOf_append hsubmitted]
    split_ifs with hsame
    · rw [← hsame]
      exact hpart
    · exact (h.ordered other).trans hseen
  · intro data hmem hur
    rw [hsubmitted, List.map_append, List.mem_append, List.map_singleton, List.mem_singleton,
      or_assoc]
    exact hkept data hmem hur

/-- A task that is still to come has been given nothing. -/
theorem Base.partsOf_tasks {s : BCURController} (h : s.Base) : s.partsOf s.tasks = [] := by
  have hnone : s.submitted.filter (fun submission => submission.1 = s.tasks) = [] := by
    rw [List.filter_eq_nil_iff]
    intro submission hmem
    have := h.ids submission hmem
    simp only [decide_eq_true_eq]
    omega
  rw [partsOf, hnone, List.map_nil]

section Next
variable {s : BCURController} {task : DecodeTask}

theorem next_unasked (htask : s.task = some task) (hprompt : task.prompt = none) :
    s.next = (s, []) := by
  rw [next]
  split
  · rename_i task' part pending htask' _
    rw [htask, Option.some.injEq] at htask'
    rw [← htask', hprompt]
    rfl
  · rfl

theorem next_nil (h : s.pending = []) : s.next = (s, []) := by
  rw [next]
  split
  · rename_i task part pending _ hpending
    rw [h] at hpending
    cases hpending
  · rfl

theorem next_cons (htask : s.task = some task) (hprompt : task.prompt.isSome = true)
    {part : String} {pending : List String} (h : s.pending = part :: pending) :
    s.next = (s.submit task part pending, [.resolve part]) := by
  simp only [next, htask, h, hprompt, if_true]

/-- A task that waits for nothing takes the next part, if there is one. -/
theorem good_next (hb : s.Base) (h : s.Lined task) (hresolving : task.resolving = 0) :
    s.next.1.Good := by
  cases hpending : s.pending with
  | nil =>
      rw [next_nil hpending]
      exact ⟨hb, .asked task h, by simp [h.current, hresolving], by simp [hpending]⟩
  | cons part pending =>
      rw [next_cons h.current h.prompt hpending]
      have hparts : (s.submit task part pending).partsOf task.id = s.partsOf task.id ++ [part] :=
        (partsOf_append rfl task.id).trans (if_pos rfl)
      have hline : (s.partsOf task.id ++ [part] ++ pending).Sublist s.seen := by
        rw [← List.append_cons, ← hpending]
        exact h.sublist
      refine ⟨?_, .asked { task with resolving := task.resolving + 1 } ?_, ?_, ?_⟩
      · apply hb.submitted (t := s.submit task part pending) rfl hb.nodup (List.Sublist.refl _)
          (Nat.le_refl _) h.id ((List.sublist_append_left _ _).trans hline)
        intro data hmem hur
        have hkept := hb.kept data hmem hur
        rwa [hpending, List.mem_cons] at hkept
      · exact ⟨rfl, h.prompt, h.stage, h.id, hparts ▸ hline⟩
      · simp [submit, hresolving]
      · simp [submit]

end Next

section Arrivals
variable {s : BCURController} {data : String}

theorem nodup_see (hb : s.Base) (hnew : data ∉ s.seen) : (s.seen ++ [data]).Nodup :=
  List.Nodup.append hb.nodup (List.nodup_singleton data) (by simpa using hnew)

theorem good_discard (h : s.Good) (hnew : data ∉ s.seen) (hur : isUR data = false) :
    (s.see data).dropTask.Good := by
  have hsub : s.pending.Sublist (s.seen ++ [data]) :=
    h.phase.pending_sublist.trans (List.sublist_append_left _ _)
  refine Good.idle (s := (s.see data).dropTask) ⟨nodup_see h.base hnew, h.base.ids, ?_, ?_⟩ rfl hsub
  · intro id
    exact (h.base.ordered id).trans (List.sublist_append_left _ _)
  · intro other hmem hother
    rcases List.mem_append.mp hmem with hold | hlast
    · exact h.base.kept other hold hother
    · rw [List.mem_singleton.mp hlast, hur] at hother
      cases hother

theorem good_create (hb : s.Base) (hsub : s.pending.Sublist s.seen) (hnew : data ∉ s.seen) :
    ((s.see data).create data).Good := by
  have hfirst : ((s.see data).create data).partsOf s.tasks = [data] := by
    rw [(partsOf_append (s := s) rfl s.tasks).trans (if_pos rfl), hb.partsOf_tasks,
      List.nil_append]
  have hunasked : ((s.see data).create data).Unasked { id := s.tasks, part := data } s.pending [] :=
    ⟨rfl, rfl, rfl, Nat.lt_succ_self _, hfirst, (List.append_nil _).symm, hsub.append_right _⟩
  apply Good.unasked _ hunasked
  apply hb.submitted rfl (nodup_see hb hnew) (List.sublist_append_left _ _) (Nat.le_succ _)
    (Nat.lt_succ_self _)
  · have hnone : s.partsOf (s.see data).tasks = [] := hb.partsOf_tasks
    rw [hnone]
    exact List.sublist_append_right _ _
  · intro other hmem hother
    have hkept := hb.kept other
    simp only [see, create, List.mem_append, List.mem_singleton] at hmem ⊢
    tauto

theorem base_enqueue (hb : s.Base) (hnew : data ∉ s.seen) : ((s.see data).enqueue data).Base := by
  refine ⟨nodup_see hb hnew, hb.ids, ?_, ?_⟩
  · intro id
    exact (hb.ordered id).trans (List.sublist_append_left _ _)
  · intro other hmem hother
    have hkept := hb.kept other
    simp only [see, enqueue, List.mem_append, List.mem_singleton] at hmem ⊢
    tauto

theorem unasked_enqueue {task : DecodeTask} {left new : List String}
    (h : s.Unasked task left new) :
    ((s.see data).enqueue data).Unasked task left (new ++ [data]) := by
  refine ⟨h.current, h.prompt, h.resolving, h.id, h.parts, ?_, ?_⟩
  · simp [see, enqueue, h.pending]
  · have hsub := h.sublist.append_right [data]
    rwa [List.append_assoc, List.cons_append] at hsub

theorem lined_enqueue {task : DecodeTask} (h : s.Lined task) :
    ((s.see data).enqueue data).Lined task := by
  refine ⟨h.current, h.prompt, h.stage, h.id, ?_⟩
  have hsub := h.sublist.append_right [data]
  rwa [List.append_assoc] at hsub

/-- A new part is taken, or waits. -/
theorem good_take (h : s.Good) (hnew : data ∉ s.seen)
    (hfree : ∀ task ∈ s.task, task.prompt.isSome = true → task.resolving = 0) :
    ((s.see data).take data).1.Good := by
  rw [take]
  cases h.phase with
  | idle hnone hsub =>
      have hidle : (s.see data).task.isSome = false := by simp [see, hnone]
      rw [hidle]
      exact good_create h.base hsub hnew
  | unasked task left new hu =>
      have hsome : (s.see data).task.isSome = true := by simp [see, hu.current]
      have henqueue : ((s.see data).enqueue data).Unasked task left (new ++ [data]) :=
        unasked_enqueue hu
      rw [if_pos hsome, next_unasked henqueue.current henqueue.prompt]
      exact Good.unasked (base_enqueue h.base hnew) henqueue
  | asked task hl =>
      have hsome : (s.see data).task.isSome = true := by simp [see, hl.current]
      rw [if_pos hsome]
      exact good_next (base_enqueue h.base hnew) (lined_enqueue hl)
        (hfree task hl.current hl.prompt)

theorem good_process (h : s.Good) (he : s.Orderly (.process data)) : (s.process data).1.Good := by
  rw [process]
  split_ifs with hdecoded hseen hur
  · exact h
  · exact h
  · exact good_take h hseen (he (Bool.eq_false_iff.mpr hdecoded) hseen hur)
  · exact good_discard h hseen (Bool.eq_false_iff.mpr hur)

end Arrivals

section Answers
variable {s : BCURController} {task : DecodeTask}

theorem Good.dropTask (h : s.Good) : s.dropTask.Good :=
  Good.idle (s := s.dropTask) (h.base.same rfl rfl rfl rfl) rfl h.phase.pending_sublist

theorem Good.decode (h : s.Good) (decoded : Bool) :
    Good { s.dropTask with decoded := decoded } :=
  Good.idle (s := { s.dropTask with decoded := decoded }) (h.base.same rfl rfl rfl rfl) rfl
    h.phase.pending_sublist

theorem showProgress_eq (s : BCURController) (task : DecodeTask) (method : String) (progress : Int) :
    ∃ shown, (s.showProgress task method progress).1 = { s with progress := shown } := by
  rw [showProgress, setProgress]
  split_ifs
  · exact ⟨s.progress, rfl⟩
  · exact ⟨progress, rfl⟩
  · exact ⟨s.progress, rfl⟩

theorem ask_eq (s : BCURController) (task : DecodeTask) (method : String) (progress : Int) :
    ∃ shown, (s.ask task method progress).1 = (BCURController.next
      { s with task := some { task with prompt := some method }, progress := shown }).1 := by
  obtain ⟨shown, hshown⟩ := showProgress_eq (s.withTask { task with prompt := some method }) task
    method progress
  exact ⟨shown, by rw [ask, thenNext, hshown]; rfl⟩

/-- A task that asks is given the first part of the queue. -/
theorem partsOf_ask {part : String} {pending : List String} (h : s.pending = part :: pending)
    (method : String) (progress : Int) :
    (s.ask task method progress).1.partsOf task.id = s.partsOf task.id ++ [part] ∧
      (s.ask task method progress).1.seen = s.seen := by
  obtain ⟨shown, hask⟩ := ask_eq s task method progress
  have hnext := next_cons
    (s := { s with task := some { task with prompt := some method }, progress := shown }) rfl rfl h
  rw [hask, hnext, (partsOf_append rfl _).trans (if_pos rfl)]
  exact ⟨rfl, rfl⟩

/-- A task with nothing outstanding that asks takes the next part. -/
theorem good_ask (hb : s.Base) {method : String} {progress : Int} (hstage : task.stage = .called)
    (hid : task.id < s.tasks) (hresolving : task.resolving = 0)
    (hsub : (s.partsOf task.id ++ s.pending).Sublist s.seen) :
    (s.ask task method progress).1.Good := by
  obtain ⟨shown, hask⟩ := ask_eq s task method progress
  rw [hask]
  have hline : Lined { s with task := some { task with prompt := some method }, progress := shown }
      { task with prompt := some method } := ⟨rfl, rfl, hstage, hid, hsub⟩
  exact good_next (hb.same rfl rfl rfl rfl) hline hresolving

/-- Where nothing is asked for, what is left to do after an answer drops the task, or has
it wait for the connection. -/
theorem good_answer {reply : DecodeReply} (hdrop : s.dropTask.Good) (hnext : s.next.1.Good)
    (hwait : reply = .notConnected → s.Good)
    (hask : ∀ method progress, reply = .resolveCode method progress →
      (s.ask task method progress).1.Good) : (s.answer task reply).1.Good := by
  cases reply with
  | failed => exact hdrop
  | notConnected => exact hwait rfl
  | error => exact hnext.dropTask
  | done decoded => exact hnext.decode decoded
  | resolveCode method progress => exact hask method progress rfl

theorem good_start (h : s.Good) (he : s.enabled .start) : s.start.Good := by
  obtain ⟨task, htask, hstage⟩ := he
  rw [Option.mem_def] at htask
  have hstart : s.start = s.withTask task.start := by rw [start, htask, Option.elim_some]
  rw [hstart]
  cases h.phase with
  | idle hnone _ =>
      rw [htask] at hnone
      cases hnone
  | unasked task' left new hu =>
      obtain rfl : task = task' := Option.some.inj (htask.symm.trans hu.current)
      have hstarted : (s.withTask task.start).Unasked task.start left new :=
        ⟨rfl, hu.prompt, hu.resolving, hu.id, hu.parts, hu.pending, hu.sublist⟩
      exact Good.unasked (h.base.same rfl rfl rfl rfl) hstarted
  | asked task' hl =>
      obtain rfl : task = task' := Option.some.inj (htask.symm.trans hl.current)
      rw [hl.stage] at hstage
      cases hstage

/-- The first answer to a task that was given its part, and finds nothing left before it. -/
theorem good_called (h : s.Good) {reply : DecodeReply} (he : s.enabled (.called reply))
    (hP : s.Orderly (.called reply)) : (s.called reply).1.Good := by
  obtain ⟨task, htask, hstage⟩ := he
  rw [Option.mem_def] at htask
  rw [called, htask, Option.elim_some]
  cases h.phase with
  | idle hnone _ =>
      rw [htask] at hnone
      cases hnone
  | asked task' hl =>
      obtain rfl : task = task' := Option.some.inj (htask.symm.trans hl.current)
      rw [hl.stage] at hstage
      cases hstage
  | unasked task' left new hu =>
      obtain rfl : task = task' := Option.some.inj (htask.symm.trans hu.current)
      have hbase : (s.withTask (task.called reply)).Base := h.base.same rfl rfl rfl rfl
      have hcalled : (s.withTask (task.called reply)).Unasked (task.called reply) left new :=
        ⟨rfl, hu.prompt, hu.resolving, hu.id, hu.parts, hu.pending, hu.sublist⟩
      have hgood : (s.withTask (task.called reply)).Good := Good.unasked hbase hcalled
      apply good_answer hgood.dropTask _ fun _ => hgood
      · rintro method progress rfl
        have hline : (task.part :: s.pending).Sublist s.seen := by
          cases left with
          | nil =>
              rw [hu.pending]
              exact hu.sublist
          | cons part left =>
              have hstale := hP task htask part (by simp [hu.pending])
              have hpair : [part, task.part].Sublist (part :: left ++ task.part :: new) := by
                simp
              exact (hstale (hpair.trans hu.sublist)).elim
        have hparts : (s.partsOf task.id ++ s.pending).Sublist s.seen := by
          rw [hu.parts]
          exact hline
        exact good_ask hbase rfl hu.id hcalled.resolving hparts
      · rw [next_unasked hcalled.current hcalled.prompt]
        exact hgood

theorem good_resolved (h : s.Good) {reply : DecodeReply} (he : s.enabled (.resolved reply)) :
    (s.resolved reply).1.Good := by
  obtain ⟨hreply, task, htask, hresolving⟩ := he
  rw [Option.mem_def] at htask
  rw [resolved, htask, Option.elim_some]
  cases h.phase with
  | idle hnone _ =>
      rw [htask] at hnone
      cases hnone
  | unasked task' left new hu =>
      obtain rfl : task = task' := Option.some.inj (htask.symm.trans hu.current)
      rw [hu.resolving] at hresolving
      cases hresolving
  | asked task' hl =>
      obtain rfl : task = task' := Option.some.inj (htask.symm.trans hl.current)
      have hzero : task.resolved.resolving = 0 := by
        have hsingle := h.single task htask
        have hminus : task.resolved.resolving = task.resolving - 1 := rfl
        omega
      have hbase : (s.withTask task.resolved).Base := h.base.same rfl rfl rfl rfl
      have hline : (s.withTask task.resolved).Lined task.resolved :=
        ⟨rfl, hl.prompt, hl.stage, hl.id, hl.sublist⟩
      have hdrop : (s.withTask task.resolved).dropTask.Good :=
        Good.idle (s := (s.withTask task.resolved).dropTask) (h.base.same rfl rfl rfl rfl) rfl
          h.phase.pending_sublist
      apply good_answer hdrop (good_next hbase hline hzero)
      · rintro rfl
        exact (hreply rfl).elim
      · rintro method progress rfl
        exact good_ask hbase hl.stage hl.id hzero hl.sublist

end Answers

theorem Good.handle {s : BCURController} (h : s.Good) {e : BCUREvent} (he : s.enabled e)
    (hP : s.Orderly e) : (s.handle e).1.Good := by
  cases e with
  | process data => exact good_process h hP
  | start => exact good_start h he
  | called reply => exact good_called h he hP
  | resolved reply => exact good_resolved h he

/-- A part that is not to wait makes for a second resolution. -/
theorem not_single_process {s : BCURController} {data : String}
    (hP : ¬ s.Orderly (.process data)) : ¬ (s.process data).1.OneByOne := by
  simp only [Orderly, not_forall] at hP
  obtain ⟨hdecoded, hnew, hur, task, htask, hprompt, hresolving⟩ := hP
  rw [Option.mem_def] at htask
  intro hnext
  have hsome : (s.see data).task.isSome = true := by simp [see, htask]
  rw [process, if_neg (Bool.eq_false_iff.mp hdecoded), if_neg hnew, if_pos hur, take,
    if_pos hsome] at hnext
  cases hpending : s.pending ++ [data] with
  | nil => simp at hpending
  | cons part pending =>
      have hcurrent : ((s.see data).enqueue data).task = some task := htask
      have hwaiting : ((s.see data).enqueue data).pending = part :: pending := hpending
      rw [next_cons hcurrent hprompt hwaiting] at hnext
      have hsingle := hnext.single { task with resolving := task.resolving + 1 } rfl
      have htwo : task.resolving + 1 ≤ 1 := hsingle
      omega

/-- A part that was left is given to the task after its own. -/
theorem not_ordered_called {s : BCURController} (h : s.Good) {method : String} {progress : Int}
    (he : s.enabled (.called (.resolveCode method progress)))
    (hP : ¬ s.Orderly (.called (.resolveCode method progress))) :
    ¬ (s.called (.resolveCode method progress)).1.OneByOne := by
  simp only [Orderly, not_forall, not_not] at hP
  obtain ⟨task, htask, part, hpart, hpair⟩ := hP
  rw [Option.mem_def] at htask hpart
  obtain ⟨other, hother, hstage⟩ := he
  rw [Option.mem_def, htask, Option.some.injEq] at hother
  subst hother
  have hparts : s.partsOf task.id = [task.part] := by
    cases h.phase with
    | idle hnone _ =>
        rw [htask] at hnone
        cases hnone
    | asked task' hl =>
        obtain rfl : task = task' := Option.some.inj (htask.symm.trans hl.current)
        rw [hl.stage] at hstage
        cases hstage
    | unasked task' left new hu =>
        obtain rfl : task = task' := Option.some.inj (htask.symm.trans hu.current)
        exact hu.parts
  cases hpending : s.pending with
  | nil =>
      rw [hpending] at hpart
      cases hpart
  | cons first pending =>
      obtain rfl : first = part := by
        rw [hpending] at hpart
        exact Option.some.inj hpart
      intro hnext
      rw [called, htask, Option.elim_some, answer] at hnext
      have hordered := hnext.ordered task.id
      obtain ⟨hgiven, hseen⟩ := @partsOf_ask (s.withTask (task.called (.resolveCode method progress)))
        (task.called (.resolveCode method progress)) first pending hpending method progress
      have hfirst : (s.partsOf task.id ++ [first]).Sublist s.seen := by
        rw [hseen] at hordered
        exact hgiven ▸ hordered
      rw [hparts] at hfirst
      exact not_sublist_swap h.base.nodup hpair hfirst

/-- A step keeps the order exactly when it is orderly. -/
theorem oneByOne_handle_iff {s : BCURController} (h : s.Good) {e : BCUREvent} (he : s.enabled e) :
    (s.handle e).1.OneByOne ↔ s.Orderly e := by
  constructor
  · intro hnext
    by_contra hP
    cases e with
    | process data => exact not_single_process hP hnext
    | start => exact hP trivial
    | resolved reply => exact hP trivial
    | called reply =>
        cases reply with
        | resolveCode method progress => exact not_ordered_called h he hP hnext
        | failed | notConnected | error | done => exact hP trivial
  · intro hP
    exact (h.handle he hP).oneByOne

theorem Good.initial : Good {} :=
  Good.idle (s := {}) (by constructor <;> simp [partsOf]) rfl (List.Sublist.refl _)

end BCURController

/-- In every state of a run the parts are submitted one by one, once and in the order of
arrival, exactly when every step of the run is orderly. -/
theorem oneByOne_always_iff {es : List BCUREvent} (hes : bcur.Valid {} es) :
    bcur.Always BCURController.OneByOne {} es ↔ bcur.Along BCURController.Orderly {} es := by
  apply Reactive.always_iff_along_of_keeps (J := BCURController.Good) (V := bcur.enabled)
  · intro s e hs he hP
    exact hs.handle he hP
  · intro s e hs he _
    exact BCURController.oneByOne_handle_iff hs he
  · exact .initial
  · exact BCURController.Good.initial.oneByOne
  · exact hes

/-- Each part is scanned when the one before has been resolved. -/
def inTurn : List BCUREvent :=
  [.process "ur:a", .start, .called (.resolveCode "data" 0), .process "ur:b",
    .resolved (.resolveCode "data" 50), .process "ur:c", .resolved (.done true)]

theorem oneByOne_always_iff_inTurn :
    bcur.Always BCURController.OneByOne {} inTurn ↔ bcur.Along BCURController.Orderly {} inTurn :=
  oneByOne_always_iff (by decide +kernel)

/-- The third part is scanned while the second one is being resolved. -/
theorem not_oneByOne_third :
    ¬ ∀ es : List BCUREvent, bcur.Valid {} es → bcur.Always BCURController.OneByOne {} es := by
  intro h
  have hall := h (inTurn.take 4 ++ [.process "ur:c"]) (by decide +kernel)
  have htask : (bcur.run {} (inTurn.take 4 ++ [.process "ur:c"])).task =
      some ⟨0, "ur:a", .called, some "data", 2⟩ := by decide +kernel
  exact absurd (hall.last.single _ htask) (by decide)

end GreenWallet.Controllers
