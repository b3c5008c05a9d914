import Mathlib.Data.List.Nodup
import GreenWallet.Ledger.Queue

/-!
# Writes that fail

The two platforms differ in what they do when a report of a command cannot be written. A
command that is exchanged while nothing waits is written at once; the next one of the queue
is written when the one before it has been removed. The device answers what it has got in
full. A response that is an error ends its command like any other.
-/
namespace GreenWallet.Ledger
open GreenWallet.Library

inductive Platform where
  | linux
  | macos
deriving DecidableEq

inductive PortSignal where
  | exchanged (id : ℕ)
  /-- The command is put into the queue. -/
  | entered (id : ℕ)
  | ended (id : ℕ) (ending : Ending)
  | removed (id : ℕ)
deriving DecidableEq

structure Port where
  queue : List Command := []
  /-- Commands that the device has got in full and not answered. -/
  answerable : List ℕ := []
  /-- Commands that have been deleted here. -/
  deleted : List ℕ := []
  /-- Commands with a report that could not be written, or with an error for a response. -/
  failed : List ℕ := []
  log : List PortSignal := []

/-- All reports of the command are written; `writes` says which ones can be. -/
def Command.isWritten (command : Command) (writes : ℕ → Bool) : Bool :=
  (List.range (transport command.payload).length).all writes

namespace Port

def write (s : Port) (signals : List PortSignal) : Port := { s with log := s.log ++ signals }

/-- `DevicePrivateImpl::exchange`. On Linux it is only asserted that a report is written.
On macOS handlers of the error may exchange others, after which nothing is left to be done. -/
def exchange (platform : Platform) (s : Port) (command : Command) (writes : ℕ → Bool) : Port :=
  let s := s.write [.exchanged command.id]
  if s.queue.isEmpty then
    if command.isWritten writes then
      { s.write [.entered command.id] with
        queue := s.queue ++ [command]
        answerable := s.answerable ++ [command.id] }
    else
      match platform with
      | .linux =>
          { s.write [.entered command.id] with
            queue := s.queue ++ [command]
            failed := s.failed ++ [command.id] }
      | .macos =>
          { s.write [.ended command.id .error] with failed := s.failed ++ [command.id] }
  else { s.write [.entered command.id] with queue := s.queue ++ [command] }

/-- Handlers exchange commands while the queue is not empty. -/
def exchangeAll (platform : Platform) (s : Port) (calls : List Command) : Port :=
  calls.foldl (fun s command => s.exchange platform command fun _ => true) s

/-- The first command leaves the queue and the next one is written. If that fails it is
deleted on either platform; on macOS it emits an error before, and handlers exchange others. -/
def dequeue (platform : Platform) (s : Port) (writes : ℕ → Bool) (calls : List Command) : Port :=
  match s.queue with
  | [] => s
  | head :: rest =>
      let s := { s.write [.removed head.id] with queue := rest }
      match rest with
      | [] => s
      | next :: _ =>
          if next.isWritten writes then { s with answerable := s.answerable ++ [next.id] }
          else
            let s := { s with failed := s.failed ++ [next.id] }
            let s := match platform with
              | .linux => s
              | .macos => (s.write [.ended next.id .error]).exchangeAll platform calls
            { s with deleted := s.deleted ++ [next.id] }

/-- `DevicePrivateImpl::inputReport` with the last report of a response. -/
def inputReport (platform : Platform) (s : Port) (ending : Ending) (calls : List Command)
    (writes : ℕ → Bool) (failCalls : List Command) : Port :=
  match s.queue with
  | [] => s
  | head :: _ =>
      let s :=
        { s.write [.ended head.id ending] with
          failed := if ending = Ending.error then s.failed ++ [head.id] else s.failed }
      let s := s.exchangeAll platform calls
      let s :=
        if platform = .macos ∧ ending = .error then { s with deleted := s.deleted ++ [head.id] }
        else s
      s.dequeue platform writes failCalls

def exchangedIds (log : List PortSignal) : List ℕ :=
  log.filterMap fun signal => match signal with
    | .exchanged id => some id
    | _ => none

def enteredIds (log : List PortSignal) : List ℕ :=
  log.filterMap fun signal => match signal with
    | .entered id => some id
    | _ => none

def endedIds (log : List PortSignal) : List ℕ :=
  log.filterMap fun signal => match signal with
    | .ended id _ => some id
    | _ => none

def removedIds (log : List PortSignal) : List ℕ :=
  log.filterMap fun signal => match signal with
    | .removed id => some id
    | _ => none

end Port

inductive PortEvent where
  | exchange (command : Command) (writes : ℕ → Bool)
  /-- The device answers. Handlers exchange the `calls`, and the `failCalls` if the next
  command fails. -/
  | respond (ending : Ending) (calls : List Command) (writes : ℕ → Bool)
      (failCalls : List Command)

def port (platform : Platform) : Reactive Port PortEvent Empty where
  enabled s event :=
    match event with
    | .exchange command _ => command.id ∉ Port.exchangedIds s.log
    | .respond _ calls _ failCalls =>
        s.answerable ≠ [] ∧ ((calls ++ failCalls).map Command.id).Nodup ∧
          ∀ command ∈ calls ++ failCalls, command.id ∉ Port.exchangedIds s.log
  next s event :=
    match event with
    | .exchange command writes => s.exchange platform command writes
    | .respond ending calls writes failCalls =>
        { s with answerable := s.answerable.tail }.inputReport platform ending calls writes
          failCalls
  emits _ _ := []

namespace Port

/-- Every command that has been exchanged has ended, once, or waits; a command that has failed
has emitted an error; what has been in the queue and is not has been removed, once; nothing in
the queue has been deleted; and the first of it has been sent. -/
structure Survives (s : Port) : Prop where
  distinct : (exchangedIds s.log).Nodup
  accounted : (exchangedIds s.log).Perm (endedIds s.log ++ s.queue.map Command.id)
  errors : ∀ id ∈ s.failed, .ended id .error ∈ s.log
  removed : enteredIds s.log = removedIds s.log ++ s.queue.map Command.id
  alive : ∀ command ∈ s.queue, command.id ∉ s.deleted
  served : ∀ command ∈ s.queue.head?, command.id ∈ s.answerable

/-- The reports that are to be written can be; the first command of a queue on macOS may
fail. -/
def Written (platform : Platform) (s : Port) : PortEvent → Prop
  | .exchange command writes =>
      platform = .linux → s.queue = [] → command.isWritten writes = true
  | .respond _ calls writes _ =>
      ∀ next ∈ (s.queue.tail ++ calls).head?, next.isWritten writes = true

/-! ## What every step keeps while writes succeed -/

/-- All that is said of a port but for the device. -/
structure Orderly (s : Port) : Prop where
  distinct : (exchangedIds s.log).Nodup
  accounted : (exchangedIds s.log).Perm (endedIds s.log ++ s.queue.map Command.id)
  errors : ∀ id ∈ s.failed, .ended id .error ∈ s.log
  removed : enteredIds s.log = removedIds s.log ++ s.queue.map Command.id
  deleted : ∀ id ∈ s.deleted, id ∈ endedIds s.log

/-- The device has got the first of the queue and nothing else. -/
def InTurn (s : Port) : Prop := s.answerable = (s.queue.head?.map Command.id).toList

theorem Orderly.survives {s : Port} (h : s.Orderly) (hturn : s.InTurn) : s.Survives where
  distinct := h.distinct
  accounted := h.accounted
  errors := h.errors
  removed := h.removed
  alive := by
    intro command hcommand hdeleted
    have hnodup := h.accounted.nodup h.distinct
    exact (List.disjoint_of_nodup_append hnodup) (h.deleted _ hdeleted)
      (List.mem_map_of_mem hcommand)
  served := by
    intro command hcommand
    rw [hturn, Option.mem_def.mp hcommand]
    exact List.mem_singleton_self _

section
variable (log more : List PortSignal)

@[simp] theorem exchangedIds_append :
    exchangedIds (log ++ more) = exchangedIds log ++ exchangedIds more := List.filterMap_append

@[simp] theorem enteredIds_append :
    enteredIds (log ++ more) = enteredIds log ++ enteredIds more := List.filterMap_append

@[simp] theorem endedIds_append : endedIds (log ++ more) = endedIds log ++ endedIds more :=
  List.filterMap_append

@[simp] theorem removedIds_append :
    removedIds (log ++ more) = removedIds log ++ removedIds more := List.filterMap_append

end

/-- What is logged of commands that are exchanged while others wait. -/
def waits (calls : List Command) : List PortSignal :=
  calls.flatMap fun command => [.exchanged command.id, .entered command.id]

section
variable (calls : List Command)

theorem exchangedIds_waits : exchangedIds (waits calls) = calls.map Command.id := by
  induction calls with
  | nil => rfl
  | cons command calls ih => exact congrArg (command.id :: ·) ih

theorem enteredIds_waits : enteredIds (waits calls) = calls.map Command.id := by
  induction calls with
  | nil => rfl
  | cons command calls ih => exact congrArg (command.id :: ·) ih

theorem endedIds_waits : endedIds (waits calls) = [] := by
  induction calls with
  | nil => rfl
  | cons command calls ih => exact ih

theorem removedIds_waits : removedIds (waits calls) = [] := by
  induction calls with
  | nil => rfl
  | cons command calls ih => exact ih

end

variable {platform : Platform} {s : Port}

theorem mem_endedIds {id : ℕ} {ending : Ending} (h : .ended id ending ∈ s.log) :
    id ∈ endedIds s.log := List.mem_filterMap.mpr ⟨_, h, rfl⟩

/-- Commands that are exchanged while others wait only enter the queue. -/
theorem exchangeAll_eq (hqueue : s.queue ≠ []) (calls : List Command) :
    s.exchangeAll platform calls =
      { s with queue := s.queue ++ calls, log := s.log ++ waits calls } := by
  induction calls generalizing s with
  | nil => simp [exchangeAll, waits]
  | cons command calls ih =>
      have hwaits : waits (command :: calls) =
          .exchanged command.id :: .entered command.id :: waits calls := rfl
      have hexchange : s.exchange platform command (fun _ => true) =
          { s with
            queue := s.queue ++ [command]
            log := s.log ++ [.exchanged command.id] ++ [.entered command.id] } := by
        cases hs : s.queue with
        | nil => exact absurd hs hqueue
        | cons head rest => simp [exchange, write, hs]
      have hstep : s.exchangeAll platform (command :: calls) =
          (s.exchange platform command fun _ => true).exchangeAll platform calls := rfl
      rw [hstep, hexchange, ih (List.append_ne_nil_of_right_ne_nil _ (List.cons_ne_nil _ _)),
        hwaits]
      simp

/-- Commands that are new go to the end of the queue. -/
theorem Orderly.entered (h : s.Orderly) {calls : List Command}
    (hnodup : (calls.map Command.id).Nodup)
    (hfresh : ∀ command ∈ calls, command.id ∉ exchangedIds s.log) :
    Orderly { s with queue := s.queue ++ calls, log := s.log ++ waits calls } where
  distinct := by
    rw [exchangedIds_append, exchangedIds_waits, List.nodup_append]
    refine ⟨h.distinct, hnodup, ?_⟩
    intro id hid other hother hsame
    obtain ⟨command, hcommand, rfl⟩ := List.mem_map.mp hother
    exact hfresh command hcommand (hsame ▸ hid)
  accounted := by
    rw [exchangedIds_append, exchangedIds_waits, endedIds_append, endedIds_waits, List.append_nil,
      List.map_append, ← List.append_assoc]
    exact h.accounted.append_right _
  errors := fun id hid => List.mem_append_left _ (h.errors id hid)
  removed := by
    rw [enteredIds_append, enteredIds_waits, removedIds_append, removedIds_waits, List.append_nil,
      List.map_append, h.removed, List.append_assoc]
  deleted := by
    intro id hid
    rw [endedIds_append]
    exact List.mem_append_left _ (h.deleted id hid)

/-! ## Exchanging a command -/

theorem exchange_waiting (hqueue : s.queue ≠ []) (command : Command) (writes : ℕ → Bool) :
    s.exchange platform command writes =
      { s with queue := s.queue ++ [command], log := s.log ++ waits [command] } := by
  cases hs : s.queue with
  | nil => exact absurd hs hqueue
  | cons head rest => simp [exchange, write, hs, waits]

theorem InTurn.append (h : s.InTurn) (hqueue : s.queue ≠ []) (calls : List Command)
    (log : List PortSignal) : InTurn { s with queue := s.queue ++ calls, log := log } := by
  have hhead : (s.queue ++ calls).head? = s.queue.head? := by
    cases hs : s.queue with
    | nil => exact absurd hs hqueue
    | cons head rest => rfl
  rw [InTurn, hhead]
  exact h

theorem Orderly.exchange (h : s.Orderly) (hturn : s.InTurn) {command : Command}
    (hfresh : command.id ∉ exchangedIds s.log) {writes : ℕ → Bool}
    (hwritten : Written platform s (.exchange command writes)) :
    (s.exchange platform command writes).Orderly ∧
      (s.exchange platform command writes).InTurn := by
  have hone : ([command].map Command.id).Nodup := List.nodup_singleton _
  have hnew : ∀ other ∈ [command], other.id ∉ exchangedIds s.log := by
    intro other hother
    rwa [List.mem_singleton.mp hother]
  by_cases hqueue : s.queue = []
  · have hidle : s.answerable = [] := by rw [hturn, hqueue]; rfl
    by_cases hwrites : command.isWritten writes = true
    · have hexchange : s.exchange platform command writes =
          { s with
            queue := s.queue ++ [command]
            answerable := [command.id]
            log := s.log ++ waits [command] } := by
        simp [Port.exchange, write, hqueue, hwrites, hidle, waits]
      have hentered := h.entered hone hnew
      rw [hexchange]
      refine ⟨⟨hentered.distinct, hentered.accounted, hentered.errors, hentered.removed,
        hentered.deleted⟩, ?_⟩
      rw [InTurn, hqueue]
      rfl
    · have hmacos : platform = .macos := by
        cases platform with
        | linux => exact absurd (hwritten rfl hqueue) hwrites
        | macos => rfl
      have hexchange : s.exchange platform command writes =
          { s with
            failed := s.failed ++ [command.id]
            log := s.log ++ [.exchanged command.id, .ended command.id .error] } := by
        simp [Port.exchange, write, hqueue, hwrites, hmacos]
      rw [hexchange]
      refine ⟨⟨?_, ?_, ?_, ?_, ?_⟩, hturn⟩
      · rw [exchangedIds_append]
        exact List.concat_eq_append ▸ h.distinct.concat hfresh
      · have haccounted := h.accounted
        rw [hqueue, List.map_nil, List.append_nil] at haccounted
        simpa [exchangedIds, endedIds, hqueue] using haccounted.append_right [command.id]
      · intro id hid
        rcases List.mem_append.mp hid with hold | hlast
        · exact List.mem_append_left _ (h.errors id hold)
        · rw [List.mem_singleton.mp hlast]
          simp
      · simpa [enteredIds, removedIds] using h.removed
      · intro id hid
        rw [endedIds_append]
        exact List.mem_append_left _ (h.deleted id hid)
  · rw [exchange_waiting hqueue]
    exact ⟨h.entered hone hnew, hturn.append hqueue [command] _⟩

/-- On Linux a command of which a report cannot be written is left in the queue and emits
nothing. -/
theorem exchange_lost (h : s.Orderly) {command : Command}
    (hfresh : command.id ∉ exchangedIds s.log) {writes : ℕ → Bool}
    (hsurvives : (s.exchange platform command writes).Survives) :
    Written platform s (.exchange command writes) := by
  intro hlinux hqueue
  by_contra hwrites
  have hexchange : s.exchange platform command writes =
      { s with
        queue := s.queue ++ [command]
        failed := s.failed ++ [command.id]
        log := s.log ++ [.exchanged command.id, .entered command.id] } := by
    simp [Port.exchange, write, hqueue, hwrites, hlinux]
  have herror := hsurvives.errors command.id
  rw [hexchange] at herror
  have hold : .ended command.id .error ∈ s.log := by
    simpa using herror (List.mem_append_right _ (List.mem_singleton_self _))
  apply hfresh
  rw [h.accounted.mem_iff]
  exact List.mem_append_left _ (mem_endedIds hold)

/-! ## The end of a response -/

/-- The port when the first command has left the queue and the next one has not been written. -/
def ended (platform : Platform) (s : Port) (head : Command) (rest : List Command)
    (ending : Ending) (calls : List Command) : Port where
  queue := rest ++ calls
  answerable := []
  deleted :=
    if platform = .macos ∧ ending = .error then s.deleted ++ [head.id] else s.deleted
  failed := if ending = .error then s.failed ++ [head.id] else s.failed
  log := s.log ++ [.ended head.id ending] ++ waits calls ++ [.removed head.id]

section
variable (head : Command) (rest : List Command) (ending : Ending) (calls : List Command)

theorem exchangedIds_ended : exchangedIds (ended platform s head rest ending calls).log =
    exchangedIds (s.log ++ waits calls) := by
  simp [ended, exchangedIds]

theorem endedIds_ended : endedIds (ended platform s head rest ending calls).log =
    endedIds s.log ++ [head.id] := by
  rw [ended, endedIds_append, endedIds_append, endedIds_append, endedIds_waits]
  simp [endedIds]

theorem mem_deleted_ended {id : ℕ}
    (h : id ∈ (ended platform s head rest ending calls).deleted) :
    id ∈ s.deleted ∨ id = head.id := by
  simp only [ended] at h
  split_ifs at h
  · simpa using h
  · exact .inl h

theorem mem_failed_ended {id : ℕ} (h : id ∈ (ended platform s head rest ending calls).failed) :
    id ∈ s.failed ∨ id = head.id ∧ ending = .error := by
  simp only [ended] at h
  split_ifs at h with herror
  · simpa [herror] using h
  · exact .inl h

end

theorem Orderly.ended (h : s.Orderly) {head : Command} {rest : List Command}
    (hqueue : s.queue = head :: rest) {ending : Ending} {calls : List Command}
    (hnodup : (calls.map Command.id).Nodup)
    (hfresh : ∀ command ∈ calls, command.id ∉ exchangedIds s.log) :
    (ended platform s head rest ending calls).Orderly := by
  have hentered := h.entered hnodup hfresh
  have haccounted := hentered.accounted
  have hremoved := hentered.removed
  rw [hqueue] at haccounted hremoved
  refine ⟨?_, ?_, ?_, ?_, ?_⟩
  · rw [exchangedIds_ended]
    exact hentered.distinct
  · rw [exchangedIds_ended, endedIds_ended, List.append_assoc]
    simpa [Port.ended, endedIds_waits] using haccounted
  · intro id hid
    rcases mem_failed_ended head rest ending calls hid with hold | ⟨rfl, rfl⟩
    · simp [Port.ended, h.errors id hold]
    · simp [Port.ended]
  · simpa [Port.ended, enteredIds, removedIds, enteredIds_waits, removedIds_waits] using hremoved
  · intro id hid
    rw [endedIds_ended]
    rcases mem_deleted_ended head rest ending calls hid with hold | rfl
    · exact List.mem_append_left _ (h.deleted id hold)
    · exact List.mem_append_right _ (List.mem_singleton_self _)

/-- What `dequeue` does when the first command has left the queue. -/
def next (platform : Platform) (s : Port) (writes : ℕ → Bool) (calls : List Command) : Port :=
  match s.queue with
  | [] => s
  | next :: _ =>
      if next.isWritten writes then { s with answerable := s.answerable ++ [next.id] }
      else
        let s := { s with failed := s.failed ++ [next.id] }
        let s := match platform with
          | .linux => s
          | .macos => (s.write [.ended next.id .error]).exchangeAll platform calls
        { s with deleted := s.deleted ++ [next.id] }

theorem dequeue_eq {head : Command} {rest : List Command} (hqueue : s.queue = head :: rest)
    (writes : ℕ → Bool) (calls : List Command) :
    s.dequeue platform writes calls =
      next platform { s.write [.removed head.id] with queue := rest } writes calls := by
  rw [dequeue, hqueue]
  cases rest <;> rfl

theorem inputReport_eq {head : Command} {rest : List Command} (hqueue : s.queue = head :: rest)
    (hturn : s.InTurn) (ending : Ending) (calls : List Command) (writes : ℕ → Bool)
    (failCalls : List Command) :
    { s with answerable := s.answerable.tail }.inputReport platform ending calls writes failCalls =
      next platform (ended platform s head rest ending calls) writes failCalls := by
  have htail : s.answerable.tail = [] := by
    rw [hturn, hqueue]
    rfl
  obtain ⟨queue, answerable, deleted, failed, log⟩ := s
  cases hqueue
  rw [inputReport]
  simp only [htail]
  rw [exchangeAll_eq (List.cons_ne_nil head rest)]
  have hdequeue (t : Port) (ht : t.queue = head :: (rest ++ calls)) :
      t.dequeue platform writes failCalls =
        next platform { t.write [.removed head.id] with queue := rest ++ calls } writes failCalls :=
    dequeue_eq ht writes failCalls
  rw [hdequeue]
  · congr 1
    by_cases hmacos : platform = .macos ∧ ending = .error
    · simp [ended, write, hmacos]
    · simp [ended, write, hmacos]
  · split_ifs <;> rfl

theorem next_written {first : Command} {rest : List Command} {writes : ℕ → Bool}
    (hqueue : s.queue = first :: rest) (hwrites : first.isWritten writes = true)
    (calls : List Command) :
    next platform s writes calls = { s with answerable := s.answerable ++ [first.id] } := by
  rw [next]
  simp only [hqueue, hwrites, if_true]

/-- A next command of which a report cannot be written is deleted, and stays in the queue. -/
theorem next_unwritten {first : Command} {rest : List Command} {writes : ℕ → Bool}
    (hqueue : s.queue = first :: rest) (hwrites : ¬ first.isWritten writes = true)
    (calls : List Command) :
    first ∈ (next platform s writes calls).queue ∧
      first.id ∈ (next platform s writes calls).deleted := by
  obtain ⟨queue, answerable, deleted, failed, log⟩ := s
  cases hqueue
  rw [next]
  simp only [hwrites, if_false, Bool.false_eq_true]
  cases platform with
  | linux => exact ⟨List.mem_cons_self, List.mem_append_right _ (List.mem_singleton_self _)⟩
  | macos =>
      simp only [write]
      rw [exchangeAll_eq (List.cons_ne_nil first rest)]
      exact ⟨List.mem_cons_self, List.mem_append_right _ (List.mem_singleton_self _)⟩

theorem Orderly.next (h : s.Orderly) (hidle : s.answerable = []) {writes : ℕ → Bool}
    {calls : List Command}
    (hwritten : ∀ first ∈ s.queue.head?, first.isWritten writes = true) :
    (next platform s writes calls).Orderly ∧ (next platform s writes calls).InTurn := by
  cases hqueue : s.queue with
  | nil =>
      have hsame : Port.next platform s writes calls = s := by rw [Port.next, hqueue]
      rw [hsame, InTurn, hidle, hqueue]
      exact ⟨h, rfl⟩
  | cons first rest =>
      have hfirst : first.isWritten writes = true := hwritten first (by rw [hqueue]; rfl)
      rw [next_written hqueue hfirst, InTurn, hidle, hqueue]
      refine ⟨⟨h.distinct, ?_, h.errors, ?_, h.deleted⟩, rfl⟩
      · exact hqueue ▸ h.accounted
      · exact hqueue ▸ h.removed

theorem next_lost {writes : ℕ → Bool} {calls : List Command}
    (hsurvives : (next platform s writes calls).Survives) :
    ∀ first ∈ s.queue.head?, first.isWritten writes = true := by
  intro first hfirst
  by_contra hwrites
  cases hqueue : s.queue with
  | nil =>
      rw [hqueue] at hfirst
      cases hfirst
  | cons other rest =>
      rw [hqueue] at hfirst
      obtain rfl : other = first := Option.some_inj.mp hfirst
      have hdangling : other ∈ (next platform s writes calls).queue ∧
          other.id ∈ (next platform s writes calls).deleted := next_unwritten hqueue hwrites calls
      exact hsurvives.alive other hdangling.1 hdangling.2

/-- A step that finds everything in order leaves it so if what it writes can be written, and
only then. -/
theorem survives_step {event : PortEvent} (h : s.Orderly) (hturn : s.InTurn)
    (henabled : (port platform).enabled s event) :
    (((port platform).next s event).Survives ↔ Written platform s event) ∧
      (Written platform s event → ((port platform).next s event).Orderly ∧
        ((port platform).next s event).InTurn) := by
  cases event with
  | exchange command writes =>
      have hkept (hwritten : Written platform s (.exchange command writes)) :=
        h.exchange hturn henabled hwritten
      refine ⟨⟨exchange_lost h henabled, fun hwritten => ?_⟩, hkept⟩
      exact (hkept hwritten).1.survives (hkept hwritten).2
  | respond ending calls writes failCalls =>
      obtain ⟨hanswerable, hnodup, hfresh⟩ := henabled
      rw [List.map_append] at hnodup
      cases hqueue : s.queue with
      | nil =>
          rw [hturn, hqueue] at hanswerable
          exact absurd rfl hanswerable
      | cons head rest =>
          have hnext : (port platform).next s (.respond ending calls writes failCalls) =
              next platform (ended platform s head rest ending calls) writes failCalls :=
            inputReport_eq hqueue hturn ending calls writes failCalls
          have hended : (ended platform s head rest ending calls).Orderly :=
            h.ended hqueue hnodup.of_append_left fun command hcommand =>
              hfresh command (List.mem_append_left _ hcommand)
          have hwritten : Written platform s (.respond ending calls writes failCalls) ↔
              ∀ first ∈ (ended platform s head rest ending calls).queue.head?,
                first.isWritten writes = true := by
            rw [Written, hqueue]
            rfl
          rw [hnext, hwritten]
          refine ⟨⟨next_lost, fun hw => ?_⟩, hended.next rfl⟩
          exact (hended.next rfl hw).1.survives (hended.next rfl hw).2

end Port

/-- The queue survives exactly while the reports that are to be written can be; errors that the
device returns do no harm, and on macOS a first command may fail. -/
theorem survivesFailures_iff (platform : Platform) {events : List PortEvent}
    (hevents : (port platform).Valid {} events) :
    (port platform).Always Port.Survives {} events ↔
      (port platform).Along (Port.Written platform) {} events := by
  apply Reactive.always_iff_along_of_keeps (J := fun s => s.Orderly ∧ s.InTurn)
    (V := (port platform).enabled)
  · intro s event hs henabled hwritten
    exact (Port.survives_step hs.1 hs.2 henabled).2 hwritten
  · intro s event hs henabled _
    exact (Port.survives_step hs.1 hs.2 henabled).1
  · exact ⟨⟨List.nodup_nil, List.Perm.nil, by simp, rfl, by simp⟩, rfl⟩
  · exact ⟨List.nodup_nil, List.Perm.nil, by simp, rfl, by simp, by simp⟩
  · exact hevents

instance (platform : Platform) (s : Port) :
    ∀ event, Decidable ((port platform).enabled s event)
  | .exchange _ _ => inferInstanceAs (Decidable (_ ∉ _))
  | .respond _ _ _ _ => inferInstanceAs (Decidable (_ ∧ _ ∧ _))

def twoCommands (first second : ℕ → Bool) : List PortEvent :=
  [.exchange (firmwareCommand 0) first, .exchange (firmwareCommand 1) fun _ => true,
    .respond .error [] second []]

theorem survivesFailures_iff_error :
    (port .linux).Always Port.Survives {} (twoCommands (fun _ => true) fun _ => true) ↔
      (port .linux).Along (Port.Written .linux) {} (twoCommands (fun _ => true) fun _ => true) :=
  survivesFailures_iff .linux (by decide +kernel)

/-- The only report of a first command, or of a next one, cannot be written. -/
theorem not_survivesFailures :
    ((port .linux).Valid {} [.exchange (firmwareCommand 0) fun _ => false] ∧
      ¬ (port .linux).Always Port.Survives {} [.exchange (firmwareCommand 0) fun _ => false]) ∧
    ∀ platform, (port platform).Valid {} (twoCommands (fun _ => true) fun _ => false) ∧
      ¬ (port platform).Always Port.Survives {} (twoCommands (fun _ => true) fun _ => false) := by
  refine ⟨⟨by decide +kernel, fun h => ?_⟩, fun platform => ⟨?_, fun h => ?_⟩⟩
  · exact absurd (h.last.errors 0) (by decide +kernel)
  · cases platform <;> decide +kernel
  · have hgone := h.last.alive
    cases platform <;> exact absurd hgone (by decide +kernel)

end GreenWallet.Ledger
