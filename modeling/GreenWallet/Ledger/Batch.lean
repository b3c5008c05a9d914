import Mathlib.Data.List.Basic
import GreenWallet.Library.Reactive

/-!
# Batches of commands

A batch has its commands executed one after the other: the `finished` signal of each calls
`exec` of the batch again, by way of the event loop, and its `error` signal is the batch's
own. A batch is a command too. When a command of a batch has finished, handlers of it may
add others to the batch.

The objects are known by their ids. A batch stays as it was constructed until it is first
executed, since only the commands that have been taken out of it have handlers that add to it.
-/
namespace GreenWallet.Ledger
open GreenWallet.Library

/-- A command object, with what handlers of its `finished` signal add to its batch. -/
inductive CommandObject where
  | leaf (id : ℕ) (appends : List CommandObject)
  | batch (id : ℕ) (commands : List CommandObject) (appends : List CommandObject)

namespace CommandObject

def id : CommandObject → ℕ
  | .leaf id _ => id
  | .batch id _ _ => id

def appends : CommandObject → List CommandObject
  | .leaf _ appends => appends
  | .batch _ _ appends => appends

end CommandObject

inductive BatchSignal where
  /-- `exec` of a command that is no batch. -/
  | ran (id : ℕ)
  | finished (id : ℕ)
  | error (id : ℕ)
deriving DecidableEq

structure Execution where
  /-- The `m_commands` of the batches that are not as they were constructed. -/
  m_commands : ℕ → Option (List CommandObject) := fun _ => none
  /-- Commands, by their ids, and the batches that their signals are connected to. -/
  connections : List (ℕ × CommandObject) := []
  /-- `next->exec()`, with which `exec` ends. -/
  call : Option CommandObject
  /-- The calls of `exec` that the event loop has to make. -/
  posted : List CommandObject := []
  /-- Commands that have been executed and have not ended. -/
  running : List CommandObject := []
  log : List BatchSignal := []

namespace Execution

/-- The batches that a signal of the command goes to. -/
def connected (s : Execution) (id : ℕ) : List CommandObject :=
  (s.connections.filter fun connection => connection.1 == id).map Prod.snd

/-- `CommandBatch::add`, for each of some commands. -/
def add (s : Execution) (batch : CommandObject) (commands : List CommandObject) : Execution :=
  let constructed := match batch with
    | .batch _ constructed _ => constructed
    | .leaf _ _ => []
  { s with
    m_commands := Function.update s.m_commands batch.id
      (some ((s.m_commands batch.id).getD constructed ++ commands)) }

/-- `emit finished()`: the handlers add to the batch, and its `exec` is queued. -/
def finish (s : Execution) (command : CommandObject) : Execution :=
  (s.connected command.id).foldl
    (fun s batch =>
      let s := s.add batch command.appends
      { s with posted := s.posted ++ [batch] })
    { s with log := s.log ++ [.finished command.id] }

/-- The batches that a signal `error` goes on to. What a batch is connected to was so before
the batch has connected its commands. -/
def errors : List (ℕ × CommandObject) → ℕ → List BatchSignal
  | [], _ => []
  | (child, batch) :: older, id =>
      (if child = id then .error batch.id :: errors older batch.id else []) ++ errors older id

/-- `emit error()`. -/
def fail (s : Execution) (command : CommandObject) : Execution :=
  { s with log := s.log ++ .error command.id :: errors s.connections command.id }

/-- `exec`, which ends with a call of the `exec` of the next command. -/
def exec (s : Execution) (command : CommandObject) : Execution :=
  match command with
  | .leaf id _ => { s with running := s.running ++ [command], log := s.log ++ [.ran id] }
  | .batch id constructed _ =>
      match (s.m_commands id).getD constructed with
      | [] => s.finish command
      | next :: rest =>
          { s with
            m_commands := Function.update s.m_commands id (some rest)
            connections := (next.id, command) :: s.connections
            call := some next }

end Execution

inductive BatchEvent where
  /-- The call with which an `exec` has ended is made. -/
  | call
  /-- The event loop makes the first call that has been queued. -/
  | deliver
  | finish (command : CommandObject)
  | error (command : CommandObject)

/-- Nothing happens until a call that has been reached is made. -/
def batches : Reactive Execution BatchEvent Empty where
  enabled s event :=
    match event with
    | .call => s.call ≠ none
    | .deliver => s.call = none ∧ s.posted ≠ []
    | .finish command => s.call = none ∧ command ∈ s.running
    | .error command => s.call = none ∧ command ∈ s.running
  next s event :=
    match event with
    | .call =>
        match s.call with
        | none => s
        | some command => { s with call := none }.exec command
    | .deliver =>
        match s.posted with
        | [] => s
        | batch :: rest => { s with posted := rest }.exec batch
    | .finish command =>
        { s with running := s.running.filter (fun other => other.id != command.id) }.finish command
    | .error command =>
        { s with running := s.running.filter (fun other => other.id != command.id) }.fail command
  emits _ _ := []

/-! ## The tree as it ends up -/

mutual
/-- How many commands there are, with those added by handlers. -/
def CommandObject.size : CommandObject → ℕ
  | .leaf _ appends => 1 + sizes appends
  | .batch _ commands appends => 1 + sizes commands + sizes appends

def sizes : List CommandObject → ℕ
  | [] => 0
  | command :: rest => command.size + sizes rest
end

@[simp] theorem sizes_append (commands more : List CommandObject) :
    sizes (commands ++ more) = sizes commands + sizes more := by
  induction commands with
  | nil => simp [sizes]
  | cons command commands ih => simp [sizes, ih, Nat.add_assoc]

mutual
def CommandObject.ids : CommandObject → List ℕ
  | .leaf id appends => id :: idsOf appends
  | .batch id commands appends => id :: (idsOf commands ++ idsOf appends)

def idsOf : List CommandObject → List ℕ
  | [] => []
  | command :: rest => command.ids ++ idsOf rest
end

/-- The commands of a batch in the end: what is added comes behind what is there. -/
def grown : List CommandObject → List CommandObject
  | [] => []
  | command :: rest => command :: grown (rest ++ command.appends)
termination_by commands => sizes commands
decreasing_by
  cases command <;> simp [sizes, CommandObject.size, CommandObject.appends] <;> omega

/-- The leaves, depth first and from left to right. -/
def leaves : List CommandObject → List ℕ
  | [] => []
  | .leaf id appends :: rest => id :: leaves (rest ++ appends)
  | .batch _ commands appends :: rest => leaves commands ++ leaves (rest ++ appends)
termination_by commands => sizes commands
decreasing_by
  all_goals
    simp [sizes, CommandObject.size]
    omega

/-- What is added by handlers stands behind the rest, in the order of the commands that have it
added. -/
theorem grown_eq (commands : List CommandObject) :
    grown commands = commands ++ (grown commands).flatMap CommandObject.appends := by
  induction commands using grown.induct with
  | case1 => simp [grown]
  | case2 command rest ih =>
      rw [grown, List.flatMap_cons, List.cons_append, List.cons_inj_right, ← List.append_assoc]
      exact ih

/-- The leaves of one command. -/
def CommandObject.leaves : CommandObject → List ℕ
  | .leaf id _ => [id]
  | .batch _ commands _ => Ledger.leaves commands

theorem leaves_cons (command : CommandObject) (rest : List CommandObject) :
    leaves (command :: rest) = command.leaves ++ leaves (rest ++ command.appends) := by
  cases command <;> rw [leaves] <;> rfl

/-- The leaves of a batch are those of its commands as they end up. -/
theorem leaves_eq_flatMap (commands : List CommandObject) :
    leaves commands = (grown commands).flatMap CommandObject.leaves := by
  induction commands using grown.induct with
  | case1 => simp [grown, leaves]
  | case2 command rest ih => rw [leaves_cons, grown, List.flatMap_cons, ih]

/-! ## What is to be shown of an execution -/

def ranIds (log : List BatchSignal) : List ℕ :=
  log.filterMap fun signal => match signal with
    | .ran id => some id
    | _ => none

/-- The batch is executed. -/
def Execution.start (root : CommandObject) : Execution where
  call := some root

/-- Leaves run one at a time, each once and in their order; the root finishes once, after all
of them; after an error no leaf runs, and the root has that error once and does not finish; if
nothing goes on any more, one of the two has come. -/
structure DepthFirst (root : CommandObject) (s : Execution) : Prop where
  alone : s.running.length ≤ 1
  ended : ∀ id ∈ ranIds s.log, .finished id ∈ s.log ∨ .error id ∈ s.log ∨
    id ∈ s.running.map CommandObject.id
  order : ranIds s.log <+: root.leaves
  once : (ranIds s.log).Nodup
  finishedOnce : s.log.count (.finished root.id) ≤ 1
  finishedLast : ∀ before after, s.log = before ++ .finished root.id :: after →
    ranIds before = root.leaves ∧ ∀ id ∈ root.leaves, .finished id ∈ before
  errorOnce : ∀ id, .error id ∈ s.log →
    s.log.count (.error root.id) = 1 ∧ .finished root.id ∉ s.log
  errorLast : ∀ before id after, s.log = before ++ .error id :: after → ranIds after = []
  complete : s.call = none → s.posted = [] → s.running = [] →
    .finished root.id ∈ s.log ∨ .error root.id ∈ s.log

end GreenWallet.Ledger
