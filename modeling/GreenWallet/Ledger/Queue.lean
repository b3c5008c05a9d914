import Mathlib.Data.List.Nodup
import GreenWallet.Library.Reactive
import GreenWallet.Ledger.Framing

/-!
# The queue of a device

Commands wait in a queue, and the first of it is the one that the device has been sent. It
stays there while its response is read and while its handlers run, which may queue others;
only then it is removed and the next one is sent. The device answers what it is sent, with
one response for each command; writes succeed.
-/
namespace GreenWallet.Ledger
open GreenWallet.Library

/-- What `readAPDUResponse` emits. -/
inductive Ending where
  | finished
  | error
deriving DecidableEq

structure Command where
  id : ℕ
  payload : Bytes
  parse : Bytes → Bool
  reader : DeviceCommand := {}

/-- A response that cannot be parsed ends the command without a signal. -/
def Command.readAPDUResponse (command : Command) (stream : Bytes) : Option Ending :=
  let response := stream.take (stream.length - 2)
  let sw := (readUInt16 (stream.drop (stream.length - 2))).1
  if sw ≠ 0x9000 then some .error
  else if command.parse response then some .finished
  else none

/-- What can be seen of the commands. -/
inductive Traffic where
  | queued (id : ℕ)
  | sent (id : ℕ) (reports : List Bytes)
  /-- A report of the answer to one command is given to a command. -/
  | delivered (id answered : ℕ)
  | ended (id : ℕ) (ending : Ending)
  | removed (id : ℕ)
  /-- There is no command to give the report to. -/
  | unknown (answered : ℕ)
  /-- An assertion about the report fails. -/
  | aborted (id : ℕ)

def queuedIds (log : List Traffic) : List ℕ :=
  log.filterMap fun traffic => match traffic with
    | .queued id => some id
    | _ => none

def sentIds (log : List Traffic) : List ℕ :=
  log.filterMap fun traffic => match traffic with
    | .sent id _ => some id
    | _ => none

def endedIds (log : List Traffic) : List ℕ :=
  log.filterMap fun traffic => match traffic with
    | .ended id _ => some id
    | _ => none

def removedIds (log : List Traffic) : List ℕ :=
  log.filterMap fun traffic => match traffic with
    | .removed id => some id
    | _ => none

/-- What has been written, with the command it is of. -/
def writes (log : List Traffic) : List (ℕ × List Bytes) :=
  log.filterMap fun traffic => match traffic with
    | .sent id reports => some (id, reports)
    | _ => none

/-- Who has been given a report, and which command it answers. -/
def deliveries (log : List Traffic) : List (ℕ × ℕ) :=
  log.filterMap fun traffic => match traffic with
    | .delivered id answered => some (id, answered)
    | _ => none

/-- The queue, and the device at the other end. -/
structure Line where
  queue : List Command := []
  /-- Commands that the device has got and not answered. -/
  unanswered : List ℕ := []
  /-- Reports on their way, each with the command it answers. -/
  incoming : List (ℕ × Bytes) := []
  log : List Traffic := []

namespace Line

def write (s : Line) (traffic : List Traffic) : Line := { s with log := s.log ++ traffic }

def send (s : Line) (command : Command) : Line :=
  { s with
    unanswered := s.unanswered ++ [command.id]
    log := s.log ++ [.sent command.id ((transport command.payload).map fun packet => 0 :: packet)] }

/-- `DevicePrivateImpl::exchange`. -/
def exchange (s : Line) (command : Command) : Line :=
  let s := s.write [.queued command.id]
  let s := if s.queue.isEmpty then s.send command else s
  { s with queue := s.queue ++ [command] }

/-- The first command leaves the queue and the next one is sent. -/
def dequeue (s : Line) : Line :=
  match s.queue with
  | [] => s
  | head :: rest =>
      let s := { s.write [.removed head.id] with queue := rest }
      match rest with
      | [] => s
      | next :: _ => s.send next

/-- `DevicePrivateImpl::inputReport`; a handler of the ending exchanges the `calls`. -/
def inputReport (s : Line) (answered : ℕ) (data : Bytes) (calls : List Command) : Line :=
  match s.queue with
  | [] => s.write [.unknown answered]
  | head :: rest =>
      let s := s.write [.delivered head.id answered]
      match head.reader.readHIDReport data with
      | none => s.write [.aborted head.id]
      | some (reader, .more) => { s with queue := { head with reader := reader } :: rest }
      | some (reader, .response response) =>
          let s := { s with queue := { head with reader := reader } :: rest }
          match head.readAPDUResponse response with
          | none => s.dequeue
          | some ending => (calls.foldl exchange (s.write [.ended head.id ending])).dequeue

end Line

inductive LineEvent where
  | exchange (command : Command)
  | answer (response : Bytes)
  | inputReport (calls : List Command)

/-- A command that has not been queued before. -/
def Command.Fresh (s : Line) (command : Command) : Prop :=
  command.id ∉ queuedIds s.log ∧ command.reader.buf = []

def line : Reactive Line LineEvent Empty where
  enabled s event :=
    match event with
    | .exchange command => command.Fresh s
    | .answer response => s.unanswered ≠ [] ∧ 2 ≤ response.length ∧ response.length ≤ 65535
    | .inputReport calls =>
        s.incoming ≠ [] ∧ (calls.map Command.id).Nodup ∧ ∀ command ∈ calls, command.Fresh s
  next s event :=
    match event with
    | .exchange command => s.exchange command
    | .answer response =>
        match s.unanswered with
        | [] => s
        | id :: rest =>
            { s with
              unanswered := rest
              incoming := s.incoming ++ (transport response).map fun report => (id, report) }
    | .inputReport calls =>
        match s.incoming with
        | [] => s
        | (answered, data) :: rest =>
            { s with incoming := rest }.inputReport answered data calls
  emits _ _ := []

/-! ## What happens in a run -/

/-- What is to be written of a command. -/
def Command.write (command : Command) : ℕ × List Bytes :=
  (command.id, (transport command.payload).map fun packet => 0 :: packet)

/-- The next report ends the command that is first in the queue, with a signal to its handlers. -/
def Line.signals (s : Line) : Bool :=
  match s.queue, s.incoming with
  | head :: _, (_, data) :: _ =>
      match head.reader.readHIDReport data with
      | some (_, .response response) => (head.readAPDUResponse response).isSome
      | _ => false
  | _, _ => false

/-- The commands that are exchanged with an event. Handlers exchange theirs if they are called. -/
def Line.exchanged (s : Line) : LineEvent → List Command
  | .exchange command => [command]
  | .answer _ => []
  | .inputReport calls => if s.signals then calls else []

/-- The reports that come with an event, by the commands they answer. -/
def Line.answers (s : Line) : LineEvent → List ℕ
  | .inputReport _ => (s.incoming.take 1).map Prod.fst
  | .exchange _ | .answer _ => []

/-- The commands that are exchanged in a run. -/
def commandsOf (events : List LineEvent) : List Command :=
  (line.trace {} events).flatMap fun (s, event, _) => s.exchanged event

/-- The reports that come in a run. -/
def answersOf (events : List LineEvent) : List ℕ :=
  (line.trace {} events).flatMap fun (s, event, _) => s.answers event

/-! ## The discipline -/

/-- Whose turn it is on the device. -/
inductive Turn where
  | idle
  | awaiting (id : ℕ)
  | ended (id : ℕ)
deriving DecidableEq

/-- A command is sent when no other is out, gets the reports that answer it, ends at most
once and is removed. -/
def Turn.next : Turn → Traffic → Option Turn
  | turn, .queued _ => some turn
  | .idle, .sent id _ => some (.awaiting id)
  | .awaiting id, .delivered other answered =>
      if other = id ∧ answered = id then some (.awaiting id) else none
  | .awaiting id, .ended other _ => if other = id then some (.ended id) else none
  | .awaiting id, .removed other => if other = id then some .idle else none
  | .ended id, .removed other => if other = id then some .idle else none
  | _, _ => none

def Turn.run : Turn → List Traffic → Option Turn
  | turn, [] => some turn
  | turn, traffic :: log => (turn.next traffic).bind fun turn => turn.run log

/-- The log shows one command at a time on the device, in the order they were exchanged and each
once, and when nothing is to be answered or read every command has been sent. Every report has been
given to the command it answers. -/
structure Disciplined (commands : List Command) (reports : List ℕ) (s : Line) : Prop where
  turns : ∃ turn, Turn.idle.run s.log = some turn
  outstanding : ∃ waiting : Option ℕ, sentIds s.log = removedIds s.log ++ waiting.toList
  order : writes s.log <+: commands.map Command.write
  distinct : (commands.map Command.id).Nodup
  once : (sentIds s.log).Nodup
  delivered : deliveries s.log = reports.map fun id => (id, id)
  ends : (endedIds s.log).Nodup
  all : s.unanswered = [] → s.incoming = [] → writes s.log = commands.map Command.write

/-! ## What holds between two events -/

theorem Turn.run_append (turn : Turn) (log more : List Traffic) :
    turn.run (log ++ more) = (turn.run log).bind fun turn => turn.run more := by
  induction log generalizing turn with
  | nil => rfl
  | cons traffic log ih =>
      rw [List.cons_append, Turn.run, Turn.run, Option.bind_assoc]
      congr 1
      funext turn
      exact ih turn

theorem Turn.run_queued (turn : Turn) (calls : List Command) :
    turn.run (calls.map fun command => .queued command.id) = some turn := by
  induction calls with
  | nil => rfl
  | cons command calls ih => exact ih

/-- The reports are what the reader still misses of a response. -/
def Reads (reader : DeviceCommand) (reports : List Bytes) (response : Bytes) : Prop :=
  ∃ last, reader.readReports reports =
    some (last, List.replicate (reports.length - 1) .more ++ [.response response])

/-- The device has got the command, or its answer is on the way. -/
def Awaits (s : Line) (head : Command) : Prop :=
  (s.unanswered = [head.id] ∧ s.incoming = [] ∧ head.reader.buf = []) ∨
    ∃ reports response, s.unanswered = [] ∧
      s.incoming = reports.map (fun report => (head.id, report)) ∧
      Reads head.reader reports response

/-- What the log says of the commands that wait. -/
structure Logged (s : Line) (sent : List ℕ) (turn : Turn) : Prop where
  queued : queuedIds s.log = removedIds s.log ++ s.queue.map Command.id
  sent : sentIds s.log = removedIds s.log ++ sent
  distinct : (queuedIds s.log).Nodup
  ended : (endedIds s.log).Sublist (removedIds s.log)
  turn : Turn.idle.run s.log = some turn

structure Quiet (s : Line) : Prop where
  logged : Logged s [] .idle
  unanswered : s.unanswered = []
  incoming : s.incoming = []

/-- The head of the queue is on the device, and the others have not been sent. -/
structure Busy (s : Line) (head : Command) (rest : List Command) : Prop where
  queue : s.queue = head :: rest
  logged : Logged s [head.id] (.awaiting head.id)
  awaits : Awaits s head
  fresh : ∀ command ∈ rest, command.reader.buf = []

/-- Between two events either nothing waits or the head of the queue is on the device. -/
def Settled (s : Line) : Prop :=
  (s.queue = [] ∧ Quiet s) ∨ ∃ head rest, Busy s head rest

section
variable (log more : List Traffic)

@[simp] theorem queuedIds_append : queuedIds (log ++ more) = queuedIds log ++ queuedIds more :=
  List.filterMap_append

@[simp] theorem sentIds_append : sentIds (log ++ more) = sentIds log ++ sentIds more :=
  List.filterMap_append

@[simp] theorem endedIds_append : endedIds (log ++ more) = endedIds log ++ endedIds more :=
  List.filterMap_append

@[simp] theorem removedIds_append : removedIds (log ++ more) = removedIds log ++ removedIds more :=
  List.filterMap_append

end

section
variable (calls : List Command)

@[simp] theorem queuedIds_queued :
    queuedIds (calls.map fun command => .queued command.id) = calls.map Command.id := by
  rw [queuedIds, List.filterMap_map, ← List.filterMap_eq_map]
  rfl

@[simp] theorem sentIds_queued : sentIds (calls.map fun command => .queued command.id) = [] := by
  simp [sentIds]

@[simp] theorem endedIds_queued : endedIds (calls.map fun command => .queued command.id) = [] := by
  simp [endedIds]

@[simp] theorem removedIds_queued :
    removedIds (calls.map fun command => .queued command.id) = [] := by
  simp [removedIds]

end

/-- Nothing is on the device, and the first command is sent. -/
theorem Quiet.send {s : Line} {head : Command} {rest : List Command} (h : Quiet s)
    (hqueue : s.queue = head :: rest) (hfresh : ∀ command ∈ s.queue, command.reader.buf = []) :
    Busy (s.send head) head rest where
  queue := hqueue
  logged :=
    { queued := by simpa [Line.send, queuedIds, removedIds] using h.logged.queued
      sent := by simpa [Line.send, sentIds, removedIds] using h.logged.sent
      distinct := by simpa [Line.send, queuedIds] using h.logged.distinct
      ended := by simpa [Line.send, endedIds, removedIds] using h.logged.ended
      turn := by
        rw [Line.send, Turn.run_append, h.logged.turn]
        rfl }
  awaits := by
    refine .inl ⟨?_, h.incoming, hfresh head ?_⟩
    · rw [Line.send, h.unanswered]
      rfl
    · rw [hqueue]
      exact List.mem_cons_self
  fresh := by
    intro command hcommand
    apply hfresh
    rw [hqueue]
    exact List.mem_cons_of_mem head hcommand

/-- Commands that are queued while the head is on the device change nothing but the queue. -/
theorem foldl_exchange {s : Line} (hqueue : s.queue ≠ []) (calls : List Command) :
    calls.foldl Line.exchange s =
      { s with
        queue := s.queue ++ calls
        log := s.log ++ calls.map fun command => .queued command.id } := by
  induction calls generalizing s with
  | nil => simp
  | cons command calls ih =>
      have hexchange : s.exchange command =
          { s with queue := s.queue ++ [command], log := s.log ++ [.queued command.id] } := by
        cases hs : s.queue with
        | nil => exact absurd hs hqueue
        | cons head rest => simp [Line.exchange, Line.write, hs]
      rw [List.foldl_cons, hexchange, ih (by simp)]
      simp

theorem Logged.exchange {s : Line} {sent : List ℕ} {turn : Turn} {calls : List Command}
    (h : Logged s sent turn) (hcalls : (calls.map Command.id).Nodup)
    (hfresh : ∀ command ∈ calls, command.Fresh s) :
    Logged
      { s with
        queue := s.queue ++ calls
        log := s.log ++ calls.map fun command => .queued command.id } sent turn where
  queued := by simp [h.queued]
  sent := by simp [h.sent]
  distinct := by
    rw [queuedIds_append, queuedIds_queued, List.nodup_append]
    refine ⟨h.distinct, hcalls, ?_⟩
    intro id hid other hother hsame
    obtain ⟨command, hcommand, rfl⟩ := List.mem_map.mp hother
    exact (hfresh command hcommand).1 (hsame ▸ hid)
  ended := by simpa using h.ended
  turn := by
    rw [Turn.run_append, h.turn]
    exact turn.run_queued calls

theorem Settled.exchange {s : Line} {command : Command} (h : Settled s) (hfresh : command.Fresh s) :
    Settled (s.exchange command) := by
  have hcalls : ([command].map Command.id).Nodup := List.nodup_singleton _
  have hone : ∀ other ∈ [command], other.Fresh s := by
    intro other hother
    rwa [List.mem_singleton.mp hother]
  rcases h with ⟨hqueue, hquiet⟩ | ⟨head, rest, hbusy⟩
  · have hlogged := hquiet.logged.exchange hcalls hone
    have hsend := Quiet.send ⟨hlogged, hquiet.unanswered, hquiet.incoming⟩
      (by rw [hqueue]; rfl : s.queue ++ [command] = [command])
      (by simpa [hqueue] using hfresh.2)
    refine .inr ⟨command, [], ?_⟩
    rw [Line.exchange]
    simp only [Line.write, hqueue, List.isEmpty_nil, if_true]
    simpa [Line.send, hqueue] using hsend
  · have hexchange := foldl_exchange (by rw [hbusy.queue]; exact List.cons_ne_nil _ _) [command]
    rw [List.foldl_cons, List.foldl_nil] at hexchange
    have hlogged := hbusy.logged.exchange hcalls hone
    rw [hexchange]
    exact .inr ⟨head, rest ++ [command],
      { queue := by rw [hbusy.queue]; rfl
        logged := hlogged
        awaits := hbusy.awaits
        fresh := by
          intro other hother
          rcases List.mem_append.mp hother with hrest | hnew
          · exact hbusy.fresh other hrest
          · exact (hone other hnew).2 }⟩

theorem Settled.answer {s : Line} {response : Bytes} (h : Settled s)
    (henabled : line.enabled s (.answer response)) : Settled (line.next s (.answer response)) := by
  obtain ⟨hunanswered, hlow, hhigh⟩ := henabled
  rcases h with ⟨-, hquiet⟩ | ⟨head, rest, hbusy⟩
  · exact absurd hquiet.unanswered hunanswered
  · rcases hbusy.awaits with ⟨hone, hincoming, hbuf⟩ | ⟨reports, other, hnone, -⟩
    · right
      refine ⟨head, rest, ?_⟩
      obtain ⟨-, last, hread, -⟩ := @reassembled_transport response head.reader (by omega) hhigh hbuf
      have hnext : line.next s (.answer response) =
          { s with
            unanswered := []
            incoming := (transport response).map fun report => (head.id, report) } := by
        simp [line, hone, hincoming]
      rw [hnext]
      exact
        { queue := hbusy.queue
          logged := ⟨hbusy.logged.queued, hbusy.logged.sent, hbusy.logged.distinct,
            hbusy.logged.ended, hbusy.logged.turn⟩
          awaits := .inr ⟨transport response, response, rfl, rfl, last, hread⟩
          fresh := hbusy.fresh }
    · exact absurd hnone hunanswered

/-- The first of the reports that are missed. -/
theorem Reads.cons {reader : DeviceCommand} {report : Bytes} {reports : List Bytes}
    {response : Bytes} (h : Reads reader (report :: reports) response) :
    ∃ next,
      (reports = [] ∧ reader.readHIDReport report = some (next, .response response)) ∨
        (reader.readHIDReport report = some (next, .more) ∧ Reads next reports response) := by
  obtain ⟨last, hread⟩ := h
  rw [DeviceCommand.readReports, Option.bind_eq_some_iff] at hread
  obtain ⟨⟨next, received⟩, hreport, hrest⟩ := hread
  obtain ⟨⟨_, outcomes⟩, hreports, hsame⟩ := Option.map_eq_some_iff.mp hrest
  obtain ⟨rfl, hcons⟩ := Prod.mk.inj hsame
  refine ⟨next, ?_⟩
  cases reports with
  | nil =>
      obtain ⟨rfl, -⟩ := List.cons_eq_cons.mp hcons
      exact .inl ⟨rfl, hreport⟩
  | cons other reports =>
      obtain ⟨rfl, rfl⟩ := List.cons_eq_cons.mp hcons
      exact .inr ⟨hreport, _, hreports⟩

/-- The command that was on the device is gone, and others have been queued meanwhile. -/
theorem Busy.removed {s : Line} {head : Command} {rest calls : List Command}
    (h : Busy s head rest) (ending : Option Ending) (hcalls : (calls.map Command.id).Nodup)
    (hfresh : ∀ command ∈ calls, command.Fresh s) :
    Quiet
      { queue := rest ++ calls
        log := s.log ++ (.delivered head.id head.id :: (ending.map (.ended head.id)).toList ++
          calls.map (fun command => .queued command.id) ++ [.removed head.id]) } where
  logged :=
    { queued := by
        have hqueued := (h.logged.exchange hcalls hfresh).queued
        cases ending <;> simp_all [queuedIds, removedIds, h.queue]
      sent := by
        have hsent := (h.logged.exchange hcalls hfresh).sent
        cases ending <;> simp_all [sentIds, removedIds]
      distinct := by
        have hdistinct := (h.logged.exchange hcalls hfresh).distinct
        cases ending <;> simp_all [queuedIds]
      ended := by
        have hended := h.logged.ended
        cases ending with
        | none => simpa [endedIds, removedIds] using hended.append (List.nil_sublist [head.id])
        | some ending =>
            simpa [endedIds, removedIds] using hended.append (List.Sublist.refl [head.id])
      turn := by
        have hqueued : ∀ turn : Turn,
            turn.run (calls.map (fun command => .queued command.id) ++ [.removed head.id]) =
              turn.next (.removed head.id) := by
          intro turn
          rw [Turn.run_append, Turn.run_queued, Option.bind_some, Turn.run]
          cases turn.next (.removed head.id) <;> rfl
        rw [Turn.run_append, h.logged.turn, Option.bind_some]
        cases ending with
        | none => simp [Turn.run, Turn.next, hqueued]
        | some ending => simp [Turn.run, Turn.next, hqueued] }
  unanswered := rfl
  incoming := rfl

/-- The next command is sent, if there is one. -/
theorem settled_dequeue {s : Line} {head : Command} {rest : List Command}
    (hqueue : s.queue = head :: rest) (hquiet : Quiet { s.write [.removed head.id] with queue := rest })
    (hfresh : ∀ command ∈ rest, command.reader.buf = []) : Settled s.dequeue := by
  rw [Line.dequeue, hqueue]
  cases rest with
  | nil => exact .inl ⟨rfl, hquiet⟩
  | cons next rest => exact .inr ⟨next, rest, hquiet.send rfl hfresh⟩

/-- The last report of the response. -/
theorem Busy.ends {s : Line} {head : Command} {rest calls : List Command} {report : Bytes}
    {next : DeviceCommand} {response : Bytes} (h : Busy s head rest)
    (hunanswered : s.unanswered = []) (hincoming : s.incoming = [(head.id, report)])
    (hreport : head.reader.readHIDReport report = some (next, .response response))
    (hcalls : (calls.map Command.id).Nodup) (hfresh : ∀ command ∈ calls, command.Fresh s) :
    Settled (line.next s (.inputReport calls)) := by
  cases hending : head.readAPDUResponse response with
  | none =>
      have hnext : line.next s (.inputReport calls) =
          ({ queue := { head with reader := next } :: rest
             log := s.log ++ [.delivered head.id head.id] } : Line).dequeue := by
        simp [line, hincoming, Line.inputReport, h.queue, Line.write, hreport, hending, hunanswered]
      have hremoved := @Busy.removed s head rest [] h none List.nodup_nil (by simp)
      rw [hnext]
      apply settled_dequeue rfl
      · simpa [Line.write] using hremoved
      · exact h.fresh
  | some ending =>
      have hnext : line.next s (.inputReport calls) =
          (calls.foldl Line.exchange
            { queue := { head with reader := next } :: rest
              log := s.log ++ [.delivered head.id head.id, .ended head.id ending] }).dequeue := by
        simp [line, hincoming, Line.inputReport, h.queue, Line.write, hreport, hending, hunanswered]
      have hremoved := h.removed (some ending) hcalls hfresh
      rw [hnext, foldl_exchange (List.cons_ne_nil _ _)]
      apply settled_dequeue rfl
      · simpa [Line.write] using hremoved
      · intro command hcommand
        rcases List.mem_append.mp hcommand with hrest | hnew
        · exact h.fresh command hrest
        · exact (hfresh command hnew).2

/-- A report with more behind it. -/
theorem Busy.delivered {s : Line} {head : Command} {rest : List Command} {reports : List Bytes}
    {next : DeviceCommand} {response : Bytes} (h : Busy s head rest)
    (hunanswered : s.unanswered = []) (hrest : Reads next reports response) :
    Busy
      { s with
        queue := { head with reader := next } :: rest
        incoming := reports.map fun report => (head.id, report)
        log := s.log ++ [.delivered head.id head.id] } { head with reader := next } rest where
  queue := rfl
  logged :=
    { queued := by
        have hqueued := h.logged.queued
        rw [h.queue] at hqueued
        simpa [queuedIds, removedIds] using hqueued
      sent := by simpa [sentIds, removedIds] using h.logged.sent
      distinct := by simpa [queuedIds] using h.logged.distinct
      ended := by simpa [endedIds, removedIds] using h.logged.ended
      turn := by
        rw [Turn.run_append, h.logged.turn]
        simp [Turn.run, Turn.next] }
  awaits := .inr ⟨reports, response, hunanswered, rfl, hrest⟩
  fresh := h.fresh

theorem Settled.inputReport {s : Line} {calls : List Command} (h : Settled s)
    (henabled : line.enabled s (.inputReport calls)) :
    Settled (line.next s (.inputReport calls)) := by
  obtain ⟨hincoming, hcalls, hfresh⟩ := henabled
  rcases h with ⟨-, hquiet⟩ | ⟨head, rest, hbusy⟩
  · exact absurd hquiet.incoming hincoming
  · rcases hbusy.awaits with ⟨-, hnone, -⟩ | ⟨reports, response, hunanswered, hreports, hreads⟩
    · exact absurd hnone hincoming
    · cases reports with
      | nil => exact absurd hreports hincoming
      | cons report reports =>
          obtain ⟨next, ⟨rfl, hreport⟩ | ⟨hreport, hrest⟩⟩ := hreads.cons
          · exact hbusy.ends hunanswered hreports hreport hcalls hfresh
          · have hnext : line.next s (.inputReport calls) =
                { s with
                  queue := { head with reader := next } :: rest
                  incoming := reports.map fun report => (head.id, report)
                  log := s.log ++ [.delivered head.id head.id] } := by
              simp [line, hreports, Line.inputReport, hbusy.queue, Line.write, hreport]
            rw [hnext]
            exact .inr ⟨_, rest, hbusy.delivered hunanswered hrest⟩

theorem Settled.next {s : Line} {event : LineEvent} (h : Settled s)
    (henabled : line.enabled s event) : Settled (line.next s event) := by
  cases event with
  | exchange command => exact h.exchange henabled
  | answer response => exact h.answer henabled
  | inputReport calls => exact h.inputReport henabled

theorem settled_init : Settled {} :=
  .inl ⟨rfl, ⟨rfl, rfl, List.nodup_nil, List.Sublist.slnil, rfl⟩, rfl, rfl⟩

/-! ## What has been exchanged -/

/-- The log shows the commands as they were exchanged: they are queued, and all are written but
those behind the first of the queue. -/
structure Exchanged (commands : List Command) (s : Line) : Prop where
  queued : queuedIds s.log = commands.map Command.id
  writes : writes s.log ++ s.queue.tail.map Command.write = commands.map Command.write

theorem Exchanged.exchange {commands : List Command} {s : Line} (h : Exchanged commands s)
    (command : Command) : Exchanged (commands ++ [command]) (s.exchange command) := by
  have hqueued := h.queued
  have hwrites := h.writes
  unfold Line.exchange
  cases hqueue : s.queue with
  | nil =>
      rw [hqueue, List.tail_nil, List.map_nil, List.append_nil] at hwrites
      constructor
      · simpa [Line.write, Line.send, hqueue, queuedIds] using hqueued
      · simpa [Line.write, Line.send, hqueue, Ledger.writes, Command.write] using hwrites
  | cons head rest =>
      rw [hqueue, List.tail_cons] at hwrites
      constructor
      · simpa [Line.write, hqueue, queuedIds] using hqueued
      · rw [List.map_append, ← hwrites]
        simp [Line.write, hqueue, Ledger.writes]

theorem Exchanged.foldl {commands : List Command} {s : Line} (h : Exchanged commands s)
    (calls : List Command) : Exchanged (commands ++ calls) (calls.foldl Line.exchange s) := by
  induction calls generalizing commands s with
  | nil => rwa [List.append_nil]
  | cons command calls ih =>
      rw [List.foldl_cons, ← List.singleton_append, ← List.append_assoc]
      exact ih (h.exchange command)

theorem Exchanged.dequeue {commands : List Command} {s : Line} (h : Exchanged commands s) :
    Exchanged commands s.dequeue := by
  have hqueued := h.queued
  have hwrites := h.writes
  unfold Line.dequeue
  cases hqueue : s.queue with
  | nil => exact h
  | cons head rest =>
      rw [hqueue, List.tail_cons] at hwrites
      cases rest with
      | nil =>
          constructor
          · simpa [Line.write, queuedIds] using hqueued
          · simpa [Line.write, Ledger.writes] using hwrites
      | cons next rest =>
          constructor
          · simpa [Line.write, Line.send, queuedIds] using hqueued
          · simpa [Line.write, Line.send, Ledger.writes, Command.write] using hwrites

/-- What is only read or reported leaves the commands as they are. -/
theorem Exchanged.of_eq {commands : List Command} {s s' : Line} (h : Exchanged commands s)
    (hqueued : queuedIds s'.log = queuedIds s.log)
    (hwrites : Ledger.writes s'.log = Ledger.writes s.log)
    (htail : s'.queue.tail = s.queue.tail) : Exchanged commands s' where
  queued := hqueued.trans h.queued
  writes := by rw [hwrites, htail, h.writes]

theorem Exchanged.inputReport {commands : List Command} {s : Line} (h : Exchanged commands s)
    {answered : ℕ} {data : Bytes} {incoming : List (ℕ × Bytes)}
    (hincoming : s.incoming = (answered, data) :: incoming) (calls : List Command) :
    Exchanged (commands ++ if s.signals then calls else [])
      ({ s with incoming := incoming }.inputReport answered data calls) := by
  unfold Line.signals Line.inputReport
  dsimp only
  rw [hincoming]
  cases hqueue : s.queue with
  | nil =>
      simp only [Bool.false_eq_true, if_false, List.append_nil]
      exact h.of_eq (by simp [Line.write, queuedIds]) (by simp [Line.write, Ledger.writes])
        (by simp [Line.write, hqueue])
  | cons head rest =>
      cases hread : head.reader.readHIDReport data with
      | none =>
          simp only [hread, Bool.false_eq_true, if_false, List.append_nil]
          exact h.of_eq (by simp [Line.write, queuedIds]) (by simp [Line.write, Ledger.writes])
            (by simp [Line.write, hqueue])
      | some read =>
          obtain ⟨reader, received⟩ := read
          cases received with
          | more =>
              simp only [hread, Bool.false_eq_true, if_false, List.append_nil]
              exact h.of_eq (by simp [Line.write, queuedIds]) (by simp [Line.write, Ledger.writes])
                (by simp [hqueue])
          | response response =>
              cases hending : head.readAPDUResponse response with
              | none =>
                  simp only [hread, hending, Option.isSome_none, Bool.false_eq_true, if_false,
                    List.append_nil]
                  apply Exchanged.dequeue
                  exact h.of_eq (by simp [Line.write, queuedIds])
                    (by simp [Line.write, Ledger.writes]) (by simp [hqueue])
              | some ending =>
                  simp only [hread, hending, Option.isSome_some, if_true]
                  apply Exchanged.dequeue
                  apply Exchanged.foldl
                  exact h.of_eq (by simp [Line.write, queuedIds])
                    (by simp [Line.write, Ledger.writes]) (by simp [Line.write, hqueue])

theorem Exchanged.next {commands : List Command} {s : Line} (h : Exchanged commands s)
    (event : LineEvent) : Exchanged (commands ++ s.exchanged event) (line.next s event) := by
  cases event with
  | exchange command => exact h.exchange command
  | answer response =>
      rw [Line.exchanged, List.append_nil]
      cases hunanswered : s.unanswered with
      | nil => simpa [line, hunanswered] using h
      | cons id rest =>
          simp only [line, hunanswered]
          exact h.of_eq rfl rfl rfl
  | inputReport calls =>
      cases hincoming : s.incoming with
      | nil =>
          have hsilent : s.signals = false := by
            unfold Line.signals
            rw [hincoming]
            cases s.queue <;> rfl
          simpa [line, hincoming, Line.exchanged, hsilent] using h
      | cons report incoming =>
          simp only [line, hincoming]
          exact h.inputReport hincoming calls

/-! ## What has been delivered -/

theorem deliveries_exchange (s : Line) (command : Command) :
    deliveries (s.exchange command).log = deliveries s.log := by
  unfold Line.exchange
  cases hqueue : s.queue with
  | nil => simp [Line.write, Line.send, hqueue, deliveries]
  | cons head rest => simp [Line.write, hqueue, deliveries]

theorem deliveries_foldl (s : Line) (calls : List Command) :
    deliveries (calls.foldl Line.exchange s).log = deliveries s.log := by
  induction calls generalizing s with
  | nil => rfl
  | cons command calls ih => rw [List.foldl_cons, ih, deliveries_exchange]

theorem deliveries_dequeue (s : Line) : deliveries s.dequeue.log = deliveries s.log := by
  unfold Line.dequeue
  cases s.queue with
  | nil => rfl
  | cons head rest => cases rest <;> simp [Line.write, Line.send, deliveries]

/-- A report is given to the first command of the queue, whatever comes of it. -/
theorem deliveries_inputReport {s : Line} {head : Command} {rest : List Command}
    (hqueue : s.queue = head :: rest) (answered : ℕ) (data : Bytes) (calls : List Command) :
    deliveries (s.inputReport answered data calls).log =
      deliveries s.log ++ [(head.id, answered)] := by
  have hdelivered : deliveries (s.log ++ [.delivered head.id answered]) =
      deliveries s.log ++ [(head.id, answered)] := by simp [deliveries]
  unfold Line.inputReport
  rw [hqueue]
  dsimp only
  cases head.reader.readHIDReport data with
  | none => simp [Line.write, deliveries]
  | some read =>
      obtain ⟨reader, received⟩ := read
      cases received with
      | more => exact hdelivered
      | response response =>
          dsimp only
          cases head.readAPDUResponse response with
          | none =>
              dsimp only
              rw [deliveries_dequeue]
              exact hdelivered
          | some ending =>
              dsimp only
              rw [deliveries_dequeue, deliveries_foldl]
              simp [Line.write, deliveries]

theorem Settled.deliveries {s : Line} {reports : List ℕ} {event : LineEvent} (h : Settled s)
    (henabled : line.enabled s event)
    (hdelivered : deliveries s.log = reports.map fun id => (id, id)) :
    deliveries (line.next s event).log = (reports ++ s.answers event).map fun id => (id, id) := by
  cases event with
  | exchange command =>
      rw [Line.answers, List.append_nil, ← hdelivered]
      exact deliveries_exchange s command
  | answer response =>
      rw [Line.answers, List.append_nil, ← hdelivered]
      cases hunanswered : s.unanswered with
      | nil => simp [line, hunanswered]
      | cons id rest => simp [line, hunanswered]
  | inputReport calls =>
      rcases h with ⟨-, hquiet⟩ | ⟨head, rest, hbusy⟩
      · exact absurd hquiet.incoming henabled.1
      · rcases hbusy.awaits with ⟨-, hnone, -⟩ | ⟨missing, response, -, hincoming, -⟩
        · exact absurd hnone henabled.1
        · cases missing with
          | nil => exact absurd hincoming henabled.1
          | cons report missing =>
              -- What is on its way answers the first command.
              have hnext : line.next s (.inputReport calls) =
                  { s with incoming := missing.map fun report => (head.id, report) }.inputReport
                    head.id report calls := by simp [line, hincoming]
              have hgiven := deliveries_inputReport
                (s := { s with incoming := missing.map fun report => (head.id, report) })
                hbusy.queue head.id report calls
              rw [hnext, hgiven, hdelivered]
              simp [Line.answers, hincoming]

/-- The log of a line on which commands take turns. -/
theorem Disciplined.of_settled {commands : List Command} {reports : List ℕ} {s : Line}
    (h : Settled s) (hexchanged : Exchanged commands s)
    (hdelivered : deliveries s.log = reports.map fun id => (id, id)) :
    Disciplined commands reports s := by
  have horder : writes s.log <+: commands.map Command.write := ⟨_, hexchanged.writes⟩
  rcases h with ⟨hqueue, hquiet⟩ | ⟨head, rest, hbusy⟩
  · have hsent := hquiet.logged.sent
    have hqueued := hquiet.logged.queued
    have hdistinct := hquiet.logged.distinct
    have hall := hexchanged.writes
    rw [List.append_nil] at hsent
    rw [hqueue, List.tail_nil, List.map_nil, List.append_nil] at hall
    refine
      { turns := ⟨_, hquiet.logged.turn⟩
        outstanding := ⟨none, by rw [hsent, Option.toList_none, List.append_nil]⟩
        order := horder
        distinct := hexchanged.queued ▸ hdistinct
        once := ?_
        delivered := hdelivered
        ends := ?_
        all := fun _ _ => hall }
    · rw [hqueue, List.map_nil, List.append_nil] at hqueued
      rwa [hsent, ← hqueued]
    · rw [hqueued] at hdistinct
      exact hdistinct.sublist (hquiet.logged.ended.trans (List.sublist_append_left _ _))
  · have hsent := hbusy.logged.sent
    have hqueued := hbusy.logged.queued
    have hdistinct := hbusy.logged.distinct
    rw [hbusy.queue, List.map_cons] at hqueued
    have hsublist : (sentIds s.log).Sublist (queuedIds s.log) := by
      rw [hsent, hqueued]
      exact (List.prefix_append_right_inj _).mpr (List.prefix_append [head.id] _) |>.sublist
    have hremoved : (removedIds s.log).Sublist (queuedIds s.log) := by
      rw [hqueued]
      exact List.sublist_append_left _ _
    refine
      { turns := ⟨_, hbusy.logged.turn⟩
        outstanding := ⟨some head.id, hsent⟩
        order := horder
        distinct := hexchanged.queued ▸ hdistinct
        once := hdistinct.sublist hsublist
        delivered := hdelivered
        ends := hdistinct.sublist (hbusy.logged.ended.trans hremoved)
        all := ?_ }
    intro hunanswered hincoming
    rcases hbusy.awaits with ⟨hone, -, -⟩ | ⟨missing, response, -, hreports, last, hread⟩
    · rw [hone] at hunanswered
      cases hunanswered
    · rw [hincoming, eq_comm, List.map_eq_nil_iff] at hreports
      subst hreports
      simp [DeviceCommand.readReports] at hread

/-- In every run the commands that are exchanged take turns on the device, and the reports that come
are theirs. -/
theorem line_disciplined (events : List LineEvent) (hvalid : line.Valid {} events) :
    Disciplined (commandsOf events) (answersOf events) (line.run {} events) := by
  have hrun : Settled (line.run {} events) ∧ Exchanged (commandsOf events) (line.run {} events) ∧
      deliveries (line.run {} events).log = (answersOf events).map fun id => (id, id) := by
    apply line.run_history (I := fun fs s => Settled s ∧ Exchanged (commandsOf fs) s ∧
      deliveries s.log = (answersOf fs).map fun id => (id, id)) ⟨settled_init, ⟨rfl, rfl⟩, rfl⟩
    intro fs event gs hsplit ⟨hsettled, hexchanged, hdelivered⟩
    rw [hsplit] at hvalid
    have henabled := hvalid.at fs
    have hmore : commandsOf (fs ++ [event]) =
        commandsOf fs ++ (line.run {} fs).exchanged event := by
      simp [commandsOf, Reactive.trace_concat, List.flatMap_append]
    have hanswers : answersOf (fs ++ [event]) = answersOf fs ++ (line.run {} fs).answers event := by
      simp [answersOf, Reactive.trace_concat, List.flatMap_append]
    rw [hmore, hanswers]
    exact ⟨hsettled.next henabled, hexchanged.next event, hsettled.deliveries henabled hdelivered⟩
  exact .of_settled hrun.1 hrun.2.1 hrun.2.2

def firmwareCommand (id : ℕ) : Command where
  id := id
  payload := [0xe0, 0xc4, 0x00, 0x00, 0x00]
  parse := fun _ => true

/-- Two commands, and the answer to the first. -/
theorem line_disciplined_twoCommands :
    Disciplined [firmwareCommand 0, firmwareCommand 1] []
      (line.run {}
        [.exchange (firmwareCommand 0), .exchange (firmwareCommand 1), .answer [0x90, 0x00]]) :=
  line_disciplined
    [.exchange (firmwareCommand 0), .exchange (firmwareCommand 1), .answer [0x90, 0x00]]
    ⟨⟨List.not_mem_nil, rfl⟩, ⟨by decide, rfl⟩, ⟨List.cons_ne_nil _ _, by decide, by decide⟩, trivial⟩

end GreenWallet.Ledger
