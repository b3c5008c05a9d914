import Mathlib.Data.List.Nodup
import Mathlib.Data.List.Perm.Basic
import GreenWallet.Ledger.Batch

/-!
# The traversal behind an execution

The batches that are being executed are nested in each other, and so are the calls that
their signals lead to. Seen this way an execution walks through a tree: it is at one
command, with a frame for each of the batches around it, the innermost first. The signals
and connections of the objects are shown to do just that.
-/
namespace GreenWallet.Ledger
open GreenWallet.Library

/-- A batch that is being executed, and the commands it has left. -/
structure Frame where
  id : ℕ
  constructed : List CommandObject
  appends : List CommandObject
  queue : List CommandObject

def Frame.command (frame : Frame) : CommandObject :=
  .batch frame.id frame.constructed frame.appends

/-- What an execution has come to. -/
inductive Focus where
  | calling (command : CommandObject)
  /-- A command that is to finish, and adds these to its batch then. -/
  | running (id : ℕ) (appends : List CommandObject)
  /-- The innermost batch is to be executed again. -/
  | posted

/-- What a command brings with it. -/
def CommandObject.held : CommandObject → List CommandObject
  | .leaf _ appends => appends
  | .batch _ commands appends => commands ++ appends

namespace Focus

def held : Focus → List CommandObject
  | .calling command => command.held
  | .running _ appends => appends
  | .posted => []

/-- The command at hand and the batches around it. -/
def chain : Focus → List Frame → List ℕ
  | .calling command, frames => command.id :: frames.map Frame.id
  | .running id _, frames => id :: frames.map Frame.id
  | .posted, frames => frames.map Frame.id

end Focus

/-- The commands that have not been taken yet. -/
def pending (focus : Focus) (frames : List Frame) : List CommandObject :=
  focus.held ++ frames.flatMap fun frame => frame.queue ++ frame.appends

def names (focus : Focus) (frames : List Frame) : List ℕ :=
  focus.chain frames ++ idsOf (pending focus frames)

/-- The leaves to come when the innermost batch gets some more commands. -/
def remaining : List CommandObject → List Frame → List ℕ
  | _, [] => []
  | more, frame :: frames => leaves (frame.queue ++ more) ++ remaining frame.appends frames

def toRun : Focus → List Frame → List ℕ
  | .calling command, frames => command.leaves ++ remaining command.appends frames
  | .running _ appends, frames => remaining appends frames
  | .posted, frames => remaining [] frames

/-- The events to come. -/
def weightOf : List Frame → ℕ
  | [] => 0
  | frame :: frames => 3 * sizes frame.queue + 3 * sizes frame.appends + 1 + weightOf frames

def weight : Focus → List Frame → ℕ
  | .calling command, frames => 3 * command.size + weightOf frames
  | .running _ appends, frames => 2 + 3 * sizes appends + weightOf frames
  | .posted, frames => 1 + weightOf frames

/-- The signals of the command are connected to the innermost batch, and so on outwards. -/
def Linked : List (ℕ × CommandObject) → ℕ → List Frame → Prop
  | connections, id, [] => id ∉ connections.map Prod.fst
  | connections, id, frame :: frames =>
      ∃ newer older, connections = newer ++ (id, frame.command) :: older ∧
        Linked older frame.id frames

def Focus.Linked (connections : List (ℕ × CommandObject)) : Focus → List Frame → Prop
  | .calling command, frames => Ledger.Linked connections command.id frames
  | .running id _, frames => Ledger.Linked connections id frames
  | .posted, frame :: frames => Ledger.Linked connections frame.id frames
  | .posted, [] => False

/-- The objects are as the traversal has it. -/
structure Core (root : CommandObject) (s : Execution) (focus : Focus) (frames : List Frame) :
    Prop where
  distinct : (names focus frames).Nodup
  current : ∀ frame ∈ frames, (s.m_commands frame.id).getD frame.constructed = frame.queue
  constructed : ∀ id ∈ idsOf (pending focus frames), s.m_commands id = none
  connectedOnce : (s.connections.map Prod.fst).Nodup
  unconnected : ∀ id ∈ idsOf (pending focus frames), id ∉ s.connections.map Prod.fst
  called : ∀ command, focus = .calling command → s.m_commands command.id = none
  rootFree : root.id ∉ s.connections.map Prod.fst
  linked : focus.Linked s.connections frames
  last : (focus.chain frames).getLast? = some root.id
  ran : ranIds s.log ++ toRun focus frames = root.leaves
  ended : ∀ id ∈ ranIds s.log, .finished id ∈ s.log ∨ ∃ appends, focus = .running id appends
  unfinished : ∀ id ∈ names focus frames, .finished id ∉ s.log
  noError : ∀ id, .error id ∉ s.log

@[simp] theorem idsOf_append (commands more : List CommandObject) :
    idsOf (commands ++ more) = idsOf commands ++ idsOf more := by
  induction commands with
  | nil => rfl
  | cons command commands ih => simp [idsOf, ih]

theorem ids_eq (command : CommandObject) : command.ids = command.id :: idsOf command.held := by
  cases command with
  | leaf id appends => rw [CommandObject.ids]; rfl
  | batch id commands appends =>
      rw [CommandObject.ids, CommandObject.held, idsOf_append]
      rfl

/-! ## The signals of a command on the way -/

theorem filter_of_not_mem {connections : List (ℕ × CommandObject)} {id : ℕ}
    (h : id ∉ connections.map Prod.fst) :
    connections.filter (fun connection => connection.1 == id) = [] := by
  rw [List.filter_eq_nil_iff]
  intro connection hconnection hsame
  exact h (List.mem_map.mpr ⟨connection, hconnection, beq_iff_eq.mp hsame⟩)

/-- The one batch that the signals of the command go to. -/
theorem connected_eq {s : Execution} {id : ℕ} {frame : Frame} {frames : List Frame}
    (hlinked : Linked s.connections id (frame :: frames))
    (honce : (s.connections.map Prod.fst).Nodup) : s.connected id = [frame.command] := by
  obtain ⟨newer, older, hsplit, -⟩ := hlinked
  rw [hsplit, List.map_append, List.map_cons, List.nodup_append, List.nodup_cons] at honce
  obtain ⟨-, ⟨holder, -⟩, hnewer⟩ := honce
  have hbefore : id ∉ newer.map Prod.fst := fun hid => hnewer id hid id List.mem_cons_self rfl
  rw [Execution.connected, hsplit, List.filter_append, filter_of_not_mem hbefore, List.filter_cons,
    filter_of_not_mem holder]
  simp

theorem connected_nil {s : Execution} {id : ℕ} (hlinked : Linked s.connections id []) :
    s.connected id = [] := by
  rw [Execution.connected, filter_of_not_mem hlinked, List.map_nil]

theorem errors_of_not_mem {connections : List (ℕ × CommandObject)} {id : ℕ}
    (h : id ∉ connections.map Prod.fst) : Execution.errors connections id = [] := by
  induction connections with
  | nil => rfl
  | cons connection older ih =>
      rw [List.map_cons, List.mem_cons, not_or] at h
      rw [Execution.errors, if_neg (Ne.symm h.1), ih h.2, List.nil_append]

theorem errors_append {newer older : List (ℕ × CommandObject)} {id : ℕ}
    (h : id ∉ newer.map Prod.fst) :
    Execution.errors (newer ++ older) id = Execution.errors older id := by
  induction newer with
  | nil => rfl
  | cons connection newer ih =>
      rw [List.map_cons, List.mem_cons, not_or] at h
      rw [List.cons_append, Execution.errors, if_neg (Ne.symm h.1), ih h.2, List.nil_append]

/-- An error goes outwards through all batches around the command. -/
theorem errors_eq {connections : List (ℕ × CommandObject)} {id : ℕ} {frames : List Frame}
    (hlinked : Linked connections id frames) (honce : (connections.map Prod.fst).Nodup) :
    Execution.errors connections id = frames.map fun frame => .error frame.id := by
  induction frames generalizing connections id with
  | nil => exact errors_of_not_mem hlinked
  | cons frame frames ih =>
      obtain ⟨newer, older, hsplit, hrest⟩ := hlinked
      rw [hsplit, List.map_append, List.map_cons, List.nodup_append, List.nodup_cons] at honce
      obtain ⟨-, ⟨holder, hnodup⟩, hnewer⟩ := honce
      have hbefore : id ∉ newer.map Prod.fst := fun hid => hnewer id hid id List.mem_cons_self rfl
      rw [hsplit, errors_append hbefore, Execution.errors, if_pos rfl, errors_of_not_mem holder,
        List.append_nil, List.map_cons]
      congr 1
      exact ih hrest hnodup

/-! ## The names that are in play -/

theorem names_take (frame : Frame) (next : CommandObject) (rest : List CommandObject)
    (frames : List Frame) :
    (names (.calling next) ({ frame with queue := rest } :: frames)).Perm
      (names .posted ({ frame with queue := next :: rest } :: frames)) := by
  rw [List.perm_iff_count]
  intro id
  simp only [names, Focus.chain, pending, Focus.held, List.map_cons, List.flatMap_cons, idsOf_append,
    idsOf, ids_eq, List.count_append, List.count_cons, List.nil_append]
  omega

theorem names_call (id : ℕ) (commands appends : List CommandObject) (frames : List Frame) :
    (names .posted (⟨id, commands, appends, commands⟩ :: frames)).Perm
      (names (.calling (.batch id commands appends)) frames) := by
  rw [List.perm_iff_count]
  intro other
  simp only [names, Focus.chain, pending, Focus.held, CommandObject.held, CommandObject.id,
    List.map_cons, List.flatMap_cons, idsOf_append, List.count_append, List.count_cons,
    List.nil_append]

theorem names_finish (id : ℕ) (appends : List CommandObject) (frame : Frame)
    (frames : List Frame) :
    (names (.running id appends) (frame :: frames)).Perm
      (id :: names .posted ({ frame with queue := frame.queue ++ appends } :: frames)) := by
  rw [List.perm_iff_count]
  intro other
  simp only [names, Focus.chain, pending, Focus.held, List.map_cons, List.flatMap_cons, idsOf_append,
    List.count_append, List.count_cons, List.nil_append]
  omega

theorem pending_take {frame : Frame} {next : CommandObject} {rest : List CommandObject}
    {frames : List Frame} {id : ℕ}
    (h : id ∈ idsOf (pending (.calling next) ({ frame with queue := rest } :: frames))) :
    id ∈ idsOf (pending .posted ({ frame with queue := next :: rest } :: frames)) := by
  simp only [pending, Focus.held, List.flatMap_cons, idsOf_append, idsOf, ids_eq, List.mem_append,
    List.mem_cons, List.nil_append] at h ⊢
  tauto

theorem pending_call {id : ℕ} {commands appends : List CommandObject} {frames : List Frame}
    {other : ℕ} (h : other ∈ idsOf (pending .posted (⟨id, commands, appends, commands⟩ :: frames))) :
    other ∈ idsOf (pending (.calling (.batch id commands appends)) frames) := by
  simp only [pending, Focus.held, CommandObject.held, List.flatMap_cons, idsOf_append,
    List.mem_append, List.nil_append] at h ⊢
  tauto

theorem pending_finish {id : ℕ} {appends : List CommandObject} {frame : Frame}
    {frames : List Frame} {other : ℕ}
    (h : other ∈ idsOf (pending .posted
      ({ frame with queue := frame.queue ++ appends } :: frames))) :
    other ∈ idsOf (pending (.running id appends) (frame :: frames)) := by
  simp only [pending, Focus.held, List.flatMap_cons, idsOf_append, List.mem_append,
    List.nil_append] at h ⊢
  tauto

/-- The command at hand, the batches around it and what waits have different ids. -/
theorem Core.ne_of_pending {root : CommandObject} {s : Execution} {focus : Focus}
    {frames : List Frame} (h : Core root s focus frames) {id other : ℕ}
    (hid : id ∈ focus.chain frames) (hother : other ∈ idsOf (pending focus frames)) : other ≠ id := by
  intro hsame
  exact (List.nodup_append.mp h.distinct).2.2 id hid other hother hsame.symm

theorem Linked.append {newer older : List (ℕ × CommandObject)} {id : ℕ} {frames : List Frame}
    (h : Linked older id frames) (hroot : frames = [] → id ∉ newer.map Prod.fst) :
    Linked (newer ++ older) id frames := by
  cases frames with
  | nil =>
      rw [Linked, List.map_append, List.mem_append, not_or]
      exact ⟨hroot rfl, h⟩
  | cons frame frames =>
      obtain ⟨between, oldest, hsplit, hrest⟩ := h
      exact ⟨newer ++ between, oldest, by rw [hsplit, List.append_assoc], hrest⟩

/-! ## What the steps of the objects do to the traversal -/

section
variable {root : CommandObject} {s : Execution} {frame : Frame} {frames : List Frame} {id : ℕ}
variable {commands appends rest : List CommandObject} {next : CommandObject}

theorem Core.of_eq {focus : Focus} {t : Execution} (h : Core root s focus frames)
    (hcommands : t.m_commands = s.m_commands) (hconnections : t.connections = s.connections)
    (hlog : t.log = s.log) : Core root t focus frames := by
  obtain ⟨_, _, _, _, _, _⟩ := t
  cases hcommands
  cases hconnections
  cases hlog
  exact ⟨h.distinct, h.current, h.constructed, h.connectedOnce, h.unconnected, h.called,
    h.rootFree, h.linked, h.last, h.ran, h.ended, h.unfinished, h.noError⟩

/-- A leaf is executed. -/
theorem Core.ran_leaf (h : Core root s (.calling (.leaf id appends)) frames) :
    Core root { s with log := s.log ++ [.ran id] } (.running id appends) frames where
  distinct := h.distinct
  current := h.current
  constructed := h.constructed
  connectedOnce := h.connectedOnce
  unconnected := h.unconnected
  called := by
    intro command hcommand
    cases hcommand
  rootFree := h.rootFree
  linked := h.linked
  last := h.last
  ran := by
    have hran := h.ran
    simpa [ranIds, toRun, CommandObject.leaves, CommandObject.appends] using hran
  ended := by
    intro other hother
    simp only [ranIds, List.filterMap_append, List.mem_append] at hother
    rcases hother with hother | hother
    · rcases h.ended other hother with hfinished | ⟨_, hrunning⟩
      · exact .inl (List.mem_append_left _ hfinished)
      · cases hrunning
    · have hsame : other = id := by simpa using hother
      exact .inr ⟨appends, by rw [hsame]⟩
  unfinished := by
    intro other hother hfinished
    have hold : BatchSignal.finished other ∈ s.log := by simpa using hfinished
    exact h.unfinished other hother hold
  noError := by
    intro other herror
    have hold : BatchSignal.error other ∈ s.log := by simpa using herror
    exact h.noError other hold

/-- A batch is executed for the first time. -/
theorem Core.called_batch (h : Core root s (.calling (.batch id commands appends)) frames) :
    Core root s .posted (⟨id, commands, appends, commands⟩ :: frames) where
  distinct := (names_call id commands appends frames).nodup_iff.mpr h.distinct
  current := by
    intro frame hframe
    rcases List.mem_cons.mp hframe with rfl | hframe
    · have hnone := h.called _ rfl
      rw [CommandObject.id] at hnone
      rw [hnone, Option.getD_none]
    · exact h.current frame hframe
  constructed := fun other hother => h.constructed other (pending_call hother)
  connectedOnce := h.connectedOnce
  unconnected := fun other hother => h.unconnected other (pending_call hother)
  called := by
    intro command hcommand
    cases hcommand
  rootFree := h.rootFree
  linked := h.linked
  last := h.last
  ran := by
    have hran := h.ran
    rw [toRun, CommandObject.leaves, CommandObject.appends] at hran
    rw [toRun, remaining, List.append_nil, hran]
  ended := by
    intro other hother
    rcases h.ended other hother with hfinished | ⟨_, hrunning⟩
    · exact .inl hfinished
    · cases hrunning
  unfinished := fun other hother =>
    h.unfinished other ((names_call id commands appends frames).mem_iff.mp hother)
  noError := h.noError

/-- The frames around the innermost batch are about other batches. -/
theorem Core.ne_of_mem {focus : Focus} (h : Core root s focus (frame :: frames)) {other : Frame}
    (hother : other ∈ frames) : other.id ≠ frame.id := by
  have hchain := (List.nodup_append.mp h.distinct).1
  have hframes : (frame.id :: frames.map Frame.id).Nodup := by
    cases focus with
    | calling command => exact (List.nodup_cons.mp hchain).2
    | running id appends => exact (List.nodup_cons.mp hchain).2
    | posted => exact hchain
  intro hsame
  exact (List.nodup_cons.mp hframes).1 (hsame ▸ List.mem_map_of_mem hother)

/-- The queue of the innermost batch is replaced. -/
theorem current_update {m_commands : ℕ → Option (List CommandObject)} (queue : List CommandObject)
    (hne : ∀ other ∈ frames, other.id ≠ frame.id)
    (hcurrent : ∀ other ∈ frames, (m_commands other.id).getD other.constructed = other.queue) :
    ∀ other ∈ { frame with queue := queue } :: frames,
      (Function.update m_commands frame.id (some queue) other.id).getD other.constructed =
        other.queue := by
  intro other hother
  rcases List.mem_cons.mp hother with rfl | hother
  · rw [Function.update_self, Option.getD_some]
  · rw [Function.update_of_ne (hne other hother)]
    exact hcurrent other hother

/-- The innermost batch takes its next command. -/
theorem Core.take (h : Core root s .posted ({ frame with queue := next :: rest } :: frames)) :
    Core root
      { s with
        m_commands := Function.update s.m_commands frame.id (some rest)
        connections := (next.id, frame.command) :: s.connections }
      (.calling next) ({ frame with queue := rest } :: frames) := by
  have hnext : next.id ∈ idsOf (pending .posted ({ frame with queue := next :: rest } :: frames)) := by
    simp [pending, Focus.held, idsOf, ids_eq]
  have hnames := names_take frame next rest frames
  have hdistinct := hnames.nodup_iff.mpr h.distinct
  have hframe : frame.id ∈ Focus.posted.chain ({ frame with queue := next :: rest } :: frames) :=
    List.mem_cons_self
  exact
    { distinct := hdistinct
      current := current_update rest (fun other hother => h.ne_of_mem hother)
        fun other hother => h.current other (List.mem_cons_of_mem _ hother)
      constructed := by
        intro other hother
        have hold := pending_take hother
        exact (Function.update_of_ne (h.ne_of_pending hframe hold) _ _).trans
          (h.constructed other hold)
      connectedOnce := List.nodup_cons.mpr ⟨h.unconnected _ hnext, h.connectedOnce⟩
      unconnected := by
        intro other hother
        have hne : other ≠ next.id := by
          intro hsame
          exact (List.nodup_append.mp hdistinct).2.2 next.id List.mem_cons_self other hother hsame.symm
        rw [List.map_cons, List.mem_cons, not_or]
        exact ⟨hne, h.unconnected other (pending_take hother)⟩
      called := by
        intro command hcommand
        cases hcommand
        exact (Function.update_of_ne (h.ne_of_pending hframe hnext) _ _).trans
          (h.constructed _ hnext)
      rootFree := by
        have hroot : root.id ∈ Focus.posted.chain ({ frame with queue := next :: rest } :: frames) :=
          List.mem_of_getLast? h.last
        rw [List.map_cons, List.mem_cons, not_or]
        exact ⟨(h.ne_of_pending hroot hnext).symm, h.rootFree⟩
      linked := ⟨[], s.connections, rfl, h.linked⟩
      last := by
        have hlast := h.last
        simp only [Focus.chain, List.map_cons, List.getLast?_cons_cons] at hlast ⊢
        exact hlast
      ran := by
        have hran := h.ran
        rw [toRun, remaining, List.append_nil, leaves_cons] at hran
        rw [toRun, remaining, ← hran]
        simp only [List.append_assoc]
      ended := by
        intro other hother
        rcases h.ended other hother with hfinished | ⟨_, hrunning⟩
        · exact .inl hfinished
        · cases hrunning
      unfinished := fun other hother => h.unfinished other (hnames.mem_iff.mp hother)
      noError := h.noError }

/-- A batch that is executed without commands is to finish. -/
theorem Core.emptied (h : Core root s .posted ({ frame with queue := [] } :: frames)) :
    Core root s (.running frame.id frame.appends) frames where
  distinct := h.distinct
  current := fun other hother => h.current other (List.mem_cons_of_mem _ hother)
  constructed := h.constructed
  connectedOnce := h.connectedOnce
  unconnected := h.unconnected
  called := by
    intro command hcommand
    cases hcommand
  rootFree := h.rootFree
  linked := h.linked
  last := h.last
  ran := by
    have hran := h.ran
    rw [toRun, remaining, List.append_nil, leaves, List.nil_append] at hran
    exact hran
  ended := by
    intro other hother
    rcases h.ended other hother with hfinished | ⟨_, hrunning⟩
    · exact .inl hfinished
    · cases hrunning
  unfinished := h.unfinished
  noError := h.noError

/-- A command finishes within a batch. -/
theorem Core.finished (h : Core root s (.running id appends) (frame :: frames)) :
    Core root
      { s with
        m_commands := Function.update s.m_commands frame.id (some (frame.queue ++ appends))
        log := s.log ++ [.finished id] }
      .posted ({ frame with queue := frame.queue ++ appends } :: frames) := by
  have hnames := names_finish id appends frame frames
  have hdistinct := List.nodup_cons.mp (hnames.nodup_iff.mp h.distinct)
  have hframe : frame.id ∈ (Focus.running id appends).chain (frame :: frames) :=
    List.mem_cons_of_mem _ List.mem_cons_self
  exact
    { distinct := hdistinct.2
      current := current_update _ (fun other hother => h.ne_of_mem hother)
        fun other hother => h.current other (List.mem_cons_of_mem _ hother)
      constructed := by
        intro other hother
        have hold : other ∈ idsOf (pending (.running id appends) (frame :: frames)) :=
          pending_finish hother
        exact (Function.update_of_ne (h.ne_of_pending hframe hold) _ _).trans
          (h.constructed other hold)
      connectedOnce := h.connectedOnce
      unconnected := fun other hother => h.unconnected other (pending_finish hother)
      called := by
        intro command hcommand
        cases hcommand
      rootFree := h.rootFree
      linked := by
        obtain ⟨newer, older, hsplit, hrest⟩ := h.linked
        have hlinked := @Linked.append (newer ++ [(id, frame.command)]) older frame.id frames hrest
        rw [List.append_assoc, List.singleton_append, ← hsplit] at hlinked
        apply hlinked
        intro hsame
        subst hsame
        have hroot : frame.id = root.id := by simpa [Focus.chain] using h.last
        have hfree := h.rootFree
        rw [hsplit, ← List.singleton_append, ← List.append_assoc, List.map_append, List.mem_append,
          not_or] at hfree
        rw [hroot]
        exact hfree.1
      last := by
        have hlast := h.last
        simp only [Focus.chain, List.map_cons, List.getLast?_cons_cons] at hlast ⊢
        exact hlast
      ran := by
        have hran := h.ran
        simpa [ranIds, toRun, remaining] using hran
      ended := by
        intro other hother
        have hold : other ∈ ranIds s.log := by simpa [ranIds] using hother
        rcases h.ended other hold with hfinished | ⟨_, hrunning⟩
        · exact .inl (List.mem_append_left _ hfinished)
        · cases hrunning
          exact .inl (List.mem_append_right _ List.mem_cons_self)
      unfinished := by
        intro other hother hfinished
        rcases List.mem_append.mp hfinished with hold | hnew
        · exact h.unfinished other (hnames.mem_iff.mpr (List.mem_cons_of_mem _ hother)) hold
        · obtain rfl : other = id := by simpa using hnew
          exact hdistinct.1 hother
      noError := by
        intro other herror
        have hold : BatchSignal.error other ∈ s.log := by simpa using herror
        exact h.noError other hold }

end

/-! ## Executions as traversals -/

/-- What is called, queued and running at this point of the traversal. -/
def Focus.Holds (s : Execution) : Focus → List Frame → Prop
  | .calling command, _ => s.call = some command ∧ s.posted = [] ∧ s.running = []
  | .running id appends, _ => s.call = none ∧ s.posted = [] ∧ s.running = [.leaf id appends]
  | .posted, frame :: _ => s.call = none ∧ s.posted = [frame.command] ∧ s.running = []
  | .posted, [] => False

structure Execution.Idle (s : Execution) : Prop where
  call : s.call = none
  posted : s.posted = []
  running : s.running = []

structure Done (root : CommandObject) (s : Execution) (before : List BatchSignal) : Prop where
  idle : s.Idle
  log : s.log = before ++ [.finished root.id]
  ran : ranIds before = root.leaves
  ended : ∀ id ∈ root.leaves, .finished id ∈ before
  unfinished : .finished root.id ∉ before
  noError : ∀ id, .error id ∉ before

structure Failed (root : CommandObject) (s : Execution) (before : List BatchSignal)
    (chain : List ℕ) : Prop where
  idle : s.Idle
  log : s.log = before ++ chain.map .error
  ran : ranIds before <+: root.leaves
  ended : ∀ id ∈ ranIds before, .finished id ∈ before ∨ id ∈ chain
  unfinished : .finished root.id ∉ before
  noError : ∀ id, .error id ∉ before
  distinct : chain.Nodup
  last : chain.getLast? = some root.id

/-- The execution is somewhere in the traversal, with so many events to come at most. -/
inductive At (root : CommandObject) (s : Execution) : ℕ → Prop
  | active {focus : Focus} {frames : List Frame} (core : Core root s focus frames)
      (holds : focus.Holds s frames) : At root s (weight focus frames)
  | done {before : List BatchSignal} (done : Done root s before) : At root s 0
  | failed {before : List BatchSignal} {chain : List ℕ} (failed : Failed root s before chain) :
      At root s 0

section
variable {root : CommandObject} {s : Execution} {frame : Frame} {frames : List Frame}

theorem At.finish {command : CommandObject} (hroot : root.id ∉ root.leaves) (hidle : s.Idle)
    (h : Core root s (.running command.id command.appends) frames) :
    ∃ w, w ≤ 1 + 3 * sizes command.appends + weightOf frames ∧ At root (s.finish command) w := by
  cases frames with
  | nil =>
      have hlast : command.id = root.id := by simpa [Focus.chain] using h.last
      have hran : ranIds s.log = root.leaves := by simpa [toRun, remaining] using h.ran
      refine ⟨0, Nat.zero_le _, @At.done _ _ s.log ?_⟩
      rw [Execution.finish, connected_nil h.linked, List.foldl_nil]
      exact
        { idle := ⟨hidle.call, hidle.posted, hidle.running⟩
          log := by rw [hlast]
          ran := hran
          ended := by
            intro id hid
            rcases h.ended id (hran ▸ hid) with hfinished | ⟨_, hrunning⟩
            · exact hfinished
            · cases hrunning
              exact absurd (hlast ▸ hid) hroot
          unfinished := h.unfinished root.id (by rw [← hlast]; exact List.mem_cons_self)
          noError := h.noError }
  | cons frame frames =>
      have hcurrent := h.current frame List.mem_cons_self
      have hfinish : s.finish command =
          { s with
            m_commands := Function.update s.m_commands frame.id (some (frame.queue ++ command.appends))
            posted := [frame.command]
            log := s.log ++ [.finished command.id] } := by
        rw [Execution.finish, connected_eq h.linked h.connectedOnce, List.foldl_cons, List.foldl_nil]
        simp [Execution.add, Frame.command, CommandObject.id, hcurrent, hidle.posted]
      refine ⟨1 + weightOf ({ frame with queue := frame.queue ++ command.appends } :: frames), ?_, ?_⟩
      · simp only [weightOf, sizes_append]
        omega
      · rw [hfinish]
        apply @At.active root _ .posted
          ({ frame with queue := frame.queue ++ command.appends } :: frames)
        · exact h.finished.of_eq rfl rfl rfl
        · exact ⟨hidle.call, rfl, hidle.running⟩

/-- A batch is executed, for the first time or again. -/
theorem At.exec (hroot : root.id ∉ root.leaves) (hidle : s.Idle)
    (h : Core root s .posted (frame :: frames)) :
    ∃ w, w ≤ weightOf (frame :: frames) ∧ At root (s.exec frame.command) w := by
  have hcurrent := h.current frame List.mem_cons_self
  obtain ⟨id, constructed, appends, queue⟩ := frame
  cases queue with
  | nil =>
      have hexec : s.exec (Frame.command ⟨id, constructed, appends, []⟩) =
          s.finish (Frame.command ⟨id, constructed, appends, []⟩) := by
        simp only [Frame.command, Execution.exec, hcurrent]
      obtain ⟨w, hw, hat⟩ := @At.finish root s frames (.batch id constructed appends) hroot hidle
        (@Core.emptied root s ⟨id, constructed, appends, []⟩ frames h)
      refine ⟨w, ?_, hexec ▸ hat⟩
      simp only [weightOf, sizes, CommandObject.appends] at hw ⊢
      omega
  | cons next rest =>
      have hexec : s.exec (Frame.command ⟨id, constructed, appends, next :: rest⟩) =
          { s with
            m_commands := Function.update s.m_commands id (some rest)
            connections := (next.id, .batch id constructed appends) :: s.connections
            call := some next } := by
        simp only [Frame.command, Execution.exec, hcurrent]
      refine ⟨weight (.calling next) (⟨id, constructed, appends, rest⟩ :: frames), ?_, ?_⟩
      · simp only [weight, weightOf, sizes]
        omega
      · rw [hexec]
        apply At.active
        · exact Core.of_eq (@Core.take root s ⟨id, constructed, appends, []⟩ frames rest next h) rfl rfl rfl
        · exact ⟨rfl, hidle.posted, hidle.running⟩

/-- An error ends the traversal. -/
theorem At.fail {id : ℕ} {appends : List CommandObject} (hidle : s.Idle)
    (h : Core root s (.running id appends) frames) :
    At root (s.fail (.leaf id appends)) 0 := by
  have herrors := errors_eq h.linked h.connectedOnce
  apply @At.failed _ _ s.log (id :: frames.map Frame.id)
  exact
    { idle := ⟨hidle.call, hidle.posted, hidle.running⟩
      log := by
        rw [Execution.fail, CommandObject.id, herrors, List.map_cons, List.map_map]
        rfl
      ran := ⟨_, h.ran⟩
      ended := by
        intro other hother
        rcases h.ended other hother with hfinished | ⟨_, hrunning⟩
        · exact .inl hfinished
        · cases hrunning
          exact .inr List.mem_cons_self
      unfinished := h.unfinished root.id
        (List.mem_append_left _ (List.mem_of_getLast? h.last))
      noError := h.noError
      distinct := (List.nodup_append.mp h.distinct).1
      last := h.last }

theorem Execution.Idle.not_enabled (h : s.Idle) (event : BatchEvent) :
    ¬ batches.enabled s event := by
  cases event <;> simp [batches, h.call, h.posted, h.running]

theorem At.next_calling {command : CommandObject} {event : BatchEvent}
    (hroot : root.id ∉ root.leaves) (core : Core root s (.calling command) frames)
    (holds : (Focus.calling command).Holds s frames) (henabled : batches.enabled s event) :
    ∃ w, w < weight (.calling command) frames ∧ At root (batches.next s event) w := by
  obtain ⟨hcall, hposted, hrunning⟩ := holds
  cases event with
  | call =>
      have hnext : batches.next s .call = { s with call := none }.exec command := by
        simp [batches, hcall]
      rw [hnext]
      cases command with
      | leaf id appends =>
          refine ⟨weight (.running id appends) frames, ?_, At.active ?_ ?_⟩
          · simp only [weight, CommandObject.size]
            omega
          · exact core.ran_leaf.of_eq rfl rfl rfl
          · exact ⟨rfl, hposted, by rw [Execution.exec, hrunning]; rfl⟩
      | batch id commands appends =>
          have hbatch : Core root { s with call := none } .posted
              (⟨id, commands, appends, commands⟩ :: frames) := core.called_batch.of_eq rfl rfl rfl
          have hidle : Execution.Idle { s with call := none } := ⟨rfl, hposted, hrunning⟩
          obtain ⟨w, hw, hat⟩ := At.exec hroot hidle hbatch
          refine ⟨w, ?_, hat⟩
          simp only [weight, weightOf, CommandObject.size] at hw ⊢
          omega
  | deliver => exact absurd (hcall.symm.trans henabled.1) (Option.some_ne_none command)
  | finish other => exact absurd (hcall.symm.trans henabled.1) (Option.some_ne_none command)
  | error other => exact absurd (hcall.symm.trans henabled.1) (Option.some_ne_none command)

theorem At.next_running {id : ℕ} {appends : List CommandObject} {event : BatchEvent}
    (hroot : root.id ∉ root.leaves) (core : Core root s (.running id appends) frames)
    (holds : (Focus.running id appends).Holds s frames) (henabled : batches.enabled s event) :
    ∃ w, w < weight (.running id appends) frames ∧ At root (batches.next s event) w := by
  obtain ⟨hcall, hposted, hrunning⟩ := holds
  have hidle : Execution.Idle { s with
      running := s.running.filter (fun other => other.id != (CommandObject.leaf id appends).id) } :=
    ⟨hcall, hposted, by simp [hrunning]⟩
  have hcore : Core root { s with
      running := s.running.filter (fun other => other.id != (CommandObject.leaf id appends).id) }
        (.running id appends) frames := core.of_eq rfl rfl rfl
  cases event with
  | call => exact absurd hcall henabled
  | deliver => exact absurd hposted henabled.2
  | finish command =>
      have hcommand : command = .leaf id appends := by simpa [hrunning] using henabled.2
      subst hcommand
      obtain ⟨w, hw, hat⟩ := @At.finish root _ frames (.leaf id appends) hroot hidle hcore
      refine ⟨w, ?_, hat⟩
      simp only [weight, CommandObject.appends] at hw ⊢
      omega
  | error command =>
      have hcommand : command = .leaf id appends := by simpa [hrunning] using henabled.2
      subst hcommand
      refine ⟨0, ?_, At.fail hidle hcore⟩
      simp only [weight]
      omega

theorem At.next_posted {event : BatchEvent} (hroot : root.id ∉ root.leaves)
    (core : Core root s .posted (frame :: frames)) (holds : Focus.posted.Holds s (frame :: frames))
    (henabled : batches.enabled s event) :
    ∃ w, w < weight .posted (frame :: frames) ∧ At root (batches.next s event) w := by
  obtain ⟨hcall, hposted, hrunning⟩ := holds
  cases event with
  | call => exact absurd hcall henabled
  | deliver =>
      have hnext : batches.next s .deliver = { s with posted := [] }.exec frame.command := by
        simp [batches, hposted]
      have hcore : Core root { s with posted := [] } .posted (frame :: frames) :=
        core.of_eq rfl rfl rfl
      have hidle : Execution.Idle { s with posted := [] } := ⟨hcall, rfl, hrunning⟩
      obtain ⟨w, hw, hat⟩ := At.exec hroot hidle hcore
      rw [hnext]
      refine ⟨w, ?_, hat⟩
      simp only [weight]
      omega
  | finish command => simp [batches, hrunning] at henabled
  | error command => simp [batches, hrunning] at henabled

/-- Every event brings the traversal on. -/
theorem At.next {w : ℕ} {event : BatchEvent} (hroot : root.id ∉ root.leaves) (h : At root s w)
    (henabled : batches.enabled s event) : ∃ w', w' < w ∧ At root (batches.next s event) w' := by
  cases h with
  | done done => exact absurd henabled (done.idle.not_enabled event)
  | failed failed => exact absurd henabled (failed.idle.not_enabled event)
  | @active focus frames core holds =>
      cases focus with
      | calling command => exact At.next_calling hroot core holds henabled
      | running id appends => exact At.next_running hroot core holds henabled
      | posted =>
          cases frames with
          | nil => exact holds.elim
          | cons frame frames => exact At.next_posted hroot core holds henabled

/-- A run is no longer than what there is to come. -/
theorem At.run {w : ℕ} {events : List BatchEvent} (hroot : root.id ∉ root.leaves)
    (h : At root s w) (hvalid : batches.Valid s events) :
    ∃ w', events.length + w' ≤ w ∧ At root (batches.run s events) w' := by
  induction events generalizing s w with
  | nil => exact ⟨w, by simp, h⟩
  | cons event events ih =>
      obtain ⟨w', hw', hnext⟩ := h.next hroot hvalid.1
      obtain ⟨w'', hw'', hrun⟩ := ih hnext hvalid.2
      exact ⟨w'', by rw [List.length_cons]; omega, hrun⟩

end

/-! ## What an execution shows -/

theorem count_leaves_le (id : ℕ) (commands : List CommandObject) :
    (leaves commands).count id ≤ (idsOf commands).count id := by
  induction commands using leaves.induct with
  | case1 => simp [leaves]
  | case2 other appends rest ih =>
      simp only [leaves, idsOf, CommandObject.ids, idsOf_append, List.count_append,
        List.count_cons] at ih ⊢
      omega
  | case3 other commands appends rest ih₁ ih₂ =>
      simp only [leaves, idsOf, CommandObject.ids, idsOf_append, List.count_append,
        List.count_cons] at ih₁ ih₂ ⊢
      omega

/-- The leaves are among the commands, which are different objects. -/
theorem leaves_of_distinct {id : ℕ} {commands : List CommandObject}
    (h : (CommandObject.batch id commands []).ids.Nodup) :
    id ∉ (CommandObject.batch id commands []).leaves ∧
      (CommandObject.batch id commands []).leaves.Nodup := by
  rw [CommandObject.ids, idsOf, List.append_nil, List.nodup_cons] at h
  rw [CommandObject.leaves]
  constructor
  · intro hid
    have hcount := count_leaves_le id commands
    rw [List.count_eq_zero.mpr h.1, Nat.le_zero, List.count_eq_zero] at hcount
    exact hcount hid
  · rw [List.nodup_iff_count_le_one] at h ⊢
    intro other
    exact Nat.le_trans (count_leaves_le other commands) (h.2 other)

/-- What is said of every place where a signal stands, when it does not stand anywhere. -/
theorem not_mem_of_split {α : Type*} {signal : α} {log before after : List α}
    (h : signal ∉ log) (hsplit : log = before ++ signal :: after) : False :=
  h (hsplit ▸ List.mem_append_right before List.mem_cons_self)

theorem Core.depthFirst {root : CommandObject} {s : Execution} {focus : Focus}
    {frames : List Frame} (hleaves : root.leaves.Nodup) (h : Core root s focus frames)
    (holds : focus.Holds s frames) : DepthFirst root s := by
  have hprefix : ranIds s.log <+: root.leaves := ⟨_, h.ran⟩
  have hroot : BatchSignal.finished root.id ∉ s.log :=
    h.unfinished root.id (List.mem_append_left _ (List.mem_of_getLast? h.last))
  have hgoing : s.running.length ≤ 1 ∧ ¬ (s.call = none ∧ s.posted = [] ∧ s.running = []) := by
    cases focus with
    | calling command => simp [holds.1, holds.2.2]
    | running id appends => simp [holds.2.2]
    | posted =>
        cases frames with
        | nil => exact holds.elim
        | cons frame frames => simp [holds.2.1, holds.2.2]
  exact
    { alone := hgoing.1
      ended := by
        intro id hid
        rcases h.ended id hid with hfinished | ⟨appends, rfl⟩
        · exact .inl hfinished
        · refine .inr (.inr ?_)
          rw [holds.2.2]
          exact List.mem_cons_self
      order := hprefix
      once := hleaves.sublist hprefix.sublist
      finishedOnce := by rw [List.count_eq_zero.mpr hroot]; exact Nat.zero_le 1
      finishedLast := fun _ _ hsplit => (not_mem_of_split hroot hsplit).elim
      errorOnce := fun id hid => absurd hid (h.noError id)
      errorLast := fun _ id _ hsplit => (not_mem_of_split (h.noError id) hsplit).elim
      complete := fun hcall hposted hrunning => absurd ⟨hcall, hposted, hrunning⟩ hgoing.2 }

/-- A log that ends with a signal that has not come before has it there only. -/
theorem split_concat {α : Type*} {signal : α} {start before after : List α} (h : signal ∉ start)
    (hsplit : start ++ [signal] = before ++ signal :: after) : before = start := by
  rcases List.eq_nil_or_concat after with rfl | ⟨after, last, rfl⟩
  · exact (List.append_inj' hsplit rfl).1.symm
  · exfalso
    rw [List.concat_eq_append, ← List.cons_append, ← List.append_assoc] at hsplit
    exact not_mem_of_split h (List.append_inj' hsplit rfl).1

theorem Done.depthFirst {root : CommandObject} {s : Execution} {before : List BatchSignal}
    (hleaves : root.leaves.Nodup) (h : Done root s before) : DepthFirst root s where
  alone := by rw [h.idle.running]; exact Nat.zero_le 1
  ended := by
    intro id hid
    rw [h.log] at hid ⊢
    have hran : id ∈ ranIds before := by simpa [ranIds] using hid
    exact .inl (List.mem_append_left _ (h.ended id (h.ran ▸ hran)))
  order := by
    have hran : ranIds s.log = root.leaves := by rw [h.log, ← h.ran]; simp [ranIds]
    exact hran ▸ List.prefix_refl _
  once := by
    have hran : ranIds s.log = root.leaves := by rw [h.log, ← h.ran]; simp [ranIds]
    rwa [hran]
  finishedOnce := by
    apply Nat.le_of_eq
    rw [h.log, List.count_append, List.count_eq_zero.mpr h.unfinished, List.count_singleton_self]
  finishedLast := by
    intro start after hsplit
    rw [h.log] at hsplit
    rw [split_concat h.unfinished hsplit]
    exact ⟨h.ran, h.ended⟩
  errorOnce := by
    intro id hid
    have hold : BatchSignal.error id ∈ before := by simpa [h.log] using hid
    exact absurd hold (h.noError id)
  errorLast := by
    intro start id after hsplit
    have hnone : BatchSignal.error id ∉ s.log := by simpa [h.log] using h.noError id
    exact (not_mem_of_split hnone hsplit).elim
  complete := fun _ _ _ => .inl (by rw [h.log]; exact List.mem_append_right _ List.mem_cons_self)

/-- What comes behind an error comes from where the errors are. -/
theorem after_errors {before start after : List BatchSignal} {chain : List ℕ} {id : ℕ}
    (h : .error id ∉ before)
    (hsplit : before ++ chain.map .error = start ++ .error id :: after) :
    after ⊆ chain.map .error := by
  rcases List.append_eq_append_iff.mp hsplit with ⟨between, -, herrors⟩ | ⟨between, hbefore, herrors⟩
  · intro signal hsignal
    rw [herrors]
    exact List.mem_append_right _ (List.mem_cons_of_mem _ hsignal)
  · cases between with
    | nil =>
        intro signal hsignal
        rw [List.nil_append] at herrors
        rw [← herrors]
        exact List.mem_cons_of_mem _ hsignal
    | cons signal between =>
        obtain ⟨rfl, -⟩ := List.cons_eq_cons.mp herrors
        exact (not_mem_of_split h hbefore).elim

theorem Failed.depthFirst {root : CommandObject} {s : Execution} {before : List BatchSignal}
    {chain : List ℕ} (hleaves : root.leaves.Nodup) (h : Failed root s before chain) :
    DepthFirst root s := by
  have hran : ranIds s.log = ranIds before := by simp [h.log, ranIds]
  have hfinished : BatchSignal.finished root.id ∉ s.log := by simpa [h.log] using h.unfinished
  have herror : BatchSignal.error root.id ∈ s.log := by
    rw [h.log]
    exact List.mem_append_right _ (List.mem_map_of_mem (List.mem_of_getLast? h.last))
  exact
    { alone := by rw [h.idle.running]; exact Nat.zero_le 1
      ended := by
        intro id hid
        rw [hran] at hid
        rw [h.log]
        rcases h.ended id hid with hfinished | hchain
        · exact .inl (List.mem_append_left _ hfinished)
        · exact .inr (.inl (List.mem_append_right _ (List.mem_map_of_mem hchain)))
      order := by rw [hran]; exact h.ran
      once := by rw [hran]; exact hleaves.sublist h.ran.sublist
      finishedOnce := by rw [List.count_eq_zero.mpr hfinished]; exact Nat.zero_le 1
      finishedLast := fun _ _ hsplit => (not_mem_of_split hfinished hsplit).elim
      errorOnce := by
        intro _ _
        refine ⟨?_, hfinished⟩
        have hinjective : Function.Injective BatchSignal.error := fun _ _ hsame => by cases hsame; rfl
        rw [h.log, List.count_append, List.count_eq_zero.mpr (h.noError root.id), Nat.zero_add]
        exact List.count_eq_one_of_mem (h.distinct.map hinjective)
          (List.mem_map_of_mem (List.mem_of_getLast? h.last))
      errorLast := by
        intro start id after hsplit
        rw [h.log] at hsplit
        have hafter := after_errors (h.noError id) hsplit
        rw [ranIds, List.filterMap_eq_nil_iff]
        intro signal hsignal
        obtain ⟨other, -, rfl⟩ := List.mem_map.mp (hafter hsignal)
        rfl
      complete := fun _ _ _ => .inr herror }

theorem DepthFirst.of_at {root : CommandObject} {s : Execution} {w : ℕ}
    (hleaves : root.leaves.Nodup) (h : At root s w) : DepthFirst root s := by
  cases h with
  | active core holds => exact core.depthFirst hleaves holds
  | done done => exact done.depthFirst hleaves
  | failed failed => exact failed.depthFirst hleaves

theorem Core.start {id : ℕ} {commands : List CommandObject}
    (h : (CommandObject.batch id commands []).ids.Nodup) :
    Core (.batch id commands []) (.start (.batch id commands []))
      (.calling (.batch id commands [])) [] where
  distinct := by
    rw [ids_eq] at h
    simpa [names, Focus.chain, pending, Focus.held] using h
  current := fun _ hframe => absurd hframe List.not_mem_nil
  constructed := fun _ _ => rfl
  connectedOnce := List.nodup_nil
  unconnected := fun _ _ => List.not_mem_nil
  called := fun _ _ => rfl
  rootFree := List.not_mem_nil
  linked := List.not_mem_nil
  last := rfl
  ran := List.append_nil _
  ended := fun _ hid => absurd hid List.not_mem_nil
  unfinished := fun _ _ => List.not_mem_nil
  noError := fun _ => List.not_mem_nil

theorem at_start {id : ℕ} {commands : List CommandObject}
    (h : (CommandObject.batch id commands []).ids.Nodup) :
    At (.batch id commands []) (.start (.batch id commands []))
      (3 * (CommandObject.batch id commands []).size) :=
  @At.active _ _ (.calling (.batch id commands [])) [] (Core.start h) ⟨rfl, rfl, rfl⟩

/-- Every execution of a batch goes through its tree depth first, and ends. -/
theorem batch_depthFirst (id : ℕ) (commands : List CommandObject)
    (hdistinct : (CommandObject.batch id commands []).ids.Nodup) (events : List BatchEvent)
    (hvalid : batches.Valid (.start (.batch id commands [])) events) :
    DepthFirst (.batch id commands []) (batches.run (.start (.batch id commands [])) events) ∧
      events.length ≤ 3 * (CommandObject.batch id commands []).size := by
  obtain ⟨hroot, hleaves⟩ := leaves_of_distinct hdistinct
  obtain ⟨w, hlength, hat⟩ := (at_start hdistinct).run hroot hvalid
  exact ⟨DepthFirst.of_at hleaves hat, by omega⟩

/-- A batch whose only command has another added to it. -/
theorem batch_depthFirst_growing :
    DepthFirst (.batch 0 [.leaf 1 [.leaf 2 []]] [])
        (batches.run (.start (.batch 0 [.leaf 1 [.leaf 2 []]] []))
          [.call, .call, .finish (.leaf 1 [.leaf 2 []]), .deliver]) ∧
      4 ≤ 3 * (CommandObject.batch 0 [.leaf 1 [.leaf 2 []]] []).size :=
  batch_depthFirst 0 [.leaf 1 [.leaf 2 []]] (by simp [CommandObject.ids, idsOf])
    [.call, .call, .finish (.leaf 1 [.leaf 2 []]), .deliver]
    ⟨Option.some_ne_none _, Option.some_ne_none _, ⟨rfl, List.mem_cons_self⟩,
      ⟨rfl, List.cons_ne_nil _ _⟩, trivial⟩

end GreenWallet.Ledger
