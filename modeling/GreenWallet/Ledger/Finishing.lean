import GreenWallet.Ledger.Traversal

/-!
# The order in which commands finish

A traversal determines which commands are still to finish, in which order and how deep in the
batches. What a handler adds to the batch of its command comes into this order behind what the
batch has left; the ids of such commands must not be in use.
-/
namespace GreenWallet.Ledger
open GreenWallet.Library

/-! ## The commands that are to finish -/

mutual
/-- The commands with their depths, a batch after its commands. -/
def CommandObject.toFinish (depth : ℕ) : CommandObject → List (ℕ × ℕ)
  | .leaf id _ => [(id, depth)]
  | .batch id commands _ => toFinishAll (depth + 1) commands ++ [(id, depth)]

def toFinishAll (depth : ℕ) : List CommandObject → List (ℕ × ℕ)
  | [] => []
  | command :: rest => command.toFinish depth ++ toFinishAll depth rest
end

theorem toFinish_ne_nil (depth : ℕ) (command : CommandObject) : command.toFinish depth ≠ [] := by
  cases command with
  | leaf id appends => exact List.cons_ne_nil _ _
  | batch id commands appends => simp [CommandObject.toFinish]

mutual
theorem CommandObject.le_of_mem_toFinish {depth : ℕ} {item : ℕ × ℕ} (command : CommandObject)
    (h : item ∈ command.toFinish depth) : depth ≤ item.2 := by
  cases command with
  | leaf id appends =>
      rw [CommandObject.toFinish, List.mem_singleton] at h
      exact Nat.le_of_eq (congrArg Prod.snd h).symm
  | batch id commands appends =>
      rw [CommandObject.toFinish, List.mem_append, List.mem_singleton] at h
      rcases h with hinner | rfl
      · exact Nat.le_of_succ_le (le_of_mem_toFinishAll commands hinner)
      · exact Nat.le_refl depth

theorem le_of_mem_toFinishAll {depth : ℕ} {item : ℕ × ℕ} (commands : List CommandObject)
    (h : item ∈ toFinishAll depth commands) : depth ≤ item.2 := by
  cases commands with
  | nil => cases h
  | cons command rest =>
      rw [toFinishAll, List.mem_append] at h
      rcases h with hfirst | hrest
      · exact CommandObject.le_of_mem_toFinish command hfirst
      · exact le_of_mem_toFinishAll rest hrest
end

mutual
theorem CommandObject.mem_ids_of_mem_toFinish {depth : ℕ} {item : ℕ × ℕ} (command : CommandObject)
    (h : item ∈ command.toFinish depth) : item.1 ∈ command.ids := by
  cases command with
  | leaf id appends =>
      rw [CommandObject.toFinish, List.mem_singleton] at h
      rw [h, CommandObject.ids]
      exact List.mem_cons_self
  | batch id commands appends =>
      rw [CommandObject.toFinish, List.mem_append, List.mem_singleton] at h
      rw [CommandObject.ids, List.mem_cons, List.mem_append]
      rcases h with hinner | rfl
      · exact .inr (.inl (mem_idsOf_of_mem_toFinishAll commands hinner))
      · exact .inl rfl

theorem mem_idsOf_of_mem_toFinishAll {depth : ℕ} {item : ℕ × ℕ} (commands : List CommandObject)
    (h : item ∈ toFinishAll depth commands) : item.1 ∈ idsOf commands := by
  cases commands with
  | nil => cases h
  | cons command rest =>
      rw [toFinishAll, List.mem_append] at h
      rw [idsOf, List.mem_append]
      rcases h with hfirst | hrest
      · exact .inl (CommandObject.mem_ids_of_mem_toFinish command hfirst)
      · exact .inr (mem_idsOf_of_mem_toFinishAll rest hrest)
end

/-- What the batches around a command have left to finish. -/
def leftToFinish : List Frame → List (ℕ × ℕ)
  | [] => []
  | frame :: frames =>
      toFinishAll (frames.length + 1) frame.queue ++ (frame.id, frames.length) :: leftToFinish frames

namespace Focus

def toFinish : Focus → List Frame → List (ℕ × ℕ)
  | .calling command, frames => command.toFinish frames.length ++ leftToFinish frames
  | .running id _, frames => (id, frames.length) :: leftToFinish frames
  | .posted, frames => leftToFinish frames

theorem toFinish_batch (id : ℕ) (commands appends : List CommandObject) (frames : List Frame) :
    Focus.posted.toFinish (⟨id, commands, appends, commands⟩ :: frames) =
      (Focus.calling (.batch id commands appends)).toFinish frames := by
  simp [toFinish, leftToFinish, CommandObject.toFinish]

theorem toFinish_take (frame : Frame) (next : CommandObject) (rest : List CommandObject)
    (frames : List Frame) :
    (Focus.calling next).toFinish ({ frame with queue := rest } :: frames) =
      Focus.posted.toFinish ({ frame with queue := next :: rest } :: frames) := by
  simp [toFinish, leftToFinish, toFinishAll]

theorem toFinish_emptied (frame : Frame) (appends : List CommandObject) (frames : List Frame) :
    Focus.posted.toFinish ({ frame with queue := [] } :: frames) =
      (Focus.running frame.id appends).toFinish frames := by
  simp [toFinish, leftToFinish, toFinishAll]

/-- If the innermost batch is the next to finish, it has nothing left, and commands that it gets
come first. -/
theorem toFinish_more {frame : Frame} {frames : List Frame} {next : ℕ × ℕ} {rest : List (ℕ × ℕ)}
    (more : List CommandObject) (hlast : Focus.posted.toFinish (frame :: frames) = next :: rest)
    (hdepth : next.2 = frames.length) :
    Focus.posted.toFinish ({ frame with queue := frame.queue ++ more } :: frames) =
      toFinishAll (frames.length + 1) more ++ next :: rest := by
  rw [toFinish, leftToFinish] at hlast ⊢
  cases hqueue : frame.queue with
  | nil =>
      rw [hqueue] at hlast
      rw [List.nil_append, ← hlast]
      rfl
  | cons command queue =>
      exfalso
      rw [hqueue, toFinishAll] at hlast
      cases hfirst : command.toFinish (frames.length + 1) with
      | nil => exact toFinish_ne_nil _ command hfirst
      | cons item items =>
          rw [hfirst, List.cons_append, List.cons_append] at hlast
          have hle := CommandObject.le_of_mem_toFinish command (hfirst ▸ List.mem_cons_self)
          rw [(List.cons_eq_cons.mp hlast).1, hdepth] at hle
          exact absurd hle (Nat.not_succ_le_self _)

theorem toFinish_nothing (frame : Frame) (frames : List Frame) :
    Focus.posted.toFinish ({ frame with queue := frame.queue ++ [] } :: frames) =
      Focus.posted.toFinish (frame :: frames) := by
  rw [List.append_nil]

end Focus

theorem mem_of_mem_leftToFinish {frames : List Frame} {item : ℕ × ℕ}
    (h : item ∈ leftToFinish frames) : item.1 ∈ frames.map Frame.id ∨
      item.1 ∈ idsOf (frames.flatMap fun frame => frame.queue ++ frame.appends) := by
  induction frames with
  | nil => cases h
  | cons frame frames ih =>
      rw [leftToFinish, List.mem_append, List.mem_cons] at h
      rw [List.map_cons, List.mem_cons, List.flatMap_cons, idsOf_append, idsOf_append]
      simp only [List.mem_append]
      rcases h with hqueue | rfl | hrest
      · exact .inr (.inl (.inl (mem_idsOf_of_mem_toFinishAll _ hqueue)))
      · exact .inl (.inl rfl)
      · exact (ih hrest).imp .inr .inr

/-- What is to finish is in play. -/
theorem mem_names_of_mem_toFinish {focus : Focus} {frames : List Frame} {item : ℕ × ℕ}
    (h : item ∈ focus.toFinish frames) : item.1 ∈ names focus frames := by
  cases focus with
  | calling command =>
      rw [Focus.toFinish, List.mem_append] at h
      rw [names, Focus.chain, pending, Focus.held, idsOf_append]
      rcases h with hcommand | hrest
      · have hids := CommandObject.mem_ids_of_mem_toFinish command hcommand
        rw [ids_eq, List.mem_cons] at hids
        simp only [List.mem_append, List.mem_cons]
        tauto
      · have hids := mem_of_mem_leftToFinish hrest
        simp only [List.mem_append, List.mem_cons]
        tauto
  | running id appends =>
      rw [Focus.toFinish, List.mem_cons] at h
      rw [names, Focus.chain, pending, Focus.held, idsOf_append]
      simp only [List.mem_append, List.mem_cons]
      rcases h with rfl | hrest
      · exact .inl (.inl rfl)
      · have hids := mem_of_mem_leftToFinish hrest
        tauto
  | posted =>
      have hids := mem_of_mem_leftToFinish h
      rw [names, Focus.chain, pending, Focus.held, List.nil_append, List.mem_append]
      exact hids

/-! ## Commands that are added -/

/-- Ids from `n` on have not been used. -/
structure Unused (s : Execution) (focus : Focus) (frames : List Frame) (n : ℕ) : Prop where
  named : ∀ id ∈ names focus frames, id < n
  commands : ∀ id, s.m_commands id ≠ none → id < n
  connections : ∀ id ∈ s.connections.map Prod.fst, id < n
  finished : ∀ id, .finished id ∈ s.log → id < n

theorem leaves_leaf (ids : List ℕ) : leaves (ids.map fun id => .leaf id []) = ids := by
  induction ids with
  | nil => rw [List.map_nil, leaves]
  | cons id ids ih => rw [List.map_cons, leaves, List.append_nil, ih]

/-- A batch with these leaves. -/
def withLeaves (id : ℕ) (ids : List ℕ) : CommandObject :=
  .batch id (ids.map fun leaf => .leaf leaf []) []

theorem leaves_withLeaves (id : ℕ) (ids : List ℕ) : (withLeaves id ids).leaves = ids := by
  rw [withLeaves, CommandObject.leaves, leaves_leaf]

section
variable {root : CommandObject} {s : Execution} {frames : List Frame} {id n : ℕ}
variable {appends more : List CommandObject}

theorem names_running (id : ℕ) (appends : List CommandObject) (frames : List Frame) :
    names (.running id appends) frames =
      (id :: frames.map Frame.id) ++ (idsOf appends ++
        idsOf (frames.flatMap fun frame => frame.queue ++ frame.appends)) := by
  rw [names, Focus.chain, pending, Focus.held, idsOf_append]

/-- What is in play when a command adds others than it was thought to. -/
theorem mem_names_running {other : ℕ} (hother : other ∈ names (.running id more) frames) :
    other ∈ idsOf more ∨ other ∈ names (.running id appends) frames := by
  rw [names_running] at hother ⊢
  simp only [List.mem_append] at hother ⊢
  tauto

/-- Ids that come next are no ids in play. -/
theorem nodup_names_running (hold : (names (.running id appends) frames).Nodup)
    (hbelow : ∀ other ∈ names (.running id appends) frames, other < n) (hmore : (idsOf more).Nodup)
    (hfresh : ∀ other ∈ idsOf more, n ≤ other) : (names (.running id more) frames).Nodup := by
  rw [names_running] at hbelow
  rw [names_running, List.nodup_append, List.nodup_append] at hold ⊢
  obtain ⟨hchain, ⟨-, hrest, -⟩, hapart⟩ := hold
  refine ⟨hchain, ⟨hmore, hrest, ?_⟩, ?_⟩
  · intro other hother another hanother
    have hlt := hbelow another (List.mem_append_right _ (List.mem_append_right _ hanother))
    exact (Nat.ne_of_lt (Nat.lt_of_lt_of_le hlt (hfresh other hother))).symm
  · intro other hother another hanother
    rcases List.mem_append.mp hanother with hnew | hold
    · have hlt := hbelow other (List.mem_append_left _ hother)
      exact Nat.ne_of_lt (Nat.lt_of_lt_of_le hlt (hfresh another hnew))
    · exact hapart other hother another (List.mem_append_right _ hold)

/-- A command that is to finish adds other commands than it was thought to, whose ids have not
been used. Then the tree is another one too. -/
theorem Core.adds (h : Core root s (.running id appends) frames)
    (hunused : Unused s (.running id appends) frames n) (hmore : (idsOf more).Nodup)
    (hfresh : ∀ other ∈ idsOf more, n ≤ other) :
    Core (withLeaves root.id (ranIds s.log ++ toRun (.running id more) frames)) s
      (.running id more) frames := by
  have hpending : ∀ other ∈ idsOf (pending (.running id more) frames),
      other ∈ idsOf more ∨ other ∈ idsOf (pending (.running id appends) frames) := by
    intro other hother
    rw [pending, Focus.held, idsOf_append, List.mem_append] at hother ⊢
    tauto
  refine
    { distinct := ?_
      current := h.current
      constructed := ?_
      connectedOnce := h.connectedOnce
      unconnected := ?_
      called := fun command hcommand => by cases hcommand
      rootFree := h.rootFree
      linked := h.linked
      last := h.last
      ran := (leaves_withLeaves _ _).symm
      ended := ?_
      unfinished := ?_
      noError := h.noError }
  · exact nodup_names_running h.distinct hunused.named hmore hfresh
  · intro other hother
    rcases hpending other hother with hnew | hold
    · by_contra hused
      exact absurd (hunused.commands other hused) (Nat.not_lt.mpr (hfresh other hnew))
    · exact h.constructed other hold
  · intro other hother hconnected
    rcases hpending other hother with hnew | hold
    · exact absurd (hunused.connections other hconnected) (Nat.not_lt.mpr (hfresh other hnew))
    · exact h.unconnected other hold hconnected
  · intro other hother
    rcases h.ended other hother with hfinished | ⟨_, hrunning⟩
    · exact .inl hfinished
    · cases hrunning
      exact .inr ⟨more, rfl⟩
  · intro other hother hfinished
    rcases mem_names_running hother with hnew | hold
    · exact absurd (hunused.finished other hfinished) (Nat.not_lt.mpr (hfresh other hnew))
    · exact h.unfinished other hold hfinished


/-! ## The steps and the ids in use -/

theorem Unused.mono {s t : Execution} {focus focus' : Focus} {frames frames' : List Frame} {n : ℕ}
    (h : Unused s focus frames n) (hnames : ∀ id ∈ names focus' frames', id ∈ names focus frames)
    (hcommands : ∀ id, t.m_commands id ≠ none → s.m_commands id ≠ none ∨ id ∈ names focus frames)
    (hconnections : ∀ id ∈ t.connections.map Prod.fst,
      id ∈ s.connections.map Prod.fst ∨ id ∈ names focus frames)
    (hfinished : ∀ id, .finished id ∈ t.log → .finished id ∈ s.log ∨ id ∈ names focus frames) :
    Unused t focus' frames' n where
  named id hid := h.named id (hnames id hid)
  commands id hid := (hcommands id hid).elim (h.commands id) (h.named id)
  connections id hid := (hconnections id hid).elim (h.connections id) (h.named id)
  finished id hid := (hfinished id hid).elim (h.finished id) (h.named id)

theorem used_of_update {m_commands : ℕ → Option (List CommandObject)} {batch other : ℕ}
    {queue : List CommandObject}
    (h : Function.update m_commands batch (some queue) other ≠ none) :
    m_commands other ≠ none ∨ other = batch := by
  by_cases hsame : other = batch
  · exact .inr hsame
  · rw [Function.update_of_ne hsame] at h
    exact .inl h

/-- The execution is at this point of the traversal, and the ids from `n` on are free. -/
structure Walk (root : CommandObject) (s : Execution) (focus : Focus) (frames : List Frame) (n : ℕ) :
    Prop where
  core : Core root s focus frames
  holds : focus.Holds s frames
  unused : Unused s focus frames n

theorem Unused.of_eq {s t : Execution} {focus : Focus} (h : Unused s focus frames n)
    (hcommands : t.m_commands = s.m_commands) (hconnections : t.connections = s.connections)
    (hlog : t.log = s.log) : Unused t focus frames n where
  named := h.named
  commands := hcommands ▸ h.commands
  connections := hconnections ▸ h.connections
  finished := hlog ▸ h.finished

/-- Commands whose ids come next are among those in use from then on. -/
theorem Unused.adds {m : ℕ} (h : Unused s (.running id appends) frames n)
    (hmore : ∀ other ∈ idsOf more, other < m) (hle : n ≤ m) :
    Unused s (.running id more) frames m where
  named := by
    intro other hother
    rw [names_running] at hother
    simp only [List.mem_append] at hother
    have hbelow := h.named other
    rw [names_running] at hbelow
    simp only [List.mem_append] at hbelow
    rcases hother with hchain | hnew | hrest
    · exact Nat.lt_of_lt_of_le (hbelow (.inl hchain)) hle
    · exact hmore other hnew
    · exact Nat.lt_of_lt_of_le (hbelow (.inr (.inr hrest))) hle
  commands other hother := Nat.lt_of_lt_of_le (h.commands other hother) hle
  connections other hother := Nat.lt_of_lt_of_le (h.connections other hother) hle
  finished other hother := Nat.lt_of_lt_of_le (h.finished other hother) hle

theorem Walk.ran_leaf (h : Walk root s (.calling (.leaf id appends)) frames n) :
    Walk root ({ s with call := none }.exec (.leaf id appends)) (.running id appends) frames n where
  core := h.core.ran_leaf.of_eq rfl rfl rfl
  holds := ⟨rfl, h.holds.2.1, by rw [Execution.exec, h.holds.2.2]; rfl⟩
  unused := by
    apply h.unused.mono
    · intro other hother
      simpa [names, pending, Focus.chain, Focus.held, CommandObject.held, CommandObject.id] using hother
    · exact fun _ hother => .inl hother
    · exact fun _ hother => .inl hother
    · intro other hother
      left
      simpa [Execution.exec] using hother

/-- A batch takes the next of its commands. -/
theorem Walk.take {frame : Frame} {next : CommandObject} {rest : List CommandObject}
    (hidle : s.Idle) (hcore : Core root s .posted ({ frame with queue := next :: rest } :: frames))
    (hunused : Unused s .posted ({ frame with queue := next :: rest } :: frames) n) :
    Walk root (s.exec frame.command) (.calling next) ({ frame with queue := rest } :: frames) n := by
  have hcurrent := hcore.current { frame with queue := next :: rest } List.mem_cons_self
  have hexec : s.exec frame.command =
      { s with
        m_commands := Function.update s.m_commands frame.id (some rest)
        connections := (next.id, frame.command) :: s.connections
        call := some next } := by
    simp only [Frame.command, Execution.exec, hcurrent]
  have hnames := names_take frame next rest frames
  have hnext : next.id ∈ names .posted ({ frame with queue := next :: rest } :: frames) :=
    hnames.mem_iff.mp (List.mem_append_left _ List.mem_cons_self)
  have hframe : frame.id ∈ names .posted ({ frame with queue := next :: rest } :: frames) :=
    List.mem_append_left _ List.mem_cons_self
  rw [hexec]
  refine ⟨hcore.take.of_eq rfl rfl rfl, ⟨rfl, hidle.posted, hidle.running⟩, ?_⟩
  apply hunused.mono (fun other hother => hnames.mem_iff.mp hother)
  · intro other hother
    rcases used_of_update hother with hold | rfl
    · exact .inl hold
    · exact .inr hframe
  · intro other hother
    rw [List.map_cons, List.mem_cons] at hother
    rcases hother with rfl | hold
    · exact .inr hnext
    · exact .inl hold
  · exact fun _ hother => .inl hother

/-- A command finishes, and its batch is to go on. -/
theorem Walk.finished {frame : Frame} (hidle : s.Idle)
    (hcore : Core root s (.running id more) (frame :: frames))
    (hunused : Unused s (.running id more) (frame :: frames) n) :
    Walk root (s.finish (.leaf id more)) .posted
      ({ frame with queue := frame.queue ++ more } :: frames) n := by
  have hcurrent := hcore.current frame List.mem_cons_self
  have hfinish : s.finish (.leaf id more) =
      { s with
        m_commands := Function.update s.m_commands frame.id (some (frame.queue ++ more))
        posted := [frame.command]
        log := s.log ++ [.finished id] } := by
    rw [Execution.finish, CommandObject.id, connected_eq hcore.linked hcore.connectedOnce,
      List.foldl_cons, List.foldl_nil]
    simp [Execution.add, Frame.command, CommandObject.id, CommandObject.appends, hcurrent,
      hidle.posted]
  have hnames := names_finish id more frame frames
  have hframe : frame.id ∈ names (.running id more) (frame :: frames) :=
    List.mem_append_left _ (List.mem_cons_of_mem _ List.mem_cons_self)
  rw [hfinish]
  refine ⟨hcore.finished.of_eq rfl rfl rfl, ⟨hidle.call, rfl, hidle.running⟩, ?_⟩
  apply hunused.mono (fun other hother => hnames.mem_iff.mpr (List.mem_cons_of_mem _ hother))
  · intro other hother
    rcases used_of_update hother with hold | rfl
    · exact .inl hold
    · exact .inr hframe
  · exact fun _ hother => .inl hother
  · intro other hother
    rcases List.mem_append.mp hother with hold | hnew
    · exact .inl hold
    · obtain rfl : other = id := by simpa using hnew
      exact .inr (List.mem_append_left _ List.mem_cons_self)

/-- The outermost batch finishes. -/
theorem log_finish_root (hcore : Core root s (.running id appends) []) :
    s.finish (.leaf id more) = { s with log := s.log ++ [.finished root.id] } := by
  have hlast : id = root.id := by simpa [Focus.chain] using hcore.last
  rw [Execution.finish, CommandObject.id, connected_nil hcore.linked, List.foldl_nil, hlast]

/-- An error goes outwards to the outermost batch. -/
theorem log_fail (hcore : Core root s (.running id appends) frames) :
    (s.fail (.leaf id appends)).log = s.log ++ (id :: frames.map Frame.id).map .error := by
  rw [Execution.fail, CommandObject.id, errors_eq hcore.linked hcore.connectedOnce, List.map_cons,
    List.map_map]
  rfl

end

end GreenWallet.Ledger
