import Mathlib.Data.List.Nodup
import GreenWallet.Library.Reactive
import GreenWallet.Tasks.World

/-!
# The monitor of task groups

A monitor lists the groups it has been given until they end, and calls itself idle when
none of those it lists is `Active`. A group that has ended is listed no more, also when a
task that is added to it makes it `Active` again.
-/
namespace GreenWallet.Tasks
open GreenWallet.Library

/-- The monitor, and the statuses of all groups. -/
structure TaskGroupMonitor where
  status : GroupId → Status := fun _ => .ready
  groups : List GroupId := []
  /-- The groups whose signals are connected. -/
  connected : List GroupId := []

inductive MonitorSignal where
  | groupsChanged | idleChanged | allFinishedOrFailed
deriving DecidableEq, Repr

inductive MonitorEvent where
  | add (group : GroupId)
  /-- `TaskGroup::setStatus`. -/
  | setStatus (group : GroupId) (status : Status)
  | clear
deriving DecidableEq, Repr

namespace TaskGroupMonitor

def idle (m : TaskGroupMonitor) : Bool := m.groups.all fun group => m.status group ≠ .active

def add (group : GroupId) (m : TaskGroupMonitor) : TaskGroupMonitor :=
  { m with groups := m.groups ++ [group], connected := m.connected ++ [group] }

def remove (group : GroupId) (m : TaskGroupMonitor) : TaskGroupMonitor × List MonitorSignal :=
  if group ∈ m.groups then
    ({ m with groups := m.groups.erase group },
      if m.groups.erase group = [] then [.groupsChanged, .idleChanged, .allFinishedOrFailed]
      else [.groupsChanged, .idleChanged])
  else (m, [])

def clear (m : TaskGroupMonitor) : TaskGroupMonitor := { m with groups := [] }

def write (group : GroupId) (status : Status) (m : TaskGroupMonitor) : TaskGroupMonitor :=
  { m with status := Function.update m.status group status }

/-- `TaskGroup::setStatus`, with the slots that the monitor has connected. -/
def setStatus (group : GroupId) (status : Status) (m : TaskGroupMonitor) :
    TaskGroupMonitor × List MonitorSignal :=
  if m.status group = status then (m, [])
  else if group ∈ m.connected then
    if status.isTerminal then
      (((m.write group status).remove group).1,
        .idleChanged :: ((m.write group status).remove group).2)
    else (m.write group status, [.idleChanged])
  else (m.write group status, [])

/-- A group is added once, before it has done anything. No group becomes `Ready` again,
and a failed one stays so. -/
def enabled (m : TaskGroupMonitor) : MonitorEvent → Prop
  | .add group => group ∉ m.connected ∧ m.status group = .ready
  | .setStatus group status => m.status group ≠ .failed ∧ status ≠ .ready
  | .clear => True

def next (m : TaskGroupMonitor) : MonitorEvent → TaskGroupMonitor
  | .add group => m.add group
  | .setStatus group status => (m.setStatus group status).1
  | .clear => m.clear

def emits (m : TaskGroupMonitor) : MonitorEvent → List MonitorSignal
  | .add _ => [.groupsChanged]
  | .setStatus group status => (m.setStatus group status).2
  | .clear => [.groupsChanged, .idleChanged, .allFinishedOrFailed]

def reactive : Reactive TaskGroupMonitor MonitorEvent MonitorSignal where
  enabled := enabled
  next := next
  emits := emits

/-- The monitor after a run. -/
def after (es : List MonitorEvent) : TaskGroupMonitor := reactive.run {} es

end TaskGroupMonitor

namespace MonitorEvent

/-- The groups added since the last clear, after one event more. -/
def addedNext (added : List GroupId) : MonitorEvent → List GroupId
  | .add group => added ++ [group]
  | .setStatus .. => added
  | .clear => []

def added (es : List MonitorEvent) : List GroupId := es.foldl addedNext []

/-- The event is the end of the group. -/
def ends (group : GroupId) : MonitorEvent → Bool
  | .setStatus g status => g = group && status.isTerminal
  | .add _ | .clear => false

/-- The group has finished or failed before, whatever it does now. -/
def ended (es : List MonitorEvent) (group : GroupId) : Bool := es.any (ends group)

@[simp] theorem added_concat (es : List MonitorEvent) (e : MonitorEvent) :
    added (es ++ [e]) = addedNext (added es) e := by
  rw [added, List.foldl_append]
  rfl

@[simp] theorem ended_concat (es : List MonitorEvent) (e : MonitorEvent) (group : GroupId) :
    ended (es ++ [e]) group = (ended es group || ends group e) := by
  simp [ended]

/-- A group added since the last clear that is neither `Finished` nor `Failed`. -/
def Unfinished (es : List MonitorEvent) (group : GroupId) : Prop :=
  group ∈ added es ∧ ((TaskGroupMonitor.after es).status group).isTerminal = false

/-- A group added since the last clear that has never ended. -/
def Lasting (es : List MonitorEvent) (group : GroupId) : Prop :=
  group ∈ added es ∧ ended es group = false

/-- An unfinished group that has ended before: it has been activated again. -/
def Resumed (es : List MonitorEvent) (group : GroupId) : Prop :=
  Unfinished es group ∧ ended es group = true

end MonitorEvent

namespace TaskGroupMonitor
open MonitorEvent

/-- What the run has left in the monitor. -/
structure Tracks (es : List MonitorEvent) (m : TaskGroupMonitor) : Prop where
  groups : ∀ group, group ∈ m.groups ↔ group ∈ added es ∧ ended es group = false
  nodup : m.groups.Nodup
  connected : ∀ group ∈ added es, group ∈ m.connected
  terminal : ∀ group, ended es group = false → (m.status group).isTerminal = false
  ready : ∀ group, m.status group = .ready → ended es group = false

theorem tracks_initial : Tracks [] {} := by
  constructor <;> simp [added, ended, Status.isTerminal]

theorem Tracks.add {es : List MonitorEvent} {m : TaskGroupMonitor} (h : Tracks es m)
    {group : GroupId} (he : m.enabled (.add group)) : Tracks (es ++ [.add group]) (m.add group) := by
  have hnew : group ∉ m.groups := fun hmem => he.1 (h.connected group ((h.groups group).mp hmem).1)
  have hfresh := h.ready group he.2
  constructor
  · intro g
    simp only [TaskGroupMonitor.add, added_concat, addedNext, ended_concat, ends, Bool.or_false,
      List.mem_append, List.mem_singleton, h.groups g]
    grind
  · exact List.Nodup.append h.nodup (List.nodup_singleton group) (by simpa using hnew)
  · intro g hg
    simp only [added_concat, addedNext, List.mem_append, List.mem_singleton] at hg
    simp only [TaskGroupMonitor.add, List.mem_append, List.mem_singleton]
    exact hg.imp_left (h.connected g)
  · intro g hg
    simp only [ended_concat, ends, Bool.or_false] at hg
    exact h.terminal g hg
  · intro g hg
    simp only [ended_concat, ends, Bool.or_false]
    exact h.ready g hg

theorem Tracks.clear {es : List MonitorEvent} {m : TaskGroupMonitor} (h : Tracks es m) :
    Tracks (es ++ [.clear]) m.clear := by
  constructor
  · intro g
    simp [TaskGroupMonitor.clear, addedNext]
  · exact List.nodup_nil
  · intro g hg
    simp [addedNext] at hg
  · intro g hg
    simp only [ended_concat, ends, Bool.or_false] at hg
    exact h.terminal g hg
  · intro g hg
    simp only [ended_concat, ends, Bool.or_false]
    exact h.ready g hg

@[simp] theorem remove_status (m : TaskGroupMonitor) (group : GroupId) :
    (m.remove group).1.status = m.status := by
  rw [remove]
  split_ifs <;> rfl

@[simp] theorem remove_connected (m : TaskGroupMonitor) (group : GroupId) :
    (m.remove group).1.connected = m.connected := by
  rw [remove]
  split_ifs <;> rfl

theorem remove_groups (m : TaskGroupMonitor) (group : GroupId) :
    (m.remove group).1.groups = m.groups.erase group := by
  by_cases h : group ∈ m.groups
  · rw [remove, if_pos h]
  · rw [remove, if_neg h, List.erase_of_not_mem h]

theorem setStatus_status (m : TaskGroupMonitor) (group : GroupId) (status : Status) :
    (m.setStatus group status).1.status = Function.update m.status group status := by
  rw [setStatus]
  split_ifs with hsame
  · rw [← hsame, Function.update_eq_self]
  · rw [remove_status]
    rfl
  · rfl
  · rfl

theorem setStatus_connected (m : TaskGroupMonitor) (group : GroupId) (status : Status) :
    (m.setStatus group status).1.connected = m.connected := by
  rw [setStatus]
  split_ifs
  · rfl
  · rw [remove_connected]
    rfl
  · rfl
  · rfl

/-- The groups that a change of one status leaves in the list. -/
theorem setStatus_groups {es : List MonitorEvent} {m : TaskGroupMonitor} (h : Tracks es m)
    (group : GroupId) (status : Status) :
    (m.setStatus group status).1.groups =
      if status.isTerminal then m.groups.erase group else m.groups := by
  rw [setStatus]
  split_ifs with hsame hterminal hconnected hterminal
  · have hnot : group ∉ m.groups := by
      intro hmem
      have hopen := h.terminal group ((h.groups group).mp hmem).2
      rw [hsame, hterminal] at hopen
      cases hopen
    rw [List.erase_of_not_mem hnot]
  · rfl
  · rw [remove_groups]
    rfl
  · rfl
  · have hnot : group ∉ m.groups :=
      fun hmem => hconnected (h.connected group ((h.groups group).mp hmem).1)
    rw [List.erase_of_not_mem hnot]
    rfl
  · rfl

theorem Tracks.setStatus {es : List MonitorEvent} {m : TaskGroupMonitor} (h : Tracks es m)
    {group : GroupId} {status : Status} (he : m.enabled (.setStatus group status)) :
    Tracks (es ++ [.setStatus group status]) (m.setStatus group status).1 := by
  have hended : ∀ g, ended (es ++ [.setStatus group status]) g = false ↔
      ended es g = false ∧ ¬ (group = g ∧ status.isTerminal = true) := by
    intro g
    simp [ends]
  constructor
  · intro g
    rw [setStatus_groups h, hended, added_concat, addedNext, ← and_assoc, ← h.groups g]
    split_ifs with hterminal
    · rw [h.nodup.mem_erase_iff]
      grind
    · simp [hterminal]
  · rw [setStatus_groups h]
    split_ifs
    · exact h.nodup.erase group
    · exact h.nodup
  · intro g hg
    rw [setStatus_connected]
    rw [added_concat] at hg
    exact h.connected g hg
  · intro g hg
    rw [hended] at hg
    rw [setStatus_status, Function.update_apply]
    split_ifs with hgroup
    · simpa [hgroup] using hg.2
    · exact h.terminal g hg.1
  · intro g hg
    rw [setStatus_status, Function.update_apply] at hg
    split_ifs at hg with hgroup
    · exact (he.2 hg).elim
    · rw [hended]
      exact ⟨h.ready g hg, fun hand => hgroup hand.1.symm⟩

theorem remove_emits (m : TaskGroupMonitor) (group : GroupId) :
    .allFinishedOrFailed ∈ (m.remove group).2 ↔ m.groups = [group] := by
  by_cases h : group ∈ m.groups
  · rw [remove, if_pos h]
    have hne : m.groups ≠ [] := List.ne_nil_of_mem h
    have hempty : m.groups.erase group = [] ↔ m.groups = [group] := by
      rw [List.erase_eq_nil_iff]
      simp [hne]
    rw [← hempty]
    split_ifs with herase <;> simp [herase]
  · rw [remove, if_neg h]
    have hne : m.groups ≠ [group] := by
      intro hlist
      rw [hlist] at h
      exact h List.mem_cons_self
    simp [hne]

/-- A change of one status announces the end when it ends the one listed group. -/
theorem setStatus_emits {es : List MonitorEvent} {m : TaskGroupMonitor} (h : Tracks es m)
    (group : GroupId) (status : Status) :
    .allFinishedOrFailed ∈ (m.setStatus group status).2 ↔
      status.isTerminal = true ∧ m.groups = [group] := by
  have hlisted : m.groups = [group] → group ∈ added es ∧ ended es group = false := by
    intro hlist
    rw [← h.groups, hlist]
    exact List.mem_cons_self
  rw [setStatus]
  split_ifs with hsame hconnected hterminal
  · simp only [List.not_mem_nil, false_iff, not_and]
    intro hend hlist
    have hopen := h.terminal group (hlisted hlist).2
    rw [hsame, hend] at hopen
    cases hopen
  · rw [List.mem_cons, remove_emits]
    simp [hterminal, write]
  · simp [hterminal]
  · simp only [List.not_mem_nil, false_iff, not_and]
    intro _ hlist
    exact hconnected (h.connected group (hlisted hlist).1)

theorem tracks_after {es : List MonitorEvent} (hes : reactive.Valid {} es) :
    Tracks es (after es) := by
  apply Reactive.run_history reactive tracks_initial
  intro fs e gs hsplit htracks
  rw [hsplit] at hes
  have he := hes.at fs
  cases e with
  | add group => exact htracks.add he
  | setStatus group status => exact htracks.setStatus he
  | clear => exact htracks.clear

theorem idle_iff {es : List MonitorEvent} (hes : reactive.Valid {} es) :
    (after es).idle = true ↔ ¬ ∃ group, Lasting es group ∧ (after es).status group = .active := by
  have htracks := tracks_after hes
  simp only [idle, List.all_eq_true, decide_eq_true_eq, htracks.groups, Lasting]
  grind

theorem unfinished_of_lasting {es : List MonitorEvent} (hes : reactive.Valid {} es) {group : GroupId}
    (h : Lasting es group) : Unfinished es group :=
  ⟨h.1, (tracks_after hes).terminal group h.2⟩

/-- An unfinished group has lasted, or has been resumed. -/
theorem unfinished_iff {es : List MonitorEvent} (hes : reactive.Valid {} es) {group : GroupId} :
    Unfinished es group ↔ Lasting es group ∨ Resumed es group := by
  constructor
  · intro h
    cases hended : ended es group with
    | false => exact .inl ⟨h.1, hended⟩
    | true => exact .inr ⟨h, hended⟩
  · rintro (h | h)
    · exact unfinished_of_lasting hes h
    · exact h.1

/-- The event makes the set of unfinished groups empty. -/
def Empties (es : List MonitorEvent) (e : MonitorEvent) : Prop :=
  (∃ group, Unfinished es group) ∧ ¬ ∃ group, Unfinished (es ++ [e]) group

/-- A clear finds something to clear. The last group to end that has not ended before finds
no group that has been resumed, and no resumed group is the last to end. -/
def Undisturbed (es : List MonitorEvent) : MonitorEvent → Prop
  | .add _ => True
  | .clear => ∃ group, Unfinished es group
  | .setStatus group status => status.isTerminal = true →
      ((∀ g, Lasting es g ↔ g = group) → ¬ ∃ g, Resumed es g) ∧
      ((∀ g, Unfinished es g ↔ g = group) → Lasting es group)

theorem unfinished_setStatus {es : List MonitorEvent} {group g : GroupId} {status : Status} :
    Unfinished (es ++ [.setStatus group status]) g ↔
      g ∈ added es ∧ (if g = group then status else (after es).status g).isTerminal = false := by
  have hstatus : (after (es ++ [.setStatus group status])).status =
      Function.update (after es).status group status := by
    rw [after, Reactive.run_concat]
    exact setStatus_status (after es) group status
  rw [Unfinished, added_concat, addedNext, hstatus, Function.update_apply]

theorem groups_eq_iff {es : List MonitorEvent} (hes : reactive.Valid {} es) (group : GroupId) :
    (after es).groups = [group] ↔ ∀ g, Lasting es g ↔ g = group := by
  have htracks := tracks_after hes
  constructor
  · intro hlist g
    rw [Lasting, ← htracks.groups, hlist, List.mem_singleton]
  · intro hall
    rw [← List.perm_singleton,
      List.perm_ext_iff_of_nodup htracks.nodup (List.nodup_singleton group)]
    intro g
    rw [htracks.groups, List.mem_singleton]
    exact hall g

theorem empties_setStatus {es : List MonitorEvent} {group : GroupId} {status : Status} :
    Empties es (.setStatus group status) ↔
      status.isTerminal = true ∧ ∀ g, Unfinished es g ↔ g = group := by
  simp only [Empties, unfinished_setStatus]
  constructor
  · intro ⟨⟨g, hg⟩, hnone⟩
    have honly : ∀ g, Unfinished es g → g = group := by
      intro g hg
      by_contra hne
      exact hnone ⟨g, hg.1, by rw [if_neg hne]; exact hg.2⟩
    have hgroup := honly g hg
    subst hgroup
    refine ⟨?_, fun g' => ⟨honly g', fun h => h ▸ hg⟩⟩
    by_contra hopen
    exact hnone ⟨g, hg.1, by rw [if_pos rfl]; exact Bool.eq_false_iff.mpr hopen⟩
  · intro ⟨hterminal, honly⟩
    refine ⟨⟨group, (honly group).mpr rfl⟩, ?_⟩
    rintro ⟨g, hadded, hopen⟩
    split_ifs at hopen with hg
    · rw [hterminal] at hopen
      cases hopen
    · exact hg ((honly g).mp ⟨hadded, hopen⟩)

/-- An end is announced as it should when it is undisturbed. -/
theorem setStatus_faithful {es : List MonitorEvent} (hes : reactive.Valid {} es) (group : GroupId)
    (status : Status) :
    (.allFinishedOrFailed ∈ reactive.emits (after es) (.setStatus group status) ↔
      Empties es (.setStatus group status)) ↔ Undisturbed es (.setStatus group status) := by
  have hemits : .allFinishedOrFailed ∈ reactive.emits (after es) (.setStatus group status) ↔
      status.isTerminal = true ∧ ∀ g, Lasting es g ↔ g = group := by
    rw [← groups_eq_iff hes]
    exact setStatus_emits (tracks_after hes) group status
  rw [hemits, empties_setStatus, and_congr_right_iff]
  apply imp_congr_right
  intro _
  constructor
  · intro hsame
    constructor
    · rintro hlasting ⟨g, hg⟩
      have hgroup := (hsame.mp hlasting g).mp hg.1
      have hlast := (hlasting g).mpr hgroup
      exact Bool.false_ne_true (hlast.2.symm.trans hg.2)
    · intro hunfinished
      exact (hsame.mpr hunfinished group).mpr rfl
  · intro ⟨hresumed, hlasting⟩
    constructor
    · intro honly g
      rw [unfinished_iff hes, ← honly g]
      exact or_iff_left fun hg => hresumed honly ⟨g, hg⟩
    · intro honly g
      constructor
      · intro hg
        exact (honly g).mp (unfinished_of_lasting hes hg)
      · rintro rfl
        exact hlasting honly

/-- After every run, the monitor calls itself idle as it should exactly when no group is
unfinished or one that has never ended is `Active`; and each event announces the end as it
should exactly when it is undisturbed. -/
theorem faithful_iff (es : List MonitorEvent) (hes : reactive.Valid {} es) :
    (((after es).idle = true ↔ ¬ ∃ group, Unfinished es group) ↔
      (∃ group, Unfinished es group) →
        ∃ group, Lasting es group ∧ (after es).status group = .active) ∧
    ∀ e, reactive.enabled (after es) e →
      ((.allFinishedOrFailed ∈ reactive.emits (after es) e ↔ Empties es e) ↔ Undisturbed es e) := by
  constructor
  · rw [idle_iff hes, not_iff_not]
    constructor
    · intro hsame hunfinished
      exact hsame.mpr hunfinished
    · intro hactive
      refine ⟨?_, hactive⟩
      intro ⟨group, hgroup, _⟩
      exact ⟨group, unfinished_of_lasting hes hgroup⟩
  · intro e he
    cases e with
    | add group =>
        have hnew : Unfinished (es ++ [.add group]) group := by
          refine ⟨by simp [addedNext], ?_⟩
          rw [after, Reactive.run_concat]
          have hready : (after es).status group = .ready := he.2
          exact congrArg Status.isTerminal hready
        have hkeeps : ¬ Empties es (.add group) := fun h => h.2 ⟨group, hnew⟩
        simp [hkeeps, Undisturbed, reactive, emits]
    | setStatus group status => exact setStatus_faithful hes group status
    | clear =>
        simp [Empties, Undisturbed, Unfinished, addedNext, reactive, emits]

/-- Once the group has started the monitor is right about it. -/
theorem faithful_started :
    (after [.add 0, .setStatus 0 .active]).idle = true ↔
      ¬ ∃ group, Unfinished [.add 0, .setStatus 0 .active] group := by
  have hvalid : reactive.Valid {} [.add 0, .setStatus 0 .active] :=
    ⟨⟨List.not_mem_nil, rfl⟩, ⟨by decide, by decide⟩, trivial⟩
  apply (faithful_iff _ hvalid).1.mpr
  intro _
  exact ⟨0, ⟨by decide, by decide⟩, rfl⟩

/-- A group that waits for its first dispatch is not done, and the monitor is idle. -/
theorem idle_added :
    ¬ ∀ es, reactive.Valid {} es →
      ((after es).idle = true ↔ ¬ ∃ group, Unfinished es group) ∧
      ∀ e, reactive.enabled (after es) e →
        (.allFinishedOrFailed ∈ reactive.emits (after es) e ↔ Empties es e) := by
  intro h
  have hvalid : reactive.Valid {} [.add 0] := ⟨⟨List.not_mem_nil, rfl⟩, trivial⟩
  exact (h [.add 0] hvalid).1.mp (by decide) ⟨0, by decide, by decide⟩

end TaskGroupMonitor
end GreenWallet.Tasks
