import GreenWallet.Devices.BlindingFactors
import GreenWallet.Ledger.Traversal

/-!
# Blinding factors from a Ledger

All commands are put into one batch before it is executed. The entries are there from the
beginning, and are set when a command for a factor has finished. Nothing is connected to the
error of the batch.
-/
namespace GreenWallet.Devices
open GreenWallet.Library GreenWallet.Ledger

structure LedgerGetBlindingFactorsActivity where
  m_outputs : List LiquidOutput
  /-- The commands, by their ids, with what they ask for. -/
  commands : List (Bytes × Request)
  m_batch : Execution
  m_abfs : List Bytes
  m_vbfs : List Bytes
  answers : List (Request × Answer) := []

/-- The batch of so many commands. -/
def flatBatch (n : ℕ) : CommandObject :=
  .batch 0 ((List.range n).map fun k => .leaf (k + 1) []) []

inductive LedgerBlindingEvent where
  | call
  | deliver
  | finish (command : CommandObject) (response : Bytes)
  | error (command : CommandObject)

def LedgerBlindingEvent.toBatch : LedgerBlindingEvent → BatchEvent
  | .call => .call
  | .deliver => .deliver
  | .finish command _ => .finish command
  | .error command => .error command

namespace LedgerGetBlindingFactorsActivity

def exec (inputs : List LiquidInput) (outputs : List LiquidOutput) :
    LedgerGetBlindingFactorsActivity :=
  let commands := ((blindingStart inputs).map fun data => (data, none)) ++
    (blindingRequests outputs).map fun request =>
      (getBlindingFactor request.1 request.2, some request)
  { m_outputs := outputs
    commands
    m_batch := .start (flatBatch commands.length)
    m_abfs := List.replicate outputs.length []
    m_vbfs := List.replicate outputs.length [] }

/-- What a command asks for. -/
def request (s : LedgerGetBlindingFactorsActivity) (id : ℕ) : Request :=
  (s.commands[id - 1]?).bind Prod.snd

/-- The handlers of a command that has finished. -/
def store (s : LedgerGetBlindingFactorsActivity) (request : Request) (response : Bytes) :
    LedgerGetBlindingFactorsActivity :=
  match request with
  | none => s
  | some (i, .asset) => { s with m_abfs := s.m_abfs.set i response.reverse }
  | some (i, .amount) => { s with m_vbfs := s.m_vbfs.set i response.reverse }

/-- `finished` is that of the batch; `fail` is never called. -/
def shown (s : LedgerGetBlindingFactorsActivity) : Shown where
  finished := s.m_batch.log.count (.finished 0)
  failed := 0
  atRest := s.m_batch.call.isNone && s.m_batch.posted.isEmpty && s.m_batch.running.isEmpty
  answers := s.answers
  assetBlinders := s.m_abfs
  amountBlinders := s.m_vbfs

/-- What the event answers. -/
def answered (s : LedgerGetBlindingFactorsActivity) :
    LedgerBlindingEvent → List (Request × Answer)
  | .finish command response => [(s.request command.id, .result response)]
  | .error command => [(s.request command.id, .error)]
  | _ => []

end LedgerGetBlindingFactorsActivity

def ledgerBlinding : Reactive LedgerGetBlindingFactorsActivity LedgerBlindingEvent Empty where
  enabled s event := batches.enabled s.m_batch event.toBatch
  next s event :=
    let stored := match event with
      | .finish command response => s.store (s.request command.id) response
      | _ => s
    { stored with
      m_batch := batches.next s.m_batch event.toBatch
      answers := s.answers ++ s.answered event }
  emits _ _ := []

/-! ## A batch without batches in it -/

def IsLeaf (n : ℕ) (command : CommandObject) : Prop := ∃ k < n, command = .leaf (k + 1) []

/-- There are only the batch and its commands. -/
structure Flat (n : ℕ) (s : Execution) : Prop where
  called : ∀ command ∈ s.call, command = flatBatch n ∨ IsLeaf n command
  posted : ∀ command ∈ s.posted, command = flatBatch n
  running : ∀ command ∈ s.running, IsLeaf n command
  queue : ∀ queue ∈ s.m_commands 0, ∀ command ∈ queue, IsLeaf n command
  connections : ∀ connection ∈ s.connections, connection.2 = flatBatch n

namespace Flat
variable {n : ℕ} {s : Execution}

theorem isLeaf_current (h : Flat n s) : ∀ command ∈
    (s.m_commands 0).getD ((List.range n).map fun k => .leaf (k + 1) []), IsLeaf n command := by
  cases hqueue : s.m_commands 0 with
  | none =>
      intro command hcommand
      obtain ⟨k, hk, rfl⟩ := List.mem_map.mp hcommand
      exact ⟨k, List.mem_range.mp hk, rfl⟩
  | some queue => exact h.queue queue hqueue

theorem queueAgain (h : Flat n s) :
    Flat n { s.add (flatBatch n) [] with posted := s.posted ++ [flatBatch n] } where
  called := h.called
  posted := by
    intro command hcommand
    rcases List.mem_append.mp hcommand with hold | hnew
    · exact h.posted command hold
    · exact List.mem_singleton.mp hnew
  running := h.running
  queue := by
    have hid : (flatBatch n).id = 0 := rfl
    intro queue hqueue
    simp only [Execution.add, hid, Function.update_self, List.append_nil, Option.mem_def,
      Option.some.injEq] at hqueue
    rw [← hqueue]
    exact h.isLeaf_current
  connections := h.connections

/-- A signal of a command that adds nothing queues the batch again. -/
theorem finish (h : Flat n s) {command : CommandObject} (happends : command.appends = []) :
    Flat n (s.finish command) ∧ (s.finish command).log = s.log ++ [.finished command.id] := by
  have hbatches : ∀ batch ∈ s.connected command.id, batch = flatBatch n := by
    intro batch hbatch
    obtain ⟨connection, hconnection, rfl⟩ := List.mem_map.mp hbatch
    exact h.connections connection (List.mem_of_mem_filter hconnection)
  have hstart : Flat n { s with log := s.log ++ [.finished command.id] } :=
    ⟨h.called, h.posted, h.running, h.queue, h.connections⟩
  rw [Execution.finish, happends]
  generalize s.connected command.id = batches at hbatches
  generalize hlog : s.log ++ [.finished command.id] = log at hstart
  generalize hs : ({ s with log := log } : Execution) = t at hstart
  have hsame : t.log = log := by rw [← hs]
  clear hs hlog
  induction batches generalizing t with
  | nil => exact ⟨hstart, hsame⟩
  | cons batch batches ih =>
      have hbatch : batch = flatBatch n := hbatches batch List.mem_cons_self
      rw [List.foldl_cons]
      apply ih fun other hother => hbatches other (List.mem_cons_of_mem _ hother)
      · rw [hbatch]
        exact hstart.queueAgain
      · exact hsame

theorem exec_leaf (h : Flat n s) {k : ℕ} (hk : k < n) :
    Flat n (s.exec (.leaf (k + 1) [])) where
  called := h.called
  posted := h.posted
  running := by
    intro command hcommand
    rcases List.mem_append.mp hcommand with hold | hnew
    · exact h.running command hold
    · exact ⟨k, hk, List.mem_singleton.mp hnew⟩
  queue := h.queue
  connections := h.connections

/-- The batch takes its next command, or has none and finishes. -/
theorem exec_batch (h : Flat n s) :
    Flat n (s.exec (flatBatch n)) ∧
      ((s.exec (flatBatch n)).log = s.log ∨
        (s.exec (flatBatch n)).log = s.log ++ [.finished 0]) := by
  have hcurrent := h.isLeaf_current
  cases hqueue : (s.m_commands 0).getD ((List.range n).map fun k => .leaf (k + 1) []) with
  | nil =>
      have hexec : s.exec (flatBatch n) = s.finish (flatBatch n) := by
        simp only [Execution.exec, flatBatch, hqueue]
      have hfinish : Flat n (s.finish (flatBatch n)) ∧
          (s.finish (flatBatch n)).log = s.log ++ [.finished 0] := h.finish rfl
      rw [hexec]
      exact ⟨hfinish.1, .inr hfinish.2⟩
  | cons next rest =>
      have hexec : s.exec (flatBatch n) =
          { s with
            m_commands := Function.update s.m_commands 0 (some rest)
            connections := (next.id, flatBatch n) :: s.connections
            call := some next } := by
        simp only [Execution.exec, flatBatch, hqueue]
      rw [hqueue] at hcurrent
      rw [hexec]
      refine ⟨⟨?_, h.posted, h.running, ?_, ?_⟩, .inl rfl⟩
      · intro command hcommand
        rw [← Option.some_inj.mp hcommand]
        exact .inr (hcurrent next List.mem_cons_self)
      · intro queue hsame
        simp only [Function.update_self, Option.mem_def, Option.some.injEq] at hsame
        rw [← hsame]
        exact fun command hcommand => hcurrent command (List.mem_cons_of_mem _ hcommand)
      · intro connection hconnection
        rcases List.mem_cons.mp hconnection with rfl | hold
        · rfl
        · exact h.connections connection hold

theorem finished_not_mem_errors (connections : List (ℕ × CommandObject)) (id other : ℕ) :
    .finished other ∉ Execution.errors connections id := by
  induction connections generalizing id with
  | nil => simp [Execution.errors]
  | cons connection older ih =>
      rw [Execution.errors, List.mem_append]
      split_ifs <;> simp [ih]

/-- Which event a new signal comes from. -/
def Explained (event : BatchEvent) (log more : List BatchSignal) : Prop :=
  ∀ id, (.finished id ∈ more →
      .finished id ∈ log ∨ id = 0 ∨ ∃ command, event = .finish command ∧ id = command.id) ∧
    (.error id ∈ more → .error id ∈ log ∨ ∃ command, event = .error command)

theorem explained_exec_batch {event : BatchEvent} {log : List BatchSignal}
    (h : log = s.log ∨ log = s.log ++ [.finished 0]) : Explained event s.log log := by
  intro id
  rcases h with rfl | rfl
  · exact ⟨.inl, .inl⟩
  · refine ⟨fun hid => ?_, fun hid => .inl ?_⟩
    · rcases List.mem_append.mp hid with hold | hnew
      · exact .inl hold
      · exact .inr (.inl (BatchSignal.finished.inj (List.mem_singleton.mp hnew)))
    · simpa using hid

theorem next (h : Flat n s) {event : BatchEvent} (henabled : batches.enabled s event) :
    Flat n (batches.next s event) ∧ Explained event s.log (batches.next s event).log := by
  cases event with
  | call =>
      cases hcall : s.call with
      | none => exact absurd hcall henabled
      | some command =>
          have hnext : batches.next s .call = ({ s with call := none } : Execution).exec command := by
            simp [batches, hcall]
          have hidle : Flat n { s with call := none } := by
            refine ⟨?_, h.posted, h.running, h.queue, h.connections⟩
            intro command hnone
            cases hnone
          rw [hnext]
          rcases h.called command hcall with rfl | ⟨k, hk, rfl⟩
          · exact ⟨hidle.exec_batch.1, explained_exec_batch (s := { s with call := none })
              hidle.exec_batch.2⟩
          · refine ⟨hidle.exec_leaf hk, fun id => ⟨fun hid => .inl ?_, fun hid => .inl ?_⟩⟩
            · simpa [Execution.exec] using hid
            · simpa [Execution.exec] using hid
  | deliver =>
      cases hposted : s.posted with
      | nil => exact absurd hposted henabled.2
      | cons batch rest =>
          have hnext : batches.next s .deliver = ({ s with posted := rest } : Execution).exec batch := by
            simp [batches, hposted]
          have hrest : Flat n { s with posted := rest } := by
            refine ⟨h.called, fun command hcommand => ?_, h.running, h.queue, h.connections⟩
            exact h.posted command (hposted ▸ List.mem_cons_of_mem _ hcommand)
          have hbatch : batch = flatBatch n := h.posted batch (hposted ▸ List.mem_cons_self)
          rw [hnext, hbatch]
          exact ⟨hrest.exec_batch.1, explained_exec_batch (s := { s with posted := rest })
            hrest.exec_batch.2⟩
  | finish command =>
      obtain ⟨k, hk, rfl⟩ := h.running command henabled.2
      have hrest : Flat n { s with
          running := s.running.filter fun other => other.id != (CommandObject.leaf (k + 1) []).id } :=
        ⟨h.called, h.posted, fun other hother => h.running other (List.mem_of_mem_filter hother),
          h.queue, h.connections⟩
      have hfinish : Flat n (batches.next s (.finish (.leaf (k + 1) []))) ∧
          (batches.next s (.finish (.leaf (k + 1) []))).log = s.log ++ [.finished (k + 1)] :=
        hrest.finish rfl
      refine ⟨hfinish.1, fun id => ⟨fun hid => ?_, fun hid => .inl ?_⟩⟩
      · rw [hfinish.2] at hid
        rcases List.mem_append.mp hid with hold | hnew
        · exact .inl hold
        · exact .inr (.inr ⟨_, rfl, BatchSignal.finished.inj (List.mem_singleton.mp hnew)⟩)
      · rw [hfinish.2] at hid
        simpa using hid
  | error command =>
      have hrest : Flat n { s with
          running := s.running.filter fun other => other.id != command.id } :=
        ⟨h.called, h.posted, fun other hother => h.running other (List.mem_of_mem_filter hother),
          h.queue, h.connections⟩
      have hlog : (batches.next s (.error command)).log =
          s.log ++ .error command.id :: Execution.errors s.connections command.id := rfl
      refine ⟨⟨hrest.called, hrest.posted, hrest.running, hrest.queue, hrest.connections⟩,
        fun id => ⟨fun hid => .inl ?_, fun _ => .inr ⟨command, rfl⟩⟩⟩
      rw [hlog, List.mem_append, List.mem_cons] at hid
      rcases hid with hold | hnew | hfurther
      · exact hold
      · cases hnew
      · exact absurd hfurther (finished_not_mem_errors s.connections command.id id)

end Flat

/-! ## The commands of a batch -/

theorem leaves_range (ks : List ℕ) :
    leaves (ks.map fun k => .leaf (k + 1) []) = ks.map (· + 1) := by
  induction ks with
  | nil => rw [List.map_nil, leaves]; rfl
  | cons k ks ih => rw [List.map_cons, leaves, List.append_nil, ih, List.map_cons]

theorem idsOf_range (ks : List ℕ) :
    idsOf (ks.map fun k => .leaf (k + 1) []) = ks.map (· + 1) := by
  induction ks with
  | nil => rfl
  | cons k ks ih => simp [idsOf, CommandObject.ids, ih]

theorem leaves_flatBatch (n : ℕ) : (flatBatch n).leaves = (List.range n).map (· + 1) :=
  leaves_range _

theorem distinct_flatBatch (n : ℕ) : (flatBatch n).ids.Nodup := by
  rw [flatBatch, CommandObject.ids, idsOf_range, idsOf, List.append_nil, List.nodup_cons]
  constructor
  · simp
  · exact List.nodup_range.map fun a b h => Nat.succ.inj h

theorem flat_start (n : ℕ) : Flat n (.start (flatBatch n)) where
  called := by
    intro command hcommand
    exact .inl (Option.some_inj.mp hcommand).symm
  posted := fun _ h => absurd h List.not_mem_nil
  running := fun _ h => absurd h List.not_mem_nil
  queue := by
    intro queue hqueue
    cases hqueue
  connections := fun _ h => absurd h List.not_mem_nil

theorem mem_blindingRequests {outputs : List LiquidOutput} {index : ℕ} {factor : BlindingFactor} :
    (index, factor) ∈ blindingRequests outputs ↔
      ∃ output, outputs[index]? = some output ∧ output.blinding_key ≠ none := by
  rw [blindingRequests, List.mem_flatten]
  constructor
  · intro ⟨requests, hrequests, hmem⟩
    obtain ⟨i, hi, rfl⟩ := List.mem_mapIdx.mp hrequests
    split_ifs at hmem with hkey
    · cases hmem
    · have hindex : index = i := by
        rcases List.mem_cons.mp hmem with hsame | hsame
        · exact (Prod.mk.inj hsame).1
        · exact (Prod.mk.inj (List.mem_singleton.mp hsame)).1
      exact ⟨outputs[i], by rw [hindex, List.getElem?_eq_getElem hi], hkey⟩
  · intro ⟨output, houtput, hkey⟩
    obtain ⟨hi, rfl⟩ := List.getElem?_eq_some_iff.mp houtput
    refine ⟨_, List.mem_mapIdx.mpr ⟨index, hi, rfl⟩, ?_⟩
    rw [if_neg hkey]
    cases factor <;> simp

namespace LedgerGetBlindingFactorsActivity
variable {s : LedgerGetBlindingFactorsActivity} {inputs : List LiquidInput}
  {outputs : List LiquidOutput}

/-- What is asked for is a factor of an output with a blinding key. -/
theorem blinded_of_request (inputs : List LiquidInput) {outputs : List LiquidOutput} {id index : ℕ}
    {factor : BlindingFactor} (h : (exec inputs outputs).request id = some (index, factor)) :
    ∃ output, outputs[index]? = some output ∧ output.blinding_key ≠ none := by
  rw [request, Option.bind_eq_some_iff] at h
  obtain ⟨command, hcommand, hrequest⟩ := h
  refine mem_blindingRequests.mp (?_ : (index, factor) ∈ blindingRequests outputs)
  rcases List.mem_append.mp (List.mem_of_getElem? hcommand) with hstart | hrequests
  · obtain ⟨data, -, rfl⟩ := List.mem_map.mp hstart
    cases hrequest
  · obtain ⟨asked, hasked, rfl⟩ := List.mem_map.mp hrequests
    rw [← Option.some_inj.mp hrequest]
    exact hasked

/-- Both factors are asked for. -/
theorem request_of_blinded (inputs : List LiquidInput) {outputs : List LiquidOutput} {index : ℕ}
    (factor : BlindingFactor) {output : LiquidOutput} (houtput : outputs[index]? = some output)
    (hkey : output.blinding_key ≠ none) :
    ∃ k < (exec inputs outputs).commands.length,
      (exec inputs outputs).request (k + 1) = some (index, factor) := by
  have hasked : (index, factor) ∈ blindingRequests outputs :=
    mem_blindingRequests.mpr ⟨output, houtput, hkey⟩
  have hmem : (getBlindingFactor index factor, some (index, factor)) ∈
      (exec inputs outputs).commands :=
    List.mem_append_right _ (List.mem_map.mpr ⟨_, hasked, rfl⟩)
  obtain ⟨k, hk, hcommand⟩ := List.mem_iff_getElem.mp hmem
  refine ⟨k, hk, ?_⟩
  rw [request, Nat.add_sub_cancel, List.getElem?_eq_getElem hk, hcommand]
  rfl

/-- An entry is empty, or what the device has answered for it. -/
structure Stored (answers : List (Request × Answer)) (factor : BlindingFactor)
    (outputs : List LiquidOutput) (entries : List Bytes) : Prop where
  length : entries.length = outputs.length
  entry : ∀ (i : ℕ) (entry : Bytes), entries[i]? = some entry →
    (entry = [] ∧ ∀ bytes, (some (i, factor), .result bytes) ∉ answers) ∨
      ∃ output, outputs[i]? = some output ∧ output.blinding_key ≠ none ∧
        ∃ bytes, (some (i, factor), .result bytes) ∈ answers ∧ entry = bytes.reverse

section
variable {answers : List (Request × Answer)} {factor : BlindingFactor} {entries : List Bytes}

theorem Stored.append (h : Stored answers factor outputs entries) {request : Request}
    {answer : Answer}
    (hother : ∀ i bytes, (some (i, factor), .result bytes) ≠ (request, answer)) :
    Stored (answers ++ [(request, answer)]) factor outputs entries := by
  refine ⟨h.length, fun i entry hentry => ?_⟩
  rcases h.entry i entry hentry with ⟨hempty, hnone⟩ | ⟨output, houtput, hkey, bytes, hmem, hsame⟩
  · refine .inl ⟨hempty, fun bytes hmem => ?_⟩
    rcases List.mem_append.mp hmem with hold | hnew
    · exact hnone bytes hold
    · exact hother i bytes (List.mem_singleton.mp hnew)
  · exact .inr ⟨output, houtput, hkey, bytes, List.mem_append_left _ hmem, hsame⟩

theorem Stored.set (h : Stored answers factor outputs entries) {index : ℕ} {output : LiquidOutput}
    (houtput : outputs[index]? = some output) (hkey : output.blinding_key ≠ none)
    (response : Bytes) :
    Stored (answers ++ [(some (index, factor), .result response)]) factor outputs
      (entries.set index response.reverse) := by
  refine ⟨by rw [List.length_set, h.length], fun i entry hentry => ?_⟩
  rw [List.getElem?_set] at hentry
  split_ifs at hentry with hsame hlt
  · subst hsame
    rw [← Option.some_inj.mp hentry]
    exact .inr ⟨output, houtput, hkey, response, by simp, rfl⟩
  · rcases h.entry i entry hentry with ⟨hempty, hnone⟩ | ⟨other, hother, hblinded, bytes, hmem, hbytes⟩
    · refine .inl ⟨hempty, fun bytes hmem => ?_⟩
      rcases List.mem_append.mp hmem with hold | hnew
      · exact hnone bytes hold
      · simp only [List.mem_singleton, Prod.mk.injEq, Option.some.injEq] at hnew
        exact hsame hnew.1.1.symm
    · exact .inr ⟨other, hother, hblinded, bytes, List.mem_append_left _ hmem, hbytes⟩

/-- All entries are there when each request has been answered by a result. -/
theorem Stored.aligned (h : Stored answers factor outputs entries) (hresults : AllResults answers)
    (hall : ∀ (i : ℕ) (output : LiquidOutput), outputs[i]? = some output →
      output.blinding_key ≠ none → ∃ bytes, (some (i, factor), .result bytes) ∈ answers) :
    Aligned List.reverse answers factor outputs entries := by
  intro i output entry houtput hentry
  rw [IsEntry]
  split_ifs with hkey
  · rcases h.entry i entry hentry with ⟨hempty, -⟩ | ⟨other, hother, hblinded, -⟩
    · exact hempty
    · rw [houtput, Option.some.injEq] at hother
      exact absurd (hother ▸ hkey) hblinded
  · rcases h.entry i entry hentry with ⟨-, hnone⟩ | ⟨-, -, -, bytes, hmem, hsame⟩
    · obtain ⟨bytes, hmem⟩ := hall i output houtput hkey
      exact absurd hmem (hnone bytes)
    · have hbytes : bytes ≠ [] := hresults _ hmem (Option.some_ne_none _)
      exact ⟨by rw [hsame, Ne, List.reverse_eq_nil_iff]; exact hbytes, bytes, hmem, hsame⟩

end

/-- What is known of the activity, whatever the device answers. -/
structure Known (inputs : List LiquidInput) (outputs : List LiquidOutput)
    (s : LedgerGetBlindingFactorsActivity) : Prop where
  commands : s.commands = (exec inputs outputs).commands
  flat : Flat (exec inputs outputs).commands.length s.m_batch
  traversal : ∃ w, At (flatBatch (exec inputs outputs).commands.length) s.m_batch w
  finished : ∀ id, .finished id ∈ s.m_batch.log →
    id = 0 ∨ ∃ bytes, (s.request id, .result bytes) ∈ s.answers
  error : ∀ id, .error id ∈ s.m_batch.log → ∃ request, (request, .error) ∈ s.answers
  assets : Stored s.answers .asset outputs s.m_abfs
  amounts : Stored s.answers .amount outputs s.m_vbfs

theorem Known.request (h : s.Known inputs outputs) (id : ℕ) :
    s.request id = (exec inputs outputs).request id := by
  rw [LedgerGetBlindingFactorsActivity.request, h.commands]
  rfl

theorem known_exec (inputs : List LiquidInput) (outputs : List LiquidOutput) :
    (exec inputs outputs).Known inputs outputs := by
  have hstored (factor : BlindingFactor) :
      Stored [] factor outputs (List.replicate outputs.length []) := by
    refine ⟨List.length_replicate, fun i entry hentry => .inl ⟨?_, fun _ => List.not_mem_nil⟩⟩
    exact List.eq_of_mem_replicate (List.mem_of_getElem? hentry)
  exact
    { commands := rfl
      flat := flat_start _
      traversal := ⟨_, at_start (distinct_flatBatch _)⟩
      finished := fun _ h => absurd h List.not_mem_nil
      error := fun _ h => absurd h List.not_mem_nil
      assets := hstored .asset
      amounts := hstored .amount }

theorem commands_store (s : LedgerGetBlindingFactorsActivity) (request : Request)
    (response : Bytes) : (s.store request response).commands = s.commands := by
  match request with
  | none => rfl
  | some (_, .asset) => rfl
  | some (_, .amount) => rfl

/-- The entries after an answer. -/
theorem Known.stored (h : s.Known inputs outputs) (event : LedgerBlindingEvent) :
    Stored (ledgerBlinding.next s event).answers .asset outputs (ledgerBlinding.next s event).m_abfs ∧
      Stored (ledgerBlinding.next s event).answers .amount outputs
        (ledgerBlinding.next s event).m_vbfs := by
  cases event with
  | call =>
      have hnone : (ledgerBlinding.next s .call).answers = s.answers := List.append_nil _
      rw [hnone]
      exact ⟨h.assets, h.amounts⟩
  | deliver =>
      have hnone : (ledgerBlinding.next s .deliver).answers = s.answers := List.append_nil _
      rw [hnone]
      exact ⟨h.assets, h.amounts⟩
  | error command =>
      have hanswers : (ledgerBlinding.next s (.error command)).answers =
          s.answers ++ [(s.request command.id, .error)] := rfl
      rw [hanswers]
      exact ⟨h.assets.append (by simp), h.amounts.append (by simp)⟩
  | finish command response =>
      have hanswers : (ledgerBlinding.next s (.finish command response)).answers =
          s.answers ++ [(s.request command.id, .result response)] := rfl
      have hassets : (ledgerBlinding.next s (.finish command response)).m_abfs =
          (s.store (s.request command.id) response).m_abfs := rfl
      have hamounts : (ledgerBlinding.next s (.finish command response)).m_vbfs =
          (s.store (s.request command.id) response).m_vbfs := rfl
      rw [hanswers, hassets, hamounts]
      cases hrequest : s.request command.id with
      | none => exact ⟨h.assets.append (by simp), h.amounts.append (by simp)⟩
      | some asked =>
          obtain ⟨index, factor⟩ := asked
          obtain ⟨output, houtput, hkey⟩ :=
            blinded_of_request inputs ((h.request command.id).symm.trans hrequest)
          cases factor with
          | asset => exact ⟨h.assets.set houtput hkey response, h.amounts.append (by simp)⟩
          | amount => exact ⟨h.assets.append (by simp), h.amounts.set houtput hkey response⟩

theorem Known.next {event : LedgerBlindingEvent} (h : s.Known inputs outputs)
    (henabled : ledgerBlinding.enabled s event) :
    (ledgerBlinding.next s event).Known inputs outputs := by
  have hcommands : (ledgerBlinding.next s event).commands = s.commands := by
    cases event with
    | finish command response => exact commands_store s _ response
    | _ => rfl
  have hrequest (id : ℕ) : (ledgerBlinding.next s event).request id = s.request id := by
    rw [LedgerGetBlindingFactorsActivity.request, hcommands]
    rfl
  have hanswers : (ledgerBlinding.next s event).answers = s.answers ++ s.answered event := rfl
  have hbatch : (ledgerBlinding.next s event).m_batch = batches.next s.m_batch event.toBatch := rfl
  obtain ⟨hflat, hexplained⟩ := h.flat.next henabled
  obtain ⟨w, hat⟩ := h.traversal
  obtain ⟨w', -, hnext⟩ := hat.next (leaves_of_distinct (distinct_flatBatch _)).1 henabled
  obtain ⟨hassets, hamounts⟩ := h.stored event
  refine ⟨hcommands.trans h.commands, hbatch ▸ hflat, ⟨w', hbatch ▸ hnext⟩, fun id hid => ?_,
    fun id hid => ?_, hassets, hamounts⟩
  · rw [hrequest, hanswers]
    rw [hbatch] at hid
    rcases (hexplained id).1 hid with hold | hroot | ⟨command, hevent, rfl⟩
    · rcases h.finished id hold with hroot | ⟨bytes, hmem⟩
      · exact .inl hroot
      · exact .inr ⟨bytes, List.mem_append_left _ hmem⟩
    · exact .inl hroot
    · cases event with
      | finish answered response =>
          rw [← BatchEvent.finish.inj hevent]
          exact .inr ⟨response, List.mem_append_right _ (List.mem_singleton_self _)⟩
      | _ => cases hevent
  · rw [hanswers]
    rw [hbatch] at hid
    rcases (hexplained id).2 hid with hold | ⟨command, hevent⟩
    · obtain ⟨request, hmem⟩ := h.error id hold
      exact ⟨request, List.mem_append_left _ hmem⟩
    · cases event with
      | error answered =>
          exact ⟨_, List.mem_append_right _ (List.mem_singleton_self _)⟩
      | _ => cases hevent

theorem Known.depthFirst (h : s.Known inputs outputs) :
    DepthFirst (flatBatch (exec inputs outputs).commands.length) s.m_batch := by
  obtain ⟨w, hat⟩ := h.traversal
  exact .of_at (leaves_of_distinct (distinct_flatBatch _)).2 hat

/-- When the batch has finished, each request has been answered by a result. -/
theorem Known.answered (h : s.Known inputs outputs) (hfinished : .finished 0 ∈ s.m_batch.log)
    (index : ℕ) (factor : BlindingFactor) (output : LiquidOutput)
    (houtput : outputs[index]? = some output) (hkey : output.blinding_key ≠ none) :
    ∃ bytes, (some (index, factor), .result bytes) ∈ s.answers := by
  obtain ⟨k, hk, hrequest⟩ := request_of_blinded inputs factor houtput hkey
  obtain ⟨before, after, hsplit⟩ := List.append_of_mem hfinished
  have hleaf : k + 1 ∈ (flatBatch (exec inputs outputs).commands.length).leaves := by
    rw [leaves_flatBatch]
    exact List.mem_map.mpr ⟨k, List.mem_range.mpr hk, rfl⟩
  have hended := (h.depthFirst.finishedLast before after hsplit).2 (k + 1) hleaf
  have hlog : .finished (k + 1) ∈ s.m_batch.log := hsplit ▸ List.mem_append_left _ hended
  rcases h.finished (k + 1) hlog with hzero | ⟨bytes, hmem⟩
  · cases hzero
  · rw [h.request, hrequest] at hmem
    exact ⟨bytes, hmem⟩

theorem Known.complete (h : s.Known inputs outputs) (hresults : AllResults s.answers) :
    CompleteOrFailed List.reverse outputs s.shown := by
  have hdepth := h.depthFirst
  have hmem : s.m_batch.log.count (.finished 0) = 1 → .finished 0 ∈ s.m_batch.log := by
    intro hone
    exact List.count_pos_iff.mp (by omega)
  refine ⟨hdepth.finishedOnce, fun hrest => ?_, fun _ => hresults, fun hfinished => ?_,
    fun hfinished => ?_⟩
  · have hidle : s.m_batch.call.isNone = true ∧ s.m_batch.posted.isEmpty = true ∧
        s.m_batch.running.isEmpty = true := by
      simpa [shown, and_assoc] using hrest
    have hends := hdepth.complete (Option.isNone_iff_eq_none.mp hidle.1)
      (List.isEmpty_iff.mp hidle.2.1) (List.isEmpty_iff.mp hidle.2.2)
    rcases hends with hfinished | herror
    · have hpos := List.count_pos_iff.mpr hfinished
      exact Nat.le_antisymm hdepth.finishedOnce hpos
    · obtain ⟨request, hanswer⟩ := h.error _ herror
      exact absurd (hresults _ hanswer) not_false
  · exact ⟨h.assets.length, h.assets.aligned hresults (h.answered (hmem hfinished) · .asset)⟩
  · exact ⟨h.amounts.length, h.amounts.aligned hresults (h.answered (hmem hfinished) · .amount)⟩

/-- A command for a factor finishes with some bytes, and none has an error. -/
def Returns (s : LedgerGetBlindingFactorsActivity) : LedgerBlindingEvent → Prop
  | .finish command response => s.request command.id ≠ none → response ≠ []
  | .error _ => False
  | _ => True

theorem allResults_ledger (s : LedgerGetBlindingFactorsActivity) (event : LedgerBlindingEvent) :
    AllResults (ledgerBlinding.next s event).answers ↔ AllResults s.answers ∧ s.Returns event := by
  have hanswers : (ledgerBlinding.next s event).answers = s.answers ++ s.answered event := rfl
  rw [hanswers, AllResults, AllResults, List.forall_mem_append]
  cases event <;> simp [answered, Returns, Answer.IsResult]

theorem atRest_of_ended (h : ∀ event, ¬ ledgerBlinding.enabled s event) : s.shown.atRest = true := by
  have hcall : s.m_batch.call = none := by
    by_contra hcall
    exact h .call hcall
  have hposted : s.m_batch.posted = [] := by
    by_contra hposted
    exact h .deliver ⟨hcall, hposted⟩
  have hrunning : s.m_batch.running = [] := by
    apply List.eq_nil_iff_forall_not_mem.mpr
    intro command hcommand
    exact h (.finish command []) ⟨hcall, hcommand⟩
  simp [shown, hcall, hposted, hrunning]

/-- An activity that has come to its end is complete exactly if no command had an error. -/
theorem ledger_completes_iff (inputs : List LiquidInput) (outputs : List LiquidOutput)
    {events : List LedgerBlindingEvent} (hends : ledgerBlinding.Ends (exec inputs outputs) events) :
    ledgerBlinding.Always (fun s => CompleteOrFailed List.reverse outputs s.shown)
        (exec inputs outputs) events ↔
      ledgerBlinding.Along Returns (exec inputs outputs) events := by
  obtain ⟨hevents, hrest⟩ := hends
  replace hrest := atRest_of_ended hrest
  have hempty : AllResults (exec inputs outputs).answers := fun _ h => absurd h List.not_mem_nil
  have hresults (es : List LedgerBlindingEvent) :=
    Reactive.run_iff_along (R := ledgerBlinding) (J := fun _ => True) (P := Returns)
      (I := fun s => AllResults s.answers) (fun _ _ _ => trivial)
      (fun s event _ => allResults_ledger s event) (s := exec inputs outputs) trivial es
  simp only [hempty, true_and] at hresults
  have hknown {es : List LedgerBlindingEvent}
      (hes : ledgerBlinding.Valid (exec inputs outputs) es) :=
    Reactive.run_invariant (I := Known inputs outputs) (fun s event h he => h.next he)
      (known_exec inputs outputs) hes
  constructor
  · intro h
    have hfinished : (ledgerBlinding.run (exec inputs outputs) events).shown.finished = 1 :=
      h.last.ends hrest
    exact (hresults events).mp (h.last.results hfinished)
  · intro h
    rw [Reactive.always_iff]
    rintro fs gs rfl
    obtain ⟨hvalid, -⟩ := (ledgerBlinding.along_append _ _ fs gs).mp hevents
    obtain ⟨hreturns, -⟩ := (ledgerBlinding.along_append _ _ fs gs).mp h
    exact (hknown hvalid).complete ((hresults fs).mpr hreturns)

end LedgerGetBlindingFactorsActivity

/-! ## Both devices -/

/-- Either activity is complete, or has failed, exactly if each of its requests has returned a
result. -/
theorem blindingFactors_iff (getHashPrevouts : Bytes → List UInt32 → Bytes)
    (inputs : List LiquidInput) (outputs : List LiquidOutput) (connected : Bool) :
    (∀ events, jadeBlinding.Ends
        (JadeGetBlindingFactorsActivity.exec getHashPrevouts inputs outputs connected) events →
      (jadeBlinding.Always (fun s => CompleteOrFailed id outputs s.shown)
          (JadeGetBlindingFactorsActivity.exec getHashPrevouts inputs outputs connected) events ↔
        jadeBlinding.Along JadeGetBlindingFactorsActivity.Returns
          (JadeGetBlindingFactorsActivity.exec getHashPrevouts inputs outputs connected)
          events)) ∧
    ∀ events, ledgerBlinding.Ends (LedgerGetBlindingFactorsActivity.exec inputs outputs) events →
      (ledgerBlinding.Always (fun s => CompleteOrFailed List.reverse outputs s.shown)
          (LedgerGetBlindingFactorsActivity.exec inputs outputs) events ↔
        ledgerBlinding.Along LedgerGetBlindingFactorsActivity.Returns
          (LedgerGetBlindingFactorsActivity.exec inputs outputs) events) := by
  constructor
  · intro events hends
    exact JadeGetBlindingFactorsActivity.jade_completes_iff getHashPrevouts inputs outputs connected
      hends
  · intro events hends
    exact LedgerGetBlindingFactorsActivity.ledger_completes_iff inputs outputs hends

def someInput : LiquidInput where
  txhash := List.replicate 32 1
  pt_idx := 0
  commitment := none
  sequence := 0
  prevout_script := []
  satoshi := 1000
  assetblinder := []
  amountblinder := []
  user_path := []

def blindedOutput : LiquidOutput where
  blinding_key := some [2]
  satoshi := 1000
  asset_id := ⟨List.replicate 32 0, rfl⟩
  eph_public_key := [3]
  scriptpubkey := [0, 20]

/-- A Jade has returned both factors of one output. -/
theorem blindingFactors_iff_jade :
    jadeBlinding.Always (fun s => CompleteOrFailed id [blindedOutput] s.shown)
      (JadeGetBlindingFactorsActivity.exec (fun _ _ => []) [someInput] [blindedOutput] true)
      [.response [("result", .bytes [6])], .deliver, .response [("result", .bytes [7])],
        .deliver] := by
  refine ((blindingFactors_iff (fun _ _ => []) [someInput] [blindedOutput] true).1 _ ⟨?_, ?_⟩).mpr ?_
  · exact ⟨⟨0, .asset, rfl⟩, ⟨0, .inl rfl⟩, ⟨0, .amount, rfl⟩, ⟨1, .inr rfl⟩, trivial⟩
  · rintro (msg | -)
    · intro ⟨index, factor, hwaiting⟩
      cases hwaiting
    · rintro ⟨index, hwaiting | hwaiting⟩ <;> cases hwaiting
  · exact ⟨⟨rfl, List.cons_ne_nil _ _⟩, trivial, ⟨rfl, List.cons_ne_nil _ _⟩, trivial, trivial⟩

/-- A Jade that answers with an error first, for one output with a blinding key. -/
def errorAnswered : List JadeBlindingEvent :=
  [.response [("error", .map [])], .deliver, .response [("result", .bytes [7])], .deliver]

/-- The first command, for the transaction, has an error. -/
def commandRefused : List LedgerBlindingEvent := [.call, .call, .error (.leaf 1 [])]

/-- The activity of a Jade finishes with an empty entry, and that of a Ledger stays as it is. -/
theorem not_blindingFactors :
    ¬ ((∀ (inputs : List LiquidInput) (outputs : List LiquidOutput) (connected : Bool)
        (events : List JadeBlindingEvent),
        jadeBlinding.Ends (JadeGetBlindingFactorsActivity.exec (fun _ _ => []) inputs outputs
          connected) events →
        jadeBlinding.Always (fun s => CompleteOrFailed id outputs s.shown)
          (JadeGetBlindingFactorsActivity.exec (fun _ _ => []) inputs outputs connected) events) ∨
      ∀ (inputs : List LiquidInput) (outputs : List LiquidOutput)
        (events : List LedgerBlindingEvent),
        ledgerBlinding.Ends (LedgerGetBlindingFactorsActivity.exec inputs outputs) events →
        ledgerBlinding.Always (fun s => CompleteOrFailed List.reverse outputs s.shown)
          (LedgerGetBlindingFactorsActivity.exec inputs outputs) events) := by
  rintro (hjade | hledger)
  · have h := hjade [someInput] [blindedOutput] true errorAnswered
      ⟨⟨⟨0, .asset, rfl⟩, ⟨0, .inl rfl⟩, ⟨0, .amount, rfl⟩, ⟨1, .inr rfl⟩, trivial⟩, by
        rintro (msg | -)
        · intro ⟨index, factor, hwaiting⟩
          cases hwaiting
        · rintro ⟨index, hwaiting | hwaiting⟩ <;> cases hwaiting⟩
    have hresults := h.last.results rfl
    exact absurd (hresults _ List.mem_cons_self) not_false
  · have h := hledger [someInput] [blindedOutput] commandRefused
      ⟨⟨Option.some_ne_none _, Option.some_ne_none _, ⟨rfl, List.mem_cons_self⟩, trivial⟩, by
        rintro (- | - | ⟨command, response⟩ | command)
        · exact fun henabled => henabled rfl
        · exact fun henabled => henabled.2 rfl
        · exact fun henabled => List.not_mem_nil henabled.2
        · exact fun henabled => List.not_mem_nil henabled.2⟩
    have hends := h.last.ends rfl
    cases hends

end GreenWallet.Devices
