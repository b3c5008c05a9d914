import GreenWallet.Ledger.Finishing
import GreenWallet.Ledger.Signing

/-!
# The run of a signing activity as a computation

The commands finish in an order that their trees determine, those that a handler adds right after
the command it is connected to. So what the handlers do is a computation on the list of commands
that are to finish, whatever the events that bring it about.
-/
namespace GreenWallet.Ledger
open GreenWallet.Library

/-! ## Trees of commands and their objects -/

mutual
theorem CommandTree.ids_object (first : ℕ) (tree : CommandTree) :
    (tree.object first).ids = List.range' first tree.entries.length := by
  cases tree with
  | command payload handler => rfl
  | batch commands handler =>
      rw [CommandTree.object, CommandObject.ids, idsOf, List.append_nil, idsOf_objectsOf,
        CommandTree.entries, List.length_cons, List.range'_succ]

theorem idsOf_objectsOf (first : ℕ) (trees : List CommandTree) :
    idsOf (objectsOf first trees) = List.range' first (entriesOf trees).length := by
  cases trees with
  | nil => rfl
  | cons tree trees =>
      rw [objectsOf, idsOf, entriesOf, List.length_append, CommandTree.ids_object first tree,
        idsOf_objectsOf _ trees, List.range'_append_1]
end

mutual
/-- The commands of a tree in the order in which they finish, with their depths. -/
def CommandTree.finishing (depth : ℕ) : CommandTree → List (ObjectEntry × ℕ)
  | .command payload handler => [(⟨some payload, handler⟩, depth)]
  | .batch commands handler => finishingAll (depth + 1) commands ++ [(⟨none, handler⟩, depth)]

def finishingAll (depth : ℕ) : List CommandTree → List (ObjectEntry × ℕ)
  | [] => []
  | tree :: trees => tree.finishing depth ++ finishingAll depth trees
end

theorem finishingAll_append (depth : ℕ) (trees more : List CommandTree) :
    finishingAll depth (trees ++ more) = finishingAll depth trees ++ finishingAll depth more := by
  induction trees with
  | nil => rfl
  | cons tree trees ih => rw [List.cons_append, finishingAll, finishingAll, ih, List.append_assoc]

/-- The objects from `first` on are these. -/
def Entered (entry : ℕ → ObjectEntry) (first : ℕ) (entries : List ObjectEntry) : Prop :=
  (List.range' first entries.length).map entry = entries

theorem entered_append {entry : ℕ → ObjectEntry} {first : ℕ} {entries more : List ObjectEntry} :
    Entered entry first (entries ++ more) ↔
      Entered entry first entries ∧ Entered entry (first + entries.length) more := by
  rw [Entered, List.length_append, ← List.range'_append_1, List.map_append]
  constructor
  · intro h
    exact List.append_inj h (by rw [List.length_map, List.length_range'])
  · intro ⟨hentries, hmore⟩
    rw [hentries, hmore]

mutual
theorem CommandTree.map_toFinish {entry : ℕ → ObjectEntry} {first : ℕ} (depth : ℕ)
    (tree : CommandTree) (h : Entered entry first tree.entries) :
    ((tree.object first).toFinish depth).map (fun item => (entry item.1, item.2)) =
      tree.finishing depth := by
  cases tree with
  | command payload handler =>
      have hentry : entry first = ⟨some payload, handler⟩ := (List.cons_eq_cons.mp h).1
      rw [CommandTree.object, CommandObject.toFinish, List.map_singleton, hentry,
        CommandTree.finishing]
  | batch commands handler =>
      rw [CommandTree.entries, ← List.singleton_append, entered_append] at h
      have hentry : entry first = ⟨none, handler⟩ := (List.cons_eq_cons.mp h.1).1
      rw [CommandTree.object, CommandObject.toFinish, List.map_append, List.map_singleton, hentry,
        CommandTree.finishing]
      congr 1
      exact map_toFinishAll (depth + 1) commands h.2

theorem map_toFinishAll {entry : ℕ → ObjectEntry} {first : ℕ} (depth : ℕ)
    (trees : List CommandTree) (h : Entered entry first (entriesOf trees)) :
    (toFinishAll depth (objectsOf first trees)).map (fun item => (entry item.1, item.2)) =
      finishingAll depth trees := by
  cases trees with
  | nil => rfl
  | cons tree trees =>
      rw [entriesOf, entered_append] at h
      rw [objectsOf, toFinishAll, List.map_append, CommandTree.map_toFinish depth tree h.1,
        map_toFinishAll depth trees h.2, finishingAll]
end

/-! ## The computation -/

/-- The handler may add commands. -/
def Handler.Adds (handler : Handler) : Prop := handler = .signSW ∨ handler = .signNonSW

theorem adds_eq_nil {activity : LedgerSignTransactionActivity} {handler : Handler}
    (h : ¬ handler.Adds) (state : SigningState) : activity.adds handler state = [] := by
  cases handler with
  | nothing => rfl
  | trustedInput sequence segwit => rfl
  | hashSign index => rfl
  | signSW => exact absurd (.inl rfl) h
  | signNonSW => exact absurd (.inr rfl) h

/-- A command whose handler adds commands is the last of its batch, which finishes next. -/
def Orderly : List (ObjectEntry × ℕ) → Prop
  | [] => True
  | item :: rest =>
      (item.1.handler.Adds → ∃ next rest', rest = next :: rest' ∧ item.2 = next.2 + 1) ∧ Orderly rest

/-- These commands finish with these responses, one after the other, and the handlers lead from
one state to another, and from one list of commands that are to finish to another. -/
inductive Consumes (activity : LedgerSignTransactionActivity) :
    SigningState → List (ObjectEntry × ℕ) → List (ObjectEntry × Bytes) →
      SigningState → List (ObjectEntry × ℕ) → Prop
  | nil (state : SigningState) (items : List (ObjectEntry × ℕ)) :
      Consumes activity state items [] state items
  | cons {state state' : SigningState} {entry : ObjectEntry} {depth : ℕ}
      {items items' : List (ObjectEntry × ℕ)} {response : Bytes}
      {observed : List (ObjectEntry × Bytes)}
      (h : Consumes activity (entry.handler.run response state)
        (finishingAll depth (activity.adds entry.handler state) ++ items) observed state' items') :
      Consumes activity state ((entry, depth) :: items) ((entry, response) :: observed) state' items'

section
variable {activity : LedgerSignTransactionActivity} {state state' : SigningState}
variable {items items' : List (ObjectEntry × ℕ)} {observed : List (ObjectEntry × Bytes)}
variable {entry : ObjectEntry} {depth : ℕ}

theorem Consumes.concat (h : Consumes activity state items observed state' ((entry, depth) :: items'))
    (response : Bytes) :
    Consumes activity state items (observed ++ [(entry, response)])
      (entry.handler.run response state')
      (finishingAll depth (activity.adds entry.handler state') ++ items') := by
  generalize hto : (entry, depth) :: items' = before at h
  induction h with
  | nil state items =>
      subst hto
      exact .cons (.nil _ _)
  | cons _ ih => exact .cons (ih hto)

/-- Commands whose handlers add nothing finish as they stand. -/
theorem Consumes.split {plain : List (ObjectEntry × ℕ)}
    (h : Consumes activity state (plain ++ items) observed state' [])
    (hplain : ∀ item ∈ plain, ¬ item.1.handler.Adds) :
    ∃ first rest, observed = first ++ rest ∧ first.map Prod.fst = plain.map Prod.fst ∧
      Consumes activity
        (first.foldl (fun state command => command.1.handler.run command.2 state) state) items rest
        state' [] := by
  induction plain generalizing state observed with
  | nil => exact ⟨[], observed, rfl, rfl, h⟩
  | cons item plain ih =>
      rw [List.forall_mem_cons] at hplain
      rw [List.cons_append] at h
      cases h with
      | @cons _ _ entry _ _ _ response observed h =>
          obtain ⟨hitem, hplain⟩ := hplain
          rw [adds_eq_nil hitem, finishingAll, List.nil_append] at h
          obtain ⟨first, rest, rfl, hfirst, hrest⟩ := ih h hplain
          exact ⟨(entry, response) :: first, rest, rfl, by rw [List.map_cons, hfirst]; rfl, hrest⟩

theorem Orderly.of_append {more : List (ObjectEntry × ℕ)} (h : Orderly items)
    (hmore : ∀ item ∈ more, ¬ item.1.handler.Adds) : Orderly (more ++ items) := by
  induction more with
  | nil => exact h
  | cons item more ih =>
      obtain ⟨hitem, hmore⟩ := List.forall_mem_cons.mp hmore
      exact ⟨fun hadds => absurd hadds hitem, ih hmore⟩

end

/-! ## The runs of the activity -/

theorem finishingAll_exchange (depth : ℕ) (payloads : List Bytes) :
    finishingAll depth (payloads.map exchange) =
      payloads.map fun payload => (⟨some payload, .nothing⟩, depth) := by
  induction payloads with
  | nil => rfl
  | cons payload payloads ih =>
      rw [List.map_cons, finishingAll, ih]
      rfl

theorem finishing_exchanges (depth : ℕ) (payloads : List Bytes) :
    (exchanges payloads).finishing depth =
      payloads.map (fun payload => (⟨some payload, .nothing⟩, depth + 1)) ++
        [(⟨none, .nothing⟩, depth)] := by
  rw [exchanges, CommandTree.finishing, finishingAll_exchange]

theorem finishing_trustedInputBatch (depth : ℕ) (tx : WallyTx) (index sequence : UInt32)
    (segwit : Bool) : (trustedInputBatch tx index sequence segwit).finishing depth =
      (getTrustedInput tx index).dropLast.map (fun payload => (⟨some payload, .nothing⟩, depth + 1)) ++
        [(⟨some (apdu BTCHIP_CLA BTCHIP_INS_GET_TRUSTED_INPUT 0x80 0x00
          (DataStream.little.writeUInt32 tx.locktime).data), .trustedInput sequence segwit⟩, depth + 1),
        (⟨none, .nothing⟩, depth)] := by
  rw [trustedInputBatch, CommandTree.finishing, finishingAll_append, finishingAll_exchange]
  simp [finishingAll, CommandTree.finishing]

/-- All handlers in the trees are of this kind. -/
def HandledBy (kind : Handler → Prop) (trees : List CommandTree) : Prop :=
  ∀ depth, ∀ item ∈ finishingAll depth trees, kind item.1.handler

section
variable {kind : Handler → Prop} {trees more : List CommandTree}

theorem handledBy_nil : HandledBy kind [] := fun _ _ hitem => absurd hitem List.not_mem_nil

theorem HandledBy.append (h : HandledBy kind trees) (hmore : HandledBy kind more) :
    HandledBy kind (trees ++ more) := by
  intro depth item hitem
  rw [finishingAll_append, List.mem_append] at hitem
  exact hitem.elim (h depth item) (hmore depth item)

theorem HandledBy.cons {tree : CommandTree} (htree : HandledBy kind [tree])
    (h : HandledBy kind trees) : HandledBy kind (tree :: trees) := htree.append h

theorem handledBy_flatten {lists : List (List CommandTree)}
    (h : ∀ trees ∈ lists, HandledBy kind trees) : HandledBy kind lists.flatten := by
  induction lists with
  | nil => exact handledBy_nil
  | cons trees lists ih =>
      rw [List.forall_mem_cons] at h
      exact h.1.append (ih h.2)

theorem HandledBy.mono {kind' : Handler → Prop} (h : HandledBy kind trees)
    (hkind : ∀ handler, kind handler → kind' handler) : HandledBy kind' trees :=
  fun depth item hitem => hkind _ (h depth item hitem)

theorem handledBy_exchanges (hnothing : kind .nothing) (payloads : List Bytes) :
    HandledBy kind [exchanges payloads] := by
  intro depth item hitem
  rw [finishingAll, finishing_exchanges, finishingAll, List.append_nil, List.mem_append,
    List.mem_map, List.mem_singleton] at hitem
  rcases hitem with ⟨payload, -, rfl⟩ | rfl
  · exact hnothing
  · exact hnothing

theorem handledBy_untrustedHashSign {index : ℕ} (hnothing : kind .nothing)
    (hsign : kind (.hashSign index)) (path : List UInt32) (locktime : UInt32) :
    HandledBy kind [untrustedHashSignBatch index path locktime] := by
  intro depth item hitem
  rcases List.mem_cons.mp hitem with rfl | hitem
  · exact hsign
  · rw [List.mem_singleton.mp hitem]
    exact hnothing

theorem handledBy_trustedInput {sequence : UInt32} {segwit : Bool} (hnothing : kind .nothing)
    (htrusted : kind (.trustedInput sequence segwit)) (tx : WallyTx) (index : UInt32) :
    HandledBy kind [trustedInputBatch tx index sequence segwit] := by
  intro depth item hitem
  rw [finishingAll, finishing_trustedInputBatch, finishingAll, List.append_nil, List.mem_append,
    List.mem_map] at hitem
  rcases hitem with ⟨payload, -, rfl⟩ | hitem
  · exact hnothing
  · rcases List.mem_cons.mp hitem with rfl | hitem
    · exact htrusted
    · rw [List.mem_singleton.mp hitem]
      exact hnothing

end

/-- The round of an input has no other handler than the one for its signature. -/
theorem handledBy_signInputSW (activity : LedgerSignTransactionActivity) (i : ℕ) (hw_input : Input)
    (input : SigningInput) :
    HandledBy (fun handler => handler = .nothing ∨
      handler = .hashSign i ∧ input.address_type ≠ "p2sh")
      (activity.signInputSW i hw_input input) := by
  rw [LedgerSignTransactionActivity.signInputSW]
  split_ifs with htype
  · exact handledBy_nil
  · exact (handledBy_exchanges (.inl rfl) _).cons
      (handledBy_untrustedHashSign (.inl rfl) (.inr ⟨rfl, htype⟩) _ _)

theorem handledBy_signInputNonSW (activity : LedgerSignTransactionActivity)
    (m_hw_inputs : List Input) (i : ℕ) (input : SigningInput) :
    HandledBy (fun handler => handler = .nothing ∨
      handler = .hashSign i ∧ input.address_type = "p2sh")
      (activity.signInputNonSW m_hw_inputs i input) := by
  rw [LedgerSignTransactionActivity.signInputNonSW]
  apply HandledBy.append
  · exact (handledBy_exchanges (.inl rfl) _).cons (handledBy_exchanges (.inl rfl) _)
  · split_ifs with htype
    · exact handledBy_untrustedHashSign (.inl rfl) (.inr ⟨rfl, htype⟩) _ _
    · exact handledBy_nil

/-- Of the commands that handlers add, only those that sign have handlers. -/
theorem handledBy_adds (activity : LedgerSignTransactionActivity) (handler : Handler)
    (state : SigningState) :
    HandledBy (fun handler => handler = .nothing ∨ ∃ i, handler = .hashSign i)
      (activity.adds handler state) := by
  cases handler with
  | nothing => exact handledBy_nil
  | trustedInput sequence segwit => exact handledBy_nil
  | hashSign index => exact handledBy_nil
  | signSW =>
      apply HandledBy.append
      · exact (handledBy_exchanges (.inl rfl) _).cons (handledBy_exchanges (.inl rfl) _)
      · apply handledBy_flatten
        intro trees htrees
        obtain ⟨i, hi, rfl⟩ := List.mem_mapIdx.mp htrees
        exact (handledBy_signInputSW activity i _ _).mono fun _ hkind =>
          hkind.imp id fun hsign => ⟨i, hsign.1⟩
  | signNonSW =>
      apply handledBy_flatten
      intro trees htrees
      obtain ⟨i, hi, rfl⟩ := List.mem_mapIdx.mp htrees
      exact (handledBy_signInputNonSW activity _ i _).mono fun _ hkind =>
        hkind.imp id fun hsign => ⟨i, hsign.1⟩

theorem not_adds_nothing : ¬ Handler.nothing.Adds := by
  intro h
  cases h with
  | inl h => cases h
  | inr h => cases h

theorem not_adds_hashSign (index : ℕ) : ¬ (Handler.hashSign index).Adds := by
  intro h
  cases h with
  | inl h => cases h
  | inr h => cases h

/-- What handlers add has no handlers that add commands. -/
theorem not_adds_adds (activity : LedgerSignTransactionActivity) (handler : Handler)
    (state : SigningState) :
    HandledBy (fun handler => ¬ handler.Adds) (activity.adds handler state) := by
  refine (handledBy_adds activity handler state).mono ?_
  intro handler hkind
  obtain rfl | ⟨i, rfl⟩ := hkind
  · exact not_adds_nothing
  · exact not_adds_hashSign i

namespace Signing
variable (activity : LedgerSignTransactionActivity) (fromBytes : Bytes → WallyTx)

/-- The commands that have finished, with their responses. -/
def observed (s : Signing) : List (ObjectEntry × Bytes) :=
  s.finished.map fun command => (s.entry command.1, command.2)

/-- The commands that are to finish. -/
def toCome (s : Signing) (focus : Focus) (frames : List Frame) : List (ObjectEntry × ℕ) :=
  (focus.toFinish frames).map fun item => (s.entry item.1, item.2)

/-- The computation has got as far as this. -/
def Progress (s : Signing) (items : List (ObjectEntry × ℕ)) : Prop :=
  Consumes activity (start activity fromBytes).state ((activity.execBatch fromBytes).finishing 0)
    s.observed s.state items

structure Going (s : Signing) (root : CommandObject) (focus : Focus) (frames : List Frame) : Prop where
  rootId : root.id = 0
  core : Core root s.execution focus frames
  unused : Unused s.execution focus frames s.objects.length
  entered : ∀ command ∈ s.finished, command.1 < s.objects.length
  orderly : Orderly (s.toCome focus frames)
  progress : s.Progress activity fromBytes (s.toCome focus frames)

inductive Stage (s : Signing) : Prop
  | going {root : CommandObject} {focus : Focus} {frames : List Frame}
      (going : s.Going activity fromBytes root focus frames) (holds : focus.Holds s.execution frames)
  | finished (idle : s.execution.Idle) (emitted : s.emitted = [.finished])
      (noError : ∀ id, .error id ∉ s.execution.log) (progress : s.Progress activity fromBytes [])
  | failed (idle : s.execution.Idle) (emitted : s.emitted = [.fail])

variable {activity fromBytes} {s : Signing} {root : CommandObject} {frame : Frame}
variable {frames : List Frame} {id : ℕ} {appends : List CommandObject} {response : Bytes}

/-- Objects that are made do not change those there are. -/
theorem entry_finish (hid : id < s.objects.length) (other : ℕ) (response : Bytes) :
    (s.finish activity other response).entry id = s.entry id := by
  rw [entry, entry, finish, List.getElem?_append_left hid]

theorem observed_finish (hentered : ∀ command ∈ s.finished, command.1 < s.objects.length)
    (hid : id < s.objects.length) : (s.finish activity id response).observed =
      s.observed ++ [(s.entry id, response)] := by
  have hsame : (s.finished.map fun command =>
      ((s.finish activity id response).entry command.1, command.2)) = s.observed := by
    apply List.map_congr_left
    intro command hcommand
    rw [entry_finish (hentered command hcommand)]
  rw [observed]
  show (s.finished ++ [(id, response)]).map _ = _
  rw [List.map_append, hsame, List.map_singleton, entry_finish hid]

theorem entered_finish (s : Signing) (id : ℕ) (response : Bytes) :
    Entered (s.finish activity id response).entry s.objects.length
      (entriesOf (activity.adds (s.entry id).handler s.state)) := by
  apply List.ext_getElem
  · rw [List.length_map, List.length_range']
  · intro k hk hk'
    rw [List.getElem_map, List.getElem_range', Nat.one_mul, entry, finish,
      List.getElem?_append_right (Nat.le_add_right _ _), Nat.add_sub_cancel_left,
      List.getElem?_eq_getElem hk', Option.getD_some]

/-- What is to come when a command of a batch has finished: first what its handler adds. -/
theorem toCome_finish (hunused : Unused s.execution (.running id appends) (frame :: frames)
      s.objects.length)
    (horderly : Orderly (s.toCome (.running id appends) (frame :: frames))) :
    (s.finish activity id response).toCome .posted
        ({ frame with
          queue := frame.queue ++
            objectsOf s.objects.length (activity.adds (s.entry id).handler s.state) } :: frames) =
      finishingAll (frames.length + 1) (activity.adds (s.entry id).handler s.state) ++
        s.toCome .posted (frame :: frames) := by
  have hold : ((Focus.posted.toFinish (frame :: frames)).map fun item =>
      ((s.finish activity id response).entry item.1, item.2)) = s.toCome .posted (frame :: frames) := by
    apply List.map_congr_left
    intro item hitem
    have hmem : item ∈ (Focus.running id appends).toFinish (frame :: frames) :=
      List.mem_cons_of_mem _ hitem
    rw [entry_finish (hunused.named _ (mem_names_of_mem_toFinish hmem))]
  by_cases hadds : (s.entry id).handler.Adds
  · obtain ⟨next, rest, hrest, hdepth⟩ := horderly.1 hadds
    have hmap : (Focus.posted.toFinish (frame :: frames)).map
        (fun item => ((s.entry item.1, item.2) : ObjectEntry × ℕ)) = next :: rest := hrest
    cases hlast : Focus.posted.toFinish (frame :: frames) with
    | nil =>
        rw [hlast] at hmap
        cases hmap
    | cons item items =>
        rw [hlast] at hmap
        have hsame : ((s.entry item.1, item.2) : ObjectEntry × ℕ) = next :=
          (List.cons_eq_cons.mp hmap).1
        have hitem : item.2 = frames.length := by
          rw [← hsame] at hdepth
          exact (Nat.succ.inj hdepth).symm
        rw [toCome, Focus.toFinish_more _ hlast hitem, List.map_append,
          map_toFinishAll _ _ (entered_finish s id response), ← hlast, hold]
  · rw [adds_eq_nil hadds, objectsOf, toCome, Focus.toFinish_nothing, hold]
    rfl

/-- Signals of the outermost batch are all that is emitted. -/
def signalOf (signal : BatchSignal) : Option ActivitySignal :=
  if signal = .finished 0 then some .finished else if signal = .error 0 then some .fail else none

theorem emitted_eq (s : Signing) : s.emitted = s.execution.log.filterMap signalOf := rfl

theorem filterMap_signalOf_eq_nil {log : List BatchSignal} (hfinished : .finished 0 ∉ log)
    (herror : .error 0 ∉ log) : log.filterMap signalOf = [] := by
  rw [List.filterMap_eq_nil_iff]
  intro signal hsignal
  rw [signalOf, if_neg, if_neg]
  · intro hsame
    subst hsame
    exact herror hsignal
  · intro hsame
    subst hsame
    exact hfinished hsignal

/-- Nothing is emitted on the way. -/
theorem Going.log_eq_nil {focus : Focus} (h : s.Going activity fromBytes root focus frames) :
    s.execution.log.filterMap signalOf = [] := by
  apply filterMap_signalOf_eq_nil
  · rw [← h.rootId]
    apply h.core.unfinished
    exact List.mem_append_left _ (List.mem_of_getLast? h.core.last)
  · exact h.core.noError 0

theorem Going.id_lt (h : s.Going activity fromBytes root (.running id appends) frames) :
    id < s.objects.length := h.unused.named id (List.mem_append_left _ List.mem_cons_self)

/-- The outermost batch finishes, and with it the activity. -/
theorem Going.finish_root (h : s.Going activity fromBytes root (.running id appends) [])
    (hidle : s.execution.Idle) (response : Bytes) :
    Stage activity fromBytes (s.finish activity id response) := by
  have hplain : ¬ (s.entry id).handler.Adds := by
    intro hadds
    obtain ⟨next, rest, hrest, -⟩ := h.orderly.1 hadds
    cases hrest
  have hlog : (s.finish activity id response).execution =
      { s.execution with log := s.execution.log ++ [.finished root.id] } := log_finish_root h.core
  apply Stage.finished
  · rw [hlog]
    exact ⟨hidle.call, hidle.posted, hidle.running⟩
  · rw [emitted_eq, hlog, List.filterMap_append, h.log_eq_nil, h.rootId]
    rfl
  · intro other
    rw [hlog, List.mem_append, not_or]
    exact ⟨h.core.noError other, by simp⟩
  · have hprogress := h.progress.concat response
    rw [adds_eq_nil hplain] at hprogress
    rw [Progress, observed_finish h.entered h.id_lt]
    exact hprogress

/-- A command of a batch finishes, and the batch has what its handler adds. -/
theorem Going.finish_inner
    (h : s.Going activity fromBytes root (.running id appends) (frame :: frames))
    (hidle : s.execution.Idle) (response : Bytes) :
    Stage activity fromBytes (s.finish activity id response) := by
  have hids := idsOf_objectsOf s.objects.length (activity.adds (s.entry id).handler s.state)
  have hlength : (s.finish activity id response).objects.length = s.objects.length +
      (entriesOf (activity.adds (s.entry id).handler s.state)).length := List.length_append
  have hle : s.objects.length ≤ (s.finish activity id response).objects.length :=
    hlength ▸ Nat.le_add_right _ _
  have hcore := h.core.adds h.unused (hids ▸ List.nodup_range')
    fun other hother => (List.mem_range'_1.mp (hids ▸ hother)).1
  have hmore : Unused s.execution
      (.running id (objectsOf s.objects.length (activity.adds (s.entry id).handler s.state)))
      (frame :: frames) (s.finish activity id response).objects.length := by
    apply h.unused.adds _ hle
    intro other hother
    rw [hlength]
    exact (List.mem_range'_1.mp (hids ▸ hother)).2
  have hentered : ∀ command ∈ (s.finish activity id response).finished,
      command.1 < (s.finish activity id response).objects.length := by
    intro command hcommand
    rcases List.mem_append.mp hcommand with hold | hnew
    · exact Nat.lt_of_lt_of_le (h.entered command hold) hle
    · rw [List.mem_singleton.mp hnew]
      exact Nat.lt_of_lt_of_le h.id_lt hle
  have hwalk := Walk.finished hidle hcore hmore
  have htoCome := @toCome_finish activity s frame frames id appends response h.unused h.orderly
  refine Stage.going ⟨show (withLeaves root.id _).id = 0 from h.rootId, hwalk.core,
    hwalk.unused, hentered, ?_, ?_⟩ hwalk.holds
  · rw [htoCome]
    exact h.orderly.2.of_append (not_adds_adds activity _ _ _)
  · rw [Progress, observed_finish h.entered h.id_lt, htoCome]
    exact h.progress.concat response

/-- A command finishes. -/
theorem Going.finish (h : s.Going activity fromBytes root (.running id appends) frames)
    (hidle : s.execution.Idle) (response : Bytes) :
    Stage activity fromBytes (s.finish activity id response) := by
  cases frames with
  | nil => exact h.finish_root hidle response
  | cons frame frames => exact h.finish_inner hidle response

/-- Steps that no command finishes with leave what is to come. -/
theorem Going.of_toFinish {focus focus' : Focus} {frames' : List Frame} {execution : Execution}
    (h : s.Going activity fromBytes root focus frames) (hcore : Core root execution focus' frames')
    (hunused : Unused execution focus' frames' s.objects.length)
    (hsame : focus'.toFinish frames' = focus.toFinish frames) :
    Going activity fromBytes { s with execution } root focus' frames' := by
  have htoCome : toCome { s with execution } focus' frames' = s.toCome focus frames :=
    congrArg (List.map fun item : ℕ × ℕ => (s.entry item.1, item.2)) hsame
  exact ⟨h.rootId, hcore, hunused, h.entered, htoCome ▸ h.orderly, htoCome ▸ h.progress⟩

/-- A batch is executed, for the first time or again. -/
theorem Going.exec (h : s.Going activity fromBytes root .posted (frame :: frames))
    (hidle : s.execution.Idle) : Stage activity fromBytes (s.exec activity frame.command) := by
  have hcurrent := h.core.current frame List.mem_cons_self
  obtain ⟨id, constructed, appends, queue⟩ := frame
  cases queue with
  | nil =>
      have hempty : s.Emptied (.batch id constructed appends) := hcurrent
      have hcore := @Core.emptied root s.execution ⟨id, constructed, appends, []⟩ frames h.core
      have hunused : Unused s.execution (.running id appends) frames s.objects.length :=
        h.unused.mono (fun _ hother => hother) (fun _ => .inl) (fun _ => .inl) fun _ => .inl
      have hgoing := h.of_toFinish hcore hunused
        (Focus.toFinish_emptied ⟨id, constructed, appends, []⟩ appends frames).symm
      rw [Frame.command, Signing.exec, if_pos hempty]
      exact hgoing.finish hidle []
  | cons next rest =>
      have hfull : ¬ s.Emptied (.batch id constructed appends) := by
        show ¬ (s.execution.m_commands id).getD constructed = []
        rw [hcurrent]
        exact List.cons_ne_nil _ _
      have hwalk := @Walk.take root s.execution frames _ ⟨id, constructed, appends, []⟩ next rest hidle
        h.core h.unused
      have hgoing := h.of_toFinish hwalk.core hwalk.unused
        (Focus.toFinish_take ⟨id, constructed, appends, []⟩ next rest frames)
      rw [Frame.command, Signing.exec, if_neg hfull]
      exact .going hgoing hwalk.holds

theorem Stage.next_calling {command : CommandObject} {e : SigningEvent}
    (h : s.Going activity fromBytes root (.calling command) frames)
    (holds : (Focus.calling command).Holds s.execution frames)
    (henabled : (signing activity).enabled s e) :
    Stage activity fromBytes ((signing activity).next s e) := by
  obtain ⟨hcall, hposted, hrunning⟩ := holds
  cases e with
  | call =>
      have hnext : (signing activity).next s .call =
          exec activity { s with execution := { s.execution with call := none } } command := by
        simp only [signing, Signing.next, hcall]
      rw [hnext]
      cases command with
      | leaf id appends =>
          have hwalk := Walk.ran_leaf ⟨h.core, ⟨hcall, hposted, hrunning⟩, h.unused⟩
          exact .going (h.of_toFinish hwalk.core hwalk.unused rfl) hwalk.holds
      | batch id commands appends =>
          have hcore : Core root { s.execution with call := none } .posted
              (⟨id, commands, appends, commands⟩ :: frames) := h.core.called_batch.of_eq rfl rfl rfl
          have hunused : Unused { s.execution with call := none } .posted
              (⟨id, commands, appends, commands⟩ :: frames) s.objects.length :=
            h.unused.mono
              (fun _ hother => (names_call id commands appends frames).mem_iff.mp hother)
              (fun _ => .inl) (fun _ => .inl) fun _ => .inl
          have hgoing := h.of_toFinish hcore hunused (Focus.toFinish_batch id commands appends frames)
          exact hgoing.exec ⟨rfl, hposted, hrunning⟩
  | deliver => exact absurd (hcall.symm.trans henabled.1) (Option.some_ne_none command)
  | finish other response => exact absurd (hcall.symm.trans henabled.1) (Option.some_ne_none command)
  | error other => exact absurd (hcall.symm.trans henabled.1) (Option.some_ne_none command)

/-- The chain of errors ends with the outermost batch, which fails once. -/
theorem filterMap_errors {chain : List ℕ} (hnodup : chain.Nodup) (hlast : chain.getLast? = some 0) :
    (chain.map BatchSignal.error).filterMap signalOf = [.fail] := by
  obtain ⟨inner, rfl⟩ := List.getLast?_eq_some_iff.mp hlast
  have hinner : 0 ∉ inner := by
    intro hzero
    exact (List.nodup_append.mp hnodup).2.2 0 hzero 0 (List.mem_singleton_self 0) rfl
  rw [List.map_append, List.filterMap_append, filterMap_signalOf_eq_nil]
  · rfl
  · simp
  · simpa using hinner

theorem Stage.next_running {e : SigningEvent}
    (h : s.Going activity fromBytes root (.running id appends) frames)
    (holds : (Focus.running id appends).Holds s.execution frames)
    (henabled : (signing activity).enabled s e) :
    Stage activity fromBytes ((signing activity).next s e) := by
  obtain ⟨hcall, hposted, hrunning⟩ := holds
  have hremoved : s.execution.running.filter (fun other => other.id != id) = [] := by
    simp [hrunning, CommandObject.id]
  cases e with
  | call => exact absurd hcall henabled
  | deliver => exact absurd hposted henabled.2
  | finish command response =>
      have hcommand : command = .leaf id appends := by simpa [hrunning] using henabled.2
      subst hcommand
      have hgoing := h.of_toFinish
        (h.core.of_eq (t := { s.execution with
          running := s.execution.running.filter fun other => other.id != id }) rfl rfl rfl)
        (h.unused.of_eq rfl rfl rfl) rfl
      exact hgoing.finish ⟨hcall, hposted, hremoved⟩ response
  | error command =>
      have hcommand : command = .leaf id appends := by simpa [hrunning] using henabled.2
      subst hcommand
      have hchain : (id :: frames.map Frame.id).Nodup := (List.nodup_append.mp h.core.distinct).1
      have hlast : (id :: frames.map Frame.id).getLast? = some 0 := h.rootId ▸ h.core.last
      refine .failed ⟨hcall, hposted, hremoved⟩ ?_
      have hlog := log_fail (s := { s.execution with
        running := s.execution.running.filter fun other => other.id != id })
        (h.core.of_eq rfl rfl rfl)
      rw [emitted_eq]
      show (Execution.fail _ (.leaf id appends)).log.filterMap signalOf = _
      rw [show (CommandObject.leaf id appends).id = id from rfl, hlog, List.filterMap_append,
        h.log_eq_nil, filterMap_errors hchain hlast]
      rfl

theorem Stage.next_posted {e : SigningEvent}
    (h : s.Going activity fromBytes root .posted (frame :: frames))
    (holds : Focus.posted.Holds s.execution (frame :: frames))
    (henabled : (signing activity).enabled s e) :
    Stage activity fromBytes ((signing activity).next s e) := by
  obtain ⟨hcall, hposted, hrunning⟩ := holds
  cases e with
  | call => exact absurd hcall henabled
  | deliver =>
      have hnext : (signing activity).next s .deliver =
          exec activity { s with execution := { s.execution with posted := [] } } frame.command := by
        simp only [signing, Signing.next, hposted]
      rw [hnext]
      have hgoing := h.of_toFinish
        (h.core.of_eq (t := { s.execution with posted := [] }) rfl rfl rfl)
        (h.unused.of_eq rfl rfl rfl) rfl
      exact hgoing.exec ⟨hcall, rfl, hrunning⟩
  | finish command response => simp [signing, batches, batchEvent, hrunning] at henabled
  | error command => simp [signing, batches, batchEvent, hrunning] at henabled

theorem Stage.next {e : SigningEvent} (h : Stage activity fromBytes s)
    (henabled : (signing activity).enabled s e) :
    Stage activity fromBytes ((signing activity).next s e) := by
  cases h with
  | finished idle => exact absurd henabled (idle.not_enabled (batchEvent e))
  | failed idle => exact absurd henabled (idle.not_enabled (batchEvent e))
  | @going root focus frames h holds =>
      cases focus with
      | calling command => exact Stage.next_calling h holds henabled
      | running id appends => exact Stage.next_running h holds henabled
      | posted =>
          cases frames with
          | nil => exact holds.elim
          | cons frame frames => exact Stage.next_posted h holds henabled

/-! ## The start -/

theorem entered_start (activity : LedgerSignTransactionActivity) (fromBytes : Bytes → WallyTx) :
    Entered (start activity fromBytes).entry 0 (activity.execBatch fromBytes).entries := by
  apply List.ext_getElem
  · rw [List.length_map, List.length_range']
  · intro k hk hk'
    rw [List.getElem_map, List.getElem_range', Nat.one_mul, Nat.zero_add, entry, start,
      List.getElem?_eq_getElem hk', Option.getD_some]

theorem toCome_start (activity : LedgerSignTransactionActivity) (fromBytes : Bytes → WallyTx) :
    (start activity fromBytes).toCome (.calling ((activity.execBatch fromBytes).object 0)) [] =
      (activity.execBatch fromBytes).finishing 0 := by
  rw [toCome, Focus.toFinish, leftToFinish, List.append_nil]
  exact CommandTree.map_toFinish 0 _ (entered_start activity fromBytes)

end Signing

/-! ## The commands of the two parts -/

namespace LedgerSignTransactionActivity
variable (activity : LedgerSignTransactionActivity) (fromBytes : Bytes → WallyTx)

/-- The commands for the trusted inputs, as they finish. -/
def hwItems (segwit : Bool) : List (ObjectEntry × ℕ) :=
  finishingAll 3 (activity.m_signing_inputs.map fun input =>
    trustedInputBatch (fromBytes (activity.m_signing_transactions input.txhash)) input.pt_idx
      input.sequence segwit)

/-- A part of the activity, before the handler has added to it. -/
def partItems (segwit : Bool) (handler : Handler) : List (ObjectEntry × ℕ) :=
  activity.hwItems fromBytes segwit ++ [(⟨none, handler⟩, 2), (⟨none, .nothing⟩, 1)]

theorem finishing_execBatch : (activity.execBatch fromBytes).finishing 0 =
    (if activity.sw then activity.partItems fromBytes true .signSW else []) ++
    ((if activity.p2sh then activity.partItems fromBytes false .signNonSW else []) ++
      [(⟨none, .nothing⟩, 0)]) := by
  rw [execBatch, CommandTree.finishing, finishingAll_append, List.append_assoc]
  congr 1
  · split_ifs
    · simp [finishingAll, signSWBatch, hwInputsBatch, CommandTree.finishing, partItems, hwItems]
    · rfl
  · congr 1
    split_ifs
    · simp [finishingAll, signNonSWBatch, hwInputsBatch, CommandTree.finishing, partItems, hwItems]
    · rfl

theorem not_adds_hwItems (segwit : Bool) :
    ∀ item ∈ activity.hwItems fromBytes segwit, ¬ item.1.handler.Adds := by
  have hplain : HandledBy (fun handler => ¬ handler.Adds)
      (activity.m_signing_inputs.map fun input =>
        trustedInputBatch (fromBytes (activity.m_signing_transactions input.txhash)) input.pt_idx
          input.sequence segwit) := by
    induction activity.m_signing_inputs with
    | nil => exact handledBy_nil
    | cons input inputs ih =>
        refine HandledBy.cons (handledBy_trustedInput not_adds_nothing ?_ _ _) ih
        intro h
        cases h with
        | inl h => cases h
        | inr h => cases h
  exact hplain 3

theorem orderly_partItems {segwit : Bool} {handler : Handler} {items : List (ObjectEntry × ℕ)}
    (h : Orderly items) : Orderly (activity.partItems fromBytes segwit handler ++ items) := by
  rw [partItems, List.append_assoc]
  apply Orderly.of_append _ (activity.not_adds_hwItems fromBytes segwit)
  exact ⟨fun _ => ⟨_, _, rfl, rfl⟩, fun hadds => absurd hadds not_adds_nothing, h⟩

theorem orderly_execBatch : Orderly ((activity.execBatch fromBytes).finishing 0) := by
  have hroot : Orderly [((⟨none, .nothing⟩, 0) : ObjectEntry × ℕ)] :=
    ⟨fun hadds => absurd hadds not_adds_nothing, trivial⟩
  rw [finishing_execBatch]
  split_ifs
  · exact activity.orderly_partItems fromBytes (activity.orderly_partItems fromBytes hroot)
  · exact activity.orderly_partItems fromBytes hroot
  · exact activity.orderly_partItems fromBytes hroot
  · exact hroot

end LedgerSignTransactionActivity

namespace Signing

theorem stage_start (activity : LedgerSignTransactionActivity) (fromBytes : Bytes → WallyTx) :
    Stage activity fromBytes (start activity fromBytes) := by
  have hids := CommandTree.ids_object 0 (activity.execBatch fromBytes)
  apply @Stage.going _ _ _ _ (.calling ((activity.execBatch fromBytes).object 0)) []
  · exact
      { rootId := rfl
        core := Core.start (hids ▸ List.nodup_range')
        unused :=
          { named := by
              intro id hid
              have hmem : id ∈ ((activity.execBatch fromBytes).object 0).ids := by
                rw [ids_eq]
                simpa [names, Focus.chain, pending, Focus.held] using hid
              rw [hids] at hmem
              have hlt := (List.mem_range'_1.mp hmem).2
              rwa [Nat.zero_add] at hlt
            commands := fun _ hid => absurd rfl hid
            connections := fun _ hid => absurd hid List.not_mem_nil
            finished := fun _ hid => absurd hid List.not_mem_nil }
        entered := fun _ hcommand => absurd hcommand List.not_mem_nil
        orderly := by
          rw [toCome_start]
          exact activity.orderly_execBatch fromBytes
        progress := by
          rw [toCome_start]
          exact .nil _ _ }
  · exact ⟨rfl, rfl, rfl⟩

theorem stage_run {activity : LedgerSignTransactionActivity} (fromBytes : Bytes → WallyTx)
    {events : List SigningEvent}
    (hvalid : (signing activity).Valid (start activity fromBytes) events) :
    Stage activity fromBytes ((signing activity).run (start activity fromBytes) events) :=
  Reactive.run_invariant (fun _ _ h henabled => h.next henabled) (stage_start activity fromBytes)
    hvalid

end Signing

end GreenWallet.Ledger
