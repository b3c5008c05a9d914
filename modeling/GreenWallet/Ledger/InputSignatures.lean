import GreenWallet.Ledger.Rounds

/-!
# Every signature lands on its input

A run that finishes is the two parts, one after the other. A part of an input's kind signs it once,
and a part of the other kind does not sign it.
-/
namespace GreenWallet.Ledger
open GreenWallet.Library

/-- The signature of an input is the answer to the command with its path, which no other answer
replaces. Directly before it the device has been shown the input's script and the input's trusted
input, which is the one that it has returned before the commands of this part. -/
structure Signing.SignedFor (activity : LedgerSignTransactionActivity)
    (fromBytes : Bytes → WallyTx) (s : Signing) (i : ℕ) (input : SigningInput) (answer : Bytes) :
    Prop where
  once : s.signedWith i = [answer]
  signature : s.state.m_signatures[i]? = some (0x30 :: answer.drop 1)
  answered : ∃ values early trusted between block after late,
    s.observed = early ++ trusted ++ (between ++ block ++
      (⟨some (untrustedHashSign input.user_path activity.m_locktime), .hashSign i⟩, answer) ::
        after) ++ late ∧
    activity.Returned fromBytes activity.m_signing_inputs (answeredOf trusted) values ∧
    (answeredOf (between ++ block ++
      (⟨some (untrustedHashSign input.user_path activity.m_locktime), .hashSign i⟩, answer) ::
        after)).map Prod.fst = activity.signPart input.segwit values ∧
    (answeredOf block).map Prod.fst =
      activity.shown input.segwit (activity.hwInputs input.segwit values) i input

/-! ## The signatures of a part -/

namespace LedgerSignTransactionActivity
variable {activity : LedgerSignTransactionActivity} {fromBytes : Bytes → WallyTx}

section
variable {segwit : Bool} {observed trusted signed : List (ObjectEntry × Bytes)}
variable {values : List Bytes} {i : ℕ} {input : SigningInput}

/-- What a part adds, with the round of an input and the rounds of others around it. -/
theorem Part.exists_rounds
    (h : Part activity fromBytes segwit (hwHandler segwit) observed values trusted signed)
    (hinput : activity.m_signing_inputs[i]? = some input) :
    ∃ hw_input before items after, (activity.hwInputs segwit values)[i]? = some hw_input ∧
      signed = before ++ items ++ after ∧
      items.map Prod.fst = (finishingAll 2 (activity.round segwit (activity.hwInputs segwit values) i
        (hw_input, input))).map Prod.fst ∧
      signedOf i before = [] ∧ signedOf i after = [] := by
  obtain ⟨hi, -⟩ := List.getElem?_eq_some_iff.mp hinput
  have hlength : (activity.hwInputs segwit values).length = activity.m_signing_inputs.length :=
    (length_hwInputs h.returned.length_eq segwit).trans h.returned.length_eq
  have hhw := List.getElem?_eq_getElem (hlength ▸ hi)
  have hpair : ((activity.hwInputs segwit values).zip activity.m_signing_inputs)[i]? =
      some (_, input) := List.getElem?_zip_eq_some.mpr ⟨hhw, hinput⟩
  obtain ⟨first, hfirst, hadds⟩ := adds_hwHandler activity segwit
    { m_hw_inputs := activity.hwInputs segwit values, m_signatures := [] }
  obtain ⟨before, after, hrounds, hothers⟩ :=
    finishing_rounds (activity.round segwit (activity.hwInputs segwit values)) hpair 2
  have hunsigned : ∀ item ∈ before ++ after, item.1.handler ≠ .hashSign i := by
    intro item hitem hsame
    obtain ⟨j, other, hother, hround⟩ := hothers item hitem
    rcases handledBy_round segwit _ j other 2 item hround with hnothing | ⟨hsign, -⟩
    · exact Handler.noConfusion (hsame.symm.trans hnothing)
    · exact hother (Handler.hashSign.inj (hsign.symm.trans hsame))
  have hsigned := h.signed_eq
  rw [hadds, finishingAll_append, hrounds, List.map_append, List.map_append, List.map_append,
    ← List.append_assoc, ← List.append_assoc, ← List.map_append, List.map_eq_append_iff] at hsigned
  obtain ⟨early, late, rfl, hearly, hlate⟩ := hsigned
  obtain ⟨begun, items, rfl, hbegun, hitems⟩ := List.map_eq_append_iff.mp hearly
  refine ⟨_, begun, items, late, hhw, rfl, hitems, ?_, ?_⟩
  · apply signedOf_eq_nil hbegun
    intro item hitem
    rcases List.mem_append.mp hitem with hfirstItem | hbefore
    · exact hfirst i 2 item hfirstItem
    · exact hunsigned item (List.mem_append_left _ hbefore)
  · apply signedOf_eq_nil hlate
    intro item hitem
    exact hunsigned item (List.mem_append_right _ hitem)

/-- A part of the input's kind signs it once. -/
theorem Part.signedOnce
    (h : Part activity fromBytes input.segwit (hwHandler input.segwit) observed values trusted signed)
    (hinput : activity.m_signing_inputs[i]? = some input) :
    ∃ answer, SignedOnce i
      (activity.shown input.segwit (activity.hwInputs input.segwit values) i input)
      (untrustedHashSign input.user_path activity.m_locktime) answer signed := by
  obtain ⟨hw_input, before, items, after, hhw, rfl, hitems, hbefore, hafter⟩ := h.exists_rounds hinput
  obtain ⟨groups, hgroups, hround⟩ := activity.round_eq input hhw
  rw [hround] at hitems
  obtain ⟨answer, honce⟩ := signedOnce_of_finishing hitems
  exact ⟨answer, hgroups ▸ honce.append hbefore hafter⟩

theorem hwHandler_ne (segwit : Bool) (i : ℕ) : hwHandler segwit ≠ .hashSign i := by
  cases segwit
  · exact Handler.noConfusion
  · exact Handler.noConfusion

/-- A part of the other kind does not sign it. -/
theorem Part.unsigned
    (h : Part activity fromBytes segwit (hwHandler segwit) observed values trusted signed)
    (hinput : activity.m_signing_inputs[i]? = some input) (hkind : input.segwit ≠ segwit) :
    signedOf i observed = [] := by
  obtain ⟨hw_input, before, items, after, hhw, rfl, hitems, hbefore, hafter⟩ := h.exists_rounds hinput
  have hround : signedOf i items = [] := by
    apply signedOf_eq_nil hitems
    intro item hitem hsame
    rcases handledBy_round segwit _ i (hw_input, input) 2 item hitem with hnothing | ⟨-, hother⟩
    · exact Handler.noConfusion (hsame.symm.trans hnothing)
    · exact hkind hother
  obtain ⟨response, response', rfl⟩ := h.observed_eq
  rw [signedOf_append, h.trustedUnsigned, List.nil_append, signedOf_cons_unsigned (hwHandler_ne segwit i),
    signedOf_append, signedOf_append, signedOf_append, hbefore, hround, hafter]
  rfl

/-- What is answered after the trusted inputs. -/
theorem Part.answered_signed
    (h : Part activity fromBytes segwit (hwHandler segwit) observed values trusted signed) :
    (answeredOf signed).map Prod.fst = activity.signPart segwit values := by
  rw [map_fst_answeredOf, h.signed_eq]
  cases segwit with
  | true => exact payloadsOf_addSW 2 activity values
  | false => exact payloadsOf_addNonSW 2 activity values

/-- The signature of an input, wherever its part stands in the run. -/
theorem Part.signedFor
    (h : Part activity fromBytes input.segwit (hwHandler input.segwit) observed values trusted signed)
    (hinput : activity.m_signing_inputs[i]? = some input) {early late : List (ObjectEntry × Bytes)}
    (hearly : signedOf i early = []) (hlate : signedOf i late = []) {s : Signing}
    {state : SigningState} (hobserved : s.observed = early ++ observed ++ late)
    (hstate : s.state = runAll state s.observed) (hlength : i < state.m_signatures.length) :
    ∃ answer, s.SignedFor activity fromBytes i input answer := by
  obtain ⟨answer, honce⟩ := h.signedOnce hinput
  have hcommands := h.answered_signed
  obtain ⟨response, response', rfl⟩ := h.observed_eq
  have hfirst : signedOf i
      (early ++ trusted ++ [(⟨none, hwHandler input.segwit⟩, response)]) = [] := by
    rw [signedOf_append, signedOf_append, hearly, h.trustedUnsigned,
      signedOf_cons_unsigned (hwHandler_ne input.segwit i)]
    rfl
  have hrest : signedOf i ((⟨none, .nothing⟩, response') :: late) = [] := by
    rw [signedOf_cons_unsigned Handler.noConfusion, hlate]
  have hsplit : s.observed = early ++ trusted ++ [(⟨none, hwHandler input.segwit⟩, response)] ++
      signed ++ (⟨none, .nothing⟩, response') :: late := by
    rw [hobserved]
    simp
  have hall := hsplit ▸ honce.append hfirst hrest
  refine ⟨answer, s.signedWith_eq i ▸ hall.signedOf_eq, hstate ▸ hall.signature hlength, ?_⟩
  obtain ⟨before, block, after, rfl, hshown, -⟩ := honce
  refine ⟨values, early, trusted, (⟨none, hwHandler input.segwit⟩, response) :: before, block, after,
    (⟨none, .nothing⟩, response') :: late, ?_, h.returned, hcommands, hshown⟩
  rw [hsplit]
  simp

end

/-! ## The two parts in a run -/

/-- The handlers that add nothing to the trusted inputs. -/
theorem hw_inputs_runAll {observed : List (ObjectEntry × Bytes)} (state : SigningState)
    (h : ∀ command ∈ observed,
      command.1.handler = .nothing ∨ ∃ i, command.1.handler = .hashSign i) :
    (runAll state observed).m_hw_inputs = state.m_hw_inputs := by
  induction observed generalizing state with
  | nil => rfl
  | cons command observed ih =>
      obtain ⟨hcommand, hobserved⟩ := List.forall_mem_cons.mp h
      rw [runAll_cons, ih _ hobserved]
      rcases hcommand with hnothing | ⟨i, hsign⟩
      · rw [hnothing]
        rfl
      · rw [hsign]
        rfl

/-- `signSW` clears the list of trusted inputs. -/
theorem Part.cleared {observed trusted signed : List (ObjectEntry × Bytes)} {values : List Bytes}
    (h : Part activity fromBytes true .signSW observed values trusted signed)
    (state : SigningState) : (runAll state observed).m_hw_inputs = [] := by
  obtain ⟨response, response', rfl⟩ := h.observed_eq
  rw [runAll_append, runAll_cons]
  refine hw_inputs_runAll _ ?_
  intro command hcommand
  rcases List.mem_append.mp hcommand with hsigned | hlast
  · obtain ⟨item, hitem, hsame⟩ := List.mem_map.mp (h.signed_eq ▸ List.mem_map_of_mem hsigned)
    exact hsame ▸ handledBy_adds activity .signSW _ 2 item hitem
  · rw [List.mem_singleton.mp hlast]
    exact .inl rfl

/-- A part, if there are inputs of its kind. -/
def Parted (activity : LedgerSignTransactionActivity) (fromBytes : Bytes → WallyTx) (present : Bool)
    (segwit : Bool) (observed : List (ObjectEntry × Bytes)) : Prop :=
  if present then
    ∃ values trusted signed,
      Part activity fromBytes segwit (hwHandler segwit) observed values trusted signed
  else observed = []

theorem consumes_parted {present segwit : Bool} {state state' : SigningState}
    {items : List (ObjectEntry × ℕ)} {observed : List (ObjectEntry × Bytes)}
    (hempty : state.m_hw_inputs = [])
    (h : Consumes activity state
      ((if present then activity.partItems fromBytes segwit (hwHandler segwit) else []) ++ items)
      observed state' []) :
    ∃ part rest, observed = part ++ rest ∧ Parted activity fromBytes present segwit part ∧
      Consumes activity (runAll state part) items rest state' [] := by
  cases present with
  | true =>
      obtain ⟨part, rest, values, trusted, signed, hobserved, hpart, hrest⟩ := consumes_part hempty h
      exact ⟨part, rest, hobserved, ⟨values, trusted, signed, hpart⟩, hrest⟩
  | false => exact ⟨[], observed, rfl, rfl, h⟩

theorem Parted.cleared {present : Bool} {observed : List (ObjectEntry × Bytes)}
    (h : Parted activity fromBytes present true observed) {state : SigningState}
    (hempty : state.m_hw_inputs = []) : (runAll state observed).m_hw_inputs = [] := by
  cases present with
  | true =>
      obtain ⟨values, trusted, signed, hpart⟩ := h
      exact hpart.cleared state
  | false =>
      obtain rfl : observed = [] := h
      exact hempty

theorem Parted.unsigned {present segwit : Bool} {observed : List (ObjectEntry × Bytes)} {i : ℕ}
    {input : SigningInput} (h : Parted activity fromBytes present segwit observed)
    (hinput : activity.m_signing_inputs[i]? = some input) (hkind : input.segwit ≠ segwit) :
    signedOf i observed = [] := by
  cases present with
  | true =>
      obtain ⟨values, trusted, signed, hpart⟩ := h
      exact hpart.unsigned hinput hkind
  | false =>
      obtain rfl : observed = [] := h
      rfl

end LedgerSignTransactionActivity

theorem Consumes.state_eq {activity : LedgerSignTransactionActivity} {state state' : SigningState}
    {items items' : List (ObjectEntry × ℕ)} {observed : List (ObjectEntry × Bytes)}
    (h : Consumes activity state items observed state' items') : state' = runAll state observed := by
  induction h with
  | nil state items => rfl
  | cons h ih => exact ih

namespace LedgerSignTransactionActivity
variable {activity : LedgerSignTransactionActivity} {fromBytes : Bytes → WallyTx}

/-- A run that finishes is the two parts, one after the other. -/
theorem consumes_execBatch {observed : List (ObjectEntry × Bytes)} {state : SigningState}
    (h : Consumes activity (Signing.start activity fromBytes).state
      ((activity.execBatch fromBytes).finishing 0) observed state []) :
    ∃ first second response, observed = first ++ second ++ [(⟨none, .nothing⟩, response)] ∧
      Parted activity fromBytes activity.sw true first ∧
      Parted activity fromBytes activity.p2sh false second := by
  rw [finishing_execBatch] at h
  obtain ⟨first, rest, rfl, hfirst, hrest⟩ := consumes_parted rfl h
  obtain ⟨second, root, rfl, hsecond, hroot⟩ := consumes_parted (hfirst.cleared rfl) hrest
  cases hroot with
  | @cons _ _ _ _ _ _ response _ hend =>
      cases hend with
      | nil => exact ⟨first, second, response, (List.append_assoc _ _ _).symm, hfirst, hsecond⟩

/-- The commands of a part. -/
theorem Part.commands_eq {segwit : Bool} {observed trusted signed : List (ObjectEntry × Bytes)}
    {values : List Bytes}
    (h : Part activity fromBytes segwit (hwHandler segwit) observed values trusted signed) :
    (answeredOf observed).map Prod.fst =
      activity.getHwInputs fromBytes ++ activity.signPart segwit values := by
  obtain ⟨groups, hgroups, hcommands, -⟩ := h.returned
  have htrusted : (answeredOf trusted).map Prod.fst = activity.getHwInputs fromBytes := by
    rw [hgroups, List.map_flatten, hcommands]
    rfl
  have hsigned := h.answered_signed
  obtain ⟨response, response', rfl⟩ := h.observed_eq
  rw [answeredOf_append, answeredOf_batch, answeredOf_append, answeredOf_batch, List.map_append,
    List.map_append, htrusted, hsigned]
  exact congrArg _ (List.append_nil _)

theorem Parted.commands_eq {present segwit : Bool} {observed : List (ObjectEntry × Bytes)}
    (h : Parted activity fromBytes present segwit observed) :
    ∃ values : Option (List Bytes),
      (∀ list ∈ values, list.length = activity.m_signing_inputs.length) ∧
      (answeredOf observed).map Prod.fst =
        if present then
          activity.getHwInputs fromBytes ++ (values.map (activity.signPart segwit)).getD []
        else [] := by
  cases present with
  | true =>
      obtain ⟨values, trusted, signed, hpart⟩ := h
      refine ⟨some values, ?_, hpart.commands_eq⟩
      intro list hlist
      exact Option.some.inj hlist ▸ hpart.returned.length_eq
  | false =>
      obtain rfl : observed = [] := h
      exact ⟨none, fun _ hlist => absurd hlist (Option.not_mem_none _), rfl⟩

/-- An input has been signed when the two parts are over. -/
theorem signedFor_of_parted {first second : List (ObjectEntry × Bytes)} {response : Bytes}
    {s : Signing} {state : SigningState} {i : ℕ} {input : SigningInput}
    (hobserved : s.observed = first ++ second ++ [(⟨none, .nothing⟩, response)])
    (hfirst : Parted activity fromBytes activity.sw true first)
    (hsecond : Parted activity fromBytes activity.p2sh false second)
    (hinput : activity.m_signing_inputs[i]? = some input)
    (hstate : s.state = runAll state s.observed) (hlength : i < state.m_signatures.length) :
    ∃ answer, s.SignedFor activity fromBytes i input answer := by
  have hmem := List.mem_of_getElem? hinput
  by_cases htype : input.address_type = "p2sh"
  · have hkind : input.segwit = false := decide_eq_false (not_not_intro htype)
    have hpresent : activity.p2sh = true := List.any_eq_true.mpr ⟨input, hmem, decide_eq_true htype⟩
    have hbefore := hfirst.unsigned hinput (hkind ▸ Bool.false_ne_true)
    rw [Parted, if_pos hpresent, ← hkind] at hsecond
    obtain ⟨values, trusted, signed, hpart⟩ := hsecond
    refine hpart.signedFor hinput hbefore ?_ hobserved hstate hlength
    rfl
  · have hkind : input.segwit = true := decide_eq_true htype
    have hpresent : activity.sw = true := List.any_eq_true.mpr ⟨input, hmem, decide_eq_true htype⟩
    have hafter : signedOf i (second ++ [(⟨none, .nothing⟩, response)]) = [] := by
      rw [signedOf_append, hsecond.unsigned hinput (hkind ▸ Bool.false_ne_true.symm)]
      rfl
    rw [Parted, if_pos hpresent, ← hkind] at hfirst
    obtain ⟨values, trusted, signed, hpart⟩ := hfirst
    have hsplit : s.observed = [] ++ first ++ (second ++ [(⟨none, .nothing⟩, response)]) := by
      rw [hobserved, List.nil_append, List.append_assoc]
    refine hpart.signedFor hinput ?_ hafter hsplit hstate hlength
    rfl

end LedgerSignTransactionActivity

/-! ## The activity -/

namespace Signing
variable {activity : LedgerSignTransactionActivity} {fromBytes : Bytes → WallyTx} {s : Signing}

/-- The device has been sent the commands of the activity. -/
theorem commands_answered (h : s.Progress activity fromBytes []) :
    ∃ answered, s.answered.map Prod.fst = activity.commands fromBytes answered := by
  obtain ⟨first, second, response, hobserved, hfirst, hsecond⟩ :=
    LedgerSignTransactionActivity.consumes_execBatch h
  obtain ⟨segwit, hsegwit, hsw⟩ := hfirst.commands_eq
  obtain ⟨legacy, hlegacy, hp2sh⟩ := hsecond.commands_eq
  refine ⟨⟨segwit, legacy, hsegwit, hlegacy⟩, ?_⟩
  rw [answered_eq, hobserved, answeredOf_append, answeredOf_append, List.map_append,
    List.map_append, hsw, hp2sh]
  exact List.append_nil _

/-- An activity that is under way waits for something that may happen. -/
theorem exists_enabled {focus : Focus} {frames : List Frame}
    (holds : focus.Holds s.execution frames) : ∃ e, (signing activity).enabled s e := by
  cases focus with
  | calling command =>
      refine ⟨.call, fun hnone => ?_⟩
      exact Option.some_ne_none _ (holds.1.symm.trans hnone)
  | running id appends =>
      refine ⟨.finish (.leaf id appends) [], holds.1, ?_⟩
      rw [holds.2.2]
      exact List.mem_cons_self
  | posted =>
      cases frames with
      | nil => exact holds.elim
      | cons frame frames =>
          refine ⟨.deliver, holds.1, fun hnil => ?_⟩
          exact List.cons_ne_nil _ _ (holds.2.1.symm.trans hnil)

/-- A run that cannot go on has finished or failed. -/
theorem emitted_of_ends {events : List SigningEvent}
    (hends : (signing activity).Ends (start activity fromBytes) events) :
    ((signing activity).run (start activity fromBytes) events).emitted = [.finished] ∨
      ((signing activity).run (start activity fromBytes) events).emitted = [.fail] := by
  cases stage_run fromBytes hends.1 with
  | going going holds =>
      obtain ⟨e, henabled⟩ := exists_enabled holds
      exact absurd henabled (hends.2 e)
  | finished idle emitted noError progress => exact .inl emitted
  | failed idle emitted => exact .inr emitted

/-- What the activity comes to: it fails once if a command fails, and finishes once with a
signature for every input otherwise. -/
structure SignsInputs (activity : LedgerSignTransactionActivity) (fromBytes : Bytes → WallyTx)
    (s : Signing) : Prop where
  failed : ∀ id, .error id ∈ s.execution.log → s.emitted = [.fail]
  finished : .finished ∈ s.emitted → s.emitted = [.finished]
  length_eq : .finished ∈ s.emitted → s.state.m_signatures.length = activity.m_signing_inputs.length
  signed : .finished ∈ s.emitted → ∀ (i : ℕ) (input : SigningInput),
    activity.m_signing_inputs[i]? = some input →
      ∃ answer, s.SignedFor activity fromBytes i input answer

theorem Stage.signsInputs (h : Stage activity fromBytes s) : s.SignsInputs activity fromBytes := by
  cases h with
  | going going holds =>
      have hnothing : .finished ∉ s.emitted := by
        rw [emitted_eq, going.log_eq_nil]
        exact List.not_mem_nil
      exact ⟨fun id herror => absurd herror (going.core.noError id), fun h => absurd h hnothing,
        fun h => absurd h hnothing, fun h => absurd h hnothing⟩
  | failed idle hemitted =>
      have hnothing : .finished ∉ s.emitted := by
        rw [hemitted]
        decide
      exact ⟨fun _ _ => hemitted, fun h => absurd h hnothing,
        fun h => absurd h hnothing, fun h => absurd h hnothing⟩
  | finished idle hemitted noError progress =>
      have hstate := progress.state_eq
      have hlength : (start activity fromBytes).state.m_signatures.length =
          activity.m_signing_inputs.length := List.length_replicate
      obtain ⟨first, second, response, hobserved, hfirst, hsecond⟩ :=
        LedgerSignTransactionActivity.consumes_execBatch progress
      refine ⟨fun id herror => absurd herror (noError id), fun _ => hemitted, fun _ => ?_, ?_⟩
      · rw [hstate, length_runAll, hlength]
      · intro _ i input hinput
        obtain ⟨hi, -⟩ := List.getElem?_eq_some_iff.mp hinput
        exact LedgerSignTransactionActivity.signedFor_of_parted hobserved hfirst hsecond hinput
          hstate (hlength ▸ hi)

/-- In every run every signature lands on its input. -/
theorem signsInputs_run (activity : LedgerSignTransactionActivity) (fromBytes : Bytes → WallyTx)
    {events : List SigningEvent}
    (hvalid : (signing activity).Valid (start activity fromBytes) events) :
    SignsInputs activity fromBytes ((signing activity).run (start activity fromBytes) events) :=
  (stage_run fromBytes hvalid).signsInputs

/-- The event that comes next when the device answers. -/
def due (answer : Bytes) (s : Signing) : Option SigningEvent :=
  match s.execution.call, s.execution.posted, s.execution.running with
  | some _, _, _ => some .call
  | none, _ :: _, _ => some .deliver
  | none, [], command :: _ => some (.finish command answer)
  | none, [], [] => none

theorem enabled_of_due {answer : Bytes} {e : SigningEvent} (h : s.due answer = some e) :
    (signing activity).enabled s e := by
  rw [due] at h
  split at h
  · next hcall =>
    cases h
    intro hnone
    exact Option.some_ne_none _ (hcall.symm.trans hnone)
  · next hcall hposted =>
    cases h
    refine ⟨hcall, fun hnil => ?_⟩
    exact List.cons_ne_nil _ _ (hposted.symm.trans hnil)
  · next hcall hposted hrunning =>
    cases h
    refine ⟨hcall, ?_⟩
    rw [hrunning]
    exact List.mem_cons_self
  · cases h

/-- The events with a device that answers all commands alike. -/
def answering (activity : LedgerSignTransactionActivity) (answer : Bytes) :
    ℕ → Signing → List SigningEvent
  | 0, _ => []
  | n + 1, s =>
      match s.due answer with
      | none => []
      | some e => e :: answering activity answer n (s.next activity e)

theorem valid_answering (activity : LedgerSignTransactionActivity) (answer : Bytes) (n : ℕ)
    (s : Signing) : (signing activity).Valid s (answering activity answer n s) := by
  induction n generalizing s with
  | zero => exact trivial
  | succ n ih =>
      rw [answering]
      split
      · exact trivial
      · next e hdue => exact ⟨enabled_of_due hdue, ih _⟩

/-- With an input of each kind. -/
theorem signsInputs_run_mixed :
    ∃ s, s.emitted = [.finished] ∧ s.state.m_signatures = [[0x30, 7], [0x30, 7]] ∧
      SignsInputs ⟨2, 0, [⟨"p2wsh", "", 0, 0, [], []⟩, ⟨"p2sh", "", 0, 0, [], []⟩], [], fun _ => []⟩
        (fun _ => ⟨0, [], [], 0⟩) s := by
  refine ⟨_, ?_, ?_, signsInputs_run _ _ (valid_answering _ [0x31, 7] 149 _)⟩
  · decide +kernel
  · decide +kernel

end Signing

end GreenWallet.Ledger
