import GreenWallet.Ledger.Signatures

/-!
# The rounds of a signing activity

The commands that a part adds are those of the rounds of its loop. The round of an input signs it if
it is of the part's kind, and then with the commands that show the device its script and trusted
input directly before; no other round has a handler for its index.
-/
namespace GreenWallet.Ledger
open GreenWallet.Library

/-! ## The command that signs -/

/-- Among these commands the handler for an index runs once, with this answer to this command, and
directly before it these commands have been answered. -/
def SignedOnce (index : ℕ) (shown : List Bytes) (payload answer : Bytes)
    (observed : List (ObjectEntry × Bytes)) : Prop :=
  ∃ before block after,
    observed = before ++ block ++ (⟨some payload, .hashSign index⟩, answer) :: after ∧
    (answeredOf block).map Prod.fst = shown ∧
    signedOf index before = [] ∧ signedOf index block = [] ∧ signedOf index after = []

section
variable {index : ℕ} {shown : List Bytes} {payload answer : Bytes}
variable {observed : List (ObjectEntry × Bytes)}

theorem SignedOnce.append {first rest : List (ObjectEntry × Bytes)}
    (h : SignedOnce index shown payload answer observed) (hfirst : signedOf index first = [])
    (hrest : signedOf index rest = []) :
    SignedOnce index shown payload answer (first ++ observed ++ rest) := by
  obtain ⟨before, block, after, rfl, hshown, hbefore, hblock, hafter⟩ := h
  refine ⟨first ++ before, block, after ++ rest, by simp, hshown, ?_, hblock, ?_⟩
  · rw [signedOf_append, hfirst, hbefore, List.append_nil]
  · rw [signedOf_append, hafter, hrest, List.append_nil]

theorem signedOf_cons_signed (index : ℕ) (payload answer : Bytes)
    (after : List (ObjectEntry × Bytes)) :
    signedOf index ((⟨some payload, .hashSign index⟩, answer) :: after) =
      answer :: signedOf index after := by
  rw [signedOf, List.filterMap_cons, if_pos rfl]
  rfl

theorem signedOf_cons_unsigned {command : ObjectEntry × Bytes}
    (h : command.1.handler ≠ .hashSign index) (observed : List (ObjectEntry × Bytes)) :
    signedOf index (command :: observed) = signedOf index observed := by
  rw [signedOf, List.filterMap_cons, if_neg h]
  rfl

theorem SignedOnce.signedOf_eq (h : SignedOnce index shown payload answer observed) :
    signedOf index observed = [answer] := by
  obtain ⟨before, block, after, rfl, -, hbefore, hblock, hafter⟩ := h
  rw [signedOf_append, signedOf_append, hbefore, hblock, signedOf_cons_signed, hafter]
  rfl

/-! ## The signatures that are kept -/

theorem length_run (handler : Handler) (response : Bytes) (state : SigningState) :
    (handler.run response state).m_signatures.length = state.m_signatures.length := by
  cases handler with
  | hashSign index => exact List.length_set
  | nothing => rfl
  | trustedInput sequence segwit => rfl
  | signSW => rfl
  | signNonSW => rfl

theorem length_runAll (state : SigningState) (observed : List (ObjectEntry × Bytes)) :
    (runAll state observed).m_signatures.length = state.m_signatures.length := by
  induction observed generalizing state with
  | nil => rfl
  | cons command observed ih => rw [runAll_cons, ih, length_run]

/-- Only the handler for an index sets the signature there. -/
theorem signature_run {handler : Handler} (h : handler ≠ .hashSign index) (response : Bytes)
    (state : SigningState) :
    (handler.run response state).m_signatures[index]? = state.m_signatures[index]? := by
  cases handler with
  | hashSign other =>
      have hother : other ≠ index := fun hsame => h (congrArg Handler.hashSign hsame)
      exact List.getElem?_set_ne hother
  | nothing => rfl
  | trustedInput sequence segwit => rfl
  | signSW => rfl
  | signNonSW => rfl

theorem signature_runAll (state : SigningState) (h : signedOf index observed = []) :
    (runAll state observed).m_signatures[index]? = state.m_signatures[index]? := by
  induction observed generalizing state with
  | nil => rfl
  | cons command observed ih =>
      have hcommand : command.1.handler ≠ .hashSign index := by
        intro hsame
        rw [signedOf, List.filterMap_cons, if_pos hsame] at h
        exact List.cons_ne_nil _ _ h
      rw [signedOf_cons_unsigned hcommand] at h
      rw [runAll_cons, ih _ h, signature_run hcommand]

theorem SignedOnce.signature (h : SignedOnce index shown payload answer observed)
    {state : SigningState} (hindex : index < state.m_signatures.length) :
    (runAll state observed).m_signatures[index]? = some (0x30 :: answer.drop 1) := by
  obtain ⟨before, block, after, rfl, -, -, -, hafter⟩ := h
  have hlength : index < (runAll state (before ++ block)).m_signatures.length := by
    rw [length_runAll]
    exact hindex
  rw [runAll_append, runAll_cons, signature_runAll _ hafter]
  exact List.getElem?_set_self hlength

end

/-! ## The rounds -/

theorem signedOf_eq_nil {index : ℕ} {observed : List (ObjectEntry × Bytes)}
    {items : List (ObjectEntry × ℕ)} (h : observed.map Prod.fst = items.map Prod.fst)
    (hitems : ∀ item ∈ items, item.1.handler ≠ .hashSign index) : signedOf index observed = [] := by
  rw [signedOf, List.filterMap_eq_nil_iff]
  intro command hcommand
  obtain ⟨item, hitem, hsame⟩ := List.mem_map.mp (h ▸ List.mem_map_of_mem hcommand)
  rw [if_neg]
  exact hsame ▸ hitems item hitem

theorem finishingAll_flatten (depth : ℕ) (lists : List (List CommandTree)) :
    finishingAll depth lists.flatten = (lists.map (finishingAll depth)).flatten := by
  induction lists with
  | nil => rfl
  | cons trees lists ih =>
      rw [List.flatten_cons, finishingAll_append, ih, List.map_cons, List.flatten_cons]

/-- The round for an index, and the rounds for others around it. -/
theorem finishing_rounds {α : Type} (rounds : ℕ → α → List CommandTree) {pairs : List α} {i : ℕ}
    {pair : α} (h : pairs[i]? = some pair) (depth : ℕ) :
    ∃ before after, finishingAll depth (pairs.mapIdx rounds).flatten =
        before ++ finishingAll depth (rounds i pair) ++ after ∧
      ∀ item ∈ before ++ after, ∃ j other, j ≠ i ∧ item ∈ finishingAll depth (rounds j other) := by
  obtain ⟨hi, rfl⟩ := List.getElem?_eq_some_iff.mp h
  have hsplit : pairs = pairs.take i ++ pairs[i] :: pairs.drop (i + 1) := by
    rw [← List.drop_eq_getElem_cons hi, List.take_append_drop]
  have hlength : (pairs.take i).length = i := List.length_take_of_le (Nat.le_of_lt hi)
  have hrounds : pairs.mapIdx rounds = (pairs.take i).mapIdx rounds ++ rounds i pairs[i] ::
      (pairs.drop (i + 1)).mapIdx fun j pair => rounds (j + 1 + i) pair := by
    conv_lhs => rw [hsplit]
    rw [List.mapIdx_append, List.mapIdx_cons, hlength, Nat.zero_add]
  refine ⟨finishingAll depth ((pairs.take i).mapIdx rounds).flatten,
    finishingAll depth ((pairs.drop (i + 1)).mapIdx fun j pair => rounds (j + 1 + i) pair).flatten,
    ?_, ?_⟩
  · rw [hrounds, List.flatten_append, List.flatten_cons, finishingAll_append, finishingAll_append,
      List.append_assoc]
  · intro item hitem
    rw [finishingAll_flatten, finishingAll_flatten, ← List.flatten_append, ← List.map_append,
      List.mem_flatten] at hitem
    obtain ⟨items, hitems, hitem⟩ := hitem
    obtain ⟨trees, htrees, rfl⟩ := List.mem_map.mp hitems
    rcases List.mem_append.mp htrees with hbefore | hafter
    · obtain ⟨j, hj, rfl⟩ := List.mem_mapIdx.mp hbefore
      have hlt : j < i := hlength ▸ hj
      exact ⟨j, _, Nat.ne_of_lt hlt, hitem⟩
    · obtain ⟨j, hj, rfl⟩ := List.mem_mapIdx.mp hafter
      exact ⟨j + 1 + i, _, by omega, hitem⟩

/-! ## The commands of the rounds -/

/-- What the device is sent when the commands are executed. -/
def payloadsOf (depth : ℕ) (trees : List CommandTree) : List Bytes :=
  ((finishingAll depth trees).map Prod.fst).filterMap ObjectEntry.payload

section
variable (depth : ℕ)

theorem payloadsOf_append (trees more : List CommandTree) :
    payloadsOf depth (trees ++ more) = payloadsOf depth trees ++ payloadsOf depth more := by
  rw [payloadsOf, finishingAll_append, List.map_append, List.filterMap_append]
  rfl

theorem payloadsOf_rounds {α : Type} (rounds : ℕ → α → List CommandTree) (pairs : List α) :
    payloadsOf depth (pairs.mapIdx rounds).flatten =
      (pairs.mapIdx fun i pair => payloadsOf depth (rounds i pair)).flatten := by
  induction pairs generalizing rounds with
  | nil => rfl
  | cons pair pairs ih =>
      rw [List.mapIdx_cons, List.mapIdx_cons, List.flatten_cons, List.flatten_cons,
        payloadsOf_append, ih]

theorem payloadsOf_exchanges (payloads : List Bytes) :
    payloadsOf depth [exchanges payloads] = payloads := by
  rw [payloadsOf, finishingAll, finishing_exchanges, finishingAll, List.append_nil, List.map_append,
    List.map_map, List.filterMap_append, List.filterMap_map]
  exact (List.append_nil _).trans List.filterMap_some

theorem payloadsOf_map_exchanges (groups : List (List Bytes)) :
    payloadsOf depth (groups.map exchanges) = groups.flatten := by
  induction groups with
  | nil => rfl
  | cons payloads groups ih =>
      rw [List.map_cons, ← List.singleton_append, payloadsOf_append, payloadsOf_exchanges, ih,
        List.flatten_cons]

theorem payloadsOf_untrustedHashSign (index : ℕ) (path : List UInt32) (locktime : UInt32) :
    payloadsOf depth [untrustedHashSignBatch index path locktime] =
      [untrustedHashSign path locktime] := rfl

variable (activity : LedgerSignTransactionActivity)

theorem payloadsOf_signInputSW (i : ℕ) (hw_input : Input) (input : SigningInput) :
    payloadsOf depth (activity.signInputSW i hw_input input) =
      if input.address_type = "p2sh" then []
      else
        startUntrustedTransaction activity.m_version false 0 [hw_input] input.prevout_script true ++
        [untrustedHashSign input.user_path activity.m_locktime] := by
  rw [LedgerSignTransactionActivity.signInputSW]
  split_ifs
  · rfl
  · rw [← List.singleton_append, payloadsOf_append, payloadsOf_exchanges,
      payloadsOf_untrustedHashSign]

theorem payloadsOf_signInputNonSW (m_hw_inputs : List Input) (i : ℕ) (input : SigningInput) :
    payloadsOf depth (activity.signInputNonSW m_hw_inputs i input) =
      startUntrustedTransaction activity.m_version (i = 0) i m_hw_inputs input.prevout_script false ++
      finalizeInputFull activity.outputBytes ++
      if input.address_type = "p2sh" then [untrustedHashSign input.user_path activity.m_locktime]
      else [] := by
  rw [LedgerSignTransactionActivity.signInputNonSW, payloadsOf_append,
    ← List.singleton_append, payloadsOf_append, payloadsOf_exchanges, payloadsOf_exchanges]
  congr 1
  split_ifs
  · rfl
  · rfl

/-- What a part adds is what it asks for once there are trusted inputs. -/
theorem payloadsOf_addSW (values : List Bytes) :
    payloadsOf depth (activity.addSW (activity.hwInputs true values)) = activity.signSW values := by
  have hrounds (pairs : List (Input × SigningInput)) (commands : Input × SigningInput → List Bytes) :
      (pairs.mapIdx fun _ pair => commands pair) = pairs.map commands := by
    rw [List.mapIdx_eq_iff]
    exact fun i => List.getElem?_map
  rw [LedgerSignTransactionActivity.addSW, payloadsOf_append, ← List.singleton_append,
    payloadsOf_append, payloadsOf_exchanges, payloadsOf_exchanges, payloadsOf_rounds]
  simp only [payloadsOf_signInputSW, hrounds]
  rfl

theorem payloadsOf_addNonSW (values : List Bytes) :
    payloadsOf depth (activity.addNonSW (activity.hwInputs false values)) =
      activity.signNonSW values := by
  rw [LedgerSignTransactionActivity.addNonSW, payloadsOf_rounds]
  simp only [payloadsOf_signInputNonSW]
  rfl

end

theorem handledBy_map_exchanges {kind : Handler → Prop} (hnothing : kind .nothing)
    (groups : List (List Bytes)) : HandledBy kind (groups.map exchanges) := by
  induction groups with
  | nil => exact handledBy_nil
  | cons payloads groups ih => exact (handledBy_exchanges hnothing payloads).cons ih

/-- Batches without handlers and then the one that signs. -/
theorem signedOnce_of_finishing {index depth : ℕ} {groups : List (List Bytes)}
    {path : List UInt32} {locktime : UInt32} {observed : List (ObjectEntry × Bytes)}
    (h : observed.map Prod.fst = (finishingAll depth
      (groups.map exchanges ++ [untrustedHashSignBatch index path locktime])).map Prod.fst) :
    ∃ answer, SignedOnce index groups.flatten (untrustedHashSign path locktime) answer
      observed := by
  rw [finishingAll_append, List.map_append, List.map_eq_append_iff] at h
  obtain ⟨block, rest, rfl, hblock, hrest⟩ := h
  obtain ⟨⟨signing, answer⟩, after, rfl, rfl, hafter⟩ := List.map_eq_cons_iff.mp hrest
  refine ⟨answer, [], block, after, rfl, ?_, rfl, ?_, ?_⟩
  · rw [map_fst_answeredOf, hblock]
    exact payloadsOf_map_exchanges depth groups
  · have hunsigned : HandledBy (fun handler => handler ≠ .hashSign index) (groups.map exchanges) :=
      handledBy_map_exchanges Handler.noConfusion groups
    exact signedOf_eq_nil hblock (hunsigned depth)
  · obtain ⟨⟨batch, response⟩, tail, rfl, rfl, hnil⟩ := List.map_eq_cons_iff.mp hafter
    obtain rfl : tail = [] := List.map_eq_nil_iff.mp hnil
    rfl

/-- The input is signed by `signSW`. -/
def SigningInput.segwit (input : SigningInput) : Bool := input.address_type ≠ "p2sh"

namespace LedgerSignTransactionActivity
variable (activity : LedgerSignTransactionActivity) (fromBytes : Bytes → WallyTx)

/-- The commands after which an input is signed. -/
def shown (segwit : Bool) (m_hw_inputs : List Input) (i : ℕ) (input : SigningInput) : List Bytes :=
  if segwit then
    startUntrustedTransaction activity.m_version false 0 ((m_hw_inputs.drop i).take 1)
      input.prevout_script true
  else
    startUntrustedTransaction activity.m_version (i = 0) i m_hw_inputs input.prevout_script false ++
    finalizeInputFull activity.outputBytes

/-- What a part asks for when its trusted inputs are there. -/
def signPart (segwit : Bool) (values : List Bytes) : List Bytes :=
  if segwit then activity.signSW values else activity.signNonSW values

/-- What is connected to the commands of `getHwInputs`. -/
def hwHandler (segwit : Bool) : Handler := if segwit then .signSW else .signNonSW

/-- The round of the loop of a part for an input. -/
def round (segwit : Bool) (m_hw_inputs : List Input) (i : ℕ) (pair : Input × SigningInput) :
    List CommandTree :=
  if segwit then activity.signInputSW i pair.1 pair.2
  else activity.signInputNonSW m_hw_inputs i pair.2

variable {activity} in
theorem handledBy_round (segwit : Bool) (m_hw_inputs : List Input) (i : ℕ)
    (pair : Input × SigningInput) :
    HandledBy (fun handler => handler = .nothing ∨ handler = .hashSign i ∧ pair.2.segwit = segwit)
      (activity.round segwit m_hw_inputs i pair) := by
  cases segwit with
  | true =>
      refine (handledBy_signInputSW activity i pair.1 pair.2).mono fun handler hkind => ?_
      exact hkind.imp id fun hsign => ⟨hsign.1, decide_eq_true hsign.2⟩
  | false =>
      refine (handledBy_signInputNonSW activity m_hw_inputs i pair.2).mono fun handler hkind => ?_
      exact hkind.imp id fun hsign => ⟨hsign.1, decide_eq_false (not_not_intro hsign.2)⟩

/-- The round signs the input if it is of the part's kind. -/
theorem round_eq {m_hw_inputs : List Input} {i : ℕ} {hw_input : Input} (input : SigningInput)
    (h : m_hw_inputs[i]? = some hw_input) :
    ∃ groups : List (List Bytes), groups.flatten = activity.shown input.segwit m_hw_inputs i input ∧
      activity.round input.segwit m_hw_inputs i (hw_input, input) = groups.map exchanges ++
        [untrustedHashSignBatch i input.user_path activity.m_locktime] := by
  by_cases htype : input.address_type = "p2sh"
  · have hkind : input.segwit = false := decide_eq_false (not_not_intro htype)
    refine ⟨[startUntrustedTransaction activity.m_version (i = 0) i m_hw_inputs
      input.prevout_script false, finalizeInputFull activity.outputBytes], ?_, ?_⟩
    · rw [hkind, shown, if_neg Bool.false_ne_true, List.flatten_cons, List.flatten_cons,
        List.flatten_nil, List.append_nil]
    · rw [hkind, round, if_neg Bool.false_ne_true, signInputNonSW, if_pos htype]
      rfl
  · have hkind : input.segwit = true := decide_eq_true htype
    have hone : (m_hw_inputs.drop i).take 1 = [hw_input] := by
      obtain ⟨hi, rfl⟩ := List.getElem?_eq_some_iff.mp h
      rw [List.drop_eq_getElem_cons hi, List.take_succ_cons, List.take_zero]
    refine ⟨[startUntrustedTransaction activity.m_version false 0 [hw_input] input.prevout_script
      true], ?_, ?_⟩
    · rw [hkind, shown, if_pos rfl, hone, List.flatten_cons, List.flatten_nil, List.append_nil]
    · rw [hkind, round, if_pos rfl, signInputSW, if_neg htype]
      rfl

/-- Before the rounds nothing is signed. -/
theorem adds_hwHandler (segwit : Bool) (state : SigningState) :
    ∃ first, (∀ index, HandledBy (fun handler => handler ≠ .hashSign index) first) ∧
      activity.adds (hwHandler segwit) state = first ++
        ((state.m_hw_inputs.zip activity.m_signing_inputs).mapIdx
          (activity.round segwit state.m_hw_inputs)).flatten := by
  cases segwit with
  | true =>
      refine ⟨_, fun index => ?_, rfl⟩
      exact handledBy_map_exchanges Handler.noConfusion [_, _]
  | false => exact ⟨[], fun index => handledBy_nil, rfl⟩

end LedgerSignTransactionActivity

end GreenWallet.Ledger
