import GreenWallet.Ledger.SigningRun

/-!
# Where the signatures of a signing activity come from

The answers to the commands of each part are traced to what the handlers make of them: the
trusted inputs that the later commands are made from, and the signatures.
-/
namespace GreenWallet.Ledger
open GreenWallet.Library

/-! ## What has been answered -/

/-- The commands that are not batches, with their responses. -/
def answeredOf (observed : List (ObjectEntry × Bytes)) : List (Bytes × Bytes) :=
  observed.filterMap fun command => command.1.payload.map fun payload => (payload, command.2)

/-- The responses that the handler for an index has been given. -/
def signedOf (index : ℕ) (observed : List (ObjectEntry × Bytes)) : List Bytes :=
  observed.filterMap fun command =>
    if command.1.handler = .hashSign index then some command.2 else none

/-- The handlers run one after the other. -/
def runAll (state : SigningState) (observed : List (ObjectEntry × Bytes)) : SigningState :=
  observed.foldl (fun state command => command.1.handler.run command.2 state) state

theorem Signing.answered_eq (s : Signing) : s.answered = answeredOf s.observed := by
  rw [answered, answeredOf, observed, List.filterMap_map]
  rfl

theorem Signing.signedWith_eq (s : Signing) (index : ℕ) :
    s.signedWith index = signedOf index s.observed := by
  rw [signedWith, signedOf, observed, List.filterMap_map]
  rfl

theorem map_fst_answeredOf (observed : List (ObjectEntry × Bytes)) :
    (answeredOf observed).map Prod.fst = (observed.map Prod.fst).filterMap ObjectEntry.payload := by
  rw [answeredOf, List.map_filterMap, List.filterMap_map]
  congr 1
  funext command
  simp [Function.comp_def]

theorem answeredOf_append (observed more : List (ObjectEntry × Bytes)) :
    answeredOf (observed ++ more) = answeredOf observed ++ answeredOf more := List.filterMap_append

@[simp] theorem answeredOf_batch (handler : Handler) (response : Bytes)
    (observed : List (ObjectEntry × Bytes)) :
    answeredOf ((⟨none, handler⟩, response) :: observed) = answeredOf observed := rfl

theorem runAll_cons (state : SigningState) (command : ObjectEntry × Bytes)
    (observed : List (ObjectEntry × Bytes)) : runAll state (command :: observed) =
      runAll (command.1.handler.run command.2 state) observed := rfl

theorem runAll_append (state : SigningState) (observed more : List (ObjectEntry × Bytes)) :
    runAll state (observed ++ more) = runAll (runAll state observed) more := List.foldl_append

/-- Nothing is connected to these commands. -/
def Unhandled (observed : List (ObjectEntry × Bytes)) : Prop :=
  ∀ command ∈ observed, command.1.handler = .nothing

theorem Unhandled.runAll_eq {observed : List (ObjectEntry × Bytes)} (h : Unhandled observed)
    (state : SigningState) : runAll state observed = state := by
  induction observed with
  | nil => rfl
  | cons command observed ih =>
      rw [Unhandled, List.forall_mem_cons] at h
      rw [runAll_cons, h.1]
      exact ih h.2

theorem Unhandled.signedOf_eq {observed : List (ObjectEntry × Bytes)} (h : Unhandled observed) (index : ℕ) :
    signedOf index observed = [] := by
  rw [signedOf, List.filterMap_eq_nil_iff]
  intro command hcommand
  rw [if_neg]
  rw [h command hcommand]
  intro hsame
  cases hsame

theorem unhandled_of_map {observed : List (ObjectEntry × Bytes)} {entries : List ObjectEntry}
    (h : observed.map Prod.fst = entries) (hentries : ∀ entry ∈ entries, entry.handler = .nothing) :
    Unhandled observed := fun command hcommand => hentries command.1 (h ▸ List.mem_map_of_mem hcommand)

theorem signedOf_append (index : ℕ) (observed more : List (ObjectEntry × Bytes)) :
    signedOf index (observed ++ more) = signedOf index observed ++ signedOf index more :=
  List.filterMap_append

/-! ## The trusted inputs -/

/-- The last command is the one with the handler. -/
theorem getTrustedInput_eq (tx : WallyTx) (index : UInt32) :
    getTrustedInput tx index = (getTrustedInput tx index).dropLast ++
      [apdu BTCHIP_CLA BTCHIP_INS_GET_TRUSTED_INPUT 0x80 0x00
        (DataStream.little.writeUInt32 tx.locktime).data] := by
  conv_rhs => rw [getTrustedInput, List.dropLast_concat]
  rfl

namespace LedgerSignTransactionActivity
variable (activity : LedgerSignTransactionActivity) (fromBytes : Bytes → WallyTx)

/-- The commands that ask for the trusted input of an input. -/
def trustedCommands (input : SigningInput) : List Bytes :=
  getTrustedInput (fromBytes (activity.m_signing_transactions input.txhash)) input.pt_idx

/-- These are the commands for the trusted inputs of these inputs, with their answers, and the
values are the answers to the last command for each. -/
def Returned (inputs : List SigningInput) (trusted : List (Bytes × Bytes)) (values : List Bytes) :
    Prop :=
  ∃ groups : List (List (Bytes × Bytes)), trusted = groups.flatten ∧
    groups.map (List.map Prod.fst) = inputs.map (activity.trustedCommands fromBytes) ∧
    groups.map (fun group => group.getLast?.map Prod.snd) = values.map some

/-- The trusted inputs of these inputs. -/
def trustedInputs (segwit : Bool) (inputs : List SigningInput) (values : List Bytes) : List Input :=
  (values.zip inputs).map fun pair =>
    { value := pair.1, sequence := sequenceBytes pair.2.sequence, trusted := true, segwit }

variable {activity fromBytes}

/-- What the commands for one trusted input come to. -/
theorem trustedInput_spec {segwit : Bool} {input : SigningInput} {depth : ℕ}
    {observed : List (ObjectEntry × Bytes)}
    (h : observed.map Prod.fst = ((trustedInputBatch
      (fromBytes (activity.m_signing_transactions input.txhash)) input.pt_idx input.sequence
        segwit).finishing depth).map Prod.fst) (state : SigningState) :
    ∃ value, (answeredOf observed).map Prod.fst = activity.trustedCommands fromBytes input ∧
      (answeredOf observed).getLast?.map Prod.snd = some value ∧
      runAll state observed = { state with
        m_hw_inputs := state.m_hw_inputs ++ trustedInputs segwit [input] [value] } ∧
      ∀ index, signedOf index observed = [] := by
  rw [finishing_trustedInputBatch, List.map_append, List.map_eq_append_iff] at h
  obtain ⟨first, rest, rfl, hfirst, hrest⟩ := h
  rw [List.map_map] at hfirst
  have hquiet : Unhandled first := by
    apply unhandled_of_map hfirst
    intro entry hentry
    obtain ⟨payload, -, rfl⟩ := List.mem_map.mp hentry
    rfl
  obtain ⟨⟨last, value⟩, tail, rfl, rfl, htail⟩ := List.map_eq_cons_iff.mp hrest
  obtain ⟨⟨batch, response⟩, tail, rfl, rfl, hnil⟩ := List.map_eq_cons_iff.mp htail
  obtain rfl : tail = [] := List.map_eq_nil_iff.mp hnil
  have hanswered : (answeredOf first).map Prod.fst = (getTrustedInput
      (fromBytes (activity.m_signing_transactions input.txhash)) input.pt_idx).dropLast := by
    rw [map_fst_answeredOf, hfirst, List.filterMap_map]
    exact List.filterMap_some
  refine ⟨value, ?_, ?_, ?_, ?_⟩
  · rw [answeredOf_append, List.map_append, hanswered]
    exact (getTrustedInput_eq _ _).symm
  · rw [answeredOf_append]
    show (_ ++ [(_, value)]).getLast?.map Prod.snd = _
    rw [List.getLast?_concat]
    rfl
  · rw [runAll_append, hquiet.runAll_eq]
    rfl
  · intro index
    rw [signedOf_append, hquiet.signedOf_eq]
    rfl

theorem Returned.length_eq {inputs : List SigningInput} {trusted : List (Bytes × Bytes)}
    {values : List Bytes} (h : activity.Returned fromBytes inputs trusted values) :
    values.length = inputs.length := by
  obtain ⟨groups, -, hcommands, hvalues⟩ := h
  have hgroups := congrArg List.length hcommands
  have hlasts := congrArg List.length hvalues
  rw [List.length_map, List.length_map] at hgroups hlasts
  exact hlasts.symm.trans hgroups

/-- What the commands for all trusted inputs come to. -/
theorem trustedInputs_spec {segwit : Bool} {inputs : List SigningInput} {depth : ℕ}
    {observed : List (ObjectEntry × Bytes)}
    (h : observed.map Prod.fst = (finishingAll depth (inputs.map fun input =>
      trustedInputBatch (fromBytes (activity.m_signing_transactions input.txhash)) input.pt_idx
        input.sequence segwit)).map Prod.fst) (state : SigningState) :
    ∃ values, activity.Returned fromBytes inputs (answeredOf observed) values ∧
      runAll state observed = { state with
        m_hw_inputs := state.m_hw_inputs ++ trustedInputs segwit inputs values } ∧
      ∀ index, signedOf index observed = [] := by
  induction inputs generalizing observed state with
  | nil =>
      obtain rfl : observed = [] := List.map_eq_nil_iff.mp h
      refine ⟨[], ⟨[], rfl, rfl, rfl⟩, ?_, fun index => rfl⟩
      rw [trustedInputs, List.zip_nil_left, List.map_nil, List.append_nil]
      rfl
  | cons input inputs ih =>
      rw [List.map_cons, finishingAll, List.map_append, List.map_eq_append_iff] at h
      obtain ⟨first, rest, rfl, hfirst, hrest⟩ := h
      obtain ⟨value, hcommands, hlast, hstate, hsigned⟩ := trustedInput_spec hfirst state
      obtain ⟨values, ⟨groups, hgroups, hmap, hlasts⟩, hstates, hsigneds⟩ :=
        ih hrest (runAll state first)
      refine ⟨value :: values, ⟨answeredOf first :: groups, ?_, ?_, ?_⟩, ?_, ?_⟩
      · rw [answeredOf_append, hgroups, List.flatten_cons]
      · rw [List.map_cons, List.map_cons, hcommands, hmap]
      · rw [List.map_cons, List.map_cons, hlast, hlasts]
      · rw [runAll_append, hstates, hstate]
        simp [trustedInputs]
      · intro index
        rw [signedOf_append, hsigned, hsigneds, List.append_nil]

/-! ## A part of the activity -/

/-- A part: the trusted inputs are returned, and then the commands follow that the handler adds
for them. -/
structure Part (activity : LedgerSignTransactionActivity) (fromBytes : Bytes → WallyTx)
    (segwit : Bool) (handler : Handler) (observed : List (ObjectEntry × Bytes))
    (values : List Bytes) (trusted signed : List (ObjectEntry × Bytes)) : Prop where
  observed_eq : ∃ response response', observed =
    trusted ++ (⟨none, handler⟩, response) :: (signed ++ [(⟨none, .nothing⟩, response')])
  returned : activity.Returned fromBytes activity.m_signing_inputs (answeredOf trusted) values
  trustedUnsigned : ∀ index, signedOf index trusted = []
  signed_eq : signed.map Prod.fst = (finishingAll 2 (activity.adds handler
    { m_hw_inputs := activity.hwInputs segwit values, m_signatures := [] })).map Prod.fst

theorem consumes_part {segwit : Bool} {handler : Handler} {state state' : SigningState}
    {items : List (ObjectEntry × ℕ)} {observed : List (ObjectEntry × Bytes)}
    (hempty : state.m_hw_inputs = [])
    (h : Consumes activity state (activity.partItems fromBytes segwit handler ++ items) observed
      state' []) :
    ∃ part rest values trusted signed, observed = part ++ rest ∧
      Part activity fromBytes segwit handler part values trusted signed ∧
      Consumes activity (runAll state part) items rest state' [] := by
  rw [partItems, List.append_assoc] at h
  obtain ⟨trusted, later, rfl, htrusted, hlater⟩ := h.split (activity.not_adds_hwItems fromBytes segwit)
  obtain ⟨values, hreturned, hstate, hsigned⟩ := trustedInputs_spec htrusted state
  rw [show List.foldl _ state trusted = runAll state trusted from rfl, hstate, hempty,
    List.nil_append] at hlater
  cases hlater with
  | @cons _ _ _ _ _ _ response later hlater =>
      obtain ⟨signed, last, rfl, hsignedMap, hlast⟩ := hlater.split (not_adds_adds activity handler _ 2)
      cases hlast with
      | @cons _ _ _ _ _ _ response' rest hrest =>
          refine ⟨trusted ++ (⟨none, handler⟩, response) :: (signed ++ [(⟨none, .nothing⟩, response')]),
            rest, values, trusted, signed, by simp, ⟨⟨response, response', rfl⟩, hreturned, hsigned, ?_⟩, ?_⟩
          · exact hsignedMap
          · have hrun : runAll state (trusted ++ (⟨none, handler⟩, response) ::
                (signed ++ [(⟨none, .nothing⟩, response')])) =
                  runAll (handler.run response
                    { state with
                      m_hw_inputs := trustedInputs segwit activity.m_signing_inputs values })
                    (signed ++ [(⟨none, .nothing⟩, response')]) := by
              rw [runAll_append, hstate, hempty, List.nil_append]
              rfl
            rw [hrun, runAll_append]
            exact hrest

end LedgerSignTransactionActivity

end GreenWallet.Ledger
