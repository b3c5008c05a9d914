import GreenWallet.Ledger.Batch
import GreenWallet.Ledger.SignTransaction

/-!
# The run of a signing activity

The activity puts its commands into batches. When the device has answered the last command for a
trusted input, the answer is appended to the list of hardware inputs; when all of them are there,
the commands that use them are made and added to the batch; and the answer to a signing command
becomes the signature of its input.
-/
namespace GreenWallet.Ledger
open GreenWallet.Library

/-- What is connected to the `finished` signal of a command, besides its batch. -/
inductive Handler where
  | nothing
  /-- Of the last command of `getTrustedInput`. -/
  | trustedInput (sequence : UInt32) (segwit : Bool)
  /-- Of the command of `untrustedHashSign`. -/
  | hashSign (index : ℕ)
  /-- Of the commands of `getHwInputs`. -/
  | signSW
  | signNonSW
deriving DecidableEq

/-- Commands as they are made. -/
inductive CommandTree where
  | command (payload : Bytes) (handler : Handler)
  | batch (commands : List CommandTree) (handler : Handler)

/-- The payload of a command object, unless it is a batch, and what is connected to it. -/
structure ObjectEntry where
  payload : Option Bytes
  handler : Handler

mutual
/-- The objects, a batch before its commands. -/
def CommandTree.entries : CommandTree → List ObjectEntry
  | .command payload handler => [⟨some payload, handler⟩]
  | .batch commands handler => ⟨none, handler⟩ :: entriesOf commands

def entriesOf : List CommandTree → List ObjectEntry
  | [] => []
  | tree :: trees => tree.entries ++ entriesOf trees
end

mutual
/-- The command object, where the ids from `first` on are free. -/
def CommandTree.object (first : ℕ) : CommandTree → CommandObject
  | .command _ _ => .leaf first []
  | .batch commands _ => .batch first (objectsOf (first + 1) commands) []

def objectsOf (first : ℕ) : List CommandTree → List CommandObject
  | [] => []
  | tree :: trees => tree.object first :: objectsOf (first + tree.entries.length) trees
end

/-! ## The commands that are made -/

def exchange (payload : Bytes) : CommandTree := .command payload .nothing

/-- A batch of commands that nothing is connected to. -/
def exchanges (payloads : List Bytes) : CommandTree := .batch (payloads.map exchange) .nothing

/-- The handler is connected to the last command. -/
def trustedInputBatch (tx : WallyTx) (index sequence : UInt32) (segwit : Bool) : CommandTree :=
  .batch ((getTrustedInput tx index).dropLast.map exchange ++
    [.command (apdu BTCHIP_CLA BTCHIP_INS_GET_TRUSTED_INPUT 0x80 0x00
      (DataStream.little.writeUInt32 tx.locktime).data) (.trustedInput sequence segwit)]) .nothing

def untrustedHashSignBatch (index : ℕ) (private_key_path : List UInt32) (locktime : UInt32) :
    CommandTree :=
  .batch [.command (untrustedHashSign private_key_path locktime) (.hashSign index)] .nothing

namespace LedgerSignTransactionActivity
variable (activity : LedgerSignTransactionActivity) (fromBytes : Bytes → WallyTx)

/-- `getHwInputs`, and what `signSW` or `signNonSW` connects to it. -/
def hwInputsBatch (segwit : Bool) (handler : Handler) : CommandTree :=
  .batch (activity.m_signing_inputs.map fun input =>
    trustedInputBatch (fromBytes (activity.m_signing_transactions input.txhash)) input.pt_idx
      input.sequence segwit) handler

def signSWBatch : CommandTree := .batch [activity.hwInputsBatch fromBytes true .signSW] .nothing

def signNonSWBatch : CommandTree :=
  .batch [activity.hwInputsBatch fromBytes false .signNonSW] .nothing

/-- The round of the loop of `signSW` for an input. -/
def signInputSW (i : ℕ) (hw_input : Input) (input : SigningInput) : List CommandTree :=
  if input.address_type = "p2sh" then []
  else
    [exchanges (startUntrustedTransaction activity.m_version false 0 [hw_input] input.prevout_script
      true),
    untrustedHashSignBatch i input.user_path activity.m_locktime]

/-- What `signSW` adds to its batch when the trusted inputs are there. -/
def addSW (m_hw_inputs : List Input) : List CommandTree :=
  [exchanges (startUntrustedTransaction activity.m_version true 0 m_hw_inputs
    (((activity.m_signing_inputs.head?).map SigningInput.prevout_script).getD []) true),
  exchanges (finalizeInputFull activity.outputBytes)] ++
  ((m_hw_inputs.zip activity.m_signing_inputs).mapIdx fun i pair =>
    activity.signInputSW i pair.1 pair.2).flatten

/-- The round of the loop of `signNonSW` for an input. -/
def signInputNonSW (m_hw_inputs : List Input) (i : ℕ) (input : SigningInput) : List CommandTree :=
  [exchanges (startUntrustedTransaction activity.m_version (i = 0) i m_hw_inputs
    input.prevout_script false),
  exchanges (finalizeInputFull activity.outputBytes)] ++
  if input.address_type = "p2sh" then
    [untrustedHashSignBatch i input.user_path activity.m_locktime]
  else []

/-- What `signNonSW` adds to its batch when the trusted inputs are there. -/
def addNonSW (m_hw_inputs : List Input) : List CommandTree :=
  ((m_hw_inputs.zip activity.m_signing_inputs).mapIdx fun i pair =>
    activity.signInputNonSW m_hw_inputs i pair.2).flatten

/-- The batch of `exec`. -/
def execBatch : CommandTree :=
  .batch ((if activity.sw then [activity.signSWBatch fromBytes] else []) ++
    (if activity.p2sh then [activity.signNonSWBatch fromBytes] else [])) .nothing

end LedgerSignTransactionActivity

/-! ## The run -/

inductive ActivitySignal where
  | finished
  | fail
deriving DecidableEq

/-- What the handlers work on. -/
structure SigningState where
  m_hw_inputs : List Input := []
  m_signatures : List Bytes

structure Signing where
  execution : Execution
  /-- The objects by their ids. -/
  objects : List ObjectEntry
  state : SigningState
  /-- The commands that have finished, with their responses, which batches do not have. -/
  finished : List (ℕ × Bytes) := []

inductive SigningEvent where
  | call
  | deliver
  | finish (command : CommandObject) (response : Bytes)
  | error (command : CommandObject)

/-- The handler runs, with the response of the command. -/
def Handler.run (handler : Handler) (response : Bytes) (state : SigningState) : SigningState :=
  match handler with
  | .nothing => state
  | .trustedInput sequence segwit =>
      { state with
        m_hw_inputs := state.m_hw_inputs ++
          [{ value := response, sequence := sequenceBytes sequence, trusted := true, segwit }] }
  | .hashSign index =>
      { state with m_signatures := state.m_signatures.set index (0x30 :: response.drop 1) }
  | .signSW => { state with m_hw_inputs := [] }
  | .signNonSW => state

namespace LedgerSignTransactionActivity
variable (activity : LedgerSignTransactionActivity)

/-- What the handler adds to the batch of the command. -/
def adds (handler : Handler) (state : SigningState) : List CommandTree :=
  match handler with
  | .signSW => activity.addSW state.m_hw_inputs
  | .signNonSW => activity.addNonSW state.m_hw_inputs
  | _ => []

end LedgerSignTransactionActivity

namespace Signing
variable (activity : LedgerSignTransactionActivity)

def entry (s : Signing) (id : ℕ) : ObjectEntry := (s.objects[id]?).getD ⟨none, .nothing⟩

/-- The command emits `finished`: its handler runs, and what it adds is made. -/
def finish (s : Signing) (id : ℕ) (response : Bytes) : Signing where
  execution := s.execution.finish
    (.leaf id (objectsOf s.objects.length (activity.adds (s.entry id).handler s.state)))
  objects := s.objects ++ entriesOf (activity.adds (s.entry id).handler s.state)
  state := (s.entry id).handler.run response s.state
  finished := s.finished ++ [(id, response)]

/-- The batch has no command left to execute. -/
def Emptied (s : Signing) : CommandObject → Prop
  | .leaf _ _ => False
  | .batch id constructed _ => (s.execution.m_commands id).getD constructed = []

instance (s : Signing) (command : CommandObject) : Decidable (s.Emptied command) := by
  cases command with
  | leaf id appends => exact isFalse not_false
  | batch id constructed appends =>
      exact decidable_of_iff (((s.execution.m_commands id).getD constructed).isEmpty = true)
        List.isEmpty_iff

def exec (s : Signing) (command : CommandObject) : Signing :=
  if s.Emptied command then s.finish activity command.id []
  else { s with execution := s.execution.exec command }

def next (s : Signing) : SigningEvent → Signing
  | .call =>
      match s.execution.call with
      | none => s
      | some command => { s with execution := { s.execution with call := none } }.exec activity command
  | .deliver =>
      match s.execution.posted with
      | [] => s
      | batch :: rest =>
          { s with execution := { s.execution with posted := rest } }.exec activity batch
  | .finish command response =>
      { s with
        execution := { s.execution with
          running := s.execution.running.filter fun other => other.id != command.id } }.finish
        activity command.id response
  | .error command => { s with execution := batches.next s.execution (.error command) }

/-- The event of the batches behind an event. -/
def batchEvent : SigningEvent → BatchEvent
  | .call => .call
  | .deliver => .deliver
  | .finish command _ => .finish command
  | .error command => .error command

/-- `exec` of the activity. The first object is its batch. -/
def start (fromBytes : Bytes → WallyTx) : Signing where
  execution := .start ((activity.execBatch fromBytes).object 0)
  objects := (activity.execBatch fromBytes).entries
  state := { m_signatures := List.replicate activity.m_signing_inputs.length [] }

/-- The signals of the activity, which are those of its batch. -/
def emitted (s : Signing) : List ActivitySignal :=
  s.execution.log.filterMap fun signal =>
    if signal = .finished 0 then some .finished
    else if signal = .error 0 then some .fail
    else none

/-- The commands the device has answered, in their order, with the answers. -/
def answered (s : Signing) : List (Bytes × Bytes) :=
  s.finished.filterMap fun command =>
    (s.entry command.1).payload.map fun payload => (payload, command.2)

/-- The responses that have been made the signature of an input. -/
def signedWith (s : Signing) (index : ℕ) : List Bytes :=
  s.finished.filterMap fun command =>
    if (s.entry command.1).handler = .hashSign index then some command.2 else none

end Signing

/-- The device answers or fails the command that is being executed. -/
def signing (activity : LedgerSignTransactionActivity) : Reactive Signing SigningEvent Empty where
  enabled s e := batches.enabled s.execution (Signing.batchEvent e)
  next := Signing.next activity
  emits _ _ := []

end GreenWallet.Ledger
