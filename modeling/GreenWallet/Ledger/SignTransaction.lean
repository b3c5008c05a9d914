import GreenWallet.Ledger.Apdu

/-!
# Signing a Bitcoin transaction

The device is shown the previous transactions, for each of which it returns a trusted input,
then the transaction to be signed, once with all inputs and once for each input to be signed.
The functions return the commands that they put into a batch, in their order.
-/
namespace GreenWallet.Ledger

abbrev Bytes32 := {bytes : Bytes // bytes.length = 32}

structure WallyTxInput where
  txhash : Bytes32
  index : UInt32
  script : Bytes
  sequence : UInt32

structure WallyTxOutput where
  satoshi : UInt64
  script : Bytes

/-- What is read of a `wally_tx`. -/
structure WallyTx where
  version : UInt32
  inputs : List WallyTxInput
  outputs : List WallyTxOutput
  locktime : UInt32

structure Input where
  value : Bytes
  sequence : Bytes
  trusted : Bool
  segwit : Bool

/-- What is read of a signing input. -/
structure SigningInput where
  address_type : String
  txhash : String
  pt_idx : UInt32
  sequence : UInt32
  prevout_script : Bytes
  user_path : List UInt32

structure TransactionOutput where
  satoshi : UInt64
  scriptpubkey : Bytes

/-- The number of elements of a list, as the count that it is converted to. -/
def count32 {α : Type} (list : List α) : UInt32 := .ofNat list.length

namespace DataStream

def little : DataStream := DataStream.setByteOrder {} .LittleEndian

end DataStream

structure LedgerSignTransactionActivity where
  m_version : UInt32
  m_locktime : UInt32
  m_signing_inputs : List SigningInput
  m_transaction_outputs : List TransactionOutput
  /-- The transactions by their hashes; one that is missing is asserted against. -/
  m_signing_transactions : String → Bytes

namespace LedgerSignTransactionActivity
variable (activity : LedgerSignTransactionActivity)

def outputBytes : Bytes :=
  (activity.m_transaction_outputs.foldl
    (fun stream out =>
      ((stream.writeUInt64 out.satoshi).varInt out.scriptpubkey.length).writeRawData
        out.scriptpubkey)
    (DataStream.little.varInt activity.m_transaction_outputs.length)).data

end LedgerSignTransactionActivity

/-- The loop of `finalizeInputFull`. -/
def finalizeLoop (data : Bytes) (offset : ℕ) (datas : List Bytes) : List Bytes :=
  if offset < data.length then
    let blockLength := if data.length - offset > 255 then 255 else data.length - offset
    finalizeLoop data (offset + blockLength) (datas ++ [(data.drop offset).take blockLength])
  else datas
termination_by data.length - offset
decreasing_by split_ifs <;> omega

def finalizeInputFull (data : Bytes) : List Bytes :=
  let datas := finalizeLoop data 0 [[0]]
  datas.mapIdx fun i data =>
    let p1 := if i = 0 then 0xff else if i = datas.length - 1 then 0x80 else 0x00
    apdu BTCHIP_CLA BTCHIP_INS_HASH_INPUT_FINALIZE_FULL p1 0x00 data

/-- The pin is `"0"`. -/
def untrustedHashSign (private_key_path : List UInt32) (locktime : UInt32) : Bytes :=
  let sig_hash_type := 1
  let stream := (DataStream.writeRawData {} (pathToData private_key_path)).setByteOrder .BigEndian
  let stream := (stream.writeUInt8 1).writeRawData [0x30]
  let stream := (stream.writeUInt32 locktime).writeUInt8 sig_hash_type
  apdu BTCHIP_CLA BTCHIP_INS_HASH_SIGN 0 0 stream.data

def sequenceBytes (sequence : UInt32) : Bytes := (DataStream.little.writeUInt32 sequence).data

def getTrustedInput (tx : WallyTx) (index : UInt32) : List Bytes :=
  [apdu BTCHIP_CLA BTCHIP_INS_GET_TRUSTED_INPUT 0x00 0x00
    (((((DataStream.setByteOrder {} .BigEndian).writeUInt32 index).setByteOrder
      .LittleEndian).writeUInt32 tx.version).varint (count32 tx.inputs)).data] ++
  tx.inputs.flatMap (fun input =>
    [apdu BTCHIP_CLA BTCHIP_INS_GET_TRUSTED_INPUT 0x80 0x00
      (((DataStream.little.writeRawData input.txhash.1).writeUInt32 input.index).varint
        (count32 input.script)).data,
    apdu BTCHIP_CLA BTCHIP_INS_GET_TRUSTED_INPUT 0x80 0x00
      ((DataStream.little.writeRawData input.script).writeUInt32 input.sequence).data]) ++
  [apdu BTCHIP_CLA BTCHIP_INS_GET_TRUSTED_INPUT 0x80 0x00
    (DataStream.varint {} (count32 tx.outputs)).data] ++
  tx.outputs.flatMap (fun output =>
    [apdu BTCHIP_CLA BTCHIP_INS_GET_TRUSTED_INPUT 0x80 0x00
      ((DataStream.little.writeUInt64 output.satoshi).varint (count32 output.script)).data,
    apdu BTCHIP_CLA BTCHIP_INS_GET_TRUSTED_INPUT 0x80 0x00 output.script]) ++
  [apdu BTCHIP_CLA BTCHIP_INS_GET_TRUSTED_INPUT 0x80 0x00
    (DataStream.little.writeUInt32 tx.locktime).data]

/-- The two commands for one of the used inputs. -/
def untrustedInput (script : Bytes) (input : Input) : List Bytes :=
  let stream := DataStream.writeUInt8 {}
    (if input.trusted then 0x01 else if input.segwit then 0x02 else 0x00)
  let stream :=
    if input.trusted then stream.writeUInt8 (.ofNat (input.value.length % 256)) else stream
  let stream := (stream.writeRawData input.value).varint (count32 script)
  [apdu BTCHIP_CLA BTCHIP_INS_HASH_INPUT_START 0x80 0x00 stream.data,
    apdu BTCHIP_CLA BTCHIP_INS_HASH_INPUT_START 0x80 0x00 (script ++ input.sequence)]

def startUntrustedTransaction (version : UInt32) (new_transaction : Bool) (index : ℕ)
    (used_inputs : List Input) (redeem_script : Bytes) (segwit : Bool) : List Bytes :=
  [apdu BTCHIP_CLA BTCHIP_INS_HASH_INPUT_START 0x00
    (if new_transaction then (if segwit then 0x02 else 0x00) else 0x80)
    ((DataStream.little.writeUInt32 version).varint (count32 used_inputs)).data] ++
  (used_inputs.mapIdx fun current_index input =>
    untrustedInput (if current_index = index then redeem_script else []) input).flatten

namespace LedgerSignTransactionActivity
variable (activity : LedgerSignTransactionActivity) (fromBytes : Bytes → WallyTx)

/-- The first commands of `signSW` and of `signNonSW`. -/
def getHwInputs : List Bytes :=
  activity.m_signing_inputs.flatMap fun input =>
    getTrustedInput (fromBytes (activity.m_signing_transactions input.txhash)) input.pt_idx

/-- `m_hw_inputs`, when all trusted inputs have been returned. -/
def hwInputs (segwit : Bool) (values : List Bytes) : List Input :=
  (values.zip activity.m_signing_inputs).map fun (value, input) =>
    { value, sequence := sequenceBytes input.sequence, trusted := true, segwit }

variable {activity} in
theorem length_hwInputs {values : List Bytes}
    (hlength : values.length = activity.m_signing_inputs.length) (segwit : Bool) :
    (activity.hwInputs segwit values).length = values.length := by
  rw [hwInputs, List.length_map, List.length_zip, hlength, Nat.min_self]

/-- What `signSW` adds to its batch when the trusted inputs are there. -/
def signSW (values : List Bytes) : List Bytes :=
  let m_hw_inputs := activity.hwInputs true values
  let script0 := ((activity.m_signing_inputs.head?).map SigningInput.prevout_script).getD []
  startUntrustedTransaction activity.m_version true 0 m_hw_inputs script0 true ++
  finalizeInputFull activity.outputBytes ++
  (m_hw_inputs.zip activity.m_signing_inputs).flatMap fun (hw_input, input) =>
    if input.address_type = "p2sh" then []
    else
      startUntrustedTransaction activity.m_version false 0 [hw_input] input.prevout_script true ++
      [untrustedHashSign input.user_path activity.m_locktime]

/-- What `signNonSW` adds to its batch when the trusted inputs are there. -/
def signNonSW (values : List Bytes) : List Bytes :=
  let m_hw_inputs := activity.hwInputs false values
  let data := activity.outputBytes
  ((m_hw_inputs.zip activity.m_signing_inputs).mapIdx fun i (_, input) =>
    startUntrustedTransaction activity.m_version (i = 0) i m_hw_inputs input.prevout_script false ++
    finalizeInputFull data ++
    if input.address_type = "p2sh" then [untrustedHashSign input.user_path activity.m_locktime]
    else []).flatten

def sw : Bool := activity.m_signing_inputs.any fun input => input.address_type ≠ "p2sh"

def p2sh : Bool := activity.m_signing_inputs.any fun input => input.address_type = "p2sh"

/-- How far the device has answered: the trusted inputs of the two parts, if all of them have
been returned. -/
structure Answered where
  segwit : Option (List Bytes)
  legacy : Option (List Bytes)
  segwit_length : ∀ values ∈ segwit, values.length = activity.m_signing_inputs.length
  legacy_length : ∀ values ∈ legacy, values.length = activity.m_signing_inputs.length

/-- The commands that have been made. -/
def commands (answered : activity.Answered) : List Bytes :=
  (if activity.sw then
    activity.getHwInputs fromBytes ++ (answered.segwit.map activity.signSW).getD [] else []) ++
  (if activity.p2sh then
    activity.getHwInputs fromBytes ++ (answered.legacy.map activity.signNonSW).getD [] else [])

end LedgerSignTransactionActivity
end GreenWallet.Ledger
