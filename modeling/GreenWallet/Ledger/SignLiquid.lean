import GreenWallet.Ledger.SignTransaction

/-!
# Signing a Liquid transaction

The commitments are asked for one output after the other, each command after the answer to
the one before it; then the outputs and the inputs are shown. The blinding factors alone are
asked for by an activity of its own.
-/
namespace GreenWallet.Ledger

/-- What is read of an input. -/
structure LiquidInput where
  txhash : Bytes
  pt_idx : UInt32
  /-- An input need not have one. -/
  commitment : Option Bytes
  sequence : UInt32
  prevout_script : Bytes
  satoshi : UInt64
  assetblinder : Bytes
  amountblinder : Bytes
  user_path : List UInt32

/-- What is read of an output. The size of an `asset_id` is asserted. -/
structure LiquidOutput where
  /-- An output is blinded if it has one. -/
  blinding_key : Option Bytes
  satoshi : UInt64
  asset_id : Bytes32
  eph_public_key : Bytes
  scriptpubkey : Bytes

def inputLiquidBytes (input : LiquidInput) (strict : Bool) : Bytes :=
  let stream := (DataStream.little.writeRawData input.txhash.reverse).writeUInt32 input.pt_idx
  if strict || input.commitment.isSome then (stream.writeRawData (input.commitment.getD [])).data
  else
    (stream.writeRawData
      (List.replicate 3 ((0x08 : UInt8) :: List.replicate 10 0x00)).flatten).data

/-- The two commands for one of the inputs. -/
def untrustedLiquidInput (script input sequence : Bytes) : List Bytes :=
  [apdu BTCHIP_CLA BTCHIP_INS_HASH_INPUT_START 0x80 0x00
    (((DataStream.little.writeUInt8 0x03).writeRawData input).varint (count32 script)).data,
  apdu BTCHIP_CLA BTCHIP_INS_HASH_INPUT_START 0x80 0x00 (script ++ sequence)]

/-- `startUntrustedTransaction`, which both activities have. -/
def startUntrustedLiquid (version : UInt32) (new_transaction : Bool) (input_index : ℕ)
    (inputs sequences : List Bytes) (redeem_script : Bytes) : List Bytes :=
  [apdu BTCHIP_CLA BTCHIP_INS_HASH_INPUT_START 0x00 (if new_transaction then 0x06 else 0x80)
    ((DataStream.little.writeUInt32 version).varint (count32 inputs)).data] ++
  ((inputs.zip sequences).mapIdx fun i (input, sequence) =>
    untrustedLiquidInput (if i = input_index then redeem_script else []) input sequence).flatten

structure LedgerSignLiquidTransactionActivity where
  m_version : UInt32
  m_locktime : UInt32
  m_inputs : List LiquidInput
  m_outputs : List LiquidOutput

/-- What is kept while the commitments are asked for. -/
structure Commitments where
  m_values : List UInt64
  m_abfs : List Bytes
  m_vbfs : List Bytes
  m_commitments : List Bytes := []

namespace LedgerSignLiquidTransactionActivity
variable (activity : LedgerSignLiquidTransactionActivity)
  (assetFinalVbf : List UInt64 → ℕ → Bytes → Bytes → Bytes32)

def hwInputs : List Bytes := activity.m_inputs.map fun input => inputLiquidBytes input true

def hwSequences : List Bytes := activity.m_inputs.map fun input => sequenceBytes input.sequence

def bigIndex (output_index : ℕ) : Bytes :=
  ((DataStream.setByteOrder {} .BigEndian).writeUInt32 (.ofNat output_index)).data

/-- Asset, value and index of an output, and its last blinding factor if it is known. -/
def commitmentData (output : LiquidOutput) (output_index : ℕ) (vbf : Bytes) : Bytes :=
  (((((DataStream.setByteOrder {} .BigEndian).writeRawData output.asset_id.1).writeUInt64
    output.satoshi).writeUInt32 (.ofNat output_index)).writeRawData vbf).data

/-- From an output on, with the responses that the device has given so far. The second part is
there when all commitments are. -/
def getLiquidCommitment (output_index : ℕ) : List LiquidOutput → Commitments → List Bytes →
    List Bytes × Option Commitments
  | [], s, _ => ([], some s)
  | output :: rest, s, responses =>
      if output.blinding_key = none then
        getLiquidCommitment (output_index + 1) rest
          { s with m_commitments := s.m_commitments ++ [[]] } responses
      else
        let s := { s with m_values := s.m_values ++ [output.satoshi] }
        if output_index + 2 = activity.m_outputs.length then
          let first := apdu BTCHIP_CLA BTCHIP_INS_GET_LIQUID_BLINDING_FACTOR 0x01 0x00
            (bigIndex output_index)
          match responses with
          | [] => ([first], none)
          | abf :: responses =>
              let s := { s with m_abfs := s.m_abfs ++ [abf] }
              let final_vbf := assetFinalVbf s.m_values activity.m_inputs.length s.m_abfs.flatten
                s.m_vbfs.flatten
              let s := { s with m_vbfs := s.m_vbfs ++ [final_vbf.1] }
              let second := apdu BTCHIP_CLA BTCHIP_INS_GET_LIQUID_COMMITMENTS 0x02 0x00
                (commitmentData output output_index final_vbf.1)
              match responses with
              | [] => ([first, second], none)
              | commitment :: responses =>
                  let (more, final) := getLiquidCommitment (output_index + 1) rest
                    { s with m_commitments := s.m_commitments ++ [commitment] } responses
                  (first :: second :: more, final)
        else
          let command := apdu BTCHIP_CLA BTCHIP_INS_GET_LIQUID_COMMITMENTS 0x01 0x00
            (commitmentData output output_index [])
          match responses with
          | [] => ([command], none)
          | response :: responses =>
              let (more, final) := getLiquidCommitment (output_index + 1) rest
                { s with
                  m_commitments := s.m_commitments ++ [response]
                  m_abfs := s.m_abfs ++ [response.take 32]
                  m_vbfs := s.m_vbfs ++ [(response.drop 32).take 32] } responses
              (command :: more, final)

/-- The pieces of one output. -/
def outputPieces (output : LiquidOutput) (commitment : Bytes) : List Bytes :=
  (match output.blinding_key with
  | none =>
      let stream := (DataStream.writeUInt8 {} 0x01).writeRawData output.asset_id.1.reverse
      let stream := (stream.writeUInt8 0x01).setByteOrder .BigEndian
      [(stream.writeUInt64 output.satoshi).data, [0], [0]]
  | some blinding_key =>
      [(commitment.drop 64).take 143, output.eph_public_key, blinding_key]) ++
  [if output.scriptpubkey.length = 0 then (DataStream.little.varint 0).data
    else
      ((DataStream.little.varint (count32 output.scriptpubkey)).writeRawData
        output.scriptpubkey).data]

def outputLiquidBytes (m_commitments : List Bytes) : List Bytes :=
  [(DataStream.little.varint (count32 activity.m_outputs)).data] ++
  (activity.m_outputs.mapIdx fun i output =>
    outputPieces output (m_commitments.getD i [])).flatten

def untrustedLiquidHashSign (input : LiquidInput) : Bytes :=
  let stream := (DataStream.writeRawData {} (pathToData input.user_path)).writeUInt8 0x00
  let stream := (stream.setByteOrder .BigEndian).writeUInt32 activity.m_locktime
  apdu BTCHIP_CLA BTCHIP_INS_HASH_SIGN 0x00 0x00
    ((stream.setByteOrder .LittleEndian).writeUInt8 1).data

def finalizeLiquidInputFull (m_commitments : List Bytes) : List Bytes :=
  let m_output_liquid_bytes := activity.outputLiquidBytes m_commitments
  (m_output_liquid_bytes.mapIdx fun i data =>
    apdu BTCHIP_CLA BTCHIP_INS_HASH_INPUT_FINALIZE_FULL
      (if i = m_output_liquid_bytes.length - 1 then 0x80 else 0x00) 0x00 data) ++
  [apdu BTCHIP_CLA BTCHIP_INS_GET_LIQUID_ISSUANCE_INFORMATION 0x80 0x00
    (List.replicate activity.m_inputs.length 0)] ++
  activity.m_inputs.flatMap fun input =>
    startUntrustedLiquid activity.m_version false 0 [inputLiquidBytes input true]
      [sequenceBytes input.sequence] input.prevout_script ++
    [activity.untrustedLiquidHashSign input]

/-- The commands that have been made when the device has given some responses to those for
the commitments. -/
def commands (responses : List Bytes) : List Bytes :=
  let script0 := ((activity.m_inputs.head?).map LiquidInput.prevout_script).getD []
  let (asked, final) := activity.getLiquidCommitment assetFinalVbf 0 activity.m_outputs
    { m_values := activity.m_inputs.map LiquidInput.satoshi
      m_abfs := activity.m_inputs.map fun input => input.assetblinder.reverse
      m_vbfs := activity.m_inputs.map fun input => input.amountblinder.reverse } responses
  startUntrustedLiquid activity.m_version true 0 activity.hwInputs activity.hwSequences script0 ++
  asked ++
  match final with
  | none => []
  | some s => activity.finalizeLiquidInputFull s.m_commitments

end LedgerSignLiquidTransactionActivity

inductive BlindingFactor where
  | asset
  | amount
deriving DecidableEq

def BlindingFactor.type : BlindingFactor → UInt8
  | .asset => 0x01
  | .amount => 0x02

def getBlindingFactor (index : ℕ) (factor : BlindingFactor) : Bytes :=
  apdu BTCHIP_CLA BTCHIP_INS_GET_LIQUID_BLINDING_FACTOR factor.type 0x00
    (LedgerSignLiquidTransactionActivity.bigIndex index)

/-- The commands of `LedgerGetBlindingFactorsActivity` before those for the outputs. -/
def blindingStart (inputs : List LiquidInput) : List Bytes :=
  startUntrustedLiquid 2 true 0 (inputs.map fun input => inputLiquidBytes input false)
    (inputs.map fun input => sequenceBytes input.sequence) []

/-- The commands of `LedgerGetBlindingFactorsActivity` for the outputs. -/
def blindingRequests (outputs : List LiquidOutput) : List (ℕ × BlindingFactor) :=
  (outputs.mapIdx fun i output =>
    if output.blinding_key = none then [] else [(i, .asset), (i, .amount)]).flatten

/-- A message, its length in UTF-16 units and its bytes, which are at least as many. -/
structure Message where
  size : ℕ
  local8Bit : Bytes
  size_le : size ≤ local8Bit.length

/-- The commands of `LedgerSignMessageActivity`; the second is made when the first is answered. -/
def signMessage (message : Message) (path : List UInt32) (answered : Bool) : List Bytes :=
  let stream := path.foldl DataStream.writeUInt32
    (DataStream.writeUInt8 {} (.ofNat (path.length % 256)))
  let stream := (stream.writeUInt8 0).writeUInt8 (.ofNat (message.size % 256))
  let stream := stream.writeRawData (message.local8Bit.take message.size)
  apdu BTCHIP_CLA BTCHIP_INS_SIGN_MESSAGE 0x00 0x01 stream.data ::
    if answered then
      [apdu BTCHIP_CLA BTCHIP_INS_SIGN_MESSAGE 0x80 0x01
        ((DataStream.writeUInt8 {} 1).writeUInt8 0).data]
    else []

end GreenWallet.Ledger
