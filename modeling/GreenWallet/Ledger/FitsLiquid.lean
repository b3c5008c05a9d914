import GreenWallet.Ledger.Fits
import GreenWallet.Ledger.SignLiquid

/-!
# Which commands of a signing session fit

In a Liquid transaction the inputs are shown with their commitments, and scripts, keys and
the issuance information go out whole as well.
-/
namespace GreenWallet.Ledger

/-- The length of what an input is shown with: hash, index and commitment, or 33 bytes that
stand for none. -/
def LiquidInput.size (input : LiquidInput) (strict : Bool) : ℕ :=
  input.txhash.length + 4 +
    if strict || input.commitment.isSome then (input.commitment.getD []).length else 33

theorem length_inputLiquidBytes (input : LiquidInput) (strict : Bool) :
    (inputLiquidBytes input strict).length = input.size strict := by
  rw [inputLiquidBytes, LiquidInput.size]
  split_ifs <;> simp [DataStream.little, Nat.add_assoc]

theorem allFit_untrustedLiquidInput {script input sequence : Bytes}
    (hsequence : sequence.length = 4) :
    AllFit (untrustedLiquidInput script input sequence) ↔
      input.length ≤ 253 ∧ script.length ≤ 251 := by
  have hpos := DataStream.varintSize_pos (count32 script)
  simp only [untrustedLiquidInput, allFit_cons, allFit_nil, and_true, dataFits_apdu,
    DataStream.length_varint, DataStream.data_writeUInt8, DataStream.data_writeRawData,
    DataStream.little, DataStream.data_setByteOrder, List.length_append, List.length_cons,
    List.length_nil, hsequence]
  constructor
  · rintro ⟨hinput, hscript⟩
    exact ⟨by omega, by omega⟩
  · rintro ⟨hinput, hscript⟩
    rw [varintSize_count32 (by omega)]
    exact ⟨by omega, by omega⟩

theorem allFit_startUntrustedLiquid {version : UInt32} {new_transaction : Bool} {strict : Bool}
    {inputs : List LiquidInput} {redeem_script : Bytes} :
    AllFit (startUntrustedLiquid version new_transaction 0
        (inputs.map fun input => inputLiquidBytes input strict)
        (inputs.map fun input => sequenceBytes input.sequence) redeem_script) ↔
      (∀ input ∈ inputs, input.size strict ≤ 253) ∧
        (inputs ≠ [] → redeem_script.length ≤ 251) := by
  have hfirst : (DataStream.little.writeUInt32 version).data.length ≤ 250 := by
    simp [DataStream.little]
  have hzip : (inputs.map fun input => inputLiquidBytes input strict).zip
      (inputs.map fun input => sequenceBytes input.sequence) =
      inputs.map fun input => (inputLiquidBytes input strict, sequenceBytes input.sequence) := by
    rw [List.zip_map']
  have hone (i : ℕ) (input : LiquidInput) :
      AllFit (untrustedLiquidInput (if i = 0 then redeem_script else [])
        (inputLiquidBytes input strict) (sequenceBytes input.sequence)) ↔
        input.size strict ≤ 253 ∧ (i = 0 → redeem_script.length ≤ 251) := by
    rw [allFit_untrustedLiquidInput (length_sequenceBytes _), length_inputLiquidBytes]
    split_ifs with heq <;> simp [heq]
  rw [startUntrustedLiquid, hzip, allFit_append, allFit_mapIdx_map]
  simp only [hone, allFit_cons, allFit_nil, dataFits_varint hfirst, and_true,
    true_and]
  constructor
  · intro h
    constructor
    · intro input hmem
      obtain ⟨i, hi⟩ := List.mem_iff_getElem?.mp hmem
      exact (h i input hi).1
    · intro hne
      exact (h 0 _ (List.getElem?_eq_getElem (List.length_pos_iff.mpr hne))).2 rfl
  · rintro ⟨hsizes, hscript⟩ i input hi
    have hmem := List.mem_of_getElem? hi
    exact ⟨hsizes input hmem, fun _ => hscript (List.ne_nil_of_mem hmem)⟩

namespace LedgerSignLiquidTransactionActivity
variable {activity : LedgerSignLiquidTransactionActivity}
  {assetFinalVbf : List UInt64 → ℕ → Bytes → Bytes → Bytes32}

theorem length_bigIndex (output_index : ℕ) : (bigIndex output_index).length = 4 := rfl

theorem dataFits_bigIndex {cla ins p1 p2 : UInt8} (output_index : ℕ) :
    DataFits (apdu cla ins p1 p2 (bigIndex output_index)) := by
  rw [dataFits_apdu, length_bigIndex]
  decide

theorem dataFits_commitmentData {cla ins p1 p2 : UInt8} (output : LiquidOutput) (output_index : ℕ)
    {vbf : Bytes} (hvbf : vbf.length ≤ 32) :
    DataFits (apdu cla ins p1 p2 (commitmentData output output_index vbf)) := by
  have hlength : (commitmentData output output_index vbf).length = 32 + (8 + (4 + vbf.length)) := by
    simp [commitmentData, output.asset_id.2]
  rw [dataFits_apdu, hlength]
  omega

/-- How many responses it takes to have the commitments of some outputs. -/
def commitmentRequests (activity : LedgerSignLiquidTransactionActivity) (output_index : ℕ) :
    List LiquidOutput → ℕ
  | [] => 0
  | output :: rest =>
      (if output.blinding_key = none then 0
        else if output_index + 2 = activity.m_outputs.length then 2 else 1) +
      activity.commitmentRequests (output_index + 1) rest

theorem allFit_getLiquidCommitment {output_index : ℕ} {outputs : List LiquidOutput}
    {s : Commitments} {responses : List Bytes} :
    AllFit (activity.getLiquidCommitment assetFinalVbf output_index outputs s responses).1 := by
  induction outputs generalizing output_index s responses with
  | nil => exact allFit_nil
  | cons output rest ih =>
      rw [getLiquidCommitment]
      have hvbf (b : Bytes32) : DataFits (apdu BTCHIP_CLA BTCHIP_INS_GET_LIQUID_COMMITMENTS 0x02 0x00
          (commitmentData output output_index b.1)) :=
        dataFits_commitmentData output output_index (Nat.le_of_eq b.2)
      have hnone : DataFits (apdu BTCHIP_CLA BTCHIP_INS_GET_LIQUID_COMMITMENTS 0x01 0x00
          (commitmentData output output_index [])) :=
        dataFits_commitmentData output output_index (Nat.zero_le 32)
      split_ifs
      · exact ih
      · cases responses with
        | nil => simp [dataFits_bigIndex]
        | cons abf responses =>
            cases responses with
            | nil => simp [dataFits_bigIndex, hvbf]
            | cons commitment responses => simp [dataFits_bigIndex, hvbf, ih]
      · cases responses with
        | nil => simp [hnone]
        | cons response responses => simp [hnone, ih]

theorem isSome_getLiquidCommitment {output_index : ℕ} {outputs : List LiquidOutput}
    {s : Commitments} {responses : List Bytes} :
    (activity.getLiquidCommitment assetFinalVbf output_index outputs s responses).2.isSome ↔
      activity.commitmentRequests output_index outputs ≤ responses.length := by
  induction outputs generalizing output_index s responses with
  | nil => simp [getLiquidCommitment, commitmentRequests]
  | cons output rest ih =>
      rw [getLiquidCommitment, commitmentRequests]
      split_ifs
      · rw [ih, Nat.zero_add]
      · cases responses with
        | nil => simp
        | cons abf responses =>
            cases responses with
            | nil => simp; omega
            | cons commitment responses => simp [ih]; omega
      · cases responses with
        | nil => simp
        | cons response responses => simp [ih]; omega

theorem scriptPiece_le {script : Bytes} :
    (if script.length = 0 then (DataStream.little.varint 0).data
      else ((DataStream.little.varint (count32 script)).writeRawData script).data).length ≤ 255 ↔
      script.length ≤ 252 := by
  by_cases hshort : script.length ≤ 252
  · refine iff_of_true ?_ hshort
    split_ifs with hempty
    · rw [DataStream.length_varint]
      decide
    · rw [DataStream.data_writeRawData, List.length_append, DataStream.length_varint,
        varintSize_count32 hshort]
      simp only [DataStream.little, DataStream.data_setByteOrder, List.length_nil]
      omega
  · refine iff_of_false ?_ hshort
    have hsize : script.length = 253 ∨ script.length = 254 →
        DataStream.varintSize (count32 script) = 3 := by
      rintro (h | h) <;> rw [count32, h] <;> rfl
    have hpos := DataStream.varintSize_pos (count32 script)
    rw [if_neg (by omega), DataStream.data_writeRawData, List.length_append,
      DataStream.length_varint]
    simp only [DataStream.little, DataStream.data_setByteOrder, List.length_nil]
    omega

theorem forall_outputPieces {output : LiquidOutput} {commitment : Bytes} :
    (∀ piece ∈ outputPieces output commitment, piece.length ≤ 255) ↔
      (∀ blinding_key ∈ output.blinding_key,
        output.eph_public_key.length ≤ 255 ∧ blinding_key.length ≤ 255) ∧
      output.scriptpubkey.length ≤ 252 := by
  rw [outputPieces, List.forall_mem_append, List.forall_mem_singleton, scriptPiece_le]
  apply and_congr_left'
  cases output.blinding_key with
  | none => simp [output.asset_id.2]
  | some blinding_key =>
      have hpiece : ((commitment.drop 64).take 143).length ≤ 255 :=
        Nat.le_trans (List.length_take_le _ _) (by decide)
      simp only [List.forall_mem_cons, hpiece, true_and, List.not_mem_nil, false_imp_iff,
        implies_true, and_true, Option.mem_def, Option.some.injEq, forall_eq']

theorem forall_outputLiquidBytes {m_commitments : List Bytes} :
    (∀ piece ∈ activity.outputLiquidBytes m_commitments, piece.length ≤ 255) ↔
      ∀ output ∈ activity.m_outputs, (∀ blinding_key ∈ output.blinding_key,
          output.eph_public_key.length ≤ 255 ∧ blinding_key.length ≤ 255) ∧
        output.scriptpubkey.length ≤ 252 := by
  have hcount : (DataStream.little.varint (count32 activity.m_outputs)).data.length ≤ 255 := by
    have hsize := DataStream.varintSize_le (count32 activity.m_outputs)
    rw [DataStream.length_varint, DataStream.little, DataStream.data_setByteOrder,
      List.length_nil]
    omega
  rw [outputLiquidBytes, List.forall_mem_append, List.forall_mem_singleton,
    forall_mem_mapIdx_flatten, and_iff_right hcount]
  simp only [forall_outputPieces]
  constructor
  · intro h output houtput
    obtain ⟨i, hi⟩ := List.mem_iff_getElem?.mp houtput
    exact h i output hi
  · intro h i output hi
    exact h output (List.mem_of_getElem? hi)

theorem dataFits_untrustedLiquidHashSign {input : LiquidInput} (hpath : input.user_path.length ≤ 10) :
    DataFits (activity.untrustedLiquidHashSign input) := by
  have hlength := length_pathToData input.user_path
  rw [untrustedLiquidHashSign, dataFits_apdu]
  simp only [DataStream.data_writeUInt8, DataStream.data_writeUInt32, DataStream.data_writeRawData,
    DataStream.data_setByteOrder, List.length_append, List.length_cons, List.length_nil,
    ByteOrder.length_bytes]
  omega

/-- The outputs, the issuance information and the scripts, when all commitments are there. -/
structure FitsFinal (activity : LedgerSignLiquidTransactionActivity) : Prop where
  keys : ∀ output ∈ activity.m_outputs, ∀ blinding_key ∈ output.blinding_key,
    output.eph_public_key.length ≤ 255 ∧ blinding_key.length ≤ 255
  scripts : ∀ output ∈ activity.m_outputs, output.scriptpubkey.length ≤ 252
  issuance : activity.m_inputs.length ≤ 255
  signed : ∀ input ∈ activity.m_inputs, input.prevout_script.length ≤ 251

theorem allFit_finalizeLiquidInputFull {m_commitments : List Bytes}
    (hpaths : ∀ input ∈ activity.m_inputs, input.user_path.length ≤ 10)
    (hsizes : ∀ input ∈ activity.m_inputs, input.size true ≤ 253) :
    AllFit (activity.finalizeLiquidInputFull m_commitments) ↔ activity.FitsFinal := by
  have hpieces : AllFit ((activity.outputLiquidBytes m_commitments).mapIdx fun i data =>
      apdu BTCHIP_CLA BTCHIP_INS_HASH_INPUT_FINALIZE_FULL
        (if i = (activity.outputLiquidBytes m_commitments).length - 1 then 0x80 else 0x00) 0x00
        data) ↔
      ∀ piece ∈ activity.outputLiquidBytes m_commitments, piece.length ≤ 255 := by
    simp only [allFit_mapIdx, dataFits_apdu, List.mem_iff_getElem?]
    exact ⟨fun h piece ⟨i, hi⟩ => h i piece hi, fun h i piece hi => h piece ⟨i, hi⟩⟩
  have hinput (input : LiquidInput) (hmem : input ∈ activity.m_inputs) :
      AllFit (startUntrustedLiquid activity.m_version false 0 [inputLiquidBytes input true]
          [sequenceBytes input.sequence] input.prevout_script) ∧
        DataFits (activity.untrustedLiquidHashSign input) ↔ input.prevout_script.length ≤ 251 := by
    have hstart : AllFit (startUntrustedLiquid activity.m_version false 0
        ([input].map fun input => inputLiquidBytes input true)
        ([input].map fun input => sequenceBytes input.sequence) input.prevout_script) ↔ _ :=
      allFit_startUntrustedLiquid
    rw [List.map_singleton, List.map_singleton] at hstart
    simp [hstart, dataFits_untrustedLiquidHashSign (hpaths input hmem), hsizes input hmem]
  simp only [finalizeLiquidInputFull, allFit_append, hpieces, forall_outputLiquidBytes,
    allFit_cons, allFit_nil, and_true, dataFits_apdu, List.length_replicate, allFit_flatMap]
  constructor
  · rintro ⟨⟨houtputs, hissuance⟩, hsigned⟩
    exact ⟨fun output h => (houtputs output h).1, fun output h => (houtputs output h).2, hissuance,
      fun input h => (hinput input h).mp (hsigned input h)⟩
  · rintro ⟨hkeys, hscripts, hissuance, hsigned⟩
    exact ⟨⟨fun output h => ⟨hkeys output h, hscripts output h⟩, hissuance⟩,
      fun input h => (hinput input h).mpr (hsigned input h)⟩

/-- What is shown of the inputs, and in the end of the outputs, is short enough. -/
structure Fits (activity : LedgerSignLiquidTransactionActivity) (responses : List Bytes) : Prop where
  inputs : ∀ input ∈ activity.m_inputs, input.size true ≤ 253
  first : ∀ input ∈ activity.m_inputs.head?, input.prevout_script.length ≤ 251
  final : activity.commitmentRequests 0 activity.m_outputs ≤ responses.length → activity.FitsFinal

theorem allFit_commands {responses : List Bytes}
    (hpaths : ∀ input ∈ activity.m_inputs, input.user_path.length ≤ 10) :
    AllFit (activity.commands assetFinalVbf responses) ↔ activity.Fits responses := by
  have hstart : AllFit (startUntrustedLiquid activity.m_version true 0 activity.hwInputs
      activity.hwSequences
      (((activity.m_inputs.head?).map LiquidInput.prevout_script).getD [])) ↔
      (∀ input ∈ activity.m_inputs, input.size true ≤ 253) ∧
        ∀ input ∈ activity.m_inputs.head?, input.prevout_script.length ≤ 251 := by
    rw [hwInputs, hwSequences, allFit_startUntrustedLiquid]
    cases activity.m_inputs <;> simp
  have hasked {s : Commitments} : AllFit (activity.getLiquidCommitment assetFinalVbf 0
      activity.m_outputs s responses).1 := allFit_getLiquidCommitment
  have hfinal {s : Commitments} : (activity.getLiquidCommitment assetFinalVbf 0
      activity.m_outputs s responses).2.isSome ↔
        activity.commitmentRequests 0 activity.m_outputs ≤ responses.length :=
    isSome_getLiquidCommitment
  simp only [commands, allFit_append, hstart, hasked, and_true]
  constructor
  · rintro ⟨⟨hsizes, hfirst⟩, hrest⟩
    refine ⟨hsizes, hfirst, fun hresponses => ?_⟩
    obtain ⟨s, hs⟩ := Option.isSome_iff_exists.mp (hfinal.mpr hresponses)
    rw [hs] at hrest
    exact (allFit_finalizeLiquidInputFull hpaths hsizes).mp hrest
  · rintro ⟨hsizes, hfirst, hrest⟩
    refine ⟨⟨hsizes, hfirst⟩, ?_⟩
    split
    · exact allFit_nil
    · next s hs =>
        apply (allFit_finalizeLiquidInputFull hpaths hsizes).mpr
        apply hrest
        rw [← hfinal, hs]
        rfl

end LedgerSignLiquidTransactionActivity

theorem allFit_blindingStart {inputs : List LiquidInput} :
    AllFit (blindingStart inputs) ↔ ∀ input ∈ inputs, input.size false ≤ 253 := by
  rw [blindingStart, allFit_startUntrustedLiquid, and_iff_left]
  exact fun _ => Nat.zero_le 251

theorem allFit_blindingRequests (outputs : List LiquidOutput) :
    AllFit ((blindingRequests outputs).map fun request =>
      getBlindingFactor request.1 request.2) := by
  intro command hcommand
  obtain ⟨request, -, rfl⟩ := List.mem_map.mp hcommand
  exact LedgerSignLiquidTransactionActivity.dataFits_bigIndex request.1

theorem allFit_signMessage {message : Message} {path : List UInt32} {answered : Bool} :
    AllFit (signMessage message path answered) ↔ 4 * path.length + message.size ≤ 252 := by
  have hsize : min message.size message.local8Bit.length = message.size :=
    Nat.min_eq_left message.size_le
  have hsecond : AllFit (if answered then
      [apdu BTCHIP_CLA BTCHIP_INS_SIGN_MESSAGE 0x80 0x01
        ((DataStream.writeUInt8 {} 1).writeUInt8 0).data] else []) := by
    split_ifs <;> simp [dataFits_apdu]
  rw [signMessage, allFit_cons, and_iff_left hsecond, dataFits_apdu]
  simp only [DataStream.data_writeUInt8, DataStream.data_writeRawData, List.length_append,
    DataStream.length_foldl_writeUInt32, List.length_take, hsize, List.length_cons, List.length_nil]
  omega

/-! ## Signing sessions -/

/-- What is signed, and how far the device has answered. -/
inductive SigningSession where
  | transaction (activity : LedgerSignTransactionActivity) (answered : activity.Answered)
  | liquid (activity : LedgerSignLiquidTransactionActivity) (responses : List Bytes)
  | blindingFactors (inputs : List LiquidInput) (outputs : List LiquidOutput)
  | message (text : Message) (path : List UInt32) (answered : Bool)

namespace SigningSession
variable (fromBytes : Bytes → WallyTx)
  (assetFinalVbf : List UInt64 → ℕ → Bytes → Bytes → Bytes32)

/-- The commands that have been made. -/
def commands : SigningSession → List Bytes
  | transaction activity answered => activity.commands fromBytes answered
  | liquid activity responses => activity.commands assetFinalVbf responses
  | blindingFactors inputs outputs =>
      blindingStart inputs ++
      (blindingRequests outputs).map fun request => getBlindingFactor request.1 request.2
  | message text path answered => signMessage text path answered

def paths : SigningSession → List (List UInt32)
  | transaction activity _ => activity.m_signing_inputs.map SigningInput.user_path
  | liquid activity _ => activity.m_inputs.map LiquidInput.user_path
  | blindingFactors _ _ => []
  | message _ path _ => [path]

/-- The scripts, keys and messages that go out whole are short enough. -/
def Fits : SigningSession → Prop
  | transaction activity answered => activity.Fits fromBytes answered
  | liquid activity responses => activity.Fits responses
  | blindingFactors inputs _ => ∀ input ∈ inputs, input.size false ≤ 253
  | message text path _ => 4 * path.length + text.size ≤ 252

/-- With paths as the signing flows accept them. -/
theorem commandsFit_iff {session : SigningSession}
    (hpaths : ∀ path ∈ session.paths, path.length ≤ 10) :
    (∀ command ∈ session.commands fromBytes assetFinalVbf, DataFits command) ↔
      session.Fits fromBytes := by
  cases session with
  | transaction activity answered =>
      exact LedgerSignTransactionActivity.allFit_commands (List.forall_mem_map.mp hpaths)
  | liquid activity responses =>
      exact LedgerSignLiquidTransactionActivity.allFit_commands (List.forall_mem_map.mp hpaths)
  | blindingFactors inputs outputs =>
      exact (allFit_append.trans (and_iff_left (allFit_blindingRequests outputs))).trans
        allFit_blindingStart
  | message text path answered => exact allFit_signMessage

/-- An input of a transaction with one input, whose script is as long. -/
def previousWith (length : ℕ) : WallyTx where
  version := 2
  inputs := [⟨⟨List.replicate 32 0, List.length_replicate⟩, 0, List.replicate length 0, 0⟩]
  outputs := []
  locktime := 0

def oneInput : LedgerSignTransactionActivity where
  m_version := 2
  m_locktime := 0
  m_signing_inputs := [⟨"p2wsh", "", 0, 0, [], [0, 0]⟩]
  m_transaction_outputs := []
  m_signing_transactions := fun _ => []

def unanswered : oneInput.Answered where
  segwit := none
  legacy := none
  segwit_length := fun values h => absurd h (Option.not_mem_none values)
  legacy_length := fun values h => absurd h (Option.not_mem_none values)

/-- One input is signed, and nothing has been answered. -/
def signingOne : SigningSession := .transaction oneInput unanswered

theorem commandsFit_iff_short :
    (∀ command ∈ signingOne.commands (fun _ => previousWith 23) (fun _ _ _ _ =>
        ⟨List.replicate 32 0, List.length_replicate⟩), DataFits command) ↔
      signingOne.Fits fun _ => previousWith 23 :=
  commandsFit_iff _ _ (by decide)

/-- The script of an input that redeems from several keys has more than 251 bytes. -/
theorem not_commandsFit_long :
    ¬ ∀ command ∈ signingOne.commands (fun _ => previousWith 252) (fun _ _ _ _ =>
        ⟨List.replicate 32 0, List.length_replicate⟩), DataFits command := by
  intro h
  have hall : AllFit (oneInput.commands (fun _ => previousWith 252) unanswered) := h
  have hfits := (LedgerSignTransactionActivity.allFit_commands (by decide)).mp hall
  have hscript := (hfits.previous _ (List.mem_singleton_self _)).inputs _
    (List.mem_singleton_self _)
  rw [List.length_replicate] at hscript
  exact absurd hscript (by decide)

end SigningSession
end GreenWallet.Ledger
