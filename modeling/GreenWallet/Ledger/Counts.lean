import GreenWallet.Ledger.SignLiquid

/-!
# Counts in what is sent to the device

Every place that writes a count has a stream of its own, with a byte order of its own: two of
them write with the byte order a stream has in the beginning.
-/
namespace GreenWallet.Ledger
open GreenWallet.Library

/-- The places, with what has been written before the count. -/
inductive CountPlace where
  /-- The inputs of a previous transaction. -/
  | previousInputs (index version : UInt32)
  | previousInputScript (txhash : Bytes32) (index : UInt32)
  | previousOutputs
  | previousOutputScript (satoshi : UInt64)
  /-- The inputs of the transaction to be signed. -/
  | inputs (version : UInt32)
  | inputScript (input : Input)
  | outputs
  | outputScript (written : Bytes) (satoshi : UInt64)
  | liquidInputs (version : UInt32)
  | liquidInputScript (input : Bytes)
  | liquidOutputs
  | liquidOutputScript

inductive Encoder where
  | varInt
  | varint
deriving DecidableEq

namespace CountPlace

/-- The stream as it comes to the count. -/
def stream : CountPlace → DataStream
  | previousInputs index version =>
      (((DataStream.setByteOrder {} .BigEndian).writeUInt32 index).setByteOrder
        .LittleEndian).writeUInt32 version
  | previousInputScript txhash index =>
      (DataStream.little.writeRawData txhash.1).writeUInt32 index
  | previousOutputs => {}
  | previousOutputScript satoshi => DataStream.little.writeUInt64 satoshi
  | inputs version => DataStream.little.writeUInt32 version
  | inputScript input =>
      let stream := DataStream.writeUInt8 {}
        (if input.trusted then 0x01 else if input.segwit then 0x02 else 0x00)
      let stream :=
        if input.trusted then stream.writeUInt8 (.ofNat (input.value.length % 256)) else stream
      stream.writeRawData input.value
  | outputs => DataStream.little
  | outputScript written satoshi =>
      (DataStream.little.writeRawData written).writeUInt64 satoshi
  | liquidInputs version => DataStream.little.writeUInt32 version
  | liquidInputScript input => (DataStream.little.writeUInt8 0x03).writeRawData input
  | liquidOutputs => DataStream.little
  | liquidOutputScript => DataStream.little

def encoder : CountPlace → Encoder
  | outputs => .varInt
  | outputScript _ _ => .varInt
  | _ => .varint

/-- The stream with the count. -/
def write (place : CountPlace) (n : ℕ) : DataStream :=
  match place.encoder with
  | .varInt => place.stream.varInt n
  | .varint => place.stream.varint (.ofNat n)

/-- What is written for the count. -/
def written (place : CountPlace) (n : ℕ) : Bytes :=
  (place.write n).data.drop place.stream.data.length

/-- A place that leaves the stream as it is made. -/
def isUnordered : CountPlace → Bool
  | previousOutputs => true
  | inputScript _ => true
  | _ => false

/-- `varInt` takes the counts that are an `int`; `varint` all but the last one of three bytes;
where no byte order is set, a count of five bytes has to read the same in both directions. -/
def Encodes (place : CountPlace) (n : ℕ) : Prop :=
  match place.encoder with
  | .varInt => n < 2147483648
  | .varint =>
      n ≠ 65535 ∧ (place.isUnordered = true → 65536 ≤ n →
        n / 16777216 % 256 = n % 256 ∧ n / 65536 % 256 = n / 256 % 256)

theorem write_varInt {place : CountPlace} {n : ℕ} (hplace : place.encoder = .varInt) :
    place.write n = place.stream.varInt n := by
  rw [write, hplace]

theorem write_varint {place : CountPlace} {n : ℕ} (hplace : place.encoder = .varint) :
    place.write n = place.stream.varint (.ofNat n) := by
  rw [write, hplace]

/-! ## The places are those of the commands -/

theorem getTrustedInput_eq (tx : WallyTx) (index : UInt32) :
    getTrustedInput tx index =
      [apdu BTCHIP_CLA BTCHIP_INS_GET_TRUSTED_INPUT 0x00 0x00
        ((previousInputs index tx.version).write tx.inputs.length).data] ++
      tx.inputs.flatMap (fun input =>
        [apdu BTCHIP_CLA BTCHIP_INS_GET_TRUSTED_INPUT 0x80 0x00
          ((previousInputScript input.txhash input.index).write input.script.length).data,
        apdu BTCHIP_CLA BTCHIP_INS_GET_TRUSTED_INPUT 0x80 0x00
          (input.script ++ sequenceBytes input.sequence)]) ++
      [apdu BTCHIP_CLA BTCHIP_INS_GET_TRUSTED_INPUT 0x80 0x00
        (previousOutputs.write tx.outputs.length).data] ++
      tx.outputs.flatMap (fun output =>
        [apdu BTCHIP_CLA BTCHIP_INS_GET_TRUSTED_INPUT 0x80 0x00
          ((previousOutputScript output.satoshi).write output.script.length).data,
        apdu BTCHIP_CLA BTCHIP_INS_GET_TRUSTED_INPUT 0x80 0x00 output.script]) ++
      [apdu BTCHIP_CLA BTCHIP_INS_GET_TRUSTED_INPUT 0x80 0x00
        (DataStream.little.writeUInt32 tx.locktime).data] := rfl

theorem startUntrustedTransaction_eq (version : UInt32) (new_transaction : Bool) (index : ℕ)
    (used_inputs : List Input) (redeem_script : Bytes) (segwit : Bool) :
    startUntrustedTransaction version new_transaction index used_inputs redeem_script segwit =
      [apdu BTCHIP_CLA BTCHIP_INS_HASH_INPUT_START 0x00
        (if new_transaction then (if segwit then 0x02 else 0x00) else 0x80)
        ((inputs version).write used_inputs.length).data] ++
      (used_inputs.mapIdx fun i input =>
        let script := if i = index then redeem_script else []
        [apdu BTCHIP_CLA BTCHIP_INS_HASH_INPUT_START 0x80 0x00
          ((inputScript input).write script.length).data,
        apdu BTCHIP_CLA BTCHIP_INS_HASH_INPUT_START 0x80 0x00 (script ++ input.sequence)]).flatten :=
  rfl

theorem startUntrustedLiquid_eq (version : UInt32) (new_transaction : Bool) (input_index : ℕ)
    (hw_inputs sequences : List Bytes) (redeem_script : Bytes) :
    startUntrustedLiquid version new_transaction input_index hw_inputs sequences redeem_script =
      [apdu BTCHIP_CLA BTCHIP_INS_HASH_INPUT_START 0x00 (if new_transaction then 0x06 else 0x80)
        ((liquidInputs version).write hw_inputs.length).data] ++
      ((hw_inputs.zip sequences).mapIdx fun i (input, sequence) =>
        let script := if i = input_index then redeem_script else []
        [apdu BTCHIP_CLA BTCHIP_INS_HASH_INPUT_START 0x80 0x00
          ((liquidInputScript input).write script.length).data,
        apdu BTCHIP_CLA BTCHIP_INS_HASH_INPUT_START 0x80 0x00 (script ++ sequence)]).flatten := rfl

theorem outputLiquidBytes_eq (activity : LedgerSignLiquidTransactionActivity)
    (m_commitments : List Bytes) :
    activity.outputLiquidBytes m_commitments =
      [(liquidOutputs.write activity.m_outputs.length).data] ++
      (activity.m_outputs.mapIdx fun i output =>
        LedgerSignLiquidTransactionActivity.outputPieces output
          (m_commitments.getD i [])).flatten := rfl

theorem getLast?_outputPieces (output : LiquidOutput) (commitment : Bytes) :
    (LedgerSignLiquidTransactionActivity.outputPieces output commitment).getLast? =
      some ((liquidOutputScript.write output.scriptpubkey.length).data ++ output.scriptpubkey) := by
  have hwrite : (liquidOutputScript.write output.scriptpubkey.length).data =
      (DataStream.little.varint (count32 output.scriptpubkey)).data := rfl
  rw [LedgerSignLiquidTransactionActivity.outputPieces, List.getLast?_append,
    List.getLast?_singleton, Option.some_or, hwrite]
  by_cases hempty : output.scriptpubkey.length = 0
  · rw [if_pos hempty, List.length_eq_zero_iff.mp hempty, List.append_nil]
    rfl
  · rw [if_neg hempty, DataStream.data_writeRawData]

/-- One round of `outputBytes`, behind what has been written. -/
def outputRound (written : Bytes) (out : TransactionOutput) : Bytes :=
  ((outputScript written out.satoshi).write out.scriptpubkey.length).data ++ out.scriptpubkey

theorem byteOrder_varInt (stream : DataStream) (i : Int) :
    (stream.varInt i).byteOrder = stream.byteOrder := by
  rw [DataStream.varInt]
  split <;> rfl

theorem outputBytes_eq (activity : LedgerSignTransactionActivity) :
    activity.outputBytes =
      activity.m_transaction_outputs.foldl outputRound
        (outputs.write activity.m_transaction_outputs.length).data := by
  have hround : ∀ (outs : List TransactionOutput) (stream : DataStream),
      stream.byteOrder = .LittleEndian →
      (outs.foldl (fun stream out =>
        ((stream.writeUInt64 out.satoshi).varInt out.scriptpubkey.length).writeRawData
          out.scriptpubkey) stream).data = outs.foldl outputRound stream.data := by
    intro outs
    induction outs with
    | nil =>
        intro stream _
        rfl
    | cons out outs ih =>
        intro stream hstream
        obtain ⟨byteOrder, written⟩ := stream
        cases hstream
        have hplace : (outputScript written out.satoshi).stream =
            DataStream.writeUInt64 ⟨.LittleEndian, written⟩ out.satoshi := rfl
        rw [List.foldl_cons, List.foldl_cons, ih, outputRound, write_varInt rfl, hplace,
          DataStream.data_writeRawData]
        rw [DataStream.byteOrder_writeRawData, byteOrder_varInt]
        rfl
  apply hround
  rw [byteOrder_varInt]
  rfl

/-! ## What they write -/

theorem written_varInt {place : CountPlace} {n : ℕ} (hplace : place.encoder = .varInt)
    (hn : n < 4294967296) :
    place.written n =
      if n < 253 then [UInt8.ofNat (n % 256)]
      else if n < 65536 then 253 :: littleEndian 2 n
      else if n < 2147483648 then 254 :: place.stream.byteOrder.bytes 4 n
      else 255 :: place.stream.byteOrder.bytes 8 n := by
  rw [written, write_varInt hplace, DataStream.data_varInt hn, List.drop_left]

theorem written_varint {place : CountPlace} {n : ℕ} (hplace : place.encoder = .varint)
    (hn : n < 4294967296) :
    place.written n =
      if n < 253 then [UInt8.ofNat (n % 256)]
      else if n < 65535 then 253 :: littleEndian 2 n
      else 254 :: place.stream.byteOrder.bytes 4 n := by
  have hvalue : (UInt32.ofNat n).toNat = n := Nat.mod_eq_of_lt hn
  rw [written, write_varint hplace, DataStream.data_varint, List.drop_left, hvalue]

theorem byteOrder_stream (place : CountPlace) :
    place.stream.byteOrder = if place.isUnordered then .BigEndian else .LittleEndian := by
  cases place with
  | inputScript input =>
      simp only [stream, isUnordered]
      split_ifs <;> rfl
  | _ => rfl

theorem encoder_of_isUnordered {place : CountPlace} (h : place.isUnordered = true) :
    place.encoder = .varint := by
  cases place <;> first | rfl | cases h

theorem ofNat_mod_of_lt {n : ℕ} (hn : n < 253) : [UInt8.ofNat (n % 256)] = [UInt8.ofNat n] := by
  rw [Nat.mod_eq_of_lt (Nat.lt_trans hn (by decide))]

theorem varInt_eq_iff {place : CountPlace} {n : ℕ} (hplace : place.encoder = .varInt)
    (hn : n < 4294967296) : place.written n = compactSize n ↔ n < 2147483648 := by
  have horder : place.stream.byteOrder = .LittleEndian := by
    rw [byteOrder_stream, if_neg]
    intro hunordered
    rw [encoder_of_isUnordered hunordered] at hplace
    cases hplace
  rw [written_varInt hplace hn, compactSize, horder, ByteOrder.bytes]
  split_ifs with hone hthree hint
  · exact iff_of_true (ofNat_mod_of_lt hone) (by omega)
  · exact iff_of_true rfl (by omega)
  · exact iff_of_true rfl hint
  · exact iff_of_false (by simp) hint

theorem varint_eq_iff {place : CountPlace} {n : ℕ} (hplace : place.encoder = .varint)
    (hn : n < 4294967296) : place.written n = compactSize n ↔
      n ≠ 65535 ∧ (place.isUnordered = true → 65536 ≤ n →
        n / 16777216 % 256 = n % 256 ∧ n / 65536 % 256 = n / 256 % 256) := by
  rw [written_varint hplace hn, byteOrder_stream]
  by_cases hone : n < 253
  · rw [if_pos hone, compactSize_of_lt hone]
    exact iff_of_true (ofNat_mod_of_lt hone) (by omega)
  · rw [if_neg hone]
    have hge : 253 ≤ n := Nat.not_lt.mp hone
    by_cases hthree : n < 65535
    · rw [if_pos hthree, compactSize_three hge (by omega)]
      exact iff_of_true rfl (by omega)
    · rw [if_neg hthree]
      by_cases hlast : n = 65535
      · rw [compactSize_three hge (by omega)]
        exact iff_of_false (by simp) (by simp [hlast])
      · have hfive : 65536 ≤ n := by omega
        rw [compactSize_five hfive hn, List.cons.injEq, ← reverse_littleEndian_four]
        cases place.isUnordered with
        | false => exact iff_of_true (by simp [ByteOrder.bytes]) (by simp [hlast])
        | true => simp [ByteOrder.bytes, hlast, hfive]

/-- A count is written as it should be exactly where the place can. -/
theorem written_eq_iff (place : CountPlace) {n : ℕ} (hn : n < 4294967296) :
    place.written n = compactSize n ↔ place.Encodes n := by
  rw [Encodes]
  cases hplace : place.encoder with
  | varInt => exact varInt_eq_iff hplace hn
  | varint => exact varint_eq_iff hplace hn

/-- All places write a count alike. -/
theorem written_alike_iff {n : ℕ} (hn : n < 4294967296) :
    (∀ place other : CountPlace, place.written n = other.written n) ↔
      ∀ place : CountPlace, place.Encodes n := by
  constructor
  · intro halike
    have hvarInt : (outputs.written n) = compactSize n ∨ 2147483648 ≤ n := by
      by_cases hint : n < 2147483648
      · exact .inl ((varInt_eq_iff rfl hn).mpr hint)
      · exact .inr (Nat.not_lt.mp hint)
    intro place
    rw [← written_eq_iff place hn]
    rcases hvarInt with hright | hlarge
    · rw [← hright]
      exact halike place outputs
    · have hlittle : liquidOutputs.written n = compactSize n :=
        (varint_eq_iff rfl hn).mpr ⟨by omega, fun hunordered => by cases hunordered⟩
      rw [← hlittle]
      exact halike place liquidOutputs
  · intro hencodes place other
    rw [(written_eq_iff place hn).mpr (hencodes place), (written_eq_iff other hn).mpr (hencodes other)]

/-- A place writes the count it should exactly where it can, and all places write a count
alike exactly if all of them can. -/
theorem writesCompactSize_iff {n : ℕ} (hn : n < 4294967296) :
    (∀ place : CountPlace, place.written n = compactSize n ↔ place.Encodes n) ∧
      ((∀ place other : CountPlace, place.written n = other.written n) ↔
        ∀ place : CountPlace, place.Encodes n) :=
  ⟨fun place => written_eq_iff place hn, written_alike_iff hn⟩

theorem writesCompactSize_iff_large :
    (∀ place : CountPlace, place.written 70000 = compactSize 70000 ↔ place.Encodes 70000) ∧
      ((∀ place other : CountPlace, place.written 70000 = other.written 70000) ↔
        ∀ place : CountPlace, place.Encodes 70000) :=
  writesCompactSize_iff (by decide)

/-- 65535 outputs, or more where no byte order is set, and more than an `int` has room for. -/
theorem not_writesCompactSize :
    liquidOutputs.written 65535 ≠ compactSize 65535 ∧
      previousOutputs.written 65536 ≠ compactSize 65536 ∧
      outputs.written 2147483648 ≠ compactSize 2147483648 ∧
      outputs.written 65535 ≠ previousOutputs.written 65535 := by
  decide

end CountPlace
end GreenWallet.Ledger
