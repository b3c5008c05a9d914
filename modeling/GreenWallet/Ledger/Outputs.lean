import GreenWallet.Ledger.Counts

/-!
# The outputs on their way to the device

The outputs are written behind each other and cut into blocks. The offset of the next block is
an `int`, although the size of the data is not.
-/
namespace GreenWallet.Ledger
open GreenWallet.Library

def INT_MAX : ℕ := 2147483647

/-- The size of the block at an offset. -/
def blockLength (data : Bytes) (offset : ℕ) : ℕ :=
  if data.length - offset > 255 then 255 else data.length - offset

theorem blockLength_pos {data : Bytes} {offset : ℕ} (h : offset < data.length) :
    0 < blockLength data offset := by
  rw [blockLength]
  split_ifs <;> omega

theorem blockLength_le (data : Bytes) (offset : ℕ) :
    blockLength data offset ≤ 255 ∧ blockLength data offset ≤ data.length - offset := by
  rw [blockLength]
  split_ifs <;> omega

/-- The loop of `finalizeInputFull` with its `int`. There is nothing defined past the largest. -/
def finalizeLoopInt (data : Bytes) (offset : ℕ) (datas : List Bytes) : Option (List Bytes) :=
  if offset < data.length then
    if offset + blockLength data offset ≤ INT_MAX then
      finalizeLoopInt data (offset + blockLength data offset)
        (datas ++ [(data.drop offset).take (blockLength data offset)])
    else none
  else some datas
termination_by data.length - offset
decreasing_by
  rename_i h _
  have hpos := blockLength_pos h
  omega

def finalizeInputFullInt (data : Bytes) : Option (List Bytes) :=
  (finalizeLoopInt data 0 [[0]]).map fun datas =>
    datas.mapIdx fun i data =>
      apdu BTCHIP_CLA BTCHIP_INS_HASH_INPUT_FINALIZE_FULL
        (if i = 0 then 0xff else if i = datas.length - 1 then 0x80 else 0x00) 0x00 data

theorem finalizeLoop_of_lt {data : Bytes} {offset : ℕ} (h : offset < data.length)
    (datas : List Bytes) : finalizeLoop data offset datas =
      finalizeLoop data (offset + blockLength data offset)
        (datas ++ [(data.drop offset).take (blockLength data offset)]) := by
  rw [finalizeLoop, if_pos h]
  rfl

theorem finalizeLoop_of_ge {data : Bytes} {offset : ℕ} (h : ¬ offset < data.length)
    (datas : List Bytes) : finalizeLoop data offset datas = datas := by
  rw [finalizeLoop, if_neg h]

theorem finalizeLoopInt_eq {data : Bytes} (hdata : data.length ≤ INT_MAX) (offset : ℕ)
    (datas : List Bytes) :
    finalizeLoopInt data offset datas = some (finalizeLoop data offset datas) := by
  induction offset, datas using finalizeLoopInt.induct data with
  | case1 offset datas hlt hblock ih =>
      rw [finalizeLoopInt, if_pos hlt, if_pos hblock, ih, ← finalizeLoop_of_lt hlt]
  | case2 offset datas hlt hblock =>
      have hle := (blockLength_le data offset).2
      omega
  | case3 offset datas hlt => rw [finalizeLoopInt, if_neg hlt, finalizeLoop_of_ge hlt]

theorem finalizeLoopInt_eq_none {data : Bytes} (hdata : INT_MAX < data.length) {offset : ℕ}
    (hoffset : offset ≤ INT_MAX) (datas : List Bytes) : finalizeLoopInt data offset datas = none := by
  induction offset, datas using finalizeLoopInt.induct data with
  | case1 offset datas hlt hblock ih =>
      rw [finalizeLoopInt, if_pos hlt, if_pos hblock]
      exact ih hblock
  | case2 offset datas hlt hblock => rw [finalizeLoopInt, if_pos hlt, if_neg hblock]
  | case3 offset datas hlt => omega

theorem finalizeInputFullInt_eq {data : Bytes} (hdata : data.length ≤ INT_MAX) :
    finalizeInputFullInt data = some (finalizeInputFull data) := by
  rw [finalizeInputFullInt, finalizeLoopInt_eq hdata]
  rfl

theorem finalizeInputFullInt_eq_none {data : Bytes} (hdata : INT_MAX < data.length) :
    finalizeInputFullInt data = none := by
  rw [finalizeInputFullInt, finalizeLoopInt_eq_none hdata (Nat.zero_le _)]
  rfl

/-! ## The blocks -/

/-- What the loop adds is the rest of the data, in blocks that are not empty. -/
theorem finalizeLoop_blocks (data : Bytes) (offset : ℕ) (datas : List Bytes) :
    ∃ blocks, finalizeLoop data offset datas = datas ++ blocks ∧
      blocks.flatten = data.drop offset ∧ ∀ block ∈ blocks, block ≠ [] ∧ block.length ≤ 255 := by
  induction offset, datas using finalizeLoop.induct data with
  | case1 offset datas hlt _ ih =>
      obtain ⟨blocks, hblocks, hflatten, hshort⟩ := ih
      have hpos := blockLength_pos hlt
      have hle := blockLength_le data offset
      refine ⟨(data.drop offset).take (blockLength data offset) :: blocks, ?_, ?_, ?_⟩
      · rw [finalizeLoop_of_lt hlt]
        exact hblocks.trans (List.append_assoc _ _ _)
      · rw [List.flatten_cons, hflatten]
        show (data.drop offset).take (blockLength data offset) ++
          data.drop (offset + blockLength data offset) = data.drop offset
        rw [← List.drop_drop]
        exact List.take_append_drop _ _
      · intro block hblock
        rcases List.mem_cons.mp hblock with rfl | hblock
        · constructor
          · intro hempty
            have hlength := congrArg List.length hempty
            rw [List.length_take, List.length_drop, List.length_nil] at hlength
            omega
          · rw [List.length_take]
            omega
        · exact hshort block hblock
  | case2 offset datas hlt =>
      refine ⟨[], ?_, ?_, fun block hblock => absurd hblock List.not_mem_nil⟩
      · rw [finalizeLoop_of_ge hlt, List.append_nil]
      · rw [List.flatten_nil, List.drop_eq_nil_of_le (Nat.not_lt.mp hlt)]

/-- What a command carries. -/
def commandData (command : Bytes) : Bytes := command.drop 5

/-- The first parameter of a command. -/
def commandP1 (command : Bytes) : Option UInt8 := command[2]?

/-- The commands carry the data, whole and in its order. -/
structure Carries (data : Bytes) (commands : List Bytes) : Prop where
  data : (commands.tail.map commandData).flatten = data
  block : ∀ command ∈ commands.tail, commandData command ≠ [] ∧ (commandData command).length ≤ 255
  first : ∀ (i : ℕ) (command : Bytes), commands[i]? = some command →
    (commandP1 command = some 0xff ↔ i = 0)
  last : ∀ (i : ℕ) (command : Bytes), commands[i]? = some command →
    (commandP1 command = some 0x80 ↔ i + 1 = commands.length)

section
variable {data : Bytes} {blocks : List Bytes}

theorem length_finalizeInputFull (hblocks : finalizeLoop data 0 [[0]] = [[0]] ++ blocks) :
    (finalizeInputFull data).length = blocks.length + 1 := by
  rw [finalizeInputFull, hblocks, List.length_mapIdx, List.length_append, List.length_singleton,
    Nat.add_comm]

theorem map_commandData_finalizeInputFull (hblocks : finalizeLoop data 0 [[0]] = [[0]] ++ blocks) :
    (finalizeInputFull data).tail.map commandData = blocks := by
  rw [finalizeInputFull, hblocks]
  apply List.ext_getElem?
  intro i
  have hdata (p1 : UInt8) (block : Bytes) : commandData
      (apdu BTCHIP_CLA BTCHIP_INS_HASH_INPUT_FINALIZE_FULL p1 0x00 block) = block := rfl
  simp [Function.comp_def, hdata]

/-- The flag of a command goes by its place. -/
theorem commandP1_finalizeInputFull (hblocks : finalizeLoop data 0 [[0]] = [[0]] ++ blocks) {i : ℕ}
    {command : Bytes} (hi : (finalizeInputFull data)[i]? = some command) :
    i < blocks.length + 1 ∧
      commandP1 command = some (if i = 0 then 0xff else if i = blocks.length then 0x80 else 0x00) := by
  rw [finalizeInputFull, hblocks, List.getElem?_mapIdx, Option.map_eq_some_iff] at hi
  obtain ⟨part, hpart, rfl⟩ := hi
  have hlt := (List.getElem?_eq_some_iff.mp hpart).1
  rw [List.length_append, List.length_singleton] at hlt
  refine ⟨by omega, ?_⟩
  simp [commandP1, apdu]

end

theorem finalizeInputFull_carries {data : Bytes} (hdata : data ≠ []) :
    Carries data (finalizeInputFull data) := by
  obtain ⟨blocks, hblocks, hflatten, hshort⟩ := finalizeLoop_blocks data 0 [[0]]
  have hne : blocks ≠ [] := by
    intro hempty
    rw [hempty, List.flatten_nil, List.drop_zero] at hflatten
    exact hdata hflatten.symm
  have hpos : 0 < blocks.length := List.length_pos_iff.mpr hne
  have htail := map_commandData_finalizeInputFull hblocks
  have hlength := length_finalizeInputFull hblocks
  refine ⟨?_, ?_, ?_, ?_⟩
  · rw [htail, hflatten, List.drop_zero]
  · intro command hcommand
    apply hshort
    rw [← htail]
    exact List.mem_map_of_mem hcommand
  · intro i command hi
    rw [(commandP1_finalizeInputFull hblocks hi).2]
    split_ifs with hzero hlast
    · simp [hzero]
    · exact iff_of_false (by decide) hzero
    · exact iff_of_false (by decide) hzero
  · intro i command hi
    obtain ⟨hlt, hp1⟩ := commandP1_finalizeInputFull hblocks hi
    rw [hp1, hlength]
    split_ifs with hzero hlast
    · exact iff_of_false (by decide) (by omega)
    · simp [hlast]
    · exact iff_of_false (by decide) (by omega)

/-! ## The outputs -/

def outputData (out : TransactionOutput) : Bytes :=
  littleEndian 8 out.satoshi.toNat ++ (compactSize out.scriptpubkey.length ++ out.scriptpubkey)

/-- A value and a script behind its length. -/
def readOutput (bytes : Bytes) : Option (TransactionOutput × Bytes) :=
  (readFixed 8 bytes).bind fun value =>
    (readCompactSize value.2).bind fun size =>
      if size.2.length < size.1 then none
      else some (⟨.ofNat value.1, size.2.take size.1⟩, size.2.drop size.1)

def readOutputs : Bytes → Option (List TransactionOutput × Bytes) := readCounted readOutput

/-- What sizes the counts are promised to have. -/
structure Countable (outs : List TransactionOutput) : Prop where
  count : outs.length < 2147483648
  satoshi : ∀ out ∈ outs, out.satoshi.toNat < 9223372036854775808
  script : ∀ out ∈ outs, out.scriptpubkey.length < 2147483648

theorem readOutput_outputData {out : TransactionOutput} (hscript : out.scriptpubkey.length < 2147483648)
    (rest : Bytes) : readOutput (outputData out ++ rest) = some (out, rest) := by
  have hvalue := readFixed_littleEndian 8 out.satoshi.toNat_lt
    (compactSize out.scriptpubkey.length ++ (out.scriptpubkey ++ rest))
  have hsize := readCompactSize_compactSize (n := out.scriptpubkey.length)
    (Nat.lt_trans hscript (by decide)) (out.scriptpubkey ++ rest)
  have henough : ¬ (out.scriptpubkey ++ rest).length < out.scriptpubkey.length := by
    rw [List.length_append]
    omega
  rw [outputData, List.append_assoc, List.append_assoc, readOutput, hvalue, Option.bind_some, hsize,
    Option.bind_some, if_neg henough, List.take_left, List.drop_left, UInt64.ofNat_toNat]

theorem data_varInt_little {stream : DataStream} {n : ℕ} (horder : stream.byteOrder = .LittleEndian)
    (hn : n < 2147483648) : (stream.varInt n).data = stream.data ++ compactSize n := by
  have hlong : n < 4294967296 := Nat.lt_trans hn (by decide)
  rw [DataStream.data_varInt hlong, compactSize, horder]
  split_ifs with hone hthree
  · rw [Nat.mod_eq_of_lt (Nat.lt_trans hone (by decide))]
  · rfl
  · rfl

theorem outputBytes_eq_outputData {activity : LedgerSignTransactionActivity}
    (h : Countable activity.m_transaction_outputs) :
    activity.outputBytes = compactSize activity.m_transaction_outputs.length ++
      activity.m_transaction_outputs.flatMap outputData := by
  have hround (outs : List TransactionOutput)
      (hscript : ∀ out ∈ outs, out.scriptpubkey.length < 2147483648) (stream : DataStream)
      (horder : stream.byteOrder = .LittleEndian) :
      (outs.foldl (fun stream out =>
        ((stream.writeUInt64 out.satoshi).varInt out.scriptpubkey.length).writeRawData
          out.scriptpubkey) stream).data = stream.data ++ outs.flatMap outputData := by
    induction outs generalizing stream with
    | nil => simp
    | cons out outs ih =>
        have hwritten : (stream.writeUInt64 out.satoshi).byteOrder = .LittleEndian := horder
        rw [List.foldl_cons, ih (fun other hother => hscript other (List.mem_cons_of_mem _ hother))]
        · rw [DataStream.data_writeRawData,
            data_varInt_little hwritten (hscript out List.mem_cons_self), DataStream.data_writeUInt64,
            horder, List.flatMap_cons, outputData, ByteOrder.bytes]
          simp only [List.append_assoc]
        · rw [DataStream.byteOrder_writeRawData, CountPlace.byteOrder_varInt]
          exact horder
  rw [LedgerSignTransactionActivity.outputBytes, hround _ h.script _ (CountPlace.byteOrder_varInt _ _),
    data_varInt_little rfl h.count]
  rfl

theorem readOutputs_outputBytes {activity : LedgerSignTransactionActivity}
    (h : Countable activity.m_transaction_outputs) :
    readOutputs activity.outputBytes = some (activity.m_transaction_outputs, []) := by
  have hread := readCounted_flatMap activity.m_transaction_outputs
    (Nat.lt_trans h.count (by decide))
    (fun out hout rest => readOutput_outputData (h.script out hout) rest) []
  rw [List.append_nil] at hread
  rw [outputBytes_eq_outputData h]
  exact hread

/-- The device is told the outputs as they are. -/
def TellsOutputs (activity : LedgerSignTransactionActivity) : Prop :=
  (∃ commands, finalizeInputFullInt activity.outputBytes = some commands ∧
    Carries activity.outputBytes commands) ∧
  readOutputs activity.outputBytes = some (activity.m_transaction_outputs, [])

/-- The outputs arrive, unless they take more bytes than an `int` counts. -/
theorem tellsOutputs_iff {activity : LedgerSignTransactionActivity}
    (h : Countable activity.m_transaction_outputs) :
    TellsOutputs activity ↔ activity.outputBytes.length ≤ INT_MAX := by
  constructor
  · intro ⟨⟨commands, hcommands, _⟩, _⟩
    by_contra hlong
    rw [finalizeInputFullInt_eq_none (Nat.not_le.mp hlong)] at hcommands
    cases hcommands
  · intro hint
    have hne : activity.outputBytes ≠ [] := by
      intro hempty
      have hread := readOutputs_outputBytes h
      rw [hempty] at hread
      cases hread
    exact ⟨⟨_, finalizeInputFullInt_eq hint, finalizeInputFull_carries hne⟩,
      readOutputs_outputBytes h⟩

/-- A payment with change. -/
def paymentWithChange : LedgerSignTransactionActivity where
  m_version := 2
  m_locktime := 0
  m_signing_inputs := []
  m_transaction_outputs := [⟨150000, [0x00, 0x02, 0xab, 0xcd]⟩, ⟨98000, [0x00, 0x02, 0x12, 0x34]⟩]
  m_signing_transactions := fun _ => []

theorem tellsOutputs_paymentWithChange :
    Countable paymentWithChange.m_transaction_outputs ∧
      (TellsOutputs paymentWithChange ↔ paymentWithChange.outputBytes.length ≤ INT_MAX) := by
  have hcountable : Countable paymentWithChange.m_transaction_outputs :=
    ⟨by decide, by decide, by decide⟩
  exact ⟨hcountable, tellsOutputs_iff hcountable⟩

/-- An output with a script as long as is promised. -/
def longestScript : LedgerSignTransactionActivity :=
  { paymentWithChange with m_transaction_outputs := [⟨0, List.replicate 2147483647 0⟩] }

theorem not_tellsOutputs_longestScript :
    Countable longestScript.m_transaction_outputs ∧ ¬ TellsOutputs longestScript := by
  have hscript : (List.replicate 2147483647 (0 : UInt8)).length = 2147483647 := List.length_replicate
  have hcountable : Countable longestScript.m_transaction_outputs := by
    refine ⟨by decide, ?_, ?_⟩
    · intro out hout
      rw [List.mem_singleton.mp hout]
      decide
    · intro out hout
      rw [List.mem_singleton.mp hout, hscript]
      decide
  refine ⟨hcountable, ?_⟩
  have hdata : (outputData ⟨0, List.replicate 2147483647 0⟩).length =
      8 + ((compactSize (List.replicate 2147483647 (0 : UInt8)).length).length + 2147483647) := by
    rw [outputData, List.length_append, List.length_append, length_littleEndian, hscript]
  have houts : (longestScript.m_transaction_outputs.flatMap outputData).length =
      (outputData ⟨0, List.replicate 2147483647 0⟩).length := by
    rw [longestScript, List.flatMap_singleton]
  have hlong : INT_MAX < longestScript.outputBytes.length := by
    rw [outputBytes_eq_outputData hcountable, List.length_append, houts, hdata, INT_MAX]
    omega
  intro ⟨⟨commands, hcommands, _⟩, _⟩
  rw [finalizeInputFullInt_eq_none hlong] at hcommands
  cases hcommands

end GreenWallet.Ledger
