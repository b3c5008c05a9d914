import GreenWallet.Ledger.SignTransaction

/-!
# Which commands fit

Scripts go out whole, together with a sequence in the case of an input; only the outputs of
the transaction to be signed are cut into blocks.
-/
namespace GreenWallet.Ledger

def AllFit (commands : List Bytes) : Prop := ∀ command ∈ commands, DataFits command

section
variable {α : Type} {commands more : List Bytes} {command : Bytes}

@[simp] theorem allFit_nil : AllFit [] := fun _ h => absurd h List.not_mem_nil

@[simp] theorem allFit_cons : AllFit (command :: commands) ↔ DataFits command ∧ AllFit commands :=
  List.forall_mem_cons

@[simp] theorem allFit_append : AllFit (commands ++ more) ↔ AllFit commands ∧ AllFit more :=
  List.forall_mem_append

@[simp] theorem allFit_flatMap {items : List α} {f : α → List Bytes} :
    AllFit (items.flatMap f) ↔ ∀ item ∈ items, AllFit (f item) := by
  simp only [AllFit, List.mem_flatMap]
  constructor
  · intro h item hitem command hcommand
    exact h command ⟨item, hitem, hcommand⟩
  · intro h command ⟨item, hitem, hcommand⟩
    exact h item hitem command hcommand

theorem forall_mem_mapIdx {β : Type} {P : β → Prop} {items : List α} {f : ℕ → α → β} :
    (∀ b ∈ items.mapIdx f, P b) ↔ ∀ (i : ℕ) (item : α), items[i]? = some item → P (f i item) := by
  simp only [List.mem_mapIdx]
  constructor
  · intro h i item hitem
    obtain ⟨hi, hvalue⟩ := List.getElem?_eq_some_iff.mp hitem
    exact h _ ⟨i, hi, by rw [hvalue]⟩
  · rintro h _ ⟨i, hi, rfl⟩
    exact h i items[i] (List.getElem?_eq_getElem hi)

theorem forall_mem_mapIdx_flatten {β : Type} {P : β → Prop} {items : List α}
    {f : ℕ → α → List β} :
    (∀ b ∈ (items.mapIdx f).flatten, P b) ↔
      ∀ (i : ℕ) (item : α), items[i]? = some item → ∀ b ∈ f i item, P b := by
  rw [← forall_mem_mapIdx (P := fun list => ∀ b ∈ list, P b)]
  exact List.forall_mem_flatten

theorem allFit_mapIdx {items : List α} {f : ℕ → α → Bytes} :
    AllFit (items.mapIdx f) ↔ ∀ (i : ℕ) (item : α), items[i]? = some item →
      DataFits (f i item) :=
  forall_mem_mapIdx

theorem allFit_mapIdx_flatten {items : List α} {f : ℕ → α → List Bytes} :
    AllFit (items.mapIdx f).flatten ↔ ∀ (i : ℕ) (item : α), items[i]? = some item →
      AllFit (f i item) :=
  forall_mem_mapIdx_flatten

theorem allFit_mapIdx_map {β : Type} {items : List α} {g : α → β} {f : ℕ → β → List Bytes} :
    AllFit ((items.map g).mapIdx f).flatten ↔ ∀ (i : ℕ) (item : α), items[i]? = some item →
      AllFit (f i (g item)) := by
  rw [allFit_mapIdx_flatten]
  constructor
  · intro h i item hitem
    exact h i (g item) (by rw [List.getElem?_map, hitem, Option.map_some])
  · intro h i image himage
    rw [List.getElem?_map, Option.map_eq_some_iff] at himage
    obtain ⟨item, hitem, rfl⟩ := himage
    exact h i item hitem

end

/-! ## The previous transactions -/

/-- Scripts of inputs leave room for a sequence. -/
structure WallyTx.Fits (tx : WallyTx) : Prop where
  inputs : ∀ input ∈ tx.inputs, input.script.length ≤ 251
  outputs : ∀ output ∈ tx.outputs, output.script.length ≤ 255

theorem length_sequenceBytes (sequence : UInt32) : (sequenceBytes sequence).length = 4 := rfl

theorem varintSize_count32 {α : Type} {list : List α} (h : list.length ≤ 252) :
    DataStream.varintSize (count32 list) = 1 := by
  have hcount : (count32 list).toNat = list.length := by
    rw [count32, UInt32.toNat_ofNat']
    omega
  rw [DataStream.varintSize, hcount, if_pos (by omega)]

/-- A count behind at most 250 bytes. -/
theorem dataFits_varint {cla ins p1 p2 : UInt8} {stream : DataStream} {v : UInt32}
    (h : stream.data.length ≤ 250) : DataFits (apdu cla ins p1 p2 (stream.varint v).data) := by
  have hsize := DataStream.varintSize_le v
  rw [dataFits_apdu, DataStream.length_varint]
  omega

theorem allFit_getTrustedInput (tx : WallyTx) (index : UInt32) :
    AllFit (getTrustedInput tx index) ↔ tx.Fits := by
  have hfirst : (((DataStream.setByteOrder {} .BigEndian).writeUInt32 index).setByteOrder
      .LittleEndian |>.writeUInt32 tx.version).data.length ≤ 250 := by simp
  have hinput (input : WallyTxInput) :
      ((DataStream.little.writeRawData input.txhash.1).writeUInt32 input.index).data.length ≤
        250 := by
    simp [DataStream.little, input.txhash.2]
  have hscript (input : WallyTxInput) :
      ((DataStream.little.writeRawData input.script).writeUInt32 input.sequence).data.length =
        input.script.length + 4 := by
    simp [DataStream.little]
  have houtput (output : WallyTxOutput) :
      (DataStream.little.writeUInt64 output.satoshi).data.length ≤ 250 := by
    simp [DataStream.little]
  have hlocktime : (DataStream.little.writeUInt32 tx.locktime).data.length ≤ 255 := by
    simp [DataStream.little]
  have hempty : ({} : DataStream).data.length ≤ 250 := Nat.zero_le 250
  simp only [getTrustedInput, allFit_append, allFit_flatMap, allFit_cons, allFit_nil, and_true,
    dataFits_varint hfirst, dataFits_varint (hinput _), dataFits_varint (houtput _),
    dataFits_varint hempty, dataFits_apdu, hscript, hlocktime, true_and]
  constructor
  · intro ⟨hinputs, houtputs⟩
    exact ⟨fun input h => Nat.le_of_add_le_add_right (hinputs input h), houtputs⟩
  · intro ⟨hinputs, houtputs⟩
    exact ⟨fun input h => Nat.add_le_add_right (hinputs input h) 4, houtputs⟩

/-! ## The transaction to be signed -/

theorem length_of_mem_finalizeLoop {data : Bytes} {offset : ℕ} {datas : List Bytes}
    (h : ∀ part ∈ datas, part.length ≤ 255) :
    ∀ part ∈ finalizeLoop data offset datas, part.length ≤ 255 := by
  induction offset, datas using finalizeLoop.induct data with
  | case1 offset datas hlt blockLength ih =>
      rw [finalizeLoop, if_pos hlt]
      apply ih
      intro part hpart
      rcases List.mem_append.mp hpart with hold | hnew
      · exact h part hold
      · rw [List.mem_singleton.mp hnew, List.length_take]
        have hblock : blockLength ≤ 255 := by
          show (if data.length - offset > 255 then 255 else data.length - offset) ≤ 255
          split_ifs <;> omega
        exact Nat.le_trans (Nat.min_le_left _ _) hblock
  | case2 offset datas hlt =>
      rw [finalizeLoop, if_neg hlt]
      exact h

theorem allFit_finalizeInputFull (data : Bytes) : AllFit (finalizeInputFull data) := by
  rw [finalizeInputFull, allFit_mapIdx]
  intro i part hpart
  rw [dataFits_apdu]
  apply length_of_mem_finalizeLoop _ part (List.mem_of_getElem? hpart)
  intro first hfirst
  rw [List.mem_singleton.mp hfirst]
  decide

theorem dataFits_untrustedHashSign {path : List UInt32} (locktime : UInt32)
    (hpath : path.length ≤ 10) : DataFits (untrustedHashSign path locktime) := by
  have hlength := length_pathToData path
  rw [untrustedHashSign, dataFits_apdu]
  simp only [DataStream.data_writeUInt8, DataStream.data_writeUInt32, DataStream.data_writeRawData,
    DataStream.data_setByteOrder, List.length_append, List.length_cons, List.length_nil,
    ByteOrder.length_bytes]
  omega

theorem allFit_untrustedInput {script : Bytes} {input : Input} (htrusted : input.trusted = true)
    (hsequence : input.sequence.length = 4) :
    AllFit (untrustedInput script input) ↔
      input.value.length ≤ 252 ∧ script.length ≤ 251 := by
  have hpos := DataStream.varintSize_pos (count32 script)
  simp only [untrustedInput, htrusted, if_true, allFit_cons, allFit_nil, and_true, dataFits_apdu,
    DataStream.length_varint, DataStream.data_writeUInt8, DataStream.data_writeRawData,
    List.length_append, List.length_cons, List.length_nil, hsequence]
  constructor
  · intro ⟨hvalue, hscript⟩
    exact ⟨by omega, by omega⟩
  · intro ⟨hvalue, hscript⟩
    rw [varintSize_count32 (by omega)]
    exact ⟨by omega, by omega⟩

/-- With trusted inputs; the script goes with one of them. -/
theorem allFit_startUntrustedTransaction {version : UInt32} {new_transaction segwit : Bool}
    {index : ℕ} {used_inputs : List Input} {redeem_script : Bytes}
    (htrusted : ∀ input ∈ used_inputs, input.trusted = true ∧ input.sequence.length = 4) :
    AllFit (startUntrustedTransaction version new_transaction index used_inputs redeem_script
        segwit) ↔
      (∀ input ∈ used_inputs, input.value.length ≤ 252) ∧
        (index < used_inputs.length → redeem_script.length ≤ 251) := by
  have hfirst : (DataStream.little.writeUInt32 version).data.length ≤ 250 := by
    simp [DataStream.little]
  have hone (i : ℕ) (input : Input) (hi : used_inputs[i]? = some input) :
      AllFit (untrustedInput (if i = index then redeem_script else []) input) ↔
        input.value.length ≤ 252 ∧ (i = index → redeem_script.length ≤ 251) := by
    obtain ⟨ht, hs⟩ := htrusted input (List.mem_of_getElem? hi)
    rw [allFit_untrustedInput ht hs]
    split_ifs with heq <;> simp [heq]
  simp only [startUntrustedTransaction, allFit_append, allFit_cons, allFit_nil, and_true,
    dataFits_varint hfirst, true_and, allFit_mapIdx_flatten]
  constructor
  · intro h
    constructor
    · intro input hinput
      obtain ⟨i, hi⟩ := List.mem_iff_getElem?.mp hinput
      exact ((hone i input hi).mp (h i input hi)).1
    · intro hlt
      have hi := List.getElem?_eq_getElem hlt
      exact ((hone index _ hi).mp (h index _ hi)).2 rfl
  · intro ⟨hvalues, hscript⟩ i input hi
    rw [hone i input hi]
    refine ⟨hvalues input (List.mem_of_getElem? hi), fun heq => hscript ?_⟩
    rw [← heq]
    exact (List.getElem?_eq_some_iff.mp hi).choose

namespace LedgerSignTransactionActivity
variable {activity : LedgerSignTransactionActivity} {values : List Bytes}

theorem forall_mem_hwInputs {P : Bytes → Prop}
    (hlength : values.length = activity.m_signing_inputs.length) (segwit : Bool) :
    (∀ input ∈ activity.hwInputs segwit values, P input.value) ↔ ∀ value ∈ values, P value := by
  have hvalues : (values.zip activity.m_signing_inputs).map Prod.fst = values :=
    List.map_fst_zip (Nat.le_of_eq hlength)
  conv_rhs => rw [← hvalues]
  rw [hwInputs, List.forall_mem_map, List.forall_mem_map]

theorem hwInputs_trusted (segwit : Bool) : ∀ input ∈ activity.hwInputs segwit values,
    input.trusted = true ∧ input.sequence.length = 4 := by
  intro input hinput
  obtain ⟨pair, -, rfl⟩ := List.mem_map.mp hinput
  exact ⟨rfl, length_sequenceBytes _⟩

theorem exists_hwInput (hlength : values.length = activity.m_signing_inputs.length)
    (segwit : Bool) {input : SigningInput} (hinput : input ∈ activity.m_signing_inputs) :
    ∃ hw_input, (hw_input, input) ∈
      (activity.hwInputs segwit values).zip activity.m_signing_inputs := by
  have hle : activity.m_signing_inputs.length ≤ (activity.hwInputs segwit values).length := by
    rw [length_hwInputs hlength]
    exact Nat.le_of_eq hlength.symm
  rw [← List.map_snd_zip hle, List.mem_map] at hinput
  obtain ⟨pair, hpair, rfl⟩ := hinput
  exact ⟨pair.1, hpair⟩

/-- What `signSW` asks for, once there are trusted inputs. -/
structure FitsSW (activity : LedgerSignTransactionActivity) (values : List Bytes) : Prop where
  values : ∀ value ∈ values, value.length ≤ 252
  first : ∀ input ∈ activity.m_signing_inputs.head?, input.prevout_script.length ≤ 251
  signed : ∀ input ∈ activity.m_signing_inputs, input.address_type ≠ "p2sh" →
    input.prevout_script.length ≤ 251

theorem allFit_signSW (hlength : values.length = activity.m_signing_inputs.length)
    (hpaths : ∀ input ∈ activity.m_signing_inputs, input.user_path.length ≤ 10) :
    AllFit (activity.signSW values) ↔ activity.FitsSW values := by
  have hscript0 : (0 < (activity.hwInputs true values).length →
      (((activity.m_signing_inputs.head?).map SigningInput.prevout_script).getD []).length ≤ 251) ↔
      ∀ input ∈ activity.m_signing_inputs.head?, input.prevout_script.length ≤ 251 := by
    rw [length_hwInputs hlength, hlength]
    cases activity.m_signing_inputs <;> simp
  simp only [signSW, allFit_append, allFit_flatMap, allFit_finalizeInputFull, and_true,
    allFit_startUntrustedTransaction (hwInputs_trusted true), hscript0]
  rw [forall_mem_hwInputs (P := fun value => value.length ≤ 252) hlength]
  have hsigned (pair : Input × SigningInput)
      (hpair : pair ∈ (activity.hwInputs true values).zip activity.m_signing_inputs) :
      AllFit (if pair.2.address_type = "p2sh" then []
        else startUntrustedTransaction activity.m_version false 0 [pair.1] pair.2.prevout_script
          true ++ [untrustedHashSign pair.2.user_path activity.m_locktime]) ↔
        (pair.2.address_type ≠ "p2sh" →
          pair.1.value.length ≤ 252 ∧ pair.2.prevout_script.length ≤ 251) := by
    obtain ⟨hmem, hinput⟩ := List.of_mem_zip hpair
    have htrusted : ∀ input ∈ [pair.1], input.trusted = true ∧ input.sequence.length = 4 := by
      intro input h
      rw [List.mem_singleton.mp h]
      exact hwInputs_trusted true pair.1 hmem
    split_ifs with hp2sh
    · exact iff_of_true allFit_nil fun h => absurd hp2sh h
    · simp [allFit_startUntrustedTransaction htrusted, hp2sh,
        dataFits_untrustedHashSign _ (hpaths _ hinput)]
  constructor
  · intro ⟨⟨hvalues, hfirst⟩, hrest⟩
    refine ⟨hvalues, hfirst, fun input hinput hp2sh => ?_⟩
    obtain ⟨hw_input, hpair⟩ := exists_hwInput hlength true hinput
    exact ((hsigned _ hpair).mp (hrest _ hpair) hp2sh).2
  · intro ⟨hvalues, hfirst, hrest⟩
    refine ⟨⟨hvalues, hfirst⟩, fun pair hpair => (hsigned pair hpair).mpr fun hp2sh => ?_⟩
    obtain ⟨hmem, hinput⟩ := List.of_mem_zip hpair
    exact ⟨(forall_mem_hwInputs hlength true).mpr hvalues pair.1 hmem, hrest pair.2 hinput hp2sh⟩

/-- What `signNonSW` asks for, once there are trusted inputs. -/
structure FitsNonSW (activity : LedgerSignTransactionActivity) (values : List Bytes) : Prop where
  values : ∀ value ∈ values, value.length ≤ 252
  signed : ∀ input ∈ activity.m_signing_inputs, input.prevout_script.length ≤ 251

theorem allFit_signNonSW (hlength : values.length = activity.m_signing_inputs.length)
    (hpaths : ∀ input ∈ activity.m_signing_inputs, input.user_path.length ≤ 10) :
    AllFit (activity.signNonSW values) ↔ activity.FitsNonSW values := by
  have hround (i : ℕ) (pair : Input × SigningInput)
      (hpair : ((activity.hwInputs false values).zip activity.m_signing_inputs)[i]? = some pair) :
      AllFit (startUntrustedTransaction activity.m_version (i = 0) i
          (activity.hwInputs false values) pair.2.prevout_script false ++
        finalizeInputFull activity.outputBytes ++
        if pair.2.address_type = "p2sh" then
          [untrustedHashSign pair.2.user_path activity.m_locktime]
        else []) ↔
        (∀ value ∈ values, value.length ≤ 252) ∧ pair.2.prevout_script.length ≤ 251 := by
    have hinput := (List.of_mem_zip (List.mem_of_getElem? hpair)).2
    have hlt : i < (activity.hwInputs false values).length := by
      have hzip := (List.getElem?_eq_some_iff.mp hpair).choose
      rw [List.length_zip] at hzip
      exact Nat.lt_of_lt_of_le hzip (Nat.min_le_left _ _)
    have hsign : AllFit (if pair.2.address_type = "p2sh" then
        [untrustedHashSign pair.2.user_path activity.m_locktime] else []) := by
      split_ifs
      · simp [dataFits_untrustedHashSign _ (hpaths _ hinput)]
      · exact allFit_nil
    simp only [allFit_append, allFit_finalizeInputFull, hsign, and_true,
      allFit_startUntrustedTransaction (hwInputs_trusted false), hlt, true_imp_iff]
    rw [forall_mem_hwInputs (P := fun value => value.length ≤ 252) hlength]
  rw [signNonSW, allFit_mapIdx_flatten]
  constructor
  · intro h
    constructor
    · intro value hvalue
      have hpos : 0 < values.length := List.length_pos_of_mem hvalue
      have hzip : 0 < ((activity.hwInputs false values).zip activity.m_signing_inputs).length := by
        rw [List.length_zip, length_hwInputs hlength, ← hlength, Nat.min_self]
        exact hpos
      have hfirst := List.getElem?_eq_getElem hzip
      exact ((hround 0 _ hfirst).mp (h 0 _ hfirst)).1 value hvalue
    · intro input hinput
      obtain ⟨hw_input, hpair⟩ := exists_hwInput hlength false hinput
      obtain ⟨i, hi⟩ := List.mem_iff_getElem?.mp hpair
      exact ((hround i _ hi).mp (h i _ hi)).2
  · intro ⟨hvalues, hsigned⟩ i pair hpair
    have hinput := (List.of_mem_zip (List.mem_of_getElem? hpair)).2
    exact (hround i pair hpair).mpr ⟨hvalues, hsigned pair.2 hinput⟩

/-- The scripts of the previous transactions, the trusted inputs that have been returned and
the scripts that go with them are short enough. -/
structure Fits (activity : LedgerSignTransactionActivity) (fromBytes : Bytes → WallyTx)
    (answered : activity.Answered) : Prop where
  previous : ∀ input ∈ activity.m_signing_inputs,
    (fromBytes (activity.m_signing_transactions input.txhash)).Fits
  segwit : activity.sw = true → ∀ values ∈ answered.segwit, activity.FitsSW values
  legacy : activity.p2sh = true → ∀ values ∈ answered.legacy, activity.FitsNonSW values

theorem sw_or_p2sh {input : SigningInput} (hinput : input ∈ activity.m_signing_inputs) :
    activity.sw = true ∨ activity.p2sh = true := by
  simp only [sw, p2sh, List.any_eq_true, decide_eq_true_eq]
  by_cases h : input.address_type = "p2sh"
  · exact .inr ⟨input, hinput, h⟩
  · exact .inl ⟨input, hinput, h⟩

theorem allFit_getD_map {values : Option (List Bytes)} {f : List Bytes → List Bytes} :
    AllFit ((values.map f).getD []) ↔ ∀ v ∈ values, AllFit (f v) := by
  cases values <;> simp

theorem allFit_commands {fromBytes : Bytes → WallyTx} {answered : activity.Answered}
    (hpaths : ∀ input ∈ activity.m_signing_inputs, input.user_path.length ≤ 10) :
    AllFit (activity.commands fromBytes answered) ↔ activity.Fits fromBytes answered := by
  have hprevious : AllFit (activity.getHwInputs fromBytes) ↔ ∀ input ∈ activity.m_signing_inputs,
      (fromBytes (activity.m_signing_transactions input.txhash)).Fits := by
    simp only [getHwInputs, allFit_flatMap, allFit_getTrustedInput]
  have hsegwit : AllFit ((answered.segwit.map activity.signSW).getD []) ↔
      ∀ values ∈ answered.segwit, activity.FitsSW values := by
    rw [allFit_getD_map]
    exact forall₂_congr fun values h => allFit_signSW (answered.segwit_length values h) hpaths
  have hlegacy : AllFit ((answered.legacy.map activity.signNonSW).getD []) ↔
      ∀ values ∈ answered.legacy, activity.FitsNonSW values := by
    rw [allFit_getD_map]
    exact forall₂_congr fun values h => allFit_signNonSW (answered.legacy_length values h) hpaths
  have hpart (used : Bool) (more : List Bytes) :
      AllFit (if used then activity.getHwInputs fromBytes ++ more else []) ↔
        (used = true → AllFit (activity.getHwInputs fromBytes) ∧ AllFit more) := by
    cases used <;> simp
  rw [commands, allFit_append, hpart, hpart, hsegwit, hlegacy, hprevious]
  constructor
  · intro ⟨hsw, hp2sh⟩
    refine ⟨fun input hinput => ?_, fun h => (hsw h).2, fun h => (hp2sh h).2⟩
    rcases sw_or_p2sh hinput with h | h
    · exact (hsw h).1 input hinput
    · exact (hp2sh h).1 input hinput
  · intro ⟨hall, hsw, hp2sh⟩
    exact ⟨fun h => ⟨hall, hsw h⟩, fun h => ⟨hall, hp2sh h⟩⟩

end LedgerSignTransactionActivity
end GreenWallet.Ledger
