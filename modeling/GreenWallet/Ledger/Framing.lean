import Mathlib.Data.List.Basic

/-!
# Commands and responses in reports of 64 bytes

A command goes out, and its response comes back, cut into reports. Each starts with a
channel, a tag and an index; the first also has the length of the whole. The reader keeps
how much is still to come, and puts what comes behind what it has.
-/
namespace GreenWallet.Ledger

abbrev Bytes := List UInt8

/-- A `uint16_t` in a stream, the high byte first. -/
def be16 (n : UInt16) : Bytes := [UInt8.ofNat (n.toNat / 256), UInt8.ofNat n.toNat]

/-- Reading past the end gives zero. -/
def readUInt16 : Bytes → UInt16 × Bytes
  | high :: low :: rest => (UInt16.ofNat (high.toNat * 256 + low.toNat), rest)
  | _ => (0, [])

def readUInt8 : Bytes → UInt8 × Bytes
  | byte :: rest => (byte, rest)
  | [] => (0, [])

@[simp] theorem readUInt16_be16 (n : UInt16) (rest : Bytes) :
    readUInt16 (be16 n ++ rest) = (n, rest) := by
  have hn := n.toNat_lt
  have hvalue : UInt16.ofNat (n.toNat / 256 % 256 * 256 + n.toNat % 256) = n := by
    rw [← UInt16.toNat_inj, UInt16.toNat_ofNat']
    omega
  simp only [be16, List.cons_append, List.nil_append, readUInt16, UInt8.toNat_ofNat', hvalue]

/-- `QByteArray::leftJustified`. -/
def leftJustified (data : Bytes) (width : ℕ) : Bytes :=
  data ++ List.replicate (width - data.length) 0

/-! ## The writer -/

def packetHeader (index : ℕ) : Bytes := be16 0x0101 ++ [0x05] ++ be16 (UInt16.ofNat index)

/-- The loop of `transport`. -/
def transportLoop (data : Bytes) (offset : ℕ) (packets : List Bytes) : List Bytes :=
  if offset < data.length then
    let d := (data.drop offset).take (64 - if packets.isEmpty then 7 else 5)
    let header := packetHeader packets.length
    let header := if packets.isEmpty then header ++ be16 (UInt16.ofNat data.length) else header
    transportLoop data (offset + d.length) (packets ++ [leftJustified (header ++ d) 64])
  else packets
termination_by data.length - offset
decreasing_by
  rw [List.length_take, List.length_drop]
  split_ifs <;> omega

def transport (data : Bytes) : List Bytes := transportLoop data 0 []

/-! ## The reader -/

structure DeviceCommand where
  length : UInt16 := 0
  offset : UInt16 := 0
  buf : Bytes := []

/-- What `readHIDReport` comes to: it waits for more, or has the response to be read. -/
inductive Received where
  | more
  | response (data : Bytes)
deriving DecidableEq

/-- The index of a report and what follows it, if the assertions about it hold. -/
def readReportHeader (stream : Bytes) : Option (UInt16 × Bytes) :=
  let (channel_id, stream) := readUInt16 stream
  let (command_tag, stream) := readUInt8 stream
  let (index, stream) := readUInt16 stream
  if channel_id = 0x0101 ∧ command_tag = 0x05 then some (index, stream) else none

namespace DeviceCommand

/-- What is left of the stream goes into the buffer, as far as it is asked for. -/
def readBody (command : DeviceCommand) (stream : Bytes) : DeviceCommand × Received :=
  let data := stream.take command.length.toNat
  let read := UInt16.ofNat data.length
  let offset := command.offset.toNat
  let command :=
    { length := command.length - read
      offset := command.offset + read
      buf := command.buf.take offset ++ data ++ command.buf.drop (offset + data.length) }
  (command, if 0 < command.length then .more else .response command.buf)

/-- `none` if an assertion fails. What a resized buffer holds is of no account. -/
def readHIDReport (command : DeviceCommand) (stream : Bytes) :
    Option (DeviceCommand × Received) :=
  (readReportHeader stream).bind fun (index, stream) =>
    if index = 0 then
      if command.buf.isEmpty then
        let (length, stream) := readUInt16 stream
        let command := { length := length, offset := 0, buf := List.replicate length.toNat 0 }
        some (readBody command stream)
      else none
    else some (readBody command stream)

/-- Reports that come one after the other. -/
def readReports (command : DeviceCommand) : List Bytes → Option (DeviceCommand × List Received)
  | [] => some (command, [])
  | report :: reports =>
      (command.readHIDReport report).bind fun (command, received) =>
        (command.readReports reports).map fun (command, rest) => (command, received :: rest)

/-- The command that has the first `n` bytes of its response. -/
def holding (data : Bytes) (n : ℕ) : DeviceCommand where
  length := UInt16.ofNat (data.length - n)
  offset := UInt16.ofNat n
  buf := data.take n ++ List.replicate (data.length - n) 0

end DeviceCommand

/-- The packet has its size, the channel and the tag, and this index. -/
def Framed (index : ℕ) (packet : Bytes) : Prop :=
  packet.length = 64 ∧ (readUInt16 packet).1 = 0x0101 ∧ (readUInt8 (packet.drop 2)).1 = 0x05 ∧
    (readUInt16 (packet.drop 3)).1.toNat = index

theorem readReportHeader_packetHeader (index : ℕ) (rest : Bytes) :
    readReportHeader (packetHeader index ++ rest) = some (UInt16.ofNat index, rest) := by
  simp only [readReportHeader, packetHeader, List.append_assoc, readUInt16_be16, List.cons_append,
    List.nil_append, readUInt8]
  simp

/-- Padding is not read when all that is missing has come. -/
theorem take_leftJustified (data : Bytes) (n capacity : ℕ) :
    (leftJustified ((data.drop n).take capacity) capacity).take (data.length - n) =
      (data.drop n).take capacity := by
  have hlength : ((data.drop n).take capacity).length = min capacity (data.length - n) := by
    rw [List.length_take, List.length_drop]
  rw [leftJustified, List.take_append, List.take_of_length_le (by omega)]
  rcases Nat.le_total (data.length - n) capacity with hle | hle
  · have hzero : data.length - n - ((data.drop n).take capacity).length = 0 := by omega
    rw [hzero, List.take_zero, List.append_nil]
  · have hzero : capacity - ((data.drop n).take capacity).length = 0 := by omega
    rw [hzero, List.replicate_zero, List.take_nil, List.append_nil]

namespace DeviceCommand

theorem holding_length {data : Bytes} (n : ℕ) (hlength : data.length ≤ 65535) :
    (holding data n).length.toNat = data.length - n := by
  rw [holding, UInt16.toNat_ofNat', Nat.mod_eq_of_lt (by omega)]

theorem holding_offset {data : Bytes} {n : ℕ} (hn : n ≤ data.length)
    (hlength : data.length ≤ 65535) : (holding data n).offset.toNat = n := by
  rw [holding, UInt16.toNat_ofNat', Nat.mod_eq_of_lt (by omega)]

/-- A command that waits for the rest of its response takes the next part of it. -/
theorem readBody_holding {data : Bytes} {n capacity : ℕ} (hn : n ≤ data.length)
    (hlength : data.length ≤ 65535) :
    (holding data n).readBody (leftJustified ((data.drop n).take capacity) capacity) =
      (holding data (n + ((data.drop n).take capacity).length),
        if n + ((data.drop n).take capacity).length < data.length then .more
        else .response data) := by
  have hd : ((data.drop n).take capacity).length = min capacity (data.length - n) := by
    rw [List.length_take, List.length_drop]
  have htake : data.take n ++ (data.drop n).take capacity =
      data.take (n + ((data.drop n).take capacity).length) := by
    rw [List.take_add, hd, List.append_cancel_left_eq, List.take_eq_take_iff, List.length_drop]
    omega
  simp only [readBody, holding_length n hlength, holding_offset hn hlength, take_leftJustified]
  generalize hpart : (data.drop n).take capacity = part at hd htake
  have hle : n + part.length ≤ data.length := by omega
  have hlengthNext : (holding data n).length - UInt16.ofNat part.length =
      (holding data (n + part.length)).length := by
    rw [← UInt16.toNat_inj, holding_length _ hlength, UInt16.toNat_sub, holding_length _ hlength,
      UInt16.toNat_ofNat']
    omega
  have hoffset : (holding data n).offset + UInt16.ofNat part.length =
      (holding data (n + part.length)).offset := (UInt16.ofNat_add n part.length).symm
  have hbuf : (holding data n).buf.take n ++ part ++ (holding data n).buf.drop (n + part.length) =
      (holding data (n + part.length)).buf := by
    have hn' : (data.take n).length = n := List.length_take_of_le hn
    rw [holding, List.take_append_of_le_length (by omega), List.take_of_length_le (by omega), htake,
      List.drop_append, List.drop_of_length_le (by omega), List.nil_append, List.drop_replicate,
      holding, hn']
    congr 2
    omega
  rw [hlengthNext, hoffset, hbuf]
  congr 1
  by_cases hmore : n + part.length < data.length
  · have hpositive : 0 < (holding data (n + part.length)).length := by
      rw [UInt16.lt_iff_toNat_lt, holding_length _ hlength]
      exact Nat.sub_pos_of_lt hmore
    rw [if_pos hmore, if_pos hpositive]
  · have hall : n + part.length = data.length := by omega
    have hzero : ¬ 0 < (holding data (n + part.length)).length := by
      rw [UInt16.lt_iff_toNat_lt, holding_length _ hlength, hall, Nat.sub_self]
      exact Nat.lt_irrefl 0
    rw [if_neg hmore, if_neg hzero, holding, hall, List.take_length, Nat.sub_self,
      List.replicate_zero, List.append_nil]

end DeviceCommand
theorem leftJustified_append (header data : Bytes) (width : ℕ) :
    leftJustified (header ++ data) (header.length + width) =
      header ++ leftJustified data width := by
  rw [leftJustified, List.length_append, Nat.add_sub_add_left, List.append_assoc, leftJustified]

theorem length_leftJustified {data : Bytes} {width : ℕ} (h : data.length ≤ width) :
    (leftJustified data width).length = width := by
  rw [leftJustified, List.length_append, List.length_replicate]
  omega

theorem length_packetHeader (index : ℕ) : (packetHeader index).length = 5 := rfl

theorem framed_packetHeader {index : ℕ} (hindex : index ≤ 65535) {rest : Bytes}
    (hrest : rest.length = 59) : Framed index (packetHeader index ++ rest) := by
  have htag : (packetHeader index ++ rest).drop 2 =
      0x05 :: (be16 (UInt16.ofNat index) ++ rest) := rfl
  have hindexed : (packetHeader index ++ rest).drop 3 = be16 (UInt16.ofNat index) ++ rest := rfl
  refine ⟨?_, ?_, ?_, ?_⟩
  · rw [List.length_append, length_packetHeader, hrest]
  · rw [packetHeader, List.append_assoc, List.append_assoc, readUInt16_be16]
  · rw [htag, readUInt8]
  · rw [hindexed, readUInt16_be16, UInt16.toNat_ofNat', Nat.mod_eq_of_lt (by omega)]

/-- One packet is read for each index from `first` on, and the last one ends the response. -/
def Reassembled (data : Bytes) (first : ℕ) (command : DeviceCommand) (packets : List Bytes) :
    Prop :=
  (∀ i (h : i < packets.length), Framed (first + i) (packets.get ⟨i, h⟩)) ∧
    ∃ last, command.readReports packets =
      some (last, List.replicate (packets.length - 1) .more ++ [.response data]) ∧ last.buf = data

/-- A packet that ends the response. -/
theorem reassembled_last {data packet : Bytes} {first : ℕ} {command : DeviceCommand}
    (hframed : Framed first packet)
    (hread : command.readHIDReport packet =
      some (DeviceCommand.holding data data.length, .response data)) :
    Reassembled data first command [packet] := by
  refine ⟨?_, DeviceCommand.holding data data.length, ?_, ?_⟩
  · intro i h
    obtain rfl : i = 0 := by simpa using h
    exact hframed
  · rw [DeviceCommand.readReports, hread]
    rfl
  · simp [DeviceCommand.holding]

/-- A packet with more behind it. -/
theorem reassembled_cons {data packet : Bytes} {first : ℕ} {command next : DeviceCommand}
    {packets : List Bytes} (hframed : Framed first packet)
    (hread : command.readHIDReport packet = some (next, .more))
    (hrest : Reassembled data (first + 1) next packets) :
    Reassembled data first command (packet :: packets) := by
  obtain ⟨hframes, last, hreports, hbuf⟩ := hrest
  refine ⟨?_, last, ?_, hbuf⟩
  · intro i h
    cases i with
    | zero => exact hframed
    | succ i =>
        have hi := hframes i (Nat.lt_of_succ_lt_succ h)
        rw [Nat.add_assoc, Nat.add_comm 1 i] at hi
        exact hi
  · cases packets with
    | nil => simp [DeviceCommand.readReports] at hreports
    | cons packet packets =>
        rw [DeviceCommand.readReports, hread]
        simp only [Option.bind_some, hreports, Option.map_some, List.length_cons,
          Nat.add_sub_cancel]
        rfl

/-- The first packet opens the buffer. -/
theorem readHIDReport_first {command : DeviceCommand} (hfresh : command.buf = []) {data : Bytes}
    (hlength : data.length ≤ 65535) (stream : Bytes) :
    command.readHIDReport (packetHeader 0 ++ (be16 (UInt16.ofNat data.length) ++ stream)) =
      some ((DeviceCommand.holding data 0).readBody stream) := by
  have hsize : (UInt16.ofNat data.length).toNat = data.length := by
    rw [UInt16.toNat_ofNat', Nat.mod_eq_of_lt (by omega)]
  rw [DeviceCommand.readHIDReport, readReportHeader_packetHeader]
  simp [hfresh, hsize, DeviceCommand.holding]

theorem readHIDReport_later (command : DeviceCommand) {index : ℕ} (hpositive : 0 < index)
    (hindex : index ≤ 65535) (stream : Bytes) :
    command.readHIDReport (packetHeader index ++ stream) = some (command.readBody stream) := by
  have hne : UInt16.ofNat index ≠ 0 := by
    rw [← UInt16.toNat_inj.ne, UInt16.toNat_ofNat', Nat.mod_eq_of_lt (by omega)]
    exact Nat.ne_of_gt hpositive
  rw [DeviceCommand.readHIDReport, readReportHeader_packetHeader, Option.bind_some]
  simp [hne]

/-- One round of the loop, after the first. -/
theorem transportLoop_later {data : Bytes} {offset : ℕ} {packets : List Bytes}
    (hpackets : packets ≠ []) :
    transportLoop data offset packets =
      if offset < data.length then
        transportLoop data (offset + ((data.drop offset).take 59).length)
          (packets ++ [packetHeader packets.length ++ leftJustified ((data.drop offset).take 59) 59])
      else packets := by
  have hempty : packets.isEmpty = false := by simpa using hpackets
  have hpacket := leftJustified_append (packetHeader packets.length) ((data.drop offset).take 59) 59
  rw [transportLoop]
  simp only [hempty, Bool.false_eq_true, if_false, Nat.reduceSub, ← hpacket, length_packetHeader,
    Nat.reduceAdd]

theorem transport_eq {data : Bytes} (hpositive : 1 ≤ data.length) :
    transport data =
      transportLoop data (data.take 57).length
        [packetHeader 0 ++ (be16 (UInt16.ofNat data.length) ++ leftJustified (data.take 57) 57)] := by
  have hpacket := leftJustified_append (packetHeader 0 ++ be16 (UInt16.ofNat data.length))
    (data.take 57) 57
  rw [transport, transportLoop, if_pos (Nat.lt_of_lt_of_le Nat.zero_lt_one hpositive)]
  simp only [List.isEmpty_nil, if_true, Nat.reduceSub, List.drop_zero, Nat.zero_add,
    List.nil_append, List.length_nil, ← List.append_assoc, ← hpacket]
  rfl

/-- The loop stops when all is sent. -/
theorem transportLoop_of_le {data : Bytes} {offset : ℕ} (h : data.length ≤ offset)
    (packets : List Bytes) : transportLoop data offset packets = packets := by
  rw [transportLoop, if_neg (Nat.not_lt.mpr h)]

/-- The packets that the loop adds carry what is left of the data. -/
theorem reassembled_transportLoop {data : Bytes} (hlength : data.length ≤ 65535) {offset : ℕ}
    {packets : List Bytes} (hpackets : packets ≠ []) (hoffset : packets.length ≤ offset)
    (hmore : offset < data.length) :
    ∃ rest, transportLoop data offset packets = packets ++ rest ∧
      Reassembled data packets.length (DeviceCommand.holding data offset) rest := by
  induction hleft : data.length - offset using Nat.strongRecOn generalizing offset packets with
  | ind left ih =>
      have hpart : ((data.drop offset).take 59).length = min 59 (data.length - offset) := by
        rw [List.length_take, List.length_drop]
      have hread := readHIDReport_later (DeviceCommand.holding data offset)
        (List.length_pos_iff.mpr hpackets) (by omega) (leftJustified ((data.drop offset).take 59) 59)
      have hframed : Framed packets.length
          (packetHeader packets.length ++ leftJustified ((data.drop offset).take 59) 59) :=
        framed_packetHeader (by omega) (length_leftJustified (by omega))
      rw [DeviceCommand.readBody_holding (Nat.le_of_lt hmore) hlength] at hread
      rw [transportLoop_later hpackets, if_pos hmore]
      generalize (data.drop offset).take 59 = part at *
      by_cases hnext : offset + part.length < data.length
      · rw [if_pos hnext] at hread
        obtain ⟨rest, hloop, hrest⟩ := @ih (data.length - (offset + part.length)) (by omega) _
          (packets ++ [packetHeader packets.length ++ leftJustified part 59])
          (List.append_ne_nil_of_right_ne_nil packets (List.cons_ne_nil _ []))
          (by rw [List.length_append, List.length_singleton]; omega) hnext rfl
        rw [List.length_append, List.length_singleton] at hrest
        refine ⟨_ :: rest, ?_, reassembled_cons hframed hread hrest⟩
        rw [hloop, List.append_assoc, List.singleton_append]
      · have hall : offset + part.length = data.length := by omega
        rw [if_neg hnext, hall] at hread
        rw [transportLoop_of_le (Nat.le_of_eq hall.symm)]
        exact ⟨_, rfl, reassembled_last hframed hread⟩

theorem reassembled_transport {data : Bytes} {command : DeviceCommand}
    (hpositive : 1 ≤ data.length) (hlength : data.length ≤ 65535) (hfresh : command.buf = []) :
    Reassembled data 0 command (transport data) := by
  have hpart : (data.take 57).length = min 57 data.length := List.length_take
  have hread := readHIDReport_first hfresh hlength (leftJustified (data.take 57) 57)
  have hframed : Framed 0 (packetHeader 0 ++
      (be16 (UInt16.ofNat data.length) ++ leftJustified (data.take 57) 57)) := by
    apply framed_packetHeader (Nat.zero_le _)
    rw [List.length_append, length_leftJustified (by omega)]
    rfl
  have hbody := @DeviceCommand.readBody_holding data 0 57 (Nat.zero_le _) hlength
  rw [List.drop_zero, Nat.zero_add] at hbody
  rw [hbody] at hread
  rw [transport_eq hpositive]
  generalize data.take 57 = part at *
  by_cases hnext : part.length < data.length
  · rw [if_pos hnext] at hread
    obtain ⟨rest, hloop, hrest⟩ := @reassembled_transportLoop data hlength part.length
      [packetHeader 0 ++ (be16 (UInt16.ofNat data.length) ++ leftJustified part 57)]
      (List.cons_ne_nil _ _) (by rw [List.length_singleton]; omega) hnext
    rw [hloop]
    exact reassembled_cons hframed hread hrest
  · have hall : part.length = data.length := by omega
    rw [if_neg hnext, hall] at hread
    rw [transportLoop_of_le (Nat.le_of_eq hall.symm)]
    exact reassembled_last hframed hread

/-- What the packets are read as is what was sent, whatever its length. -/
theorem transport_reassembled (data : Bytes) (command : DeviceCommand)
    (hpositive : 1 ≤ data.length) (hlength : data.length ≤ 65535) (hfresh : command.buf = []) :
    Reassembled data 0 command (transport data) :=
  reassembled_transport hpositive hlength hfresh

/-- Sixty bytes take two packets. -/
theorem transport_reassembled_sixty :
    Reassembled (List.replicate 60 1) 0 {} (transport (List.replicate 60 1)) :=
  transport_reassembled (List.replicate 60 1) {} (by decide) (by decide) rfl

end GreenWallet.Ledger
