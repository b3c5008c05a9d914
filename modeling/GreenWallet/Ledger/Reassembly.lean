import GreenWallet.Ledger.Framing
import GreenWallet.Library.Reactive

/-!
# Reports in any order

With assertions off nothing is asked of the index of a report but whether it is zero, and a
first report sizes the buffer whatever has come before. The members that count what is to come
are not initialised: they have some value before the first report.
-/
namespace GreenWallet.Ledger
open GreenWallet.Library

def reportIndex (report : Bytes) : ℕ := (readUInt16 (report.drop 3)).1.toNat

/-- The length that a first report declares. -/
def reportLength (report : Bytes) : ℕ := (readUInt16 (report.drop 5)).1.toNat

/-- A report of the default channel and with the tag of a response. -/
def IsReport (report : Bytes) : Prop :=
  report.length = 64 ∧ (readUInt16 report).1 = 0x0101 ∧ (readUInt8 (report.drop 2)).1 = 0x05

/-- `QByteArray::resize`. -/
def resize (data : Bytes) (size : ℕ) : Bytes := leftJustified (data.take size) size

namespace DeviceCommand

/-- The command as `readHIDReport` comes to the call of `readRawData`, and what is left of the
stream. -/
def opened (command : DeviceCommand) (report : Bytes) : DeviceCommand × Bytes :=
  if reportIndex report = 0 then
    ({ length := (readUInt16 (report.drop 5)).1
       offset := 0
       buf := resize command.buf (reportLength report) }, report.drop 7)
  else (command, report.drop 5)

/-- `readHIDReport` with assertions off. -/
def takeReport (command : DeviceCommand) (report : Bytes) : DeviceCommand × Received :=
  (command.opened report).1.readBody (command.opened report).2

/-- How many bytes `readRawData` writes. -/
def copies (command : DeviceCommand) (report : Bytes) : ℕ :=
  min (command.opened report).1.length.toNat (command.opened report).2.length

/-- They are written behind the offset, within the buffer. -/
def WritesInside (command : DeviceCommand) (report : Bytes) : Prop :=
  (command.opened report).1.offset.toNat + command.copies report ≤
    (command.opened report).1.buf.length

instance (command : DeviceCommand) (report : Bytes) : Decidable (command.WritesInside report) :=
  inferInstanceAs (Decidable (_ ≤ _))

theorem readUInt16_of_length {stream : Bytes} (h : 2 ≤ stream.length) :
    (readUInt16 stream).2 = stream.drop 2 := by
  match stream, h with
  | _ :: _ :: rest, _ => rfl

theorem readUInt8_of_length {stream : Bytes} (h : 1 ≤ stream.length) :
    (readUInt8 stream).2 = stream.drop 1 := by
  match stream, h with
  | _ :: rest, _ => rfl

/-- Where the assertions hold, `readHIDReport` does the same. -/
theorem readHIDReport_eq {command : DeviceCommand} {report : Bytes} (hreport : IsReport report)
    (hfresh : reportIndex report = 0 → command.buf = []) :
    command.readHIDReport report = some (command.takeReport report) := by
  obtain ⟨hlength, hchannel, htag⟩ := hreport
  have hheader : readReportHeader report = some ((readUInt16 (report.drop 3)).1, report.drop 5) := by
    have hrest : (readUInt16 report).2 = report.drop 2 := readUInt16_of_length (by omega)
    have htagRest : (readUInt8 (report.drop 2)).2 = report.drop 3 := by
      rw [readUInt8_of_length (by rw [List.length_drop]; omega), List.drop_drop]
    have hindexRest : (readUInt16 (report.drop 3)).2 = report.drop 5 := by
      rw [readUInt16_of_length (by rw [List.length_drop]; omega), List.drop_drop]
    simp only [readReportHeader, hrest, htagRest, hindexRest, hchannel, htag, and_self, if_true]
  have hzero : (readUInt16 (report.drop 3)).1 = 0 ↔ reportIndex report = 0 := by
    rw [reportIndex, ← UInt16.toNat_inj]
    rfl
  rw [readHIDReport, hheader, Option.bind_some]
  simp only [hzero]
  by_cases hindex : reportIndex report = 0
  · have hbody : (readUInt16 (report.drop 5)).2 = report.drop 7 := by
      rw [readUInt16_of_length (by rw [List.length_drop]; omega), List.drop_drop]
    have hsized : resize [] (reportLength report) =
        List.replicate (readUInt16 (report.drop 5)).1.toNat 0 := by
      rw [resize, List.take_nil, leftJustified, List.nil_append, List.length_nil, Nat.sub_zero,
        reportLength]
    rw [if_pos hindex, hfresh hindex, List.isEmpty_nil, if_pos rfl, hbody, takeReport, opened,
      if_pos hindex, hfresh hindex, hsized]
  · rw [if_neg hindex, takeReport, opened, if_neg hindex]

end DeviceCommand

/-- A command and the reports it has read. -/
structure Reassembly where
  command : DeviceCommand
  /-- Their indexes. -/
  indexes : List ℕ := []
  /-- The length that the last first report has declared. -/
  declared : ℕ := 0
  copied : ℕ := 0
  /-- Something has been written outside the buffer. -/
  outside : Bool := false
  /-- What `readAPDUResponse` has been called with. -/
  response : Option Bytes := none

namespace Reassembly

def step (s : Reassembly) (report : Bytes) : Reassembly :=
  let (command, received) := s.command.takeReport report
  { command
    indexes := s.indexes ++ [reportIndex report]
    declared := if reportIndex report = 0 then reportLength report else s.declared
    copied := s.copied + s.command.copies report
    outside := s.outside || !decide (s.command.WritesInside report)
    response := match received with
      | .more => none
      | .response data => some data }

end Reassembly

/-- Reports are read until there is a response. -/
def reassembly : Reactive Reassembly Bytes Empty where
  enabled s report := s.response = none ∧ IsReport report
  next := Reassembly.step
  emits _ _ := []

namespace Reassembly

/-- Nothing has been written outside the buffer; the reports that have been taken have the
indexes 0, 1 and so on; and a response has the declared length, two at least, all of which has
been copied. -/
structure Robust (s : Reassembly) : Prop where
  inside : s.outside = false
  consecutive : s.indexes = List.range s.indexes.length
  complete : s.response ≠ none → 2 ≤ s.declared ∧ s.copied = s.declared

/-- The report is the next one, and the first declares two bytes at least. -/
def InOrder (s : Reassembly) (report : Bytes) : Prop :=
  reportIndex report = s.indexes.length ∧ (reportIndex report = 0 → 2 ≤ reportLength report)

/-- What the counts of the command say while reports come in order. -/
structure Counted (s : Reassembly) : Prop where
  fresh : s.indexes = [] → s.copied = 0
  offset : s.indexes ≠ [] → s.command.offset.toNat = s.copied
  length : s.indexes ≠ [] → s.copied + s.command.length.toNat = s.declared
  buf : s.indexes ≠ [] → s.command.buf.length = s.declared
  declared : s.indexes ≠ [] → 2 ≤ s.declared
  bounded : s.declared ≤ 65535

end Reassembly

namespace DeviceCommand

/-- What `readBody` leaves of the counts. -/
theorem length_readBody (command : DeviceCommand) {stream : Bytes} (hstream : stream.length ≤ 59) :
    (command.readBody stream).1.length.toNat =
      command.length.toNat - min command.length.toNat stream.length := by
  have hlt := command.length.toNat_lt
  simp only [readBody, UInt16.toNat_sub, UInt16.toNat_ofNat', List.length_take]
  omega

theorem offset_readBody (command : DeviceCommand) {stream : Bytes} (hstream : stream.length ≤ 59)
    (hoffset : command.offset.toNat + min command.length.toNat stream.length ≤ 65535) :
    (command.readBody stream).1.offset.toNat =
      command.offset.toNat + min command.length.toNat stream.length := by
  simp only [readBody, UInt16.toNat_add, UInt16.toNat_ofNat', List.length_take]
  omega

theorem buf_readBody (command : DeviceCommand) {stream : Bytes}
    (hinside : command.offset.toNat + min command.length.toNat stream.length ≤
      command.buf.length) :
    (command.readBody stream).1.buf.length = command.buf.length := by
  simp only [readBody, List.length_append, List.length_take, List.length_drop]
  omega

theorem readBody_snd (command : DeviceCommand) (stream : Bytes) :
    (command.readBody stream).2 =
      if 0 < (command.readBody stream).1.length.toNat then .more
      else .response (command.readBody stream).1.buf := rfl

@[simp] theorem length_resize (data : Bytes) (size : ℕ) : (resize data size).length = size := by
  rw [resize, leftJustified, List.length_append, List.length_replicate]
  have hle := List.length_take_le size data
  omega

theorem length_opened {report : Bytes} (hreport : IsReport report) (command : DeviceCommand) :
    57 ≤ (command.opened report).2.length ∧ (command.opened report).2.length ≤ 59 := by
  rw [opened]
  split_ifs <;> simp [hreport.1]

end DeviceCommand

namespace Reassembly
variable {s : Reassembly} {report : Bytes}

/-- A first report starts the counts anew. -/
theorem opened_first (hfirst : reportIndex report = 0) (command : DeviceCommand) :
    (command.opened report).1.length.toNat = reportLength report ∧
      (command.opened report).1.offset.toNat = 0 ∧
      (command.opened report).1.buf.length = reportLength report := by
  rw [DeviceCommand.opened, if_pos hfirst]
  exact ⟨rfl, rfl, DeviceCommand.length_resize _ _⟩

theorem reportLength_le (report : Bytes) : reportLength report ≤ 65535 := by
  have hlt := (readUInt16 (report.drop 5)).1.toNat_lt
  rw [reportLength]
  omega

/-- What a report that is in order finds. -/
theorem opened_inOrder (hs : s.Counted) (hinOrder : s.InOrder report) :
    (s.command.opened report).1.offset.toNat = s.copied ∧
      s.copied + (s.command.opened report).1.length.toNat = (s.step report).declared ∧
      (s.command.opened report).1.buf.length = (s.step report).declared ∧
      2 ≤ (s.step report).declared ∧ (s.step report).declared ≤ 65535 := by
  obtain ⟨hindex, hlength⟩ := hinOrder
  have hdeclared : (s.step report).declared =
      if reportIndex report = 0 then reportLength report else s.declared := rfl
  by_cases hfirst : reportIndex report = 0
  · obtain ⟨hl, ho, hb⟩ := opened_first hfirst s.command
    have hnone : s.indexes = [] := List.length_eq_zero_iff.mp (hindex.symm.trans hfirst)
    rw [hdeclared, if_pos hfirst, hl, ho, hb, hs.fresh hnone]
    exact ⟨rfl, Nat.zero_add _, rfl, hlength hfirst, reportLength_le report⟩
  · have hsome : s.indexes ≠ [] := by
      intro hnone
      rw [hnone] at hindex
      exact hfirst hindex
    rw [hdeclared, if_neg hfirst, DeviceCommand.opened, if_neg hfirst]
    exact ⟨hs.offset hsome, hs.length hsome, hs.buf hsome, hs.declared hsome, hs.bounded⟩

theorem response_step (s : Reassembly) (report : Bytes) :
    (s.step report).response ≠ none ↔ (s.step report).command.length.toNat = 0 := by
  have hresponse : (s.step report).response = match (s.command.takeReport report).2 with
      | .more => none
      | .response data => some data := rfl
  have hcommand : (s.step report).command = (s.command.takeReport report).1 := rfl
  rw [hresponse, hcommand, DeviceCommand.takeReport, DeviceCommand.readBody_snd]
  split_ifs with hmore
  · exact iff_of_false (fun h => h rfl) (Nat.ne_of_gt hmore)
  · exact iff_of_true (Option.some_ne_none _) (Nat.eq_zero_of_not_pos hmore)

/-- A report in order writes inside the buffer, and completes the response exactly if nothing
is missing then. -/
theorem step_inOrder (hs : s.Counted) (hreport : IsReport report) (hinOrder : s.InOrder report) :
    s.command.WritesInside report ∧ (s.step report).Counted ∧
      ((s.step report).response ≠ none →
        2 ≤ (s.step report).declared ∧ (s.step report).copied = (s.step report).declared) := by
  obtain ⟨hoffset, hlength, hbuf, htwo, hbound⟩ := opened_inOrder hs hinOrder
  obtain ⟨-, hstream⟩ := DeviceCommand.length_opened hreport s.command
  have hcopies : s.command.copies report =
      min (s.command.opened report).1.length.toNat (s.command.opened report).2.length := rfl
  have hcopied : (s.step report).copied = s.copied + s.command.copies report := rfl
  have hcommand : (s.step report).command =
      ((s.command.opened report).1.readBody (s.command.opened report).2).1 := rfl
  have hinside : s.command.WritesInside report := by
    rw [DeviceCommand.WritesInside, hoffset, hbuf, ← hlength, hcopies]
    omega
  have hlengthNext := DeviceCommand.length_readBody (s.command.opened report).1 hstream
  have hoffsetNext := DeviceCommand.offset_readBody (s.command.opened report).1 hstream
    (by omega)
  have hbufNext := DeviceCommand.buf_readBody (s.command.opened report).1 hinside
  rw [← hcommand] at hlengthNext hoffsetNext hbufNext
  have hsum : (s.step report).copied + (s.step report).command.length.toNat =
      (s.step report).declared := by
    omega
  refine ⟨hinside, ⟨fun hnone => ?_, fun _ => by omega, fun _ => hsum, fun _ => by omega,
    fun _ => htwo, hbound⟩, fun hresponse => ⟨htwo, ?_⟩⟩
  · exact absurd hnone (List.append_ne_nil_of_right_ne_nil _ (List.cons_ne_nil _ _))
  · rw [response_step] at hresponse
    omega

theorem consecutive_step (hs : s.Robust) :
    (s.step report).indexes = List.range (s.step report).indexes.length ↔
      reportIndex report = s.indexes.length := by
  have hindexes : (s.step report).indexes = s.indexes ++ [reportIndex report] := rfl
  rw [hindexes, List.length_append, List.length_singleton, List.range_succ]
  constructor
  · intro h
    have hlast := (List.append_inj' h rfl).2
    exact List.singleton_inj.mp hlast
  · intro h
    rw [h, ← hs.consecutive]

/-- A first report that declares less than two bytes is a response at once. -/
theorem response_short (hreport : IsReport report) (hfirst : reportIndex report = 0)
    (hshort : reportLength report < 2) : (s.step report).response ≠ none := by
  obtain ⟨hl, -, -⟩ := opened_first hfirst s.command
  obtain ⟨hge, hstream⟩ := DeviceCommand.length_opened hreport s.command
  have hcommand : (s.step report).command =
      ((s.command.opened report).1.readBody (s.command.opened report).2).1 := rfl
  rw [response_step, hcommand, DeviceCommand.length_readBody _ hstream, hl]
  omega

theorem robust_step (hrobust : s.Robust) (hs : s.Counted) (hreport : IsReport report) :
    (s.step report).Robust ↔ s.InOrder report := by
  constructor
  · intro h
    refine ⟨(consecutive_step hrobust).mp h.consecutive, fun hfirst => ?_⟩
    by_contra hshort
    have hdeclared : (s.step report).declared = reportLength report := if_pos hfirst
    have htwo := (h.complete (response_short hreport hfirst (Nat.lt_of_not_le hshort))).1
    rw [hdeclared] at htwo
    exact hshort htwo
  · intro hinOrder
    obtain ⟨hinside, -, hcomplete⟩ := step_inOrder hs hreport hinOrder
    have houtside : (s.step report).outside =
        (s.outside || !decide (s.command.WritesInside report)) := rfl
    refine ⟨?_, (consecutive_step hrobust).mpr hinOrder.1, hcomplete⟩
    rw [houtside, hrobust.inside, decide_eq_true hinside]
    rfl

end Reassembly

/-! ## The buffer -/

/-- What is missing has room behind the offset. -/
def Reassembly.Sized (s : Reassembly) : Prop :=
  s.outside = false ∧
    s.command.offset.toNat + s.command.length.toNat ≤ s.command.buf.length ∧
    s.command.buf.length ≤ 65535

theorem Reassembly.sized_step {s : Reassembly} {report : Bytes}
    (hs : s.Sized ∨ s.outside = false ∧ reportIndex report = 0) (hreport : IsReport report) :
    (s.step report).Sized := by
  have hopened : s.outside = false ∧
      (s.command.opened report).1.offset.toNat + (s.command.opened report).1.length.toNat ≤
        (s.command.opened report).1.buf.length ∧
      (s.command.opened report).1.buf.length ≤ 65535 := by
    by_cases hfirst : reportIndex report = 0
    · obtain ⟨hl, ho, hb⟩ := opened_first hfirst s.command
      have hle := reportLength_le report
      exact ⟨hs.elim (fun h => h.1) (fun h => h.1), by omega, by omega⟩
    · rw [DeviceCommand.opened, if_neg hfirst]
      exact hs.resolve_right fun h => hfirst h.2
  obtain ⟨houtside, hroom, hbound⟩ := hopened
  obtain ⟨-, hstream⟩ := DeviceCommand.length_opened hreport s.command
  have hinside : s.command.WritesInside report := by
    rw [DeviceCommand.WritesInside, DeviceCommand.copies]
    omega
  have hcommand : (s.step report).command =
      ((s.command.opened report).1.readBody (s.command.opened report).2).1 := rfl
  have hnext : (s.step report).outside =
      (s.outside || !decide (s.command.WritesInside report)) := rfl
  refine ⟨by rw [hnext, houtside, decide_eq_true hinside]; rfl, ?_, ?_⟩
  · rw [hcommand, DeviceCommand.length_readBody _ hstream,
      DeviceCommand.offset_readBody _ hstream (by omega), DeviceCommand.buf_readBody _ (by omega)]
    omega
  · rw [hcommand, DeviceCommand.buf_readBody _ (by omega)]
    exact hbound

/-- In whatever order reports come, once the buffer is sized nothing is written outside. -/
theorem inside_of_first {s : Reassembly} (hs : s.outside = false) {first : Bytes}
    {reports : List Bytes} (hfirst : reportIndex first = 0)
    (hvalid : reassembly.Valid s (first :: reports)) :
    (reassembly.run s (first :: reports)).outside = false := by
  rw [Reactive.run_cons]
  have hsized : (reassembly.next s first).Sized :=
    Reassembly.sized_step (.inr ⟨hs, hfirst⟩) hvalid.1.2
  exact (Reactive.run_invariant (I := Reassembly.Sized)
    (fun s report h he => Reassembly.sized_step (.inl h) he.2) hsized hvalid.2).1

/-- A command is as it is made, but for its counts, which may be any. -/
def Reassembly.initial (length offset : UInt16) : Reassembly where
  command := { length, offset }

/-- Reports are read safely exactly while they come in order. -/
theorem reassembles_iff (length offset : UInt16) {reports : List Bytes}
    (hreports : reassembly.Valid (.initial length offset) reports) :
    reassembly.Always Reassembly.Robust (.initial length offset) reports ↔
      reassembly.Along Reassembly.InOrder (.initial length offset) reports := by
  apply Reactive.always_iff_along_of_keeps (J := Reassembly.Counted) (V := reassembly.enabled)
  · intro s report hs he hinOrder
    exact (Reassembly.step_inOrder hs he.2 hinOrder).2.1
  · intro s report hs he hrobust
    exact Reassembly.robust_step hrobust hs he.2
  · exact ⟨fun _ => rfl, fun h => absurd rfl h, fun h => absurd rfl h, fun h => absurd rfl h,
      fun h => absurd rfl h, Nat.zero_le _⟩
  · exact ⟨rfl, rfl, fun h => absurd rfl h⟩
  · exact hreports

instance (report : Bytes) : Decidable (IsReport report) := inferInstanceAs (Decidable (_ ∧ _))

instance (s : Reassembly) (report : Bytes) : Decidable (reassembly.enabled s report) :=
  inferInstanceAs (Decidable (_ ∧ _))

/-- A report with an index, followed by these bytes and nothing. -/
def reportWith (index : UInt8) (data : Bytes) : Bytes :=
  leftJustified ([0x01, 0x01, 0x05, 0, index] ++ data) 64

theorem reassembles_iff_status :
    reassembly.Always Reassembly.Robust (.initial 7 3) [reportWith 0 [0, 2, 0x90, 0]] ↔
      reassembly.Along Reassembly.InOrder (.initial 7 3) [reportWith 0 [0, 2, 0x90, 0]] :=
  reassembles_iff 7 3 (by decide)

/-- The first report has the index 1, the second has the index 5, or one byte is declared. -/
theorem not_reassembles :
    (reassembly.Valid (.initial 7 3) [reportWith 1 []] ∧
      ¬ reassembly.Always Reassembly.Robust (.initial 7 3) [reportWith 1 []]) ∧
    (reassembly.Valid (.initial 7 3) [reportWith 0 [0, 60], reportWith 5 []] ∧
      ¬ reassembly.Always Reassembly.Robust (.initial 7 3)
        [reportWith 0 [0, 60], reportWith 5 []]) ∧
    reassembly.Valid (.initial 7 3) [reportWith 0 [0, 1, 0x90]] ∧
      ¬ reassembly.Always Reassembly.Robust (.initial 7 3) [reportWith 0 [0, 1, 0x90]] := by
  refine ⟨⟨by decide, fun h => ?_⟩, ⟨by decide, fun h => ?_⟩, by decide, fun h => ?_⟩
  · exact absurd h.last.inside (by decide)
  · exact absurd h.last.consecutive (by decide)
  · exact absurd (h.last.complete (by decide)).1 (by decide)

end GreenWallet.Ledger
