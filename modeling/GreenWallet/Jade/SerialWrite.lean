import Mathlib.Data.List.Basic
import Mathlib.Data.Nat.Find
import Mathlib.Tactic.Push

/-!
# Writing to the serial port

`writeImpl` hands the port a range of memory until it has counted as many bytes as there are
to write. The port takes as much of a range as it can. Each range starts behind what has
been taken, but is as long as all of the data.
-/
namespace GreenWallet.Jade

/-- A byte array and what lies around it, at an address counted from its first byte. -/
structure Memory where
  data : List UInt8
  around : ℤ → UInt8

namespace Memory

def byte (memory : Memory) (address : ℤ) : UInt8 :=
  if 0 ≤ address then memory.data.getD address.toNat (memory.around address)
  else memory.around address

def bytes (memory : Memory) (address : ℤ) (count : ℕ) : List UInt8 :=
  (List.range count).map fun (i : ℕ) => memory.byte (address + i)

@[simp] theorem bytes_zero (memory : Memory) (address : ℤ) : memory.bytes address 0 = [] := rfl

theorem bytes_data (memory : Memory) : memory.bytes 0 memory.data.length = memory.data := by
  apply List.ext_getElem
  · rw [bytes, List.length_map, List.length_range]
  · intro i hi hdata
    simp only [bytes, byte, List.getElem_map, List.getElem_range, Int.zero_add, Int.toNat_natCast,
      Int.natCast_nonneg, if_true, List.getD_eq_getElem?_getD, List.getElem?_eq_getElem hdata,
      Option.getD_some]

end Memory

/-- What `write` is called with, from the first byte of the data. -/
structure Range where
  offset : ℤ
  length : ℕ
deriving DecidableEq

structure SerialWrite where
  written : Int32 := 0
  wire : List UInt8 := []
  ranges : List Range := []
  disconnected : Bool := false
  returned : Option Int32 := none
deriving DecidableEq

/-- The condition of the loop and, where it holds, one round; `wrote` is the port's answer. -/
def writeRound (memory : Memory) (s : SerialWrite) (wrote : ℤ) : SerialWrite :=
  if s.returned.isSome then s
  else if s.written.toInt = memory.data.length then { s with returned := some s.written }
  else
    let ranges := s.ranges ++ [⟨s.written.toInt, memory.data.length⟩]
    if wrote = -1 then
      { s with ranges := ranges, disconnected := true, returned := some s.written }
    else
      { s with
        written := Int32.ofInt (s.written.toInt + wrote)
        wire := s.wire ++ memory.bytes s.written.toInt wrote.toNat
        ranges := ranges }

/-- `writeImpl` after `n` rounds, the port giving one answer a round. -/
def writeImpl (memory : Memory) (answers : ℕ → ℤ) : ℕ → SerialWrite
  | 0 => {}
  | n + 1 => writeRound memory (writeImpl memory answers n) (answers n)

/-- The port is only handed what is in the data. -/
def Range.Inside (range : Range) (data : List UInt8) : Prop :=
  0 ≤ range.offset ∧ range.offset + range.length ≤ data.length

/-- The data goes onto the wire as it is, out of the data only, and its length is reported. -/
structure WritesAll (memory : Memory) (answers : ℕ → ℤ) : Prop where
  inside : ∀ n, ∀ range ∈ (writeImpl memory answers n).ranges, range.Inside memory.data
  returns : ∃ n reported, (writeImpl memory answers n).returned = some reported ∧
    reported.toInt = memory.data.length ∧ (writeImpl memory answers n).wire = memory.data

/-- A port that takes bytes at all takes them all at the first time. -/
def TakesAllAtOnce (data : List UInt8) (answers : ℕ → ℤ) : Prop :=
  data = [] ∨ data.length ≤ Int32.maxValue.toInt ∧
    ∃ n, answers n = data.length ∧ ∀ i < n, answers i = 0

variable {memory : Memory} {answers : ℕ → ℤ} {s : SerialWrite} {wrote : ℤ}

theorem toInt_ofInt_of_count {count : ℤ} (hnonneg : 0 ≤ count)
    (hbound : count ≤ Int32.maxValue.toInt) : (Int32.ofInt count).toInt = count := by
  rw [Int32.toInt_maxValue] at hbound
  exact Int32.toInt_ofInt_of_le (by omega) (by omega)

theorem writeRound_of_returned (hreturned : s.returned.isSome) : writeRound memory s wrote = s :=
  if_pos hreturned

theorem writeRound_of_written (hreturned : s.returned = none)
    (hwritten : s.written.toInt = memory.data.length) :
    writeRound memory s wrote = { s with returned := some s.written } := by
  rw [writeRound, hreturned, if_neg (by simp), if_pos hwritten]

theorem writeRound_of_accepted (hreturned : s.returned = none)
    (hwritten : s.written.toInt ≠ memory.data.length) (hwrote : 0 ≤ wrote) :
    writeRound memory s wrote =
      { s with
        written := Int32.ofInt (s.written.toInt + wrote)
        wire := s.wire ++ memory.bytes s.written.toInt wrote.toNat
        ranges := s.ranges ++ [⟨s.written.toInt, memory.data.length⟩] } := by
  have hdisconnected : wrote ≠ -1 := by omega
  rw [writeRound, hreturned, if_neg (by simp), if_neg hwritten, if_neg hdisconnected]

/-- Nothing changes once the function has returned. -/
theorem writeImpl_of_returned {n m : ℕ} (hreturned : (writeImpl memory answers n).returned.isSome)
    (hle : n ≤ m) : writeImpl memory answers m = writeImpl memory answers n := by
  induction m, hle using Nat.le_induction with
  | base => rfl
  | succ m _ ih =>
      rw [writeImpl, ih]
      exact writeRound_of_returned hreturned

/-- As long as the port takes nothing, the same range is handed to it. -/
theorem writeImpl_of_zero (hdata : memory.data ≠ []) {n : ℕ} (hzero : ∀ i < n, answers i = 0) :
    writeImpl memory answers n =
      { ranges := List.replicate n ⟨0, memory.data.length⟩ } := by
  induction n with
  | zero => rfl
  | succ n ih =>
      have hprevious := ih fun i hi => hzero i (Nat.lt_succ_of_lt hi)
      have hlength : (0 : Int32).toInt ≠ memory.data.length := by
        rw [Int32.toInt_zero]
        have hpos := List.length_pos_iff.mpr hdata
        omega
      rw [writeImpl, hprevious, hzero n (Nat.lt_succ_self n)]
      rw [writeRound_of_accepted rfl hlength (Int.le_refl 0)]
      rw [List.replicate_succ']
      rfl

/-- The first bytes that the port takes. -/
theorem writeImpl_of_first (hdata : memory.data ≠ []) {n : ℕ} (hzero : ∀ i < n, answers i = 0)
    (hfirst : 0 ≤ answers n) :
    writeImpl memory answers (n + 1) =
      { written := Int32.ofInt (answers n)
        wire := memory.bytes 0 (answers n).toNat
        ranges := List.replicate (n + 1) ⟨0, memory.data.length⟩ } := by
  have hlength : (0 : Int32).toInt ≠ memory.data.length := by
    rw [Int32.toInt_zero]
    have hpos := List.length_pos_iff.mpr hdata
    omega
  rw [writeImpl, writeImpl_of_zero hdata hzero, writeRound_of_accepted rfl hlength hfirst]
  rw [List.replicate_succ', Int32.toInt_zero, Int.zero_add, List.nil_append]

theorem inside_of_mem_replicate {data : List UInt8} {n : ℕ} {range : Range}
    (hrange : range ∈ List.replicate n ⟨0, data.length⟩) : range.Inside data := by
  rw [List.eq_of_mem_replicate hrange]
  exact ⟨Int.le_refl 0, Int.le_of_eq (Int.zero_add _)⟩

theorem writesAll_nil (hdata : memory.data = []) : WritesAll memory answers := by
  have hfirst : writeImpl memory answers 1 = { returned := some 0 } :=
    writeRound_of_written rfl (by rw [hdata]; rfl)
  constructor
  · intro n range hrange
    have hempty : (writeImpl memory answers n).ranges = [] := by
      cases n with
      | zero => rfl
      | succ n => rw [writeImpl_of_returned (by rw [hfirst]; rfl) (Nat.succ_pos n), hfirst]
    rw [hempty] at hrange
    exact absurd hrange List.not_mem_nil
  · exact ⟨1, 0, by rw [hfirst], by rw [hdata]; rfl, by rw [hfirst, hdata]⟩

theorem writesAll_of_all_at_once (hdata : memory.data ≠ [])
    (hbound : memory.data.length ≤ Int32.maxValue.toInt) {n : ℕ}
    (hall : answers n = memory.data.length) (hzero : ∀ i < n, answers i = 0) :
    WritesAll memory answers := by
  have hwritten := toInt_ofInt_of_count (Int.natCast_nonneg _) hbound
  have hfirst := writeImpl_of_first hdata hzero (by omega)
  rw [hall, Int.toNat_natCast, memory.bytes_data] at hfirst
  have hlast : writeImpl memory answers (n + 2) =
      { writeImpl memory answers (n + 1) with
        returned := some (Int32.ofInt memory.data.length) } := by
    rw [writeImpl, hfirst]
    exact writeRound_of_written rfl hwritten
  constructor
  · intro m range hrange
    rcases Nat.lt_or_ge n m with hlt | hle
    · have hranges : (writeImpl memory answers m).ranges =
          List.replicate (n + 1) ⟨0, memory.data.length⟩ := by
        rcases Nat.lt_or_ge (n + 1) m with hlt' | hle
        · rw [writeImpl_of_returned (by rw [hlast]; rfl) hlt', hlast, hfirst]
        · rw [Nat.le_antisymm hle hlt, hfirst]
      rw [hranges] at hrange
      exact inside_of_mem_replicate hrange
    · rw [writeImpl_of_zero hdata fun i hi => hzero i (Nat.lt_of_lt_of_le hi hle)] at hrange
      exact inside_of_mem_replicate hrange
  · exact ⟨n + 2, _, by rw [hlast], hwritten, by rw [hlast, hfirst]⟩

/-- After a first part of the data the port is handed bytes from behind the data. -/
theorem not_inside_of_part (hdata : memory.data ≠ [])
    (hbound : memory.data.length ≤ Int32.maxValue.toInt) {n : ℕ} (hpos : 0 < answers n)
    (hpart : answers n < memory.data.length) (hnext : 0 ≤ answers (n + 1))
    (hzero : ∀ i < n, answers i = 0) :
    ∃ range ∈ (writeImpl memory answers (n + 2)).ranges, ¬ range.Inside memory.data := by
  have hwritten := toInt_ofInt_of_count (by omega) (Int.le_trans (Int.le_of_lt hpart) hbound)
  refine ⟨⟨answers n, memory.data.length⟩, ?_, ?_⟩
  · rw [writeImpl, writeImpl_of_first hdata hzero (by omega)]
    rw [writeRound_of_accepted rfl (by rw [hwritten]; omega) hnext, hwritten]
    exact List.mem_append_right _ (List.mem_singleton_self _)
  · intro hinside
    have hend := hinside.2
    simp only at hend
    omega

/-- A write is complete exactly if the port takes all of the data at once. -/
theorem writesAll_iff (memory : Memory) (answers : ℕ → ℤ)
    (hport : ∀ i, 0 ≤ answers i ∧ answers i ≤ memory.data.length) :
    WritesAll memory answers ↔ TakesAllAtOnce memory.data answers := by
  constructor
  · intro hall
    by_cases hdata : memory.data = []
    · exact .inl hdata
    · right
      obtain ⟨n, reported, hreturned, hreported, -⟩ := hall.returns
      have hbound : memory.data.length ≤ Int32.maxValue.toInt :=
        hreported ▸ Int32.toInt_le reported
      have hsome : ∃ i, answers i ≠ 0 := by
        by_contra hnone
        push Not at hnone
        rw [writeImpl_of_zero hdata fun i _ => hnone i] at hreturned
        cases hreturned
      have hfirst := Nat.find_spec hsome
      have hzero : ∀ i < Nat.find hsome, answers i = 0 :=
        fun i hi => not_not.mp (Nat.find_min hsome hi)
      refine ⟨hbound, Nat.find hsome, ?_, hzero⟩
      by_contra hpart
      have hrange := hport (Nat.find hsome)
      obtain ⟨range, hmem, houtside⟩ := not_inside_of_part hdata hbound (by omega) (by omega)
        (hport _).1 hzero
      exact houtside (hall.inside _ range hmem)
  · intro hall
    by_cases hdata : memory.data = []
    · exact writesAll_nil hdata
    · obtain hempty | ⟨hbound, n, htakes, hzero⟩ := hall
      · exact absurd hempty hdata
      · exact writesAll_of_all_at_once hdata hbound htakes hzero

/-- Four bytes, the port taking one at the first time. -/
theorem writesAll_iff_part :
    let memory : Memory := ⟨[1, 2, 3, 4], fun _ => 9⟩
    let answers : ℕ → ℤ := fun i => if i = 0 then 1 else 4
    (∀ i, 0 ≤ answers i ∧ answers i ≤ memory.data.length) ∧
      (WritesAll memory answers ↔ TakesAllAtOnce memory.data answers) := by
  have hport : ∀ i : ℕ, (0 : ℤ) ≤ (if i = 0 then 1 else 4) ∧ (if i = 0 then 1 else 4 : ℤ) ≤ 4 := by
    intro i
    split <;> omega
  exact ⟨hport, writesAll_iff ⟨[1, 2, 3, 4], fun _ => 9⟩ (fun i => if i = 0 then 1 else 4) hport⟩

/-- The port takes three of four bytes, then all it is handed: what comes behind the data goes
onto the wire, and the count passes the length. -/
theorem not_writesAll_part :
    let memory : Memory := ⟨[1, 2, 3, 4], fun _ => 9⟩
    let answers : ℕ → ℤ := fun i => if i = 0 then 3 else 4
    (∀ i, 0 ≤ answers i ∧ answers i ≤ memory.data.length) ∧ (∀ n, ∃ i, n ≤ i ∧ answers i ≠ 0) ∧
      (writeImpl memory answers 2).wire = [1, 2, 3, 4, 9, 9, 9] ∧
      ¬ WritesAll memory answers := by
  refine ⟨?_, ?_, by decide +kernel, ?_⟩
  · intro i
    dsimp only
    split <;> decide
  · intro n
    refine ⟨n, Nat.le_refl n, ?_⟩
    dsimp only
    split <;> decide
  · intro hall
    have hinside := hall.inside 2 ⟨3, 4⟩ (by decide +kernel)
    exact absurd hinside.2 (by decide)

end GreenWallet.Jade
