import Mathlib.Data.List.Basic

/-!
# Cutting a list into chunks

All chunks are as long as is asked for but the last, which may be shorter. The offsets are
where the chunks begin, and where the last one ends.
-/
namespace GreenWallet.Library.Chunks
variable {α : Type*} {n k : ℕ} {data : List α}

def count (n length : ℕ) : ℕ := (length + (n - 1)) / n

def chunk (n : ℕ) (data : List α) (k : ℕ) : List α := (data.drop (k * n)).take n

def chunks (n : ℕ) (data : List α) : List (List α) :=
  (List.range (count n data.length)).map (chunk n data)

def offset (n length k : ℕ) : ℕ := min (k * n) length

def offsets (n length : ℕ) : List ℕ := (List.range (count n length + 1)).map (offset n length)

theorem lt_count (hn : 0 < n) {length : ℕ} : k < count n length ↔ k * n < length := by
  rw [count, ← Nat.succ_le_iff, Nat.le_div_iff_mul_le hn, Nat.succ_mul]
  omega

theorem le_count_mul (hn : 0 < n) (length : ℕ) : length ≤ count n length * n := by
  by_contra hlt
  exact Nat.lt_irrefl _ ((lt_count hn).mpr (Nat.lt_of_not_le hlt))

theorem offset_of_lt {length : ℕ} (hk : k * n < length) : offset n length k = k * n :=
  Nat.min_eq_left (Nat.le_of_lt hk)

theorem offset_count (hn : 0 < n) (length : ℕ) : offset n length (count n length) = length :=
  Nat.min_eq_right (le_count_mul hn length)

@[simp] theorem length_chunks : (chunks n data).length = count n data.length := by
  rw [chunks, List.length_map, List.length_range]

theorem flatten_map_chunk (n : ℕ) (data : List α) (k : ℕ) :
    ((List.range k).map (chunk n data)).flatten = data.take (k * n) := by
  induction k with
  | zero => simp
  | succ k ih =>
      rw [List.range_succ, List.map_append, List.flatten_append, ih, Nat.succ_mul, List.take_add]
      simp [chunk]

theorem flatten_chunks (hn : 0 < n) (data : List α) : (chunks n data).flatten = data := by
  rw [chunks, flatten_map_chunk]
  exact List.take_of_length_le (le_count_mul hn data.length)

theorem of_mem_chunks (hn : 0 < n) {part : List α} (hpart : part ∈ chunks n data) :
    part ≠ [] ∧ part.length ≤ n := by
  obtain ⟨k, hk, rfl⟩ := List.mem_map.mp hpart
  have hlt := (lt_count hn).mp (List.mem_range.mp hk)
  constructor
  · intro hempty
    have hlength := congrArg List.length hempty
    rw [chunk, List.length_take, List.length_drop, List.length_nil] at hlength
    omega
  · exact List.length_take_le _ _

theorem head?_offsets (n length : ℕ) : (offsets n length).head? = some 0 := by
  simp [offsets, List.range_succ_eq_map, offset]

theorem getLast?_offsets (hn : 0 < n) (length : ℕ) :
    (offsets n length).getLast? = some length := by
  rw [offsets, List.range_succ, List.map_append, List.map_singleton, List.getLast?_concat,
    offset_count hn]

theorem pairwise_offsets (hn : 0 < n) (length : ℕ) : (offsets n length).Pairwise (· < ·) := by
  rw [offsets, List.pairwise_map]
  apply (List.pairwise_lt_range).imp_of_mem
  intro i j _ hj hij
  have hi : i * n < length := by
    rw [← lt_count hn]
    exact Nat.lt_of_lt_of_le hij (Nat.lt_succ_iff.mp (List.mem_range.mp hj))
  have hmul : i * n < j * n := Nat.mul_lt_mul_of_pos_right hij hn
  rw [offset_of_lt hi, offset]
  exact Nat.lt_min.mpr ⟨hmul, hi⟩

end GreenWallet.Library.Chunks
