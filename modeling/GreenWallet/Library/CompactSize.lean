import Mathlib.Data.List.Basic

/-!
# Counts of one, three, five or nine bytes

Numbers below 253 are a byte of their own; others follow a marker, in the shortest of three
widths and with the low byte first. Lists are written behind their count and read back.
-/
namespace GreenWallet.Library

/-- The low bytes of a number, as many as the width, the lowest first. -/
def littleEndian : ℕ → ℕ → List UInt8
  | 0, _ => []
  | width + 1, n => UInt8.ofNat (n % 256) :: littleEndian width (n / 256)

@[simp] theorem length_littleEndian (width n : ℕ) : (littleEndian width n).length = width := by
  induction width generalizing n with
  | zero => rfl
  | succ width ih => rw [littleEndian, List.length_cons, ih]

theorem littleEndian_two (n : ℕ) :
    littleEndian 2 n = [UInt8.ofNat (n % 256), UInt8.ofNat (n / 256 % 256)] := rfl

theorem ofNat_mod_inj {m n : ℕ} : UInt8.ofNat (m % 256) = UInt8.ofNat (n % 256) ↔
    m % 256 = n % 256 := by
  rw [← UInt8.toNat_inj]
  simp

/-- Four bytes read the same in both directions. -/
theorem reverse_littleEndian_four (n : ℕ) :
    (littleEndian 4 n).reverse = littleEndian 4 n ↔
      n / 16777216 % 256 = n % 256 ∧ n / 65536 % 256 = n / 256 % 256 := by
  have hbytes : littleEndian 4 n = [UInt8.ofNat (n % 256), UInt8.ofNat (n / 256 % 256),
      UInt8.ofNat (n / 65536 % 256), UInt8.ofNat (n / 16777216 % 256)] := by
    simp only [littleEndian, Nat.div_div_eq_div_mul, Nat.reduceMul]
  rw [hbytes]
  simp only [List.reverse_cons, List.reverse_nil, List.nil_append, List.cons_append,
    List.cons.injEq, ofNat_mod_inj, and_true]
  omega

def compactSize (n : ℕ) : List UInt8 :=
  if n < 253 then [UInt8.ofNat n]
  else if n < 65536 then 253 :: littleEndian 2 n
  else if n < 4294967296 then 254 :: littleEndian 4 n
  else 255 :: littleEndian 8 n

theorem compactSize_of_lt {n : ℕ} (h : n < 253) : compactSize n = [UInt8.ofNat n] := if_pos h

theorem compactSize_three {n : ℕ} (h : 253 ≤ n) (hn : n < 65536) :
    compactSize n = 253 :: littleEndian 2 n := by
  rw [compactSize, if_neg (Nat.not_lt.mpr h), if_pos hn]

theorem compactSize_five {n : ℕ} (h : 65536 ≤ n) (hn : n < 4294967296) :
    compactSize n = 254 :: littleEndian 4 n := by
  rw [compactSize, if_neg (by omega), if_neg (Nat.not_lt.mpr h), if_pos hn]

/-! ## Reading -/

def ofLittleEndian : List UInt8 → ℕ
  | [] => 0
  | byte :: bytes => byte.toNat + 256 * ofLittleEndian bytes

/-- How many numbers there are of a width. -/
def capacity : ℕ → ℕ
  | 0 => 1
  | width + 1 => 256 * capacity width

theorem ofLittleEndian_littleEndian {width n : ℕ} (h : n < capacity width) :
    ofLittleEndian (littleEndian width n) = n := by
  induction width generalizing n with
  | zero => exact (Nat.lt_one_iff.mp h).symm
  | succ width ih =>
      have hhigh : n / 256 < capacity width := Nat.div_lt_of_lt_mul h
      rw [littleEndian, ofLittleEndian, ih hhigh, UInt8.toNat_ofNat']
      omega

/-- A number of a width, and what follows. -/
def readFixed (width : ℕ) (bytes : List UInt8) : Option (ℕ × List UInt8) :=
  if bytes.length < width then none
  else some (ofLittleEndian (bytes.take width), bytes.drop width)

theorem readFixed_littleEndian (width : ℕ) {n : ℕ} (h : n < capacity width) (rest : List UInt8) :
    readFixed width (littleEndian width n ++ rest) = some (n, rest) := by
  have hlength : (littleEndian width n).length = width := length_littleEndian width n
  have henough : ¬ (littleEndian width n ++ rest).length < width := by
    rw [List.length_append, hlength]
    omega
  rw [readFixed, if_neg henough, List.take_left' hlength, List.drop_left' hlength,
    ofLittleEndian_littleEndian h]

def readCompactSize : List UInt8 → Option (ℕ × List UInt8)
  | [] => none
  | marker :: rest =>
      if marker = 255 then readFixed 8 rest
      else if marker = 254 then readFixed 4 rest
      else if marker = 253 then readFixed 2 rest
      else some (marker.toNat, rest)

theorem readCompactSize_compactSize {n : ℕ} (h : n < capacity 8) (rest : List UInt8) :
    readCompactSize (compactSize n ++ rest) = some (n, rest) := by
  rw [compactSize]
  split_ifs with hone hthree hfive
  · have hvalue : (UInt8.ofNat n).toNat = n := Nat.mod_eq_of_lt (by omega)
    have hmarker (k : UInt8) (hk : 253 ≤ k.toNat) : UInt8.ofNat n ≠ k := by
      intro hsame
      rw [hsame] at hvalue
      omega
    rw [List.singleton_append, readCompactSize, if_neg (hmarker 255 (by decide)),
      if_neg (hmarker 254 (by decide)), if_neg (hmarker 253 (by decide)), hvalue]
  · exact readFixed_littleEndian 2 hthree rest
  · exact readFixed_littleEndian 4 hfive rest
  · exact readFixed_littleEndian 8 h rest

section
variable {α β : Type*} (read : List β → Option (α × List β))

/-- As many items as are asked for. -/
def readMany : ℕ → List β → Option (List α × List β)
  | 0, bytes => some ([], bytes)
  | n + 1, bytes =>
      (read bytes).bind fun item =>
        (readMany n item.2).map fun items => (item.1 :: items.1, items.2)

variable {read}

theorem readMany_flatMap {encode : α → List β} {items : List α} (rest : List β)
    (h : ∀ item ∈ items, ∀ rest, read (encode item ++ rest) = some (item, rest)) :
    readMany read items.length (items.flatMap encode ++ rest) = some (items, rest) := by
  induction items with
  | nil => rfl
  | cons item items ih =>
      have hitem := h item List.mem_cons_self (items.flatMap encode ++ rest)
      have hitems := ih fun other hother => h other (List.mem_cons_of_mem item hother)
      rw [List.length_cons, List.flatMap_cons, List.append_assoc, readMany, hitem, Option.bind_some,
        hitems, Option.map_some]

end

/-- A count, and as many items. -/
def readCounted {α : Type*} (read : List UInt8 → Option (α × List UInt8)) (bytes : List UInt8) :
    Option (List α × List UInt8) :=
  (readCompactSize bytes).bind fun count => readMany read count.1 count.2

theorem readCounted_flatMap {α : Type*} {read : List UInt8 → Option (α × List UInt8)}
    {encode : α → List UInt8} (items : List α) (hcount : items.length < capacity 8)
    (h : ∀ item ∈ items, ∀ rest, read (encode item ++ rest) = some (item, rest))
    (rest : List UInt8) :
    readCounted read (compactSize items.length ++ (items.flatMap encode ++ rest)) =
      some (items, rest) := by
  rw [readCounted, readCompactSize_compactSize hcount, Option.bind_some]
  exact readMany_flatMap rest h

end GreenWallet.Library
