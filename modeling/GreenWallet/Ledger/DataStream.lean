import GreenWallet.Library.CompactSize
import GreenWallet.Ledger.Framing

/-!
# Streams that are written to

A stream writes the high byte of a number first unless it has been told otherwise. There are
two ways to write a count to it: `varInt`, and `varint` with the operator of the stream. Both
leave four bytes to the byte order of the stream.
-/
namespace GreenWallet.Ledger
open GreenWallet.Library

inductive ByteOrder where
  | BigEndian
  | LittleEndian
deriving DecidableEq

/-- The bytes of a number, as many as the width. -/
def ByteOrder.bytes : ByteOrder → ℕ → ℕ → Bytes
  | .BigEndian, width, n => (littleEndian width n).reverse
  | .LittleEndian, width, n => littleEndian width n

@[simp] theorem ByteOrder.length_bytes (byteOrder : ByteOrder) (width n : ℕ) :
    (byteOrder.bytes width n).length = width := by
  cases byteOrder with
  | BigEndian => rw [bytes, List.length_reverse, length_littleEndian]
  | LittleEndian => rw [bytes, length_littleEndian]

/-- A `QDataStream` over a `QByteArray` that is empty in the beginning. -/
structure DataStream where
  byteOrder : ByteOrder := .BigEndian
  data : Bytes := []

/-- The parameter is an `int`. In the last comparison it is converted to unsigned. -/
def varIntSize (i : Int) : ℕ :=
  if i < 0 then 9
  else if i < 253 then 1
  else if i ≤ 0xFFFF then 3
  else if i % 4294967296 ≤ 0xFFFFFFFF then 5
  else 9

namespace DataStream

def setByteOrder (stream : DataStream) (byteOrder : ByteOrder) : DataStream :=
  { stream with byteOrder }

def writeRawData (stream : DataStream) (data : Bytes) : DataStream :=
  { stream with data := stream.data ++ data }

def writeUInt8 (stream : DataStream) (n : UInt8) : DataStream := stream.writeRawData [n]

def writeUInt32 (stream : DataStream) (n : UInt32) : DataStream :=
  stream.writeRawData (stream.byteOrder.bytes 4 n.toNat)

def writeUInt64 (stream : DataStream) (n : UInt64) : DataStream :=
  stream.writeRawData (stream.byteOrder.bytes 8 n.toNat)

/-- A number of 64 bits, which `varIntSize` is called with as an `int`. -/
def varInt (stream : DataStream) (i : Int) : DataStream :=
  match varIntSize (Int.bmod i 4294967296) with
  | 1 => stream.writeUInt8 (.ofInt i)
  | 3 => ((stream.writeUInt8 253).writeUInt8 (.ofInt i)).writeUInt8 (.ofInt (i / 256))
  | 5 => (stream.writeUInt8 254).writeUInt32 (.ofInt i)
  | _ => (stream.writeUInt8 255).writeUInt64 (.ofInt i)

/-- `stream << varint<uint32_t>(v)`. -/
def varint (stream : DataStream) (v : UInt32) : DataStream :=
  if v < 0xfd then stream.writeUInt8 (.ofNat (v.toNat % 256))
  else if v < 0xffff then
    ((stream.writeUInt8 0xfd).writeUInt8 (.ofNat (v.toNat % 256))).writeUInt8
      (.ofNat (v.toNat / 256 % 256))
  else (stream.writeUInt8 0xfe).writeUInt32 v

variable {stream : DataStream}

@[simp] theorem byteOrder_setByteOrder (byteOrder : ByteOrder) :
    (stream.setByteOrder byteOrder).byteOrder = byteOrder := rfl

@[simp] theorem data_setByteOrder (byteOrder : ByteOrder) :
    (stream.setByteOrder byteOrder).data = stream.data := rfl

@[simp] theorem byteOrder_writeRawData (data : Bytes) :
    (stream.writeRawData data).byteOrder = stream.byteOrder := rfl

@[simp] theorem data_writeRawData (data : Bytes) :
    (stream.writeRawData data).data = stream.data ++ data := rfl

@[simp] theorem byteOrder_writeUInt8 (n : UInt8) :
    (stream.writeUInt8 n).byteOrder = stream.byteOrder := rfl

@[simp] theorem data_writeUInt8 (n : UInt8) : (stream.writeUInt8 n).data = stream.data ++ [n] := rfl

@[simp] theorem byteOrder_writeUInt32 (n : UInt32) :
    (stream.writeUInt32 n).byteOrder = stream.byteOrder := rfl

@[simp] theorem data_writeUInt32 (n : UInt32) :
    (stream.writeUInt32 n).data = stream.data ++ stream.byteOrder.bytes 4 n.toNat := rfl

@[simp] theorem byteOrder_writeUInt64 (n : UInt64) :
    (stream.writeUInt64 n).byteOrder = stream.byteOrder := rfl

@[simp] theorem data_writeUInt64 (n : UInt64) :
    (stream.writeUInt64 n).data = stream.data ++ stream.byteOrder.bytes 8 n.toNat := rfl

/-! ## What `varInt` and `varint` write -/

theorem bmod_natCast_of_lt {n : ℕ} (hn : n < 2147483648) : Int.bmod n 4294967296 = n := by
  rw [Int.bmod_def]
  omega

theorem bmod_natCast_of_ge {n : ℕ} (h : 2147483648 ≤ n) (hn : n < 4294967296) :
    Int.bmod n 4294967296 < 0 := by
  rw [Int.bmod_def]
  omega

theorem ofInt_natCast (n : ℕ) : UInt8.ofInt n = UInt8.ofNat (n % 256) := by
  rw [UInt8.ofInt]
  congr 1

theorem toNat_ofInt {n : ℕ} (hn : n < 4294967296) : (UInt32.ofInt n).toNat = n := by
  rw [UInt32.ofInt, UInt32.toNat_ofNat']
  omega

theorem toNat_ofInt_long {n : ℕ} (hn : n < 4294967296) : (UInt64.ofInt n).toNat = n := by
  rw [UInt64.ofInt, UInt64.toNat_ofNat']
  omega

theorem varIntSize_natCast (n : ℕ) :
    varIntSize n = if n < 253 then 1 else if n < 65536 then 3 else 5 := by
  have hunsigned : (n : Int) % 4294967296 ≤ 4294967295 := by omega
  rw [varIntSize, if_neg (by omega), if_pos hunsigned]
  split_ifs <;> first | rfl | omega

/-- Numbers from 2147483648 on are negative as an `int`. -/
theorem data_varInt {n : ℕ} (hn : n < 4294967296) :
    (stream.varInt n).data = stream.data ++
      if n < 253 then [UInt8.ofNat (n % 256)]
      else if n < 65536 then 253 :: littleEndian 2 n
      else if n < 2147483648 then 254 :: stream.byteOrder.bytes 4 n
      else 255 :: stream.byteOrder.bytes 8 n := by
  by_cases hint : n < 2147483648
  · have hsize : varIntSize (Int.bmod n 4294967296) =
        if n < 253 then 1 else if n < 65536 then 3 else 5 := by
      rw [bmod_natCast_of_lt hint, varIntSize_natCast]
    have hhigh : ((n : Int) / 256) = ((n / 256 : ℕ) : Int) := rfl
    rw [varInt, hsize, if_pos hint]
    split_ifs with hone hthree
    · simp only [data_writeUInt8, ofInt_natCast]
    · simp only [data_writeUInt8, hhigh, ofInt_natCast, littleEndian_two, List.append_assoc,
        List.cons_append, List.nil_append]
    · simp only [data_writeUInt32, data_writeUInt8, byteOrder_writeUInt8, toNat_ofInt hn,
        List.append_assoc, List.cons_append, List.nil_append]
  · have hsize : varIntSize (Int.bmod n 4294967296) = 9 :=
      if_pos (bmod_natCast_of_ge (Nat.not_lt.mp hint) hn)
    rw [varInt, hsize, if_neg (by omega), if_neg (by omega), if_neg hint]
    simp only [data_writeUInt64, data_writeUInt8, byteOrder_writeUInt8, toNat_ofInt_long hn,
      List.append_assoc, List.cons_append, List.nil_append]

/-- The last number of three bytes is written in five. -/
theorem data_varint (v : UInt32) :
    (stream.varint v).data = stream.data ++
      if v.toNat < 253 then [UInt8.ofNat (v.toNat % 256)]
      else if v.toNat < 65535 then 253 :: littleEndian 2 v.toNat
      else 254 :: stream.byteOrder.bytes 4 v.toNat := by
  rw [varint]
  simp only [UInt32.lt_iff_toNat_lt]
  have hone : (0xfd : UInt32).toNat = 253 := rfl
  have hthree : (0xffff : UInt32).toNat = 65535 := rfl
  rw [hone, hthree]
  split_ifs
  · rw [data_writeUInt8]
  · simp only [data_writeUInt8, littleEndian_two, List.append_assoc, List.cons_append,
      List.nil_append]
  · simp only [data_writeUInt32, data_writeUInt8, byteOrder_writeUInt8, List.append_assoc,
      List.cons_append, List.nil_append]

end DataStream
end GreenWallet.Ledger
