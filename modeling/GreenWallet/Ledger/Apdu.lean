import GreenWallet.Ledger.DataStream

/-!
# Commands for the device

A command is five bytes and its data; the last of the five is the length of the data.
-/
namespace GreenWallet.Ledger
open GreenWallet.Library

def BTCHIP_CLA : UInt8 := 0xe0
def BTCHIP_INS_GET_TRUSTED_INPUT : UInt8 := 0x42
def BTCHIP_INS_HASH_INPUT_START : UInt8 := 0x44
def BTCHIP_INS_HASH_INPUT_FINALIZE_FULL : UInt8 := 0x4a
def BTCHIP_INS_HASH_SIGN : UInt8 := 0x48
def BTCHIP_INS_GET_LIQUID_COMMITMENTS : UInt8 := 0xe0
def BTCHIP_INS_GET_LIQUID_BLINDING_FACTOR : UInt8 := 0xe8
def BTCHIP_INS_GET_LIQUID_ISSUANCE_INFORMATION : UInt8 := 0xe6
def BTCHIP_INS_SIGN_MESSAGE : UInt8 := 0x4e

/-- The conversion of the length is not checked when assertions are off. -/
def apdu (cla ins p1 p2 : UInt8) (data : Bytes) : Bytes :=
  [cla, ins, p1, p2, UInt8.ofNat (data.length % 256)] ++ data

/-- The path has at most ten elements, which is asserted. -/
def pathToData (path : List UInt32) : Bytes :=
  (path.foldl DataStream.writeUInt32
    ((DataStream.setByteOrder {} .BigEndian).writeUInt8 (.ofNat (path.length % 256)))).data

/-- The data fits the length byte, and the length byte is its length. -/
structure DataFits (command : Bytes) : Prop where
  fits : (command.drop 5).length ≤ 255
  length : (command[4]?).map UInt8.toNat = some (command.drop 5).length

theorem dataFits_apdu {cla ins p1 p2 : UInt8} {data : Bytes} :
    DataFits (apdu cla ins p1 p2 data) ↔ data.length ≤ 255 := by
  constructor
  · intro h
    exact h.fits
  · intro h
    refine ⟨h, ?_⟩
    simp only [apdu, List.cons_append, List.nil_append, List.getElem?_cons_succ,
      List.getElem?_cons_zero, Option.map_some, List.drop_succ_cons, List.drop_zero,
      UInt8.toNat_ofNat', Option.some.injEq]
    omega

namespace DataStream
variable {stream : DataStream}

/-- How many bytes `varint` writes. -/
def varintSize (v : UInt32) : ℕ := if v.toNat < 253 then 1 else if v.toNat < 65535 then 3 else 5

@[simp] theorem length_varint (v : UInt32) :
    (stream.varint v).data.length = stream.data.length + varintSize v := by
  rw [data_varint, List.length_append, varintSize]
  split_ifs <;> simp

theorem varintSize_pos (v : UInt32) : 1 ≤ varintSize v := by
  rw [varintSize]
  split_ifs <;> omega

theorem varintSize_le (v : UInt32) : varintSize v ≤ 5 := by
  rw [varintSize]
  split_ifs <;> omega

theorem length_foldl_writeUInt32 (numbers : List UInt32) :
    (numbers.foldl writeUInt32 stream).data.length = stream.data.length + 4 * numbers.length := by
  induction numbers generalizing stream with
  | nil => rfl
  | cons n numbers ih =>
      rw [List.foldl_cons, ih, data_writeUInt32, List.length_append, ByteOrder.length_bytes,
        List.length_cons]
      omega

end DataStream

theorem length_pathToData (path : List UInt32) :
    (pathToData path).length = 1 + 4 * path.length := by
  rw [pathToData, DataStream.length_foldl_writeUInt32]
  rfl

end GreenWallet.Ledger
