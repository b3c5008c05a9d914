import GreenWallet.Ledger.FitsLiquid

/-!
# Messages to be signed

A message has a number of UTF-16 units and a number of bytes in the local encoding, which is
UTF-8 on Linux and macOS. `prepare` writes as many bytes as there are units.
-/
namespace GreenWallet.Ledger
open GreenWallet.Library

/-- A `QString`, by its UTF-16 units. -/
abbrev QString := List UInt16

namespace QString

def isHighSurrogate (unit : UInt16) : Bool := 0xd800 ≤ unit.toNat && unit.toNat < 0xdc00

def isLowSurrogate (unit : UInt16) : Bool := 0xdc00 ≤ unit.toNat && unit.toNat < 0xe000

/-- The encoding of a unit that makes no pair. A surrogate is replaced. -/
def unitBytes (unit : UInt16) : Bytes :=
  if unit.toNat < 0x80 then [.ofNat unit.toNat]
  else if unit.toNat < 0x800 then [.ofNat (0xc0 + unit.toNat / 64), .ofNat (0x80 + unit.toNat % 64)]
  else if isHighSurrogate unit || isLowSurrogate unit then [0xef, 0xbf, 0xbd]
  else
    [.ofNat (0xe0 + unit.toNat / 4096), .ofNat (0x80 + unit.toNat / 64 % 64),
      .ofNat (0x80 + unit.toNat % 64)]

def pairBytes (high low : UInt16) : Bytes :=
  let code := 0x10000 + (high.toNat - 0xd800) * 1024 + (low.toNat - 0xdc00)
  [.ofNat (0xf0 + code / 262144), .ofNat (0x80 + code / 4096 % 64), .ofNat (0x80 + code / 64 % 64),
    .ofNat (0x80 + code % 64)]

def toLocal8Bit : QString → Bytes
  | [] => []
  | [unit] => unitBytes unit
  | first :: second :: rest =>
      if isHighSurrogate first && isLowSurrogate second then
        pairBytes first second ++ toLocal8Bit rest
      else unitBytes first ++ toLocal8Bit (second :: rest)

def IsAscii (message : QString) : Prop := ∀ unit ∈ message, unit.toNat < 0x80

theorem length_unitBytes (unit : UInt16) :
    1 ≤ (unitBytes unit).length ∧ ((unitBytes unit).length = 1 ↔ unit.toNat < 0x80) := by
  rw [unitBytes]
  split_ifs with hascii <;> simp [hascii]

/-- There are at least as many bytes as units, and as many only if each unit is a byte. -/
theorem length_toLocal8Bit (message : QString) :
    message.length ≤ (toLocal8Bit message).length ∧
      ((toLocal8Bit message).length = message.length ↔ IsAscii message) := by
  induction message using toLocal8Bit.induct with
  | case1 => simp [toLocal8Bit, IsAscii]
  | case2 unit =>
      rw [toLocal8Bit]
      have hunit := length_unitBytes unit
      simp only [IsAscii, List.mem_singleton, forall_eq, List.length_singleton]
      exact hunit
  | case3 first second rest hpair ih =>
      have hfirst : ¬ first.toNat < 0x80 := by
        simp only [isHighSurrogate, Bool.and_eq_true, decide_eq_true_eq] at hpair
        omega
      rw [toLocal8Bit, if_pos hpair, List.length_append]
      have hlength : (pairBytes first second).length = 4 := rfl
      rw [hlength, List.length_cons, List.length_cons]
      refine ⟨by omega, iff_of_false (by omega) ?_⟩
      intro hascii
      exact hfirst (hascii first List.mem_cons_self)
  | case4 first second rest hpair ih =>
      have hunit := length_unitBytes first
      rw [toLocal8Bit, if_neg hpair, List.length_append, List.length_cons]
      refine ⟨by omega, ?_⟩
      have hcons : IsAscii (first :: second :: rest) ↔ first.toNat < 0x80 ∧ IsAscii (second :: rest) :=
        List.forall_mem_cons
      rw [hcons, ← hunit.2, ← ih.2]
      omega

/-- What the commands for a message read of it. -/
def message (text : QString) : Message where
  size := text.length
  local8Bit := toLocal8Bit text
  size_le := (length_toLocal8Bit text).1

end QString

/-- What `prepare` writes before the length of the message. -/
def messageHeader (path : List UInt32) : Bytes :=
  ((path.foldl DataStream.writeUInt32
    (DataStream.writeUInt8 {} (.ofNat (path.length % 256)))).writeUInt8 0).data

/-- A command has the encoding of a message whole, behind its length. -/
structure CarriesMessage (text : QString) (path : List UInt32) (command : Bytes) : Prop where
  data : ∃ length : UInt8, length.toNat = text.toLocal8Bit.length ∧
    command.drop 5 = messageHeader path ++ length :: text.toLocal8Bit
  fits : DataFits command

/-- A message is sent whole, or nothing is sent. -/
def SignsWhole (text : QString) (path : List UInt32) : Prop :=
  ∀ command ∈ (signMessage text.message path false).head?, CarriesMessage text path command

theorem signMessage_eq (text : QString) (path : List UInt32) :
    signMessage text.message path false =
      [apdu BTCHIP_CLA BTCHIP_INS_SIGN_MESSAGE 0x00 0x01
        (messageHeader path ++ .ofNat (text.length % 256) :: text.toLocal8Bit.take text.length)] := by
  simp only [signMessage, messageHeader, QString.message, DataStream.data_writeRawData,
    DataStream.data_writeUInt8, List.append_assoc, List.cons_append, List.nil_append,
    Bool.false_eq_true, if_false]

/-- A message is signed as it is exactly if it is ASCII and short enough. -/
theorem signsWhole_iff (text : QString) (path : List UInt32) :
    SignsWhole text path ↔ text.IsAscii ∧ 4 * path.length + text.length ≤ 252 := by
  obtain ⟨hle, hascii⟩ := QString.length_toLocal8Bit text
  have hfits : DataFits (apdu BTCHIP_CLA BTCHIP_INS_SIGN_MESSAGE 0x00 0x01
      (messageHeader path ++ .ofNat (text.length % 256) :: text.toLocal8Bit.take text.length)) ↔
        4 * path.length + text.length ≤ 252 := by
    have hall := @allFit_signMessage text.message path false
    rw [signMessage_eq, allFit_cons, and_iff_left allFit_nil] at hall
    exact hall
  have hcommand : SignsWhole text path ↔ CarriesMessage text path
      (apdu BTCHIP_CLA BTCHIP_INS_SIGN_MESSAGE 0x00 0x01
        (messageHeader path ++ .ofNat (text.length % 256) :: text.toLocal8Bit.take text.length)) := by
    rw [SignsWhole, signMessage_eq, List.head?_cons]
    simp
  rw [hcommand]
  constructor
  · intro h
    have hshort := hfits.mp h.fits
    obtain ⟨length, hlength, hdata⟩ := h.data
    have hbytes : messageHeader path ++ UInt8.ofNat (text.length % 256) ::
        text.toLocal8Bit.take text.length = messageHeader path ++ length :: text.toLocal8Bit := hdata
    obtain ⟨-, htake⟩ := List.cons_eq_cons.mp (List.append_cancel_left hbytes)
    have hsame : text.toLocal8Bit.length = text.length := by
      have htaken := congrArg List.length htake
      rw [List.length_take] at htaken
      omega
    exact ⟨hascii.mp hsame, hshort⟩
  · intro ⟨htext, hshort⟩
    have hsame := hascii.mpr htext
    refine ⟨⟨.ofNat (text.length % 256), ?_, ?_⟩, hfits.mpr hshort⟩
    · rw [hsame, UInt8.toNat_ofNat']
      omega
    · rw [← hsame, List.take_length]
      rfl

/-- A message of one letter that takes two bytes. -/
theorem not_signsWhole_accented : ¬ SignsWhole [0xe9] [] := by
  intro h
  obtain ⟨length, -, hdata⟩ := (h _ rfl).data
  have hlength : 4 = 5 := congrArg List.length hdata
  exact absurd hlength (by decide)

end GreenWallet.Ledger
