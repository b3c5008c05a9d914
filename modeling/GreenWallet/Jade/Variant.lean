import Mathlib.Data.List.Basic
import GreenWallet.Library.Keyed

/-!
# Values and maps

The values that travel between the application and the device, and the maps they
are kept in. A CBOR value and the `QVariant` it is converted to are one type here,
and so are the two kinds of map. Conversions follow Qt: a value that has none to
the type asked for converts to that type's default.
-/
namespace GreenWallet.Jade

/-- What a `QVariant` holds. The kinds that no message of the model is built from,
such as floating point numbers and dates, are known by their conversions. -/
inductive Variant where
  | invalid
  | null
  | bool (value : Bool)
  | int (value : Int)
  | text (value : String)
  | bytes (value : List UInt8)
  | list (values : List Variant)
  | map (fields : List (String × Variant))
  | other (asBool : Bool) (asBytes : List UInt8)
deriving Repr

/-- A `QVariantMap`, or the `QCborMap` of a message, with one entry for a key. -/
abbrev Fields := List (String × Variant)

namespace Fields

def value (fields : Fields) (key : String) : Variant := (fields.lookup key).getD .invalid

def contains (fields : Fields) (key : String) : Bool := (fields.lookup key).isSome

def remove (fields : Fields) (key : String) : Fields := fields.filter fun entry => entry.1 != key

def insert (fields : Fields) (key : String) (v : Variant) : Fields := (key, v) :: fields.remove key

theorem lookup_remove_self (fields : Fields) (key : String) :
    (fields.remove key).lookup key = none :=
  Library.Keyed.lookup_filter_self fields key

theorem lookup_insert_of_ne (fields : Fields) {key other : String} (v : Variant)
    (h : other ≠ key) : (fields.insert key v).lookup other = fields.lookup other := by
  rw [insert, List.lookup_cons, beq_false_of_ne h]
  exact Library.Keyed.lookup_filter_of_ne fields h

@[simp] theorem value_insert_self (fields : Fields) (key : String) (v : Variant) :
    (fields.insert key v).value key = v := by
  simp only [value, insert, List.lookup_cons_self, Option.getD_some]

end Fields

def digitsToNat (digits : List Char) : Option ℕ :=
  if digits.isEmpty || !digits.all Char.isDigit then none
  else some (Nat.ofDigitChars 10 digits 0)

/-- `QString::toInt`: surrounding blanks are skipped, and whatever is not the text
of an `int` reads as 0. -/
def textToInt (text : String) : Int :=
  let trimmed :=
    ((text.toList.dropWhile Char.isWhitespace).reverse.dropWhile Char.isWhitespace).reverse
  let parsed : Option Int :=
    match trimmed with
    | '-' :: digits => (digitsToNat digits).map fun n => -Int.ofNat n
    | '+' :: digits => (digitsToNat digits).map Int.ofNat
    | digits => (digitsToNat digits).map Int.ofNat
  match parsed with
  | none => 0
  | some n => if -2147483648 ≤ n ∧ n ≤ 2147483647 then n else 0

namespace Variant

def toBool : Variant → Bool
  | .bool value => value
  | .int value => value != 0
  | .text value => !(value.isEmpty || value == "0" || value.toLower == "false")
  | .bytes value =>
      !(value.isEmpty || value == [48] ||
        value.map (fun b => if 65 ≤ b ∧ b ≤ 90 then b + 32 else b) == [102, 97, 108, 115, 101])
  | .other asBool _ => asBool
  | _ => false

def toByteArray : Variant → List UInt8
  | .bool value => (if value then "true" else "false").toUTF8.data.toList
  | .int value => (toString value).toUTF8.data.toList
  | .text value => value.toUTF8.data.toList
  | .bytes value => value
  | .other _ asBytes => asBytes
  | _ => []

/-- `toString` of the kinds an `id` has: the text of a message, or a number. -/
def toText : Variant → String
  | .int value => toString value
  | .text value => value
  | _ => ""

def toMap : Variant → Fields
  | .map fields => fields
  | _ => []

def isMap : Variant → Bool
  | .map _ => true
  | _ => false

def isText : Variant → Bool
  | .text _ => true
  | _ => false

end Variant

theorem digitsToNat_toDigits (n : ℕ) : digitsToNat (Nat.toDigits 10 n) = some n := by
  have hdigits : (Nat.toDigits 10 n).all Char.isDigit = true :=
    List.all_eq_true.mpr fun c hc => Nat.isDigit_of_mem_toDigits (by decide) (by decide) hc
  have hne : (Nat.toDigits 10 n).isEmpty = false := by simp
  rw [digitsToNat, hdigits, hne]
  simp

theorem dropWhile_isWhitespace {digits : List Char} (h : ∀ c ∈ digits, c.isDigit = true) :
    digits.dropWhile Char.isWhitespace = digits := by
  cases digits with
  | nil => rfl
  | cons c digits =>
      have hc : c.isDigit = true := h c List.mem_cons_self
      have hblank : c.isWhitespace = false := by
        by_contra hblank
        simp only [Bool.not_eq_false, Char.isWhitespace, Bool.or_eq_true,
          decide_eq_true_eq] at hblank
        rcases hblank with ((rfl | rfl) | rfl) | rfl <;> exact absurd hc (by decide)
      rw [List.dropWhile_cons_of_neg (by simp [hblank])]

/-- The text of a number in the range of `int` reads as the number. -/
theorem textToInt_toString {n : ℕ} (hn : n ≤ 2147483647) : textToInt (toString (n : Int)) = n := by
  have hlist : (toString (n : Int)).toList = Nat.toDigits 10 n := by
    rw [← Nat.toList_repr]
    rfl
  have hdigits : ∀ c ∈ Nat.toDigits 10 n, c.isDigit = true :=
    fun c hc => Nat.isDigit_of_mem_toDigits (by decide) (by decide) hc
  have hreverse : ∀ c ∈ (Nat.toDigits 10 n).reverse, c.isDigit = true :=
    fun c hc => hdigits c (List.mem_reverse.mp hc)
  simp only [textToInt, hlist, dropWhile_isWhitespace hdigits, dropWhile_isWhitespace hreverse,
    List.reverse_reverse]
  have hrange : (-2147483648 : Int) ≤ n ∧ (n : Int) ≤ 2147483647 := by omega
  split
  · next parsed h =>
      split at h
      · next ds hd => exact absurd (hdigits '-' (hd ▸ List.mem_cons_self)) (by decide)
      · next ds hd => exact absurd (hdigits '+' (hd ▸ List.mem_cons_self)) (by decide)
      · simp [digitsToNat_toDigits] at h
  · next parsed m h =>
      split at h
      · next ds hd => exact absurd (hdigits '-' (hd ▸ List.mem_cons_self)) (by decide)
      · next ds hd => exact absurd (hdigits '+' (hd ▸ List.mem_cons_self)) (by decide)
      · rw [digitsToNat_toDigits, Option.map_some, Option.some.injEq] at h
        rw [← h]
        exact if_pos hrange

theorem textToInt_range (text : String) :
    -2147483648 ≤ textToInt text ∧ textToInt text ≤ 2147483647 := by
  simp only [textToInt]
  split
  · omega
  · next n _ =>
      split_ifs with hrange
      · exact hrange
      · omega

/-- The text of a negative number in the range of `int` reads as the number. -/
theorem textToInt_toString_neg {n : ℕ} (hpos : 0 < n) (hn : n ≤ 2147483648) :
    textToInt (toString (-(n : Int))) = -(n : Int) := by
  have hlist : (toString (-(n : Int))).toList = '-' :: Nat.toDigits 10 n := by
    obtain ⟨m, rfl⟩ := Nat.exists_eq_succ_of_ne_zero (Nat.pos_iff_ne_zero.mp hpos)
    have hrepr : toString (-((m + 1 : ℕ) : Int)) = "-" ++ Nat.repr (m + 1) := rfl
    rw [hrepr, String.toList_append, Nat.toList_repr]
    rfl
  have hdigits : ∀ c ∈ Nat.toDigits 10 n, c.isDigit = true :=
    fun c hc => Nat.isDigit_of_mem_toDigits (by decide) (by decide) hc
  have hblank : ∀ digits : List Char, ('-' :: digits).dropWhile Char.isWhitespace = '-' :: digits :=
    fun digits => List.dropWhile_cons_of_neg (by decide)
  have hreverse : ('-' :: Nat.toDigits 10 n).reverse.dropWhile Char.isWhitespace =
      ('-' :: Nat.toDigits 10 n).reverse := by
    rw [List.reverse_cons, List.dropWhile_append, dropWhile_isWhitespace fun c hc =>
      hdigits c (List.mem_reverse.mp hc)]
    simp
  simp only [textToInt, hlist, hblank, hreverse, List.reverse_reverse, digitsToNat_toDigits,
    Option.map_some]
  rw [if_pos]
  · rfl
  · rw [Int.ofNat_eq_natCast]
    omega

end GreenWallet.Jade
