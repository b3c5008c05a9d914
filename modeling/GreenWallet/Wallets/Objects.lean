import Mathlib.Data.String.Basic
import GreenWallet.Library.Members
import GreenWallet.Wallets.Record

/-!
# Objects with their members in order

`QJsonObject` keeps its members in the order of their keys, and so do the objects inside it.
Two of its values are equal when they are of one type and have the same contents. A deep merge
goes down where both values are objects, and takes the value of the patch everywhere else.
-/
namespace GreenWallet.Wallets
open GreenWallet.Library

/-- `QJsonValue::Type`. -/
inductive JsonType where
  | null
  | bool
  | double
  | string
  | array
  | object
  | undefined
deriving DecidableEq

namespace Json

def type : Option Json → JsonType
  | none => .undefined
  | some .null => .null
  | some (.bool _) => .bool
  | some (.number _) => .double
  | some (.string _) => .string
  | some (.array _) => .array
  | some (.object _) => .object

mutual

def equals : Json → Json → Bool
  | .null, .null => true
  | .bool a, .bool b => a == b
  | .number a, .number b => a == b
  | .string a, .string b => a == b
  | .array as, .array bs => equalValues as bs
  | .object as, .object bs => equalMembers as bs
  | _, _ => false

def equalValues : List Json → List Json → Bool
  | [], [] => true
  | a :: as, b :: bs => equals a b && equalValues as bs
  | _, _ => false

def equalMembers : List (String × Json) → List (String × Json) → Bool
  | [], [] => true
  | (key, a) :: as, (other, b) :: bs => key == other && equals a b && equalMembers as bs
  | _, _ => false

end

mutual

theorem equals_iff (a b : Json) : equals a b = true ↔ a = b := by
  cases a with
  | array as => cases b <;> simp [equals, equalValues_iff as]
  | object as => cases b <;> simp [equals, equalMembers_iff as]
  | _ => cases b <;> simp [equals]

theorem equalValues_iff (as bs : List Json) : equalValues as bs = true ↔ as = bs := by
  cases as with
  | nil => cases bs <;> simp [equalValues]
  | cons a as => cases bs <;> simp [equalValues, equals_iff a, equalValues_iff as]

theorem equalMembers_iff (as bs : List (String × Json)) : equalMembers as bs = true ↔ as = bs := by
  cases as with
  | nil => cases bs <;> simp [equalMembers]
  | cons member as =>
      cases member with
      | mk key a =>
          cases bs with
          | nil => simp [equalMembers]
          | cons other bs =>
              simp [equalMembers, equals_iff a, equalMembers_iff as, Prod.ext_iff]

end

instance : DecidableEq Json := fun a b => decidable_of_iff _ (equals_iff a b)

/-- The members of the object, and of every object in it, are in the order of their keys. -/
inductive Canonical : Json → Prop
  | null : Canonical .null
  | bool (value : Bool) : Canonical (.bool value)
  | number (value : ℚ) : Canonical (.number value)
  | string (value : String) : Canonical (.string value)
  | array {values : List Json} (all : ∀ value ∈ values, Canonical value) :
      Canonical (.array values)
  | object {members : List (String × Json)} (ordered : Members.Ordered members)
      (all : ∀ member ∈ members, Canonical member.2) : Canonical (.object members)

theorem Canonical.ordered {members : List (String × Json)} (h : Canonical (.object members)) :
    Members.Ordered members := by
  cases h with
  | object ordered _ => exact ordered

theorem Canonical.all {members : List (String × Json)} (h : Canonical (.object members)) :
    ∀ member ∈ members, Canonical member.2 := by
  cases h with
  | object _ all => exact all

mutual

/-- What becomes of a value, or of none, for a value of the patch. -/
def merged (old : Option Json) : Json → Json
  | .object patch =>
      match old with
      | some (.object members) => .object (mergeMembers members patch)
      | _ => .object patch
  | value => value

def mergeMembers (members : JsonObject) : List (String × Json) → JsonObject
  | [] => members
  | (key, value) :: patch =>
      mergeMembers (Members.put key (merged (members.value key) value) members) patch

end

theorem mergeMembers_eq_merge (members patch : List (String × Json)) :
    mergeMembers members patch = Members.merge merged members patch := by
  induction patch generalizing members with
  | nil => rfl
  | cons member patch ih => exact ih _

theorem Canonical.merged {value : Json} (hvalue : Canonical value) {old : Option Json}
    (hold : ∀ json ∈ old, Canonical json) : Canonical (merged old value) := by
  induction hvalue generalizing old with
  | null => exact .null
  | bool value => exact .bool value
  | number value => exact .number value
  | string value => exact .string value
  | array all _ => exact .array all
  | @object patch ordered all ih =>
      have hpatch : Canonical (.object patch) := .object ordered all
      cases old with
      | none => exact hpatch
      | some json =>
          cases json with
          | object members =>
              have hmembers := hold (.object members) rfl
              have hmerge : Json.merged (some (.object members)) (.object patch) =
                  .object (Members.merge Json.merged members patch) :=
                congrArg Json.object (mergeMembers_eq_merge members patch)
              rw [hmerge]
              apply Canonical.object (hmembers.ordered.merge _ _)
              exact Members.forall_merge hmembers.all fun member hmember _ => ih member hmember
          | _ => exact hpatch

end Json

structure QJsonObject where
  members : JsonObject
  canonical : (Json.object members).Canonical

namespace QJsonObject

theorem eq_iff {a b : QJsonObject} : a = b ↔ a.members = b.members := by
  constructor
  · intro h
    rw [h]
  · intro h
    cases a with
    | mk members canonical =>
        cases b with
        | mk other canonical' =>
            cases h
            rfl

theorem canonical_some (a : QJsonObject) :
    ∀ json ∈ some (Json.object a.members), Json.Canonical json := by
  intro json hjson
  cases hjson
  exact a.canonical

/-- The deep merge of a patch. -/
def merge (a patch : QJsonObject) : QJsonObject where
  members := Json.mergeMembers a.members patch.members
  canonical := patch.canonical.merged a.canonical_some

end QJsonObject
end GreenWallet.Wallets
