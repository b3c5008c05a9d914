import Mathlib.Algebra.Order.Ring.Unbundled.Rat
import GreenWallet.Library.WeakOrder
import GreenWallet.Wallets.Record

/-!
# The order of the coins

The coins of an account are listed by the height of their block, and an unconfirmed coin,
which is one without a height, is to come to the top of the list. The rows are those of the
source model that the filter accepts.
-/
namespace GreenWallet.Accounts
open GreenWallet.Library GreenWallet.Wallets

/-- The proxy over the coins: `outputs` is the data of the output in each row, and `base` the
comparison of `QSortFilterProxyModel`. -/
structure OutputListModelFilter (Row : Type*) where
  outputs : Row → JsonObject
  base : Row → Row → Bool

namespace OutputListModelFilter
variable {Row : Type*}

def blockHeight (filter : OutputListModelFilter Row) (row : Row) : ℚ :=
  Json.toDouble ((filter.outputs row).value "block_height")

def lessThan (filter : OutputListModelFilter Row) (left right : Row) : Bool :=
  -- exception to bring unconfirmed coins to top of the list
  if filter.blockHeight left = 0 then true
  else if filter.blockHeight right = 0 then true
  else if filter.blockHeight left < filter.blockHeight right then true
  else if filter.blockHeight right < filter.blockHeight left then false
  else filter.base left right

def Unconfirmed (filter : OutputListModelFilter Row) (row : Row) : Prop :=
  filter.blockHeight row = 0

/-- `OutputListModel` has data for the user role only, and nothing is less than nothing. -/
def ofModel (outputs : Row → JsonObject) : OutputListModelFilter Row where
  outputs := outputs
  base _ _ := false

theorem isStrictWeakOrder_base_ofModel (outputs : Row → JsonObject) :
    IsStrictWeakOrder Row fun a b => (ofModel outputs).base a b = true where
  irrefl _ h := Bool.false_ne_true h
  trans _ _ _ h _ := absurd h Bool.false_ne_true
  incomp_trans _ _ _ h _ := h

variable {filter : OutputListModelFilter Row} {left right : Row}

/-- An unconfirmed coin is less than every other coin, and every other coin is less than it. -/
theorem lessThan_of_unconfirmed (h : filter.Unconfirmed left ∨ filter.Unconfirmed right) :
    filter.lessThan left right = true := by
  unfold lessThan
  split_ifs with hl hr
  · rfl
  · rfl
  · rfl
  · exact (h.elim hl hr).elim
  · exact (h.elim hl hr).elim

/-- Between confirmed coins the height comes first. -/
theorem lessThan_of_confirmed (hl : ¬ filter.Unconfirmed left) (hr : ¬ filter.Unconfirmed right) :
    filter.lessThan left right = true ↔
      KeyFirst filter.blockHeight (fun a b => filter.base a b = true) left right := by
  unfold Unconfirmed at hl hr
  unfold lessThan KeyFirst
  rw [if_neg hl, if_neg hr]
  split_ifs with hlt hgt
  · simp [hlt]
  · simp [hlt, hgt.ne']
  · have heq : filter.blockHeight left = filter.blockHeight right :=
      le_antisymm (not_lt.mp hgt) (not_lt.mp hlt)
    simp [heq]

/-- Two coins are not each less than the other exactly when both are confirmed. -/
theorem lessThan_asymm_iff (hbase : IsStrictWeakOrder Row fun a b => filter.base a b = true) :
    ¬ (filter.lessThan left right = true ∧ filter.lessThan right left = true) ↔
      ¬ filter.Unconfirmed left ∧ ¬ filter.Unconfirmed right := by
  constructor
  · intro h
    constructor
    · intro hl
      exact h ⟨lessThan_of_unconfirmed (.inl hl), lessThan_of_unconfirmed (.inr hl)⟩
    · intro hr
      exact h ⟨lessThan_of_unconfirmed (.inr hr), lessThan_of_unconfirmed (.inl hr)⟩
  · intro h hboth
    have horder : IsStrictWeakOrder Row
        (KeyFirst filter.blockHeight fun a b => filter.base a b = true) :=
      isStrictWeakOrder_keyFirst hbase
    rw [lessThan_of_confirmed h.1 h.2, lessThan_of_confirmed h.2 h.1] at hboth
    exact horder.irrefl left (horder.trans left right left hboth.1 hboth.2)

/-- The coins are ordered, up to equivalence, exactly when none of them is unconfirmed. -/
theorem isStrictWeakOrder_lessThan_iff (filter : OutputListModelFilter Row)
    (hbase : IsStrictWeakOrder Row fun a b => filter.base a b = true) :
    IsStrictWeakOrder Row (fun a b => filter.lessThan a b = true) ↔
      ∀ row, ¬ filter.Unconfirmed row := by
  constructor
  · intro horder row hrow
    exact horder.irrefl row (lessThan_of_unconfirmed (.inl hrow))
  · intro hconfirmed
    have heq : (fun a b => filter.lessThan a b = true) =
        KeyFirst filter.blockHeight fun a b => filter.base a b = true := by
      funext a b
      exact propext (lessThan_of_confirmed (hconfirmed a) (hconfirmed b))
    rw [heq]
    exact isStrictWeakOrder_keyFirst hbase

/-- A coin in block 100 and another one. -/
def twoCoins (height : ℚ) : OutputListModelFilter Bool :=
  ofModel fun first => [("block_height", .number (if first then 100 else height))]

theorem isStrictWeakOrder_lessThan_blocks :
    IsStrictWeakOrder Bool fun a b => (twoCoins 101).lessThan a b = true := by
  apply (isStrictWeakOrder_lessThan_iff _ (isStrictWeakOrder_base_ofModel _)).mpr
  unfold Unconfirmed
  decide

/-- The other coin is unconfirmed: each is less than the other. -/
theorem not_isStrictWeakOrder_lessThan_unconfirmed :
    IsStrictWeakOrder Bool (fun a b => (twoCoins 0).base a b = true) ∧
      (twoCoins 0).lessThan true false = true ∧ (twoCoins 0).lessThan false true = true ∧
      ¬ IsStrictWeakOrder Bool (fun a b => (twoCoins 0).lessThan a b = true) := by
  have hless : (twoCoins 0).lessThan true false = true := by decide
  have hgreater : (twoCoins 0).lessThan false true = true := by decide
  refine ⟨isStrictWeakOrder_base_ofModel _, hless, hgreater, ?_⟩
  intro horder
  have hself : (twoCoins 0).lessThan true true = true := horder.trans _ _ _ hless hgreater
  exact absurd hself (by decide)

end OutputListModelFilter
end GreenWallet.Accounts
