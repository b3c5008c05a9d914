import Mathlib.Data.List.Nodup
import Mathlib.Logic.Function.Basic
import Mathlib.Tactic.SplitIfs
import GreenWallet.Library.Reactive

/-!
# The transactions of a context

A context has a model with a row for each transaction, the items of the rows by their
transactions, and an index of the transactions by their ids. Adding a transaction that has no
item yet changes all three of them; removing one takes its item and its row.
-/
namespace GreenWallet.Accounts
open GreenWallet.Library

/-- Objects that have the id of a transaction; there may be several with the same. -/
class ContextTransaction (τ : Type) where
  id : τ → String

/-- A `QStandardItem`, which is an object of its own, and its data. -/
structure Item (τ : Type) where
  serial : ℕ
  transaction : τ
deriving DecidableEq

structure Context (τ : Type) where
  /-- A `QMultiMap`, the entry inserted last first. -/
  m_transaction_map : List (String × τ) := []
  m_transaction_item : τ → Option ℕ := fun _ => none
  m_transaction_model : List (Item τ) := []
  /-- How many items there have been. -/
  created : ℕ := 0

namespace Context
variable {τ : Type} [DecidableEq τ] [ContextTransaction τ]

/-- The transactions that have a row. -/
def rows (c : Context τ) : List τ := c.m_transaction_model.map Item.transaction

def getTransaction (c : Context τ) (id : String) : List τ :=
  (c.m_transaction_map.filter fun entry => entry.1 = id).map Prod.snd

def addTransaction (c : Context τ) (transaction : τ) : Context τ :=
  if c.m_transaction_item transaction = none then
    { m_transaction_map := (ContextTransaction.id transaction, transaction) :: c.m_transaction_map
      m_transaction_item := Function.update c.m_transaction_item transaction (some c.created)
      m_transaction_model := c.m_transaction_model ++ [⟨c.created, transaction⟩]
      created := c.created + 1 }
  else c

/-- The item is taken out of the map, and its row out of the model. -/
def removeTransaction (c : Context τ) (transaction : τ) : Context τ :=
  { c with
    m_transaction_item := Function.update c.m_transaction_item transaction none
    m_transaction_model :=
      (c.m_transaction_item transaction).elim c.m_transaction_model fun serial =>
        c.m_transaction_model.eraseP fun item => item.serial = serial }

end Context

inductive ContextEvent (τ : Type) where
  | addTransaction (transaction : τ)
  | removeTransaction (transaction : τ)

section
variable {τ : Type} [DecidableEq τ] [ContextTransaction τ]

def contextCalls : Reactive (Context τ) (ContextEvent τ) Empty where
  enabled _ _ := True
  next c e :=
    match e with
    | .addTransaction transaction => c.addTransaction transaction
    | .removeTransaction transaction => c.removeTransaction transaction
  emits _ _ := []

namespace Context
variable {c : Context τ} {t u : τ}

/-- Every transaction with a row has the item of this row, and every item is in use once. -/
structure Consistent (c : Context τ) : Prop where
  item : ∀ t serial, c.m_transaction_item t = some serial ↔ ⟨serial, t⟩ ∈ c.m_transaction_model
  serials : (c.m_transaction_model.map Item.serial).Nodup
  fresh : ∀ item ∈ c.m_transaction_model, item.serial < c.created

omit [DecidableEq τ] [ContextTransaction τ] in
theorem consistent_empty : ({} : Context τ).Consistent where
  item t serial := iff_of_false (by simp) List.not_mem_nil
  serials := List.nodup_nil
  fresh item hitem := absurd hitem List.not_mem_nil

omit [DecidableEq τ] [ContextTransaction τ] in
theorem Consistent.item_eq_none (h : c.Consistent) : c.m_transaction_item t = none ↔ t ∉ c.rows := by
  rw [rows, List.mem_map, Option.eq_none_iff_forall_ne_some]
  constructor
  · rintro hnone ⟨item, hitem, rfl⟩
    exact hnone item.serial ((h.item item.transaction item.serial).mpr hitem)
  · intro hrow serial hserial
    exact hrow ⟨_, (h.item t serial).mp hserial, rfl⟩

omit [DecidableEq τ] [ContextTransaction τ] in
theorem Consistent.nodup_rows (h : c.Consistent) : c.rows.Nodup := by
  have hmodel : c.m_transaction_model.Nodup := h.serials.of_map _
  apply hmodel.map_on
  intro item hitem other hother hsame
  have hserial := (h.item item.transaction item.serial).mpr hitem
  have hserial' := (h.item other.transaction other.serial).mpr hother
  rw [hsame, hserial', Option.some_inj] at hserial
  cases item
  cases other
  simp_all

/-! ## Adding -/

theorem addTransaction_of_row (h : c.Consistent) (hrow : t ∈ c.rows) : c.addTransaction t = c := by
  rw [addTransaction, if_neg]
  exact fun hnone => h.item_eq_none.mp hnone hrow

theorem rows_addTransaction_of_not_row (h : c.Consistent) (hrow : t ∉ c.rows) :
    (c.addTransaction t).rows = c.rows ++ [t] := by
  rw [addTransaction, if_pos (h.item_eq_none.mpr hrow), rows, List.map_append]
  rfl

theorem Consistent.addTransaction (h : c.Consistent) (t : τ) : (c.addTransaction t).Consistent := by
  by_cases hrow : t ∈ c.rows
  · rwa [addTransaction_of_row h hrow]
  · have hnone := h.item_eq_none.mpr hrow
    have hunused : ∀ item ∈ c.m_transaction_model, item.serial ≠ c.created :=
      fun item hitem => Nat.ne_of_lt (h.fresh item hitem)
    rw [Context.addTransaction, if_pos hnone]
    refine ⟨?_, ?_, ?_⟩
    · intro u serial
      simp only [List.mem_append, List.mem_singleton, Item.mk.injEq]
      by_cases hu : u = t
      · subst hu
        have hold : ⟨serial, u⟩ ∉ c.m_transaction_model := by
          simp [← h.item, hnone]
        rw [Function.update_self, Option.some_inj]
        constructor
        · intro hserial
          exact .inr ⟨hserial.symm, rfl⟩
        · rintro (hmem | ⟨hserial, -⟩)
          · exact absurd hmem hold
          · exact hserial.symm
      · rw [Function.update_of_ne hu, h.item]
        simp [hu]
    · rw [List.map_append, List.map_singleton, List.nodup_append]
      refine ⟨h.serials, List.nodup_singleton _, ?_⟩
      intro serial hserial other hother
      obtain ⟨item, hitem, rfl⟩ := List.mem_map.mp hserial
      rw [List.mem_singleton.mp hother]
      exact hunused item hitem
    · intro item hitem
      rcases List.mem_append.mp hitem with hold | hnew
      · exact Nat.lt_succ_of_lt (h.fresh item hold)
      · rw [List.mem_singleton.mp hnew]
        exact Nat.lt_succ_self _

theorem mem_rows_addTransaction (h : c.Consistent) :
    u ∈ (c.addTransaction t).rows ↔ u = t ∨ u ∈ c.rows := by
  by_cases hrow : t ∈ c.rows
  · rw [addTransaction_of_row h hrow]
    constructor
    · exact .inr
    · rintro (rfl | hu)
      · exact hrow
      · exact hu
  · rw [rows_addTransaction_of_not_row h hrow, List.mem_append, List.mem_singleton, or_comm]

/-! ## Removing -/

omit [ContextTransaction τ] in
theorem removeTransaction_of_not_row (h : c.Consistent) (hrow : t ∉ c.rows) :
    c.removeTransaction t = c := by
  have hnone := h.item_eq_none.mpr hrow
  have hsame : Function.update c.m_transaction_item t none = c.m_transaction_item :=
    Function.update_eq_self_iff.mpr hnone.symm
  rw [removeTransaction, hnone, hsame]
  rfl

omit [DecidableEq τ] [ContextTransaction τ] in
/-- A serial is in use once. -/
theorem eraseP_serial {model : List (Item τ)} (hserials : (model.map Item.serial).Nodup)
    (serial : ℕ) : model.eraseP (fun item => item.serial = serial) =
      model.filter fun item => item.serial ≠ serial := by
  induction model with
  | nil => rfl
  | cons head model ih =>
      obtain ⟨hhead, hserials⟩ := List.nodup_cons.mp hserials
      by_cases hsame : head.serial = serial
      · have hrest : ∀ item ∈ model, item.serial ≠ serial := by
          intro item hitem heq
          exact hhead (List.mem_map.mpr ⟨item, hitem, heq.trans hsame.symm⟩)
        rw [List.eraseP_cons_of_pos (by simpa using hsame),
          List.filter_cons_of_neg (by simpa using hsame),
          List.filter_eq_self.mpr (by simpa using hrest)]
      · rw [List.eraseP_cons_of_neg (by simpa using hsame),
          List.filter_cons_of_pos (by simpa using hsame), ih hserials]

omit [ContextTransaction τ] in
theorem m_transaction_model_removeTransaction (h : c.Consistent) (t : τ) :
    (c.removeTransaction t).m_transaction_model =
      c.m_transaction_model.filter fun item => item.transaction ≠ t := by
  cases hserial : c.m_transaction_item t with
  | none =>
      have hrow := h.item_eq_none.mp hserial
      rw [removeTransaction_of_not_row h hrow, eq_comm, List.filter_eq_self]
      intro item hitem
      rw [decide_eq_true_eq]
      intro hsame
      subst hsame
      exact hrow (List.mem_map_of_mem hitem)
  | some serial =>
      have hmodel : (c.removeTransaction t).m_transaction_model =
          c.m_transaction_model.eraseP fun item => item.serial = serial := by
        rw [removeTransaction, hserial]
        rfl
      rw [hmodel, eraseP_serial h.serials]
      apply List.filter_congr
      intro item hitem
      have hitem' := (h.item item.transaction item.serial).mpr hitem
      rw [decide_eq_decide]
      refine not_congr ⟨?_, ?_⟩
      · intro heq
        have hown := (h.item t serial).mp hserial
        rw [← heq] at hown
        exact congrArg Item.transaction (List.inj_on_of_nodup_map h.serials hitem hown rfl)
      · intro heq
        rw [heq, hserial, Option.some_inj] at hitem'
        exact hitem'.symm

omit [ContextTransaction τ] in
theorem mem_model_removeTransaction (h : c.Consistent) {item : Item τ} :
    item ∈ (c.removeTransaction t).m_transaction_model ↔
      item ∈ c.m_transaction_model ∧ item.transaction ≠ t := by
  rw [m_transaction_model_removeTransaction h, List.mem_filter, decide_eq_true_eq]

omit [ContextTransaction τ] in
theorem mem_rows_removeTransaction (h : c.Consistent) :
    u ∈ (c.removeTransaction t).rows ↔ u ∈ c.rows ∧ u ≠ t := by
  simp only [rows, List.mem_map, mem_model_removeTransaction h]
  constructor
  · rintro ⟨item, ⟨hitem, hne⟩, rfl⟩
    exact ⟨⟨item, hitem, rfl⟩, hne⟩
  · rintro ⟨⟨item, hitem, rfl⟩, hne⟩
    exact ⟨item, ⟨hitem, hne⟩, rfl⟩

omit [ContextTransaction τ] in
theorem Consistent.removeTransaction (h : c.Consistent) (t : τ) :
    (c.removeTransaction t).Consistent where
  item u serial := by
    rw [mem_model_removeTransaction h, ← h.item]
    show Function.update c.m_transaction_item t none u = some serial ↔ _
    by_cases hu : u = t
    · subst hu
      simp
    · simp [hu]
  serials := by
    rw [m_transaction_model_removeTransaction h]
    exact h.serials.sublist (List.filter_sublist.map _)
  fresh item hitem := h.fresh item ((mem_model_removeTransaction h).mp hitem).1

/-! ## The index -/

/-- The index has exactly the transactions that have a row, each once. -/
def IndexAgrees (c : Context τ) : Prop :=
  ∀ id, (c.getTransaction id).Nodup ∧
    ∀ t, t ∈ c.getTransaction id ↔ ContextTransaction.id t = id ∧ t ∈ c.rows

/-- No transaction that has a row is removed. -/
def KeepsRows (c : Context τ) (e : ContextEvent τ) : Prop :=
  ∀ t, e = .removeTransaction t → t ∉ c.rows

theorem consistent_next (h : c.Consistent) (e : ContextEvent τ) :
    (contextCalls.next c e).Consistent := by
  cases e with
  | addTransaction t => exact h.addTransaction t
  | removeTransaction t => exact h.removeTransaction t

theorem getTransaction_addTransaction (h : c.Consistent) (hrow : t ∉ c.rows) (id : String) :
    (c.addTransaction t).getTransaction id =
      if ContextTransaction.id t = id then t :: c.getTransaction id else c.getTransaction id := by
  rw [addTransaction, if_pos (h.item_eq_none.mpr hrow)]
  simp only [getTransaction, List.filter_cons, decide_eq_true_eq]
  split_ifs <;> rfl

theorem IndexAgrees.addTransaction (h : c.Consistent) (hagrees : c.IndexAgrees) (t : τ) :
    (c.addTransaction t).IndexAgrees := by
  by_cases hrow : t ∈ c.rows
  · rwa [addTransaction_of_row h hrow]
  · intro id
    obtain ⟨hnodup, hmem⟩ := hagrees id
    have hnew : t ∉ c.getTransaction id := fun ht => hrow ((hmem t).mp ht).2
    rw [getTransaction_addTransaction h hrow]
    split_ifs with hid
    · refine ⟨List.nodup_cons.mpr ⟨hnew, hnodup⟩, fun u => ?_⟩
      rw [List.mem_cons, hmem, mem_rows_addTransaction h]
      constructor
      · rintro (rfl | ⟨hu, hrow⟩)
        · exact ⟨hid, .inl rfl⟩
        · exact ⟨hu, .inr hrow⟩
      · rintro ⟨hu, rfl | hrow⟩
        · exact .inl rfl
        · exact .inr ⟨hu, hrow⟩
    · refine ⟨hnodup, fun u => ?_⟩
      rw [hmem, mem_rows_addTransaction h]
      refine and_congr_right fun hu => (or_iff_right ?_).symm
      intro hsame
      subst hsame
      exact hid hu

/-- The index goes on to agree with the rows exactly if none of them is removed. -/
theorem indexAgrees_next_iff (h : c.Consistent) (hagrees : c.IndexAgrees) (e : ContextEvent τ) :
    (contextCalls.next c e).IndexAgrees ↔ c.KeepsRows e := by
  cases e with
  | addTransaction t => exact iff_of_true (hagrees.addTransaction h t) (by simp [KeepsRows])
  | removeTransaction t =>
      have hkeeps : c.KeepsRows (.removeTransaction t) ↔ t ∉ c.rows := by simp [KeepsRows]
      rw [hkeeps]
      constructor
      · intro hnext hrow
        have hstays : t ∈ (c.removeTransaction t).getTransaction (ContextTransaction.id t) :=
          ((hagrees (ContextTransaction.id t)).2 t).mpr ⟨rfl, hrow⟩
        have hgone := (((hnext (ContextTransaction.id t)).2 t).mp hstays).2
        exact ((mem_rows_removeTransaction h).mp hgone).2 rfl
      · intro hrow
        show (c.removeTransaction t).IndexAgrees
        rwa [removeTransaction_of_not_row h hrow]

/-- The index agrees with the rows throughout exactly if no row is ever removed. -/
theorem indexAgrees_iff (es : List (ContextEvent τ)) :
    contextCalls.Always IndexAgrees {} es ↔ contextCalls.Along KeepsRows {} es := by
  have hempty : ({} : Context τ).IndexAgrees :=
    fun id => ⟨List.nodup_nil, by simp [getTransaction, rows]⟩
  exact Reactive.always_iff_along (J := Consistent) (V := fun _ _ => True)
    (fun c e h _ => consistent_next h e) (fun c e h _ hagrees => indexAgrees_next_iff h hagrees e)
    consistent_empty hempty (Reactive.along_of_at fun _ _ _ _ => trivial)

instance : ContextTransaction String := ⟨id⟩

/-- A transaction disappears and comes back. -/
theorem not_indexAgrees_evicted :
    ¬ contextCalls.Always IndexAgrees {}
        [.addTransaction "a", .removeTransaction "a", .addTransaction "a"] := by
  intro h
  exact absurd (h.last "a").1 (by decide)

end Context
end
end GreenWallet.Accounts
