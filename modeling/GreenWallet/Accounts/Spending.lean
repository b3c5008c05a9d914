import GreenWallet.Accounts.Expiry
import GreenWallet.Accounts.Records

/-!
# Which outputs count as spent

An output is taken for spent as soon as an update of a transaction has had it among its inputs,
and is never taken for unspent again. This is what the rows of the model say as long as no
input disappears from them: neither with a transaction that loses its row nor by an update.
-/
namespace GreenWallet.Accounts
open GreenWallet.Library

/-- The first check of `CoinModel::filterAcceptsRow`. -/
def Output.acceptedAsUnspent (output : Output) : Bool := output.m_spending_transaction.isNone

namespace Outputs
variable {s : Outputs} {o : OutputRef}

def isSpent (s : Outputs) (o : OutputRef) : Bool :=
  (s.output o).any fun output => !output.acceptedAsUnspent

/-- A change of an output that leaves the link alone. -/
theorem isSpent_of_adjust {s' : Outputs} {o : OutputRef} {f : Output → Output}
    (houtput : s'.output = s.adjust o f)
    (hlink : ∀ output, (f output).m_spending_transaction = output.m_spending_transaction)
    (other : OutputRef) : s'.isSpent other = s.isSpent other := by
  rw [isSpent, houtput]
  by_cases hne : other = o
  · subst hne
    rw [adjust_self, Option.any_map, isSpent]
    congr 1
    funext output
    simp only [Output.acceptedAsUnspent, hlink]
  · rw [adjust_of_ne hne, isSpent]

theorem isSpent_updateFromData (s : Outputs) (o : OutputRef) (data : OutputData)
    (other : OutputRef) : (s.updateFromData o data).isSpent other = s.isSpent other := by
  apply isSpent_of_adjust (output_updateFromData s o data)
  intro output
  split_ifs <;> rfl

theorem isSpent_create (hnone : s.output o = none) (other : OutputRef) :
    (s.create o).isSpent other = s.isSpent other := by
  by_cases hne : other = o
  · subst hne
    rw [isSpent, isSpent, output_create_self, hnone]
    rfl
  · rw [isSpent, isSpent, output_create_of_ne hne]

theorem isSpent_getOrCreateOutput (s : Outputs) (account : AccountRef) (data : OutputData)
    (other : OutputRef) : (s.getOrCreateOutput account data).isSpent other = s.isSpent other := by
  unfold getOrCreateOutput
  cases houtput : s.output ⟨account, data.outpoint⟩ with
  | none => exact (isSpent_updateFromData _ _ _ _).trans (isSpent_create houtput other)
  | some output => exact isSpent_updateFromData _ _ _ _

theorem isSpent_foldl_updateExpired (os : List OutputRef) (s : Outputs) (other : OutputRef) :
    (os.foldl updateExpired s).isSpent other = s.isSpent other := by
  induction os generalizing s with
  | nil => rfl
  | cons o os ih =>
      rw [List.foldl_cons, ih]
      exact isSpent_of_adjust (output_updateExpired s o) (fun _ => rfl) other

theorem isSpent_setBlock (s : Outputs) (network : Network) (block : Block) (other : OutputRef) :
    (s.setBlock network block).isSpent other = s.isSpent other := by
  unfold setBlock
  split_ifs
  · rfl
  · exact isSpent_foldl_updateExpired _ _ other

theorem output_getOrCreateOutput_ne_none (s : Outputs) (account : AccountRef) (data : OutputData) :
    (s.getOrCreateOutput account data).output ⟨account, data.outpoint⟩ ≠ none := by
  unfold getOrCreateOutput
  cases houtput : s.output ⟨account, data.outpoint⟩ with
  | none =>
      show ((s.create _).updateFromData _ data).output _ ≠ none
      rw [output_updateFromData, adjust_self, output_create_self]
      exact Option.some_ne_none _
  | some output =>
      show (s.updateFromData _ data).output _ ≠ none
      rw [output_updateFromData, adjust_self, houtput]
      exact Option.some_ne_none _

/-- An input is spent from now on. -/
theorem isSpent_spend (t : AccountTransaction) (s : Outputs) (input : OutputData) :
    (s.spend t input).isSpent o = true ↔ o = ⟨t.account, input.outpoint⟩ ∨ s.isSpent o = true := by
  have hexists := output_getOrCreateOutput_ne_none s t.account input
  rw [spend, isSpent, output_setSpendingTransaction]
  by_cases hne : o = ⟨t.account, input.outpoint⟩
  · obtain ⟨output, houtput⟩ := Option.ne_none_iff_exists'.mp hexists
    rw [hne, adjust_self, houtput]
    exact iff_of_true rfl (.inl rfl)
  · rw [adjust_of_ne hne, or_iff_right hne, ← isSpent_getOrCreateOutput s t.account input o, isSpent]

theorem isSpent_foldl_spend (t : AccountTransaction) (inputs : List OutputData) (s : Outputs) :
    (inputs.foldl (spend t) s).isSpent o = true ↔
      (∃ input ∈ inputs, o = ⟨t.account, input.outpoint⟩) ∨ s.isSpent o = true :=
  Keyed.foldl_gains (fun s : Outputs => s.isSpent o = true) (fun s input => isSpent_spend t s input)
    inputs s

end Outputs

namespace Records
variable {s : Records} {o : OutputRef} {t : AccountTransaction}

/-- The transaction is one of the output's account and has it among its inputs. -/
def Spends (s : Records) (t : AccountTransaction) (o : OutputRef) : Prop :=
  ∃ input ∈ (s.m_data t).inputs, o = ⟨t.account, input.outpoint⟩

/-- An output is accepted as unspent exactly if no transaction with a row spends it. -/
def SpentAsRows (s : Records) : Prop :=
  ∀ o output, s.outputs.output o = some output →
    (output.acceptedAsUnspent = true ↔ ∀ t ∈ s.context.rows, ¬ s.Spends t o)

/-- The inputs that the rows lose with the step are inputs of other transactions that have a
row and keep it. -/
def KeepsInputs (s : Records) : RecordsEvent → Prop
  | .getOrCreateTransaction account data =>
      ⟨account, data.txhash⟩ ∈ s.context.rows → ∀ o, s.Spends ⟨account, data.txhash⟩ o →
        (∃ input ∈ data.inputs, o = ⟨account, input.outpoint⟩) ∨
          ∃ t ∈ s.context.rows, t ≠ ⟨account, data.txhash⟩ ∧ s.Spends t o
  | .endFetchTransactions account =>
      ∀ t ∈ s.context.rows, s.Evicted account t → ∀ o, s.Spends t o →
        ∃ u ∈ s.context.rows, ¬ s.Evicted account u ∧ s.Spends u o
  | _ => True

/-- The inputs of all known transactions are taken for spent. -/
structure Linked (s : Records) : Prop where
  consistent : s.Consistent
  spent : ∀ t o, s.Spends t o → s.outputs.isSpent o = true

theorem linked_empty : ({} : Records).Linked where
  consistent := consistent_empty
  spent := by
    intro t o ⟨input, hinput, _⟩
    cases hinput

theorem spentAsRows_iff (h : s.Linked) :
    s.SpentAsRows ↔ ∀ o, s.outputs.isSpent o = true → ∃ t ∈ s.context.rows, s.Spends t o := by
  constructor
  · intro hrows o hspent
    obtain ⟨output, houtput, hlink⟩ := (Option.any_eq_true _ _).mp hspent
    by_contra hnone
    have haccepted := (hrows o output houtput).mpr fun t ht hspends => hnone ⟨t, ht, hspends⟩
    rw [haccepted] at hlink
    cases hlink
  · intro hrows o output houtput
    have hspent : s.outputs.isSpent o = !output.acceptedAsUnspent := by
      rw [Outputs.isSpent, houtput, Option.any_some]
    constructor
    · intro haccepted t ht hspends
      have := h.spent t o hspends
      rw [hspent, haccepted] at this
      cases this
    · intro hnone
      by_contra hlink
      obtain ⟨t, ht, hspends⟩ := hrows o (by rw [hspent]; simpa using hlink)
      exact hnone t ht hspends

/-! ## Updates -/

theorem isSpent_getOrCreateTransaction (h : s.Linked) (account : AccountRef)
    (data : TransactionData) : (s.getOrCreateTransaction account data).outputs.isSpent o = true ↔
      (∃ input ∈ data.inputs, o = ⟨account, input.outpoint⟩) ∨ s.outputs.isSpent o = true := by
  show ((s.insertTransaction _).updateFromData _ data).outputs.isSpent o = true ↔ _
  unfold updateFromData
  split_ifs with hsame
  · refine (or_iff_right_of_imp ?_).symm
    intro hinput
    apply h.spent ⟨account, data.txhash⟩ o
    have hdata : s.m_data ⟨account, data.txhash⟩ = data := hsame
    rw [Spends, hdata]
    exact hinput
  · exact Outputs.isSpent_foldl_spend ⟨account, data.txhash⟩ data.inputs s.outputs

theorem spends_getOrCreateTransaction_self (s : Records) (account : AccountRef)
    (data : TransactionData) (o : OutputRef) :
    (s.getOrCreateTransaction account data).Spends ⟨account, data.txhash⟩ o ↔
      ∃ input ∈ data.inputs, o = ⟨account, input.outpoint⟩ := by
  rw [Spends, m_data_getOrCreateTransaction, Function.update_self]

theorem spends_getOrCreateTransaction_of_ne {account : AccountRef} {data : TransactionData}
    (hne : t ≠ ⟨account, data.txhash⟩) :
    (s.getOrCreateTransaction account data).Spends t o ↔ s.Spends t o := by
  rw [Spends, m_data_getOrCreateTransaction, Function.update_of_ne hne, Spends]

theorem Linked.getOrCreateTransaction (h : s.Linked) (account : AccountRef)
    (data : TransactionData) : (s.getOrCreateTransaction account data).Linked where
  consistent := h.consistent.getOrCreateTransaction account data
  spent t o hspends := by
    rw [isSpent_getOrCreateTransaction h]
    by_cases ht : t = ⟨account, data.txhash⟩
    · subst ht
      exact .inl ((spends_getOrCreateTransaction_self s account data o).mp hspends)
    · exact .inr (h.spent t o ((spends_getOrCreateTransaction_of_ne ht).mp hspends))

theorem spentAsRows_getOrCreateTransaction (h : s.Linked) (hrows : s.SpentAsRows)
    (account : AccountRef) (data : TransactionData) :
    (s.getOrCreateTransaction account data).SpentAsRows ↔
      s.KeepsInputs (.getOrCreateTransaction account data) := by
  rw [spentAsRows_iff (h.getOrCreateTransaction account data)]
  have hbefore := (spentAsRows_iff h).mp hrows
  constructor
  · intro hafter hrow o hspends
    have hspent := (isSpent_getOrCreateTransaction h account data).mpr (.inr (h.spent _ o hspends))
    obtain ⟨t, ht, hspends'⟩ := hafter o hspent
    by_cases hself : t = ⟨account, data.txhash⟩
    · subst hself
      exact .inl ((spends_getOrCreateTransaction_self s account data o).mp hspends')
    · have hold := ((mem_rows_getOrCreateTransaction h.consistent).mp ht).resolve_left hself
      exact .inr ⟨t, hold, hself, (spends_getOrCreateTransaction_of_ne hself).mp hspends'⟩
  · intro hkeeps o hspent
    have hself := (@mem_rows_getOrCreateTransaction s account data _ h.consistent).mpr (.inl rfl)
    have hold : ∀ t ∈ s.context.rows, t ≠ ⟨account, data.txhash⟩ → s.Spends t o →
        ∃ t ∈ (s.getOrCreateTransaction account data).context.rows,
          (s.getOrCreateTransaction account data).Spends t o := by
      intro t ht hne hspends
      exact ⟨t, (mem_rows_getOrCreateTransaction h.consistent).mpr (.inr ht),
        (spends_getOrCreateTransaction_of_ne hne).mpr hspends⟩
    rcases (isSpent_getOrCreateTransaction h account data).mp hspent with hinput | hlink
    · exact ⟨_, hself, (spends_getOrCreateTransaction_self s account data o).mpr hinput⟩
    · obtain ⟨t, ht, hspends⟩ := hbefore o hlink
      by_cases hne : t = ⟨account, data.txhash⟩
      · subst hne
        rcases hkeeps ht o hspends with hinput | ⟨u, hu, hother, hspends'⟩
        · exact ⟨_, hself, (spends_getOrCreateTransaction_self s account data o).mpr hinput⟩
        · exact hold u hu hother hspends'
      · exact hold t ht hne hspends

/-! ## Evictions -/

theorem spentAsRows_endFetchTransactions (h : s.Linked) (hrows : s.SpentAsRows)
    (account : AccountRef) : (s.endFetchTransactions account).SpentAsRows ↔
      s.KeepsInputs (.endFetchTransactions account) := by
  have hlinked : (s.endFetchTransactions account).Linked :=
    ⟨h.consistent.endFetchTransactions account, h.spent⟩
  rw [spentAsRows_iff hlinked]
  have hbefore := (spentAsRows_iff h).mp hrows
  constructor
  · intro hafter t ht hevicted o hspends
    obtain ⟨u, hu, hspends'⟩ := hafter o (h.spent t o hspends)
    obtain ⟨hrow, hstays⟩ := (mem_rows_endFetchTransactions h.consistent).mp hu
    exact ⟨u, hrow, hstays, hspends'⟩
  · intro hkeeps o hspent
    obtain ⟨t, ht, hspends⟩ := hbefore o hspent
    by_cases hevicted : s.Evicted account t
    · obtain ⟨u, hu, hstays, hspends'⟩ := hkeeps t ht hevicted o hspends
      exact ⟨u, (mem_rows_endFetchTransactions h.consistent).mpr ⟨hu, hstays⟩, hspends'⟩
    · exact ⟨t, (mem_rows_endFetchTransactions h.consistent).mpr ⟨ht, hevicted⟩, hspends⟩

/-! ## Runs -/

/-- Where neither the rows nor the inputs nor the links change, nothing does. -/
theorem spentAsRows_congr {s' : Records} (h : s.Linked) (h' : s'.Linked)
    (hrows : s'.context = s.context) (hdata : s'.m_data = s.m_data)
    (hspent : ∀ o, s'.outputs.isSpent o = s.outputs.isSpent o) : s'.SpentAsRows ↔ s.SpentAsRows := by
  rw [spentAsRows_iff h, spentAsRows_iff h']
  unfold Spends
  rw [hrows, hdata]
  simp only [hspent]

theorem Linked.next (h : s.Linked) (e : RecordsEvent) : (recordsCalls.next s e).Linked := by
  have hconsistent := h.consistent.next e
  cases e with
  | getOrCreateTransaction account data => exact h.getOrCreateTransaction account data
  | getOrCreateOutput account data =>
      refine ⟨hconsistent, fun t o hspends => ?_⟩
      exact (Outputs.isSpent_getOrCreateOutput _ _ _ o).trans (h.spent t o hspends)
  | setBlock network block =>
      refine ⟨hconsistent, fun t o hspends => ?_⟩
      exact (Outputs.isSpent_setBlock _ _ _ o).trans (h.spent t o hspends)
  | beginFetchTransactions account => exact ⟨hconsistent, h.spent⟩
  | touchTransaction account hash => exact ⟨hconsistent, h.spent⟩
  | endFetchTransactions account => exact ⟨hconsistent, h.spent⟩

theorem spentAsRows_next (h : s.Linked) (hrows : s.SpentAsRows) (e : RecordsEvent) :
    (recordsCalls.next s e).SpentAsRows ↔ s.KeepsInputs e := by
  have hnext := h.next e
  cases e with
  | getOrCreateTransaction account data => exact spentAsRows_getOrCreateTransaction h hrows account data
  | endFetchTransactions account => exact spentAsRows_endFetchTransactions h hrows account
  | getOrCreateOutput account data =>
      refine iff_of_true ((spentAsRows_congr h hnext rfl rfl ?_).mpr hrows) trivial
      exact Outputs.isSpent_getOrCreateOutput s.outputs account data
  | setBlock network block =>
      refine iff_of_true ((spentAsRows_congr h hnext rfl rfl ?_).mpr hrows) trivial
      exact Outputs.isSpent_setBlock s.outputs network block
  | beginFetchTransactions account => exact iff_of_true hrows trivial
  | touchTransaction account hash => exact iff_of_true hrows trivial

/-- The outputs accepted as unspent are those that no row spends, throughout, exactly if the
rows never lose an input for good. -/
theorem spentAsRows_always_iff (es : List RecordsEvent) :
    recordsCalls.Always SpentAsRows {} es ↔ recordsCalls.Along KeepsInputs {} es := by
  have hempty : ({} : Records).SpentAsRows := fun o output houtput =>
    absurd houtput (Option.some_ne_none output).symm
  exact Reactive.always_iff_along (J := Linked) (V := fun _ _ => True) (fun s e h _ => h.next e)
    (fun s e h _ hrows => spentAsRows_next h hrows e) linked_empty hempty
    (Reactive.along_of_at fun _ _ _ _ => trivial)

/-- A payment is replaced before it has been confirmed, and the fetch finds no trace of it. -/
def replacedPayment : List RecordsEvent :=
  [.getOrCreateTransaction ⟨⟨"mainnet", false⟩, 0⟩
    { txhash := "b", inputs := [{ outpoint := ⟨"a", 0⟩ }] },
  .beginFetchTransactions ⟨⟨"mainnet", false⟩, 0⟩,
  .endFetchTransactions ⟨⟨"mainnet", false⟩, 0⟩]

/-- What it has spent is not offered again. -/
theorem not_spentAsRows_replaced : ¬ recordsCalls.Always SpentAsRows {} replacedPayment := by
  intro h
  have hspent : (recordsCalls.run {} replacedPayment).outputs.isSpent
      ⟨⟨⟨"mainnet", false⟩, 0⟩, ⟨"a", 0⟩⟩ = true := by decide
  have hrows : (recordsCalls.run {} replacedPayment).context.rows = [] := by decide
  obtain ⟨output, houtput, hlink⟩ := (Option.any_eq_true _ _).mp hspent
  have haccepted := (h.last _ output houtput).mpr
  rw [hrows] at haccepted
  rw [haccepted fun t ht => absurd ht List.not_mem_nil] at hlink
  cases hlink

end Records

end GreenWallet.Accounts
