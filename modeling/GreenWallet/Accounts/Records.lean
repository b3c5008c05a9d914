import GreenWallet.Accounts.Context
import GreenWallet.Accounts.Outputs
import GreenWallet.Wallets.Transactions

/-!
# The transactions and outputs the accounts know

An account keeps every transaction it has ever been told of. An update of a transaction marks
the outputs among its inputs as spent by it, and gives it a row in the context's model. What a
fetch has not brought again loses its row at the end of the fetch.
-/
namespace GreenWallet.Accounts
open GreenWallet.Library GreenWallet.Wallets

instance : ContextTransaction AccountTransaction := ⟨AccountTransaction.hash⟩

structure TransactionData where
  txhash : String := ""
  inputs : List OutputData := []
  object : String := "\x7b\x7d"
deriving DecidableEq

structure Records where
  account : AccountRef → Account := fun _ => {}
  m_data : AccountTransaction → TransactionData := fun _ => {}
  context : Context AccountTransaction := {}
  outputs : Outputs := {}

/-- The round for one of the inputs of a transaction. -/
def Outputs.spend (transaction : AccountTransaction) (s : Outputs) (input : OutputData) : Outputs :=
  (s.getOrCreateOutput transaction.account input).setSpendingTransaction
    ⟨transaction.account, input.outpoint⟩ (some transaction)

namespace Records

def updateFromData (s : Records) (transaction : AccountTransaction) (data : TransactionData) :
    Records :=
  if s.m_data transaction = data then s
  else
    { s with
      m_data := Function.update s.m_data transaction data
      outputs := data.inputs.foldl (Outputs.spend transaction) s.outputs }

/-- The account knows the transaction from now on. -/
def insertTransaction (s : Records) (transaction : AccountTransaction) : Records :=
  let account := s.account transaction.account
  { s with
    account := Function.update s.account transaction.account
      { account with transactions := account.transactions.insert transaction.hash } }

def addTransaction (s : Records) (transaction : AccountTransaction) : Records :=
  { s with context := s.context.addTransaction transaction }

def getOrCreateTransaction (s : Records) (account : AccountRef) (data : TransactionData) :
    Records :=
  ((s.insertTransaction ⟨account, data.txhash⟩).updateFromData ⟨account, data.txhash⟩
    data).addTransaction ⟨account, data.txhash⟩

def getOrCreateOutput (s : Records) (account : AccountRef) (data : OutputData) : Records :=
  { s with outputs := s.outputs.getOrCreateOutput account data }

def setBlock (s : Records) (network : Network) (block : Block) : Records :=
  { s with outputs := s.outputs.setBlock network block }

def beginFetchTransactions (s : Records) (account : AccountRef) : Records :=
  { s with
    account := Function.update s.account account (s.account account).beginFetchTransactions }

def touchTransaction (s : Records) (account : AccountRef) (hash : String) : Records :=
  { s with
    account := Function.update s.account account ((s.account account).touchTransaction hash) }

/-- The round for a hash that has been left dangling. -/
def evict (account : AccountRef) (transactions : Hashes) (context : Context AccountTransaction)
    (hash : String) : Context AccountTransaction :=
  if hash ∈ transactions then context.removeTransaction ⟨account, hash⟩ else context

def endFetchTransactions (s : Records) (account : AccountRef) : Records :=
  { s with
    context := (s.account account).dangling_transactions.list.foldl
      (evict account (s.account account).transactions) s.context
    account := Function.update s.account account
      { s.account account with dangling_transactions := ∅ } }

end Records

inductive RecordsEvent where
  /-- A page brings the transaction, or the wallet itself has sent it. -/
  | getOrCreateTransaction (account : AccountRef) (data : TransactionData)
  | getOrCreateOutput (account : AccountRef) (data : OutputData)
  | setBlock (network : Network) (block : Block)
  | beginFetchTransactions (account : AccountRef)
  | touchTransaction (account : AccountRef) (hash : String)
  | endFetchTransactions (account : AccountRef)

def recordsCalls : Reactive Records RecordsEvent Empty where
  enabled _ _ := True
  next s e :=
    match e with
    | .getOrCreateTransaction account data => s.getOrCreateTransaction account data
    | .getOrCreateOutput account data => s.getOrCreateOutput account data
    | .setBlock network block => s.setBlock network block
    | .beginFetchTransactions account => s.beginFetchTransactions account
    | .touchTransaction account hash => s.touchTransaction account hash
    | .endFetchTransactions account => s.endFetchTransactions account
  emits _ _ := []

namespace Records
variable {s : Records} {account : AccountRef} {data : TransactionData} {t : AccountTransaction}

/-! ## What the calls change -/

@[simp] theorem context_updateFromData (s : Records) (t : AccountTransaction)
    (data : TransactionData) : (s.updateFromData t data).context = s.context := by
  unfold updateFromData
  split_ifs <;> rfl

@[simp] theorem account_updateFromData (s : Records) (t : AccountTransaction)
    (data : TransactionData) : (s.updateFromData t data).account = s.account := by
  unfold updateFromData
  split_ifs <;> rfl

theorem m_data_updateFromData (s : Records) (t : AccountTransaction) (data : TransactionData) :
    (s.updateFromData t data).m_data = Function.update s.m_data t data := by
  unfold updateFromData
  split_ifs with hsame
  · rw [← hsame, Function.update_eq_self]
  · rfl

@[simp] theorem m_data_getOrCreateTransaction (s : Records) (account : AccountRef)
    (data : TransactionData) : (s.getOrCreateTransaction account data).m_data =
      Function.update s.m_data ⟨account, data.txhash⟩ data :=
  m_data_updateFromData _ _ data

@[simp] theorem context_getOrCreateTransaction (s : Records) (account : AccountRef)
    (data : TransactionData) : (s.getOrCreateTransaction account data).context =
      s.context.addTransaction ⟨account, data.txhash⟩ :=
  congrArg (Context.addTransaction · _) (context_updateFromData _ _ data)

@[simp] theorem account_getOrCreateTransaction (s : Records) (account : AccountRef)
    (data : TransactionData) : (s.getOrCreateTransaction account data).account =
      (s.insertTransaction ⟨account, data.txhash⟩).account :=
  account_updateFromData _ _ data

/-! ## The rows -/

/-- The context is in order, and the accounts know whatever has a row. -/
structure Consistent (s : Records) : Prop where
  context : s.context.Consistent
  known : ∀ t ∈ s.context.rows, t.hash ∈ (s.account t.account).transactions

theorem consistent_empty : ({} : Records).Consistent where
  context := Context.consistent_empty
  known _ ht := absurd ht List.not_mem_nil

theorem consistent_foldl_evict {transactions : Hashes} (hashes : List String)
    {context : Context AccountTransaction} (h : context.Consistent) :
    (hashes.foldl (evict account transactions) context).Consistent := by
  induction hashes generalizing context with
  | nil => exact h
  | cons hash hashes ih =>
      apply ih
      rw [evict]
      split_ifs
      · exact h.removeTransaction _
      · exact h

/-- Exactly the known transactions with these hashes lose their rows. -/
theorem mem_rows_foldl_evict {transactions : Hashes} (hashes : List String)
    {context : Context AccountTransaction} (h : context.Consistent) :
    t ∈ (hashes.foldl (evict account transactions) context).rows ↔
      t ∈ context.rows ∧ ¬ (t.account = account ∧ t.hash ∈ transactions ∧ t.hash ∈ hashes) := by
  induction hashes generalizing context with
  | nil => simp
  | cons hash hashes ih =>
      have hround : (evict account transactions context hash).Consistent :=
        consistent_foldl_evict [hash] h
      have hrows : t ∈ (evict account transactions context hash).rows ↔
          t ∈ context.rows ∧ ¬ (t.account = account ∧ t.hash ∈ transactions ∧ t.hash = hash) := by
        rw [evict]
        split_ifs with hknown
        · rw [Context.mem_rows_removeTransaction h]
          refine and_congr_right fun _ => not_congr ?_
          constructor
          · intro hsame
            subst hsame
            exact ⟨rfl, hknown, rfl⟩
          · rintro ⟨rfl, -, rfl⟩
            rfl
        · refine (and_iff_left ?_).symm
          rintro ⟨-, hmem, rfl⟩
          exact hknown hmem
      rw [List.foldl_cons, ih hround, hrows, List.mem_cons]
      tauto

/-- The transaction loses its row if the fetch of its account ends now. -/
def Evicted (s : Records) (account : AccountRef) (t : AccountTransaction) : Prop :=
  t.account = account ∧ t.hash ∈ (s.account account).transactions ∧
    t.hash ∈ (s.account account).dangling_transactions

theorem mem_rows_endFetchTransactions (h : s.Consistent) :
    t ∈ (s.endFetchTransactions account).context.rows ↔
      t ∈ s.context.rows ∧ ¬ s.Evicted account t :=
  mem_rows_foldl_evict _ h.context

theorem mem_rows_getOrCreateTransaction (h : s.Consistent) :
    t ∈ (s.getOrCreateTransaction account data).context.rows ↔
      t = ⟨account, data.txhash⟩ ∨ t ∈ s.context.rows := by
  rw [context_getOrCreateTransaction, Context.mem_rows_addTransaction h.context]

theorem mem_transactions_insertTransaction {hash : String} {other : AccountRef} :
    hash ∈ ((s.insertTransaction t).account other).transactions ↔
      ⟨other, hash⟩ = t ∨ hash ∈ (s.account other).transactions := by
  by_cases hother : other = t.account
  · subst hother
    simp only [insertTransaction, Function.update_self, Hashes.mem_insert]
    refine or_congr_left ?_
    constructor
    · intro hsame
      subst hsame
      rfl
    · intro heq
      rw [← heq]
  · simp only [insertTransaction, Function.update_of_ne hother]
    refine (or_iff_right ?_).symm
    intro heq
    exact hother (by rw [← heq])

theorem Consistent.getOrCreateTransaction (h : s.Consistent) (account : AccountRef)
    (data : TransactionData) : (s.getOrCreateTransaction account data).Consistent where
  context := by
    rw [context_getOrCreateTransaction]
    exact h.context.addTransaction _
  known t ht := by
    rw [account_getOrCreateTransaction, mem_transactions_insertTransaction]
    rcases (mem_rows_getOrCreateTransaction h).mp ht with rfl | hrow
    · exact .inl rfl
    · exact .inr (h.known t hrow)

/-- Where the accounts know the same transactions, the rows may only become fewer. -/
theorem Consistent.of_rows {s' : Records} (h : s.Consistent) (hcontext : s'.context.Consistent)
    (hrows : ∀ t ∈ s'.context.rows, t ∈ s.context.rows)
    (hknown : ∀ account, (s'.account account).transactions = (s.account account).transactions) :
    s'.Consistent where
  context := hcontext
  known t ht := by
    rw [hknown]
    exact h.known t (hrows t ht)

theorem transactions_update {known : Account} {other : AccountRef}
    (hknown : known.transactions = (s.account account).transactions) :
    (Function.update s.account account known other).transactions =
      (s.account other).transactions := by
  by_cases hother : other = account
  · subst hother
    rw [Function.update_self, hknown]
  · rw [Function.update_of_ne hother]

theorem Consistent.endFetchTransactions (h : s.Consistent) (account : AccountRef) :
    (s.endFetchTransactions account).Consistent :=
  h.of_rows (consistent_foldl_evict _ h.context)
    (fun _ ht => ((mem_rows_endFetchTransactions h).mp ht).1) fun _ => transactions_update rfl

theorem Consistent.next (h : s.Consistent) (e : RecordsEvent) : (recordsCalls.next s e).Consistent := by
  cases e with
  | getOrCreateTransaction account data => exact h.getOrCreateTransaction account data
  | getOrCreateOutput account data => exact ⟨h.context, h.known⟩
  | setBlock network block => exact ⟨h.context, h.known⟩
  | beginFetchTransactions account =>
      exact h.of_rows h.context (fun _ ht => ht) fun _ => transactions_update rfl
  | touchTransaction account hash =>
      exact h.of_rows h.context (fun _ ht => ht) fun _ => transactions_update rfl
  | endFetchTransactions account => exact h.endFetchTransactions account

end Records

end GreenWallet.Accounts
